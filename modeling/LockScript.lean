import LockScript.Main
import LockScript.Proofs.Machine.Lockstep
import LockScript.Proofs.Machine.Table
import LockScript.Proofs.Machine.Unlock
import LockScript.Proofs.Machine.Watch
import LockScript.Proofs.Script.Grammar
import LockScript.Proofs.Machine.Ceilings
import LockScript.Proofs.Machine.Padding
import LockScript.Proofs.Machine.Relocation
import LockScript.Proofs.Curve.Modular
import LockScript.Proofs.Curve.Primality
import LockScript.Proofs.Curve.Group
import LockScript.Proofs.Curve.Lift
import LockScript.Proofs.Curve.Order
import LockScript.Proofs.Basic
import LockScript.Proofs.Key.Encoding
import LockScript.Proofs.Key.Equation
import LockScript.Proofs.Key.Signing
import LockScript.Proofs.Machine.Budget
import LockScript.Proofs.Machine.Records
import LockScript.Proofs.Machine.Attempts
import LockScript.Proofs.Machine.Revisit
import LockScript.Proofs.Machine.Unreached
import LockScript.Proofs.Machine.ByDepth
import LockScript.Proofs.Machine.Forward
import LockScript.Proofs.Word
import LockScript.Proofs.Script.Cursor
import LockScript.Proofs.Machine.OnWords
import LockScript.Proofs.Command.Report
import LockScript.Proofs.Machine.Locks
import LockScript.Proofs.Text.Hex
import LockScript.Proofs.Command.Line
import LockScript.Proofs.Command.Digests
import LockScript.Proofs.Machine.HashLock
import LockScript.Proofs.Script.Walk
import LockScript.Proofs.Script.Disassembly
import LockScript.Proofs.Command.Disassembly
import LockScript.Proofs.Command.HexArguments
import LockScript.Proofs.Key.TextForm
import LockScript.Proofs.Key.PublicKeys
import LockScript.Proofs.Machine.Messages
import LockScript.Proofs.Log.Deciding
import LockScript.Proofs.Text.Decimal
import LockScript.Proofs.Settings.Section
import LockScript.Proofs.Command.Precedence
