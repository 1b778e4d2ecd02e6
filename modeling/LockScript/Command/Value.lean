import LockScript.Bytes
import LockScript.Command.Failure
import LockScript.Key.Signature
import LockScript.Text.Basic

/-!
The values that arguments stand for.
-/

namespace LockScript
namespace Command

open Machine (Ceiling)

/-- A text without the mark of a hexadecimal number, in either case. -/
def dropMark (text : List Char) : List Char :=
  match text with
  | '0' :: 'x' :: rest => rest
  | '0' :: 'X' :: rest => rest
  | _ => text

/-- A text without the mark of a hexadecimal number, in lower case only. -/
def dropLowerMark (text : List Char) : List Char :=
  match text with
  | '0' :: 'x' :: rest => rest
  | _ => text

/-- The bytes of a text.  A failure shows the text without the blanks around it. -/
def readHex (text : String) : Except Failure Bytes :=
  let trimmed := Text.trimChars text.toList
  match Text.Hex.decode (String.ofList (dropMark trimmed)) with
  | .ok bytes => .ok bytes
  | .error e => .error (.hex (String.ofList trimmed) e)

/-- The 32 bytes of a text.  A second mark is dropped if it is in lower case. -/
def readOctets (text : String) : Except Text.Hex.Error (Octets 32) :=
  let digits := dropLowerMark (dropMark (Text.trimChars text.toList))
  Text.Hex.decodeOctets 32 (String.ofList digits)

def readMessage (text : String) : Except Failure Key.Message :=
  match readOctets text with
  | .ok message => .ok message
  | .error e => .error (.message e)

def readPrivateKey (text : String) : Except Failure Key.PrivateKey :=
  match readOctets text with
  | .ok key => .ok key
  | .error e => .error (.privateKey e)

/-- The first line of some bytes, with its end. -/
def firstLine (bytes : Bytes) : Bytes :=
  bytes.takeWhile (· != 10) ++ (bytes.dropWhile (· != 10)).take 1

def decodeText? (bytes : Bytes) : Option String :=
  String.fromUTF8? (ByteArray.mk bytes.toArray)

/-- The numbers given for ceilings, or the first ceiling whose text is no number. -/
def readCeilings (texts : Ceiling → Option String) : Except Ceiling (Ceiling → Option Nat) :=
  let malformed (ceiling : Ceiling) := match texts ceiling with
    | some text => (Text.Decimal.parse? text).isNone
    | none => false
  match Ceiling.all.find? malformed with
  | some ceiling => .error ceiling
  | none => .ok (fun ceiling => (texts ceiling).bind Text.Decimal.parse?)

end Command
end LockScript
