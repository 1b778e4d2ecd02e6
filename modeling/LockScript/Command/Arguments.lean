import LockScript.Command.Grammar
import LockScript.Digest.Algorithm
import LockScript.Machine.Limits

/-!
The commands of `cscript` and their arguments.
-/

namespace LockScript
namespace Command

open Machine (Ceiling)

def programName : String := "cscript"

def programVersion : String := "0.1.0"

/-- The arguments of a command.  Only the program as a whole has a version. -/
def grammarOf (name : String) (rules : List Rule) (positional? : Option Positional) :
    String × Grammar :=
  (name, { version := programName ++ "-" ++ name ++ " ", rules, positional? })

def contextRules : List Rule :=
  [{ name := "message" }, { name := "config" }] ++
    Ceiling.all.map (fun ceiling => { name := ceiling.option })

def algorithmRule : Rule where
  name := "algorithm"
  letter? := some 'a'
  choices? := some (Digest.Algorithm.all.map Digest.Algorithm.name)
  fallback? := some Digest.Algorithm.blake256.name

def commands : List (String × Grammar) :=
  [grammarOf "tokenize" [] (some { name := "SCRIPT" }),
   grammarOf "decode" [] (some { name := "SCRIPT" }),
   grammarOf "execute"
     ([{ name := "lock", required := true }, { name := "unlock" },
       { name := "param", repeatable := true }] ++ contextRules) none,
   grammarOf "trace" contextRules (some { name := "SCRIPT" }),
   grammarOf "hash" [algorithmRule] (some { name := "VALUE" }),
   grammarOf "keygen" [] none,
   grammarOf "public" [] (some { name := "PRIVATE", required := true }),
   grammarOf "sign"
     [{ name := "private", required := true }, { name := "message", required := true }] none]

/-- What may stand in front of the command. -/
def topGrammar : Grammar where
  version := programName ++ " " ++ programVersion
  flags := [⟨"verbose", 'v'⟩]

def program : Program := { top := topGrammar, commands }

/-- The program with next to no checks of its own, which leaves it to the commands to turn down what
they do not know. -/
def lenientProgram : Program where
  top := topGrammar
  commands := [grammarOf "hash" [{ name := "algorithm" }] (some { name := "VALUE" })]
  lenient := true

end Command
end LockScript
