/-!
Log records: a level, the part of the program that speaks, and a text.
-/

namespace LockScript
namespace Log

/-- How urgent a record is, the most urgent first. -/
inductive Level where
  | error
  | warn
  | info
  | debug
  | trace
deriving DecidableEq, Repr

namespace Level

def rank : Level → Nat
  | error => 1
  | warn => 2
  | info => 3
  | debug => 4
  | trace => 5

def name : Level → String
  | error => "ERROR"
  | warn => "WARN"
  | info => "INFO"
  | debug => "DEBUG"
  | trace => "TRACE"

def all : List Level := [error, warn, info, debug, trace]

end Level

inductive Target where
  | vm
  | tool
deriving DecidableEq, Repr

namespace Target

def all : List Target := [vm, tool]

def name : Target → String
  | vm => "vm"
  | tool => "tool"

def inspect : Target → String
  | vm => "VM"
  | tool => "TOOL"

end Target

structure Record where
  level : Level
  target : String
  text : String
deriving DecidableEq, Repr

def Record.from (target : Target) (level : Level) (text : String) : Record :=
  ⟨level, target.name, text⟩

/-- A result with the records written on the way to it. -/
abbrev Logged (α : Type) := α × List Record

end Log
end LockScript
