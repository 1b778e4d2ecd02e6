import LockScript.Log.Record
import LockScript.Text.Basic

/-!
Which records are printed.

A filter is a list of directives.  Each names a group of targets by how their
names begin, or all targets, and says down to which level they are let through.
The longest name that fits a target decides, and of two that are equally long the
later one.  A specification text such as `vm=debug,tool=off/rejected` lists
directives and, behind the slash, a text that printed records have to contain.
-/

namespace LockScript
namespace Log

/-- Down to which level records are let through. -/
inductive Threshold where
  | off
  | upTo (level : Level)
deriving DecidableEq, Repr

namespace Threshold

def rank : Threshold → Nat
  | off => 0
  | upTo level => level.rank

def name : Threshold → String
  | off => "OFF"
  | upTo level => level.name

def all : List Threshold := off :: Level.all.map upTo

def widest : Threshold := upTo .trace

/-- The threshold of a name in any case.  Only the letters of the English alphabet have a case
here. -/
def ofName? (chars : List Char) : Option Threshold :=
  all.find? (fun threshold => threshold.name.toList == chars.map Char.toUpper)

def admits (threshold : Threshold) (level : Level) : Bool :=
  level.rank ≤ threshold.rank

def max (s t : Threshold) : Threshold :=
  if s.rank ≤ t.rank then t else s

end Threshold

/-- A threshold for the targets whose names begin with a name, or for all. -/
structure Directive where
  name? : Option String
  threshold : Threshold
deriving DecidableEq, Repr

namespace Directive

/-- How much a directive says about a target: the size of its name. -/
def weight (directive : Directive) : Nat :=
  match directive.name? with
  | none => 0
  | some name => name.utf8ByteSize

def covers (directive : Directive) (target : String) : Bool :=
  match directive.name? with
  | none => true
  | some name => name.toList.isPrefixOf target.toList

/-- The directive of one piece of a specification, or the part of it that is not understood.  A name
without a level lets everything through, and a level without a name is for all targets. -/
def ofPiece (piece : List Char) : Except (List Char) Directive :=
  match Text.split '=' piece with
  | [word] =>
    match Threshold.ofName? word with
    | some threshold => .ok ⟨none, threshold⟩
    | none => .ok ⟨some (String.ofList word), .widest⟩
  | [name, level] =>
    let level := Text.trimChars level
    if level.isEmpty then .ok ⟨some (String.ofList name), .widest⟩
    else match Threshold.ofName? level with
      | some threshold => .ok ⟨some (String.ofList name), threshold⟩
      | none => .error level
  | _ => .error piece

end Directive

structure Specification where
  directives : List Directive := []
  /-- A text that printed records have to contain, character by character. -/
  pattern? : Option String := none
  warnings : List String := []
deriving DecidableEq, Repr

namespace Specification

def warning (text : List Char) : String :=
  "warning: invalid logging spec '" ++ String.ofList text ++ "', ignoring it"

def addPiece (specification : Specification) (piece : List Char) : Specification :=
  if piece.isEmpty then specification
  else match Directive.ofPiece piece with
    | .ok directive => { specification with directives := specification.directives ++ [directive] }
    | .error text => { specification with warnings := specification.warnings ++ [warning text] }

/-- Reads a specification.  A text with more than one slash says nothing. -/
def ofText (text : String) : Specification :=
  let chars := text.toList
  match Text.split '/' chars with
  | [directives] => (Text.split ',' directives).foldl addPiece {}
  | [directives, pattern] =>
    (Text.split ',' directives).foldl addPiece { pattern? := some (String.ofList pattern) }
  | _ => { warnings := [warning chars ++ " (too many '/'s)"] }

end Specification

structure Filter where
  /-- The directives, short names first. -/
  directives : List Directive
  pattern? : Option String := none
deriving DecidableEq, Repr

namespace Filter

def standardThreshold : Threshold := .upTo .info

def ofSpecification (threshold : Threshold) (specification : Specification) : Filter where
  directives :=
    (⟨none, threshold⟩ :: specification.directives).mergeSort (fun a b => a.weight ≤ b.weight)
  pattern? := specification.pattern?

def deciding? (filter : Filter) (target : String) : Option Directive :=
  filter.directives.reverse.find? (fun directive => directive.covers target)

def enabled (filter : Filter) (level : Level) (target : String) : Bool :=
  match filter.deciding? target with
  | some directive => directive.threshold.admits level
  | none => false

def maxThreshold (filter : Filter) : Threshold :=
  (filter.directives.map Directive.threshold).foldl Threshold.max .off

def prints (filter : Filter) (record : Record) : Bool :=
  filter.enabled record.level record.target &&
    match filter.pattern? with
    | none => true
    | some pattern => Text.contains pattern.toList record.text.toList

end Filter

def Record.line (record : Record) : String :=
  "main " ++ record.level.name ++ " " ++ record.target ++ "  " ++ record.text

/-- The lines printed for some records, behind the complaints about the specification. -/
def lines (threshold : Threshold) (specification : Specification) (records : List Record) :
    List String :=
  let filter := Filter.ofSpecification threshold specification
  specification.warnings ++ (records.filter filter.prints).map Record.line

end Log
end LockScript
