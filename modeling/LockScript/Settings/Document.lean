import LockScript.Machine.Limits
import LockScript.Settings.Number
import LockScript.Settings.Token

/-!
Settings files: the ceilings of the machine in a table named `vm`.

The table is written as a section of its own, in one line between braces, by names
with a dot, or as a list of numbers in the fixed order of the ceilings.  A file
defines it once and each ceiling in it once, and holds nothing else.
-/

namespace LockScript
namespace Settings

open Machine (Ceiling)

/-- What stands behind an equals sign. -/
inductive Value where
  | number (n : Nat)
  | list (items : List Nat)
  | table (items : List (String × Nat))
deriving DecidableEq, Repr

/-- A line of a settings file. -/
inductive Entry where
  /-- The name of the section that begins, in parts. -/
  | heading (path : List String)
  /-- A name, in parts, and its value. -/
  | assign (path : List String) (value : Value)
deriving DecidableEq, Repr

namespace Entry

open Token

/-- The lines of a file.  `behindEquals` and `inList` say where the first token stands: inside a
list the end of a line means nothing. -/
def splitLines (behindEquals inList : Bool) : List Token → List (List Token)
  | [] => [[]]
  | token :: rest =>
    if token = newline then
      if inList then splitLines false true rest else [] :: splitLines false false rest
    else
      let inList := (inList || (behindEquals && token = openBracket)) && token ≠ closeBracket
      match splitLines (token = equals) inList rest with
      | [] => [[token]]
      | line :: lines => (token :: line) :: lines

def name? : Token → Option String
  | word chars | quoted chars => some (String.ofList chars)
  | _ => none

def number? : Token → Option Nat
  | word chars | plus chars => Number.ofWord? chars
  | _ => none

/-- Names with periods between them, and the tokens behind. -/
def path? : List Token → Option (List String × List Token)
  | token :: period :: rest => do
    let (names, rest) ← path? rest
    return ((← name? token) :: names, rest)
  | token :: rest => return ([← name? token], rest)
  | [] => none

/-- The rest of a list of numbers.  A comma may stand behind the last one. -/
def items? : List Token → Option (List Nat)
  | [closeBracket] => some []
  | [token, closeBracket] => return [← number? token]
  | token :: comma :: rest => return (← number? token) :: (← items? rest)
  | _ => none

/-- The rest of a table in one line.  No comma stands behind the last field. -/
def fields? : List Token → Option (List (String × Nat))
  | [key, equals, value, closeBrace] => return [(← name? key, ← number? value)]
  | key :: equals :: value :: comma :: rest =>
    return (← name? key, ← number? value) :: (← fields? rest)
  | _ => none

def value? : List Token → Option Value
  | [token] => return .number (← number? token)
  | openBracket :: rest => return .list (← items? rest)
  | [openBrace, closeBrace] => some (.table [])
  | openBrace :: rest => return .table (← fields? rest)
  | _ => none

def ofLine? : List Token → Option Entry
  | openBracket :: rest =>
    match path? rest with
    | some (path, [closeBracket]) => some (.heading path)
    | _ => none
  | tokens =>
    match path? tokens with
    | some (path, equals :: rest) => return .assign path (← value? rest)
    | _ => none

def read? (text : String) : Option (List Entry) := do
  let lines := splitLines false false (← scan text)
  (lines.filter (fun line => !line.isEmpty)).mapM ofLine?

end Entry

/-- How far the table has been defined. -/
inductive Stage where
  | undefined
  /-- By names with a dot, of which more may follow. -/
  | dotted
  /-- In its section, which is being read. -/
  | inSection
  | complete
deriving DecidableEq, Repr

structure Draft where
  stage : Stage := .undefined
  values : List (Ceiling × Nat) := []
deriving DecidableEq, Repr

namespace Draft

/-- Adds a ceiling by name.  A name that is unknown or comes again is refused. -/
def add (draft : Draft) (name : String) (n : Nat) : Option Draft := do
  let ceiling ← Ceiling.ofName? name
  if (draft.values.lookup ceiling).isSome then none
  else return { draft with values := draft.values ++ [(ceiling, n)] }

def addAll (draft : Draft) : List (String × Nat) → Option Draft
  | [] => some draft
  | (name, n) :: rest => do (← draft.add name n).addAll rest

/-- The ceilings of a list in their fixed order, which may stop early. -/
def ofList? (items : List Nat) : Option Draft :=
  if items.length ≤ Ceiling.all.length then some ⟨.complete, Ceiling.all.zip items⟩ else none

def addEntry (draft : Draft) (entry : Entry) : Option Draft :=
  match draft.stage, entry with
  | .undefined, .heading ["vm"] => some { draft with stage := .inSection }
  | .undefined, .assign ["vm"] (.list items) => ofList? items
  | .undefined, .assign ["vm"] (.table items) => addAll { draft with stage := .complete } items
  | .undefined, .assign ["vm", name] (.number n)
  | .dotted, .assign ["vm", name] (.number n) => add { draft with stage := .dotted } name n
  | .inSection, .assign [name] (.number n) => draft.add name n
  | _, _ => none

def value? (draft : Draft) (ceiling : Ceiling) : Option Nat :=
  draft.values.lookup ceiling

end Draft

/-- The ceilings that a settings file sets; nothing if the file is malformed. -/
def read? (text : String) : Option (Ceiling → Option Nat) := do
  let draft ← (← Entry.read? text).foldlM Draft.addEntry {}
  return draft.value?

end Settings
end LockScript
