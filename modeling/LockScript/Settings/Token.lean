import LockScript.Text.Hex

/-!
The tokens of a settings file.

The scanner takes one character at a time and remembers in its `Mode` what it is
in the middle of.  Blanks and comments leave no token; the end of a line does.
-/

namespace LockScript
namespace Settings

inductive Token where
  | newline
  | equals
  | period
  | comma
  | openBracket
  | closeBracket
  | openBrace
  | closeBrace
  /-- A run of letters, digits, hyphens and underscores: a name or a number. -/
  | word (chars : List Char)
  /-- Such a run directly behind a plus sign. -/
  | plus (chars : List Char)
  | quoted (chars : List Char)
deriving DecidableEq, Repr

namespace Token

/-- What the scanner is in the middle of.  Characters read so far are kept with the last one
first. -/
inductive Mode where
  | between
  /-- Behind a carriage return, which only a line feed may follow. -/
  | carriage
  | comment
  | word (read : List Char)
  | plus (read : List Char)
  /-- Between single quotation marks, where every character stands for itself. -/
  | literal (read : List Char)
  | basic (read : List Char)
  | escape (read : List Char)
  /-- Inside the code point of a character, with `left` digits to come. -/
  | code (left value : Nat) (read : List Char)
deriving DecidableEq, Repr

def isWordChar (c : Char) : Bool :=
  c.isAlphanum || c == '-' || c == '_'

def isCommentChar (c : Char) : Bool :=
  c == '\t' || ' ' ≤ c

def isTextChar (c : Char) : Bool :=
  isCommentChar c && c != '\x7f'

def escaped? (c : Char) : Option Char :=
  match c with
  | '"' => some '"'
  | '\\' => some '\\'
  | 'b' => some '\x08'
  | 'f' => some '\x0c'
  | 'n' => some '\n'
  | 'r' => some '\r'
  | 't' => some '\t'
  | _ => none

/-- The character with a code point; half of a surrogate pair is none. -/
def ofCode? (code : Nat) : Option Char :=
  if code.isValidChar then some (Char.ofNat code) else none

/-- A character between tokens: the mode it leads to, and the token it is. -/
def start (c : Char) : Option (Mode × List Token) :=
  match c with
  | '\n' => some (.between, [newline])
  | '\r' => some (.carriage, [])
  | ' ' | '\t' => some (.between, [])
  | '#' => some (.comment, [])
  | '=' => some (.between, [equals])
  | '.' => some (.between, [period])
  | ',' => some (.between, [comma])
  | '[' => some (.between, [openBracket])
  | ']' => some (.between, [closeBracket])
  | '\x7b' => some (.between, [openBrace])
  | '\x7d' => some (.between, [closeBrace])
  | '+' => some (.plus [], [])
  | '\'' => some (.literal [], [])
  | '"' => some (.basic [], [])
  | _ => if isWordChar c then some (.word [c], []) else none

def startBehind (token : Token) (c : Char) : Option (Mode × List Token) :=
  (start c).map (fun next => (next.1, token :: next.2))

/-- The closing quotation mark.  Nothing between the marks is refused: an empty name is no name, and
a third mark would open a text of several lines, which is no name either. -/
def close (read : List Char) : Option (Mode × List Token) :=
  if read.isEmpty then none else some (.between, [quoted read.reverse])

def advance : Mode → Char → Option (Mode × List Token)
  | .between, c => start c
  | .carriage, c => if c = '\n' then some (.between, [newline]) else none
  | .comment, c => if isCommentChar c then some (.comment, []) else start c
  | .word read, c =>
    if isWordChar c then some (.word (c :: read), []) else startBehind (word read.reverse) c
  | .plus read, c =>
    if isWordChar c then some (.plus (c :: read), [])
    else if read.isEmpty then none
    else startBehind (plus read.reverse) c
  | .literal read, c =>
    if c = '\'' then close read
    else if isTextChar c then some (.literal (c :: read), [])
    else none
  | .basic read, c =>
    if c = '"' then close read
    else if c = '\\' then some (.escape read, [])
    else if isTextChar c then some (.basic (c :: read), [])
    else none
  | .escape read, c =>
    if c = 'u' then some (.code 4 0 read, [])
    else if c = 'U' then some (.code 8 0 read, [])
    else (escaped? c).map (fun d => (.basic (d :: read), []))
  | .code left value read, c => do
    let value := 16 * value + (← Text.Hex.digit? c)
    if left ≤ 1 then return (.basic ((← ofCode? value) :: read), [])
    else return (.code (left - 1) value read, [])

def finish : Mode → Option (List Token)
  | .between | .comment => some []
  | .word read => some [word read.reverse]
  | .plus read => if read.isEmpty then none else some [plus read.reverse]
  | _ => none

def scanFrom (mode : Mode) : List Char → Option (List Token)
  | [] => finish mode
  | c :: rest => do
    let (mode, tokens) ← advance mode c
    return tokens ++ (← scanFrom mode rest)

/-- The tokens of a text.  A byte order mark in front is skipped. -/
def scan (text : String) : Option (List Token) :=
  match text.toList with
  | '\ufeff' :: rest => scanFrom .between rest
  | chars => scanFrom .between chars

end Token
end Settings
end LockScript
