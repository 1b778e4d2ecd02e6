import LockScript.Text.Hex

/-!
Whole numbers in a settings file.

A number is decimal without leading zeros, or hexadecimal, octal or binary behind
`0x`, `0o` or `0b`.  Underscores may stand between digits.
-/

namespace LockScript
namespace Settings
namespace Number

def digit? (base : Nat) (c : Char) : Option Nat :=
  (Text.Hex.digit? c).filter (· < base)

/-- Goes on with a number behind a digit or, if `gap` holds, behind an underscore. -/
def digitsFrom (base value : Nat) (gap : Bool) : List Char → Option Nat
  | [] => if gap then none else some value
  | c :: rest =>
    if c = '_' then if gap then none else digitsFrom base value true rest
    else do digitsFrom base (base * value + (← digit? base c)) false rest

/-- The number of a row of digits with single underscores between them. -/
def digits (base : Nat) (chars : List Char) : Option Nat :=
  digitsFrom base 0 true chars

/-- A decimal number: only zero itself begins with a zero. -/
def decimal (chars : List Char) : Option Nat :=
  match chars with
  | '0' :: _ :: _ => none
  | _ => digits 10 chars

/-- The first number too large for a settings file. -/
def bound : Nat := UInt64.size / 2

/-- The number of a word.  Numbers below zero set no limit, but zero may have a minus sign. -/
def ofWord? (chars : List Char) : Option Nat :=
  let value? := match chars with
    | '0' :: 'x' :: rest => digits 16 rest
    | '0' :: 'o' :: rest => digits 8 rest
    | '0' :: 'b' :: rest => digits 2 rest
    | '-' :: rest => (decimal rest).filter (· == 0)
    | _ => decimal chars
  value?.filter (· < bound)

end Number
end Settings
end LockScript
