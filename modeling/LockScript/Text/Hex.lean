import LockScript.Bytes

/-!
Hexadecimal text.

Two readers share one alphabet: sixteen digits in either case, and four blanks
that may stand anywhere and mean nothing.  `decode` takes a text of any length
and looks at all of it before it counts the digits, so a foreign character is
reported in preference to a missing digit.  `decodeOctets` fills a byte string
of a known length from left to right and reports the first thing that stops it.
-/

namespace LockScript
namespace Text
namespace Hex

inductive Error where
  /-- A character outside the alphabet, and the number of bytes of text in front of it. -/
  | character (found : Char) (offset : Nat)
  /-- A digit without its partner, or the wrong number of bytes. -/
  | length
deriving DecidableEq, Repr

def Error.message : Error → String
  | .character found offset => s!"Invalid character '{found}' at position {offset}"
  | .length => "Invalid input length"

def digit? (c : Char) : Option Nat :=
  if '0' ≤ c ∧ c ≤ '9' then some (c.toNat - 48)
  else if 'a' ≤ c ∧ c ≤ 'f' then some (c.toNat - 87)
  else if 'A' ≤ c ∧ c ≤ 'F' then some (c.toNat - 55)
  else none

def isSkipped (c : Char) : Bool :=
  c == ' ' || c == '\t' || c == '\n' || c == '\r'

def byteOf (high low : Nat) : UInt8 :=
  UInt8.ofNat (16 * high + low)

/-- The digits of a text, blanks left out.  `offset` is the number of bytes in front. -/
def digits (offset : Nat) : List Char → Except Error (List Nat)
  | [] => .ok []
  | c :: rest =>
    if isSkipped c then digits (offset + c.utf8Size) rest
    else match digit? c with
      | none => .error (.character c offset)
      | some d => (digits (offset + c.utf8Size) rest).map (d :: ·)

/-- Digits taken two at a time; a digit left over is an error. -/
def pairUp : List Nat → Except Error Bytes
  | [] => .ok []
  | [_] => .error .length
  | high :: low :: rest => (pairUp rest).map (byteOf high low :: ·)

def decode (text : String) : Except Error Bytes := do
  pairUp (← digits 0 text.toList)

/-- The next digit, with the offset and the text behind it.  No digit left is an error. -/
def nextDigit (offset : Nat) : List Char → Except Error (Nat × Nat × List Char)
  | [] => .error .length
  | c :: rest =>
    if isSkipped c then nextDigit (offset + c.utf8Size) rest
    else match digit? c with
      | none => .error (.character c offset)
      | some d => .ok (d, offset + c.utf8Size, rest)

/-- A byte string of `size` bytes from the front of a text.  What follows it may only be blank. -/
def fill (offset : Nat) (text : List Char) : (size : Nat) → Except Error Bytes
  | 0 => if text.all isSkipped then .ok [] else .error .length
  | size + 1 => do
    let (high, offset, text) ← nextDigit offset text
    let (low, offset, text) ← nextDigit offset text
    return byteOf high low :: (← fill offset text size)

theorem length_of_fill {size offset : Nat} {text : List Char} {bytes : Bytes}
    (h : fill offset text size = .ok bytes) : bytes.length = size := by
  induction size generalizing offset text bytes with
  | zero =>
    rw [fill] at h
    split at h
    · cases h; rfl
    · cases h
  | succ size ih =>
    rw [fill] at h
    cases h₁ : nextDigit offset text with
    | error e => simp [h₁, bind, Except.bind] at h
    | ok first =>
      cases h₂ : nextDigit first.2.1 first.2.2 with
      | error e => simp [h₁, h₂, bind, Except.bind] at h
      | ok second =>
        cases h₃ : fill second.2.1 second.2.2 size with
        | error e => simp [h₁, h₂, h₃, bind, Except.bind] at h
        | ok rest =>
          simp only [h₁, h₂, h₃, bind, Except.bind, pure, Except.pure, Except.ok.injEq] at h
          subst h
          simp [ih h₃]

def decodeOctets (size : Nat) (text : String) : Except Error (Octets size) :=
  match h : fill 0 text.toList size with
  | .error e => .error e
  | .ok bytes => .ok ⟨bytes, length_of_fill h⟩

inductive Case where
  | lower
  | upper
deriving DecidableEq, Repr

/-- The character of a digit below sixteen. -/
def digitChar (case : Case) (d : Nat) : Char :=
  if d < 10 then Char.ofNat (48 + d)
  else match case with
    | .lower => Char.ofNat (87 + d)
    | .upper => Char.ofNat (55 + d)

def byteChars (case : Case) (byte : UInt8) : List Char :=
  [digitChar case (byte.toNat / 16), digitChar case (byte.toNat % 16)]

def encodeChars (case : Case) (bytes : Bytes) : List Char :=
  bytes.flatMap (byteChars case)

def encode (bytes : Bytes) : String :=
  String.ofList (encodeChars .lower bytes)

def encodeUpper (bytes : Bytes) : String :=
  String.ofList (encodeChars .upper bytes)

/-- One byte in upper case with no leading zero. -/
def shortUpper (byte : UInt8) : String :=
  String.ofList <|
    if byte < 16 then [digitChar .upper byte.toNat] else byteChars .upper byte

end Hex
end Text
end LockScript
