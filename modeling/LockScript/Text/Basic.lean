/-!
Texts as they come from the command line and the environment: the blanks around them, the pieces
they are cut into, and the numbers they spell.
-/

namespace LockScript
namespace Text

/-! ## Blanks -/

/-- The character has the White_Space property. -/
def isBlank (c : Char) : Bool :=
  let n := c.toNat
  (9 ≤ n && n ≤ 13) || n == 0x20 || n == 0x85 || n == 0xa0 || n == 0x1680 ||
    (0x2000 ≤ n && n ≤ 0x200a) || n == 0x2028 || n == 0x2029 || n == 0x202f || n == 0x205f ||
    n == 0x3000

def trimChars (chars : List Char) : List Char :=
  ((chars.dropWhile isBlank).reverse.dropWhile isBlank).reverse

def trim (text : String) : String :=
  String.ofList (trimChars text.toList)

/-! ## Pieces -/

/-- The pieces between the occurrences of a character.  There is always at least one. -/
def split (separator : Char) : List Char → List (List Char)
  | [] => [[]]
  | c :: rest =>
    if c = separator then [] :: split separator rest
    else match split separator rest with
      | [] => [[c]]
      | first :: others => (c :: first) :: others

def contains (pattern : List Char) : List Char → Bool
  | [] => pattern.isEmpty
  | c :: rest => pattern.isPrefixOf (c :: rest) || contains pattern rest

/-! ## Numbers -/

namespace Decimal

def ofDigits? (chars : List Char) : Option Nat :=
  if chars.isEmpty || !chars.all Char.isDigit then none
  else some (chars.foldl (fun n c => 10 * n + (c.toNat - 48)) 0)

/-- The first number too large to be taken. -/
def bound : Nat := UInt64.size

/-- A number below the bound in digits from 0 to 9, perhaps behind a plus sign.  Leading zeros are
allowed. -/
def parse? (text : String) : Option Nat :=
  let digits := match text.toList with
    | '+' :: rest => rest
    | chars => chars
  (ofDigits? digits).filter (· < bound)

end Decimal

end Text
end LockScript
