/-!
# Text — characters, numerals and lines

Texts are lists of characters here, as the readers walk over them.

A character class is a table of closed ranges of code points, in ascending order.  The one class
that reading depends on is that of the *blank* characters, those with the Unicode property
`White_Space`.  `U+180E`, `U+200B` and `U+FEFF` are not among them, nor are the separators `U+001C`
to `U+001F`.

Numbers are written in decimal, or in hexadecimal in either case with leading zeros up to a least
width.  A number that needs more digits than the width takes them.

`fields sep` cuts a text at every `sep`; the pieces are one more than the separators, and some may
be empty.  `lines` cuts at line feeds and drops one carriage return directly before each of them.
What follows the last line feed is a line too, and keeps a carriage return at its end.
-/

namespace PicBaseline.Text

/-! ### Character classes -/

/-- Closed ranges of code points, in ascending order. -/
abbrev CharClass := List (Nat × Nat)

/-- The code point of the character is in one of the ranges. -/
def CharClass.contains (cls : CharClass) (c : Char) : Bool :=
  cls.any fun (lo, hi) => lo ≤ c.toNat && c.toNat ≤ hi

/-- The characters that count as white space. -/
def blanks : CharClass :=
  [(0x09, 0x0D), (0x20, 0x20), (0x85, 0x85), (0xA0, 0xA0), (0x1680, 0x1680), (0x2000, 0x200A),
    (0x2028, 0x2029), (0x202F, 0x202F), (0x205F, 0x205F), (0x3000, 0x3000)]

def isBlank (c : Char) : Bool :=
  blanks.contains c

/-- The text without the blanks at its two ends. -/
def trim (cs : List Char) : List Char :=
  ((cs.dropWhile isBlank).reverse.dropWhile isBlank).reverse

/-! ### Numerals -/

/-- Decimal, without leading zeros. -/
def decimal (n : Nat) : String :=
  String.ofList (Nat.toDigits 10 n)

/-- Lower-case hexadecimal, at least `width` digits. -/
def lowerHex (width n : Nat) : String :=
  String.ofList ((Nat.toDigits 16 n).leftpad width '0')

/-- Upper-case hexadecimal, at least `width` digits. -/
def upperHex (width n : Nat) : String :=
  String.ofList (((Nat.toDigits 16 n).map Char.toUpper).leftpad width '0')

/-- The value of a hexadecimal digit, in either case. -/
def hexValue? (c : Char) : Option Nat :=
  if '0' ≤ c ∧ c ≤ '9' then some (c.toNat - '0'.toNat)
  else if 'a' ≤ c ∧ c ≤ 'f' then some (c.toNat - 'a'.toNat + 10)
  else if 'A' ≤ c ∧ c ≤ 'F' then some (c.toNat - 'A'.toNat + 10)
  else none

/-- The number that a run of hexadecimal digits spells, most significant digit first. -/
def hexNumber (digits : List Nat) : Nat :=
  digits.foldl (fun n d => 16 * n + d) 0

/-! ### Fields and lines -/

/-- One character in front of a text that is already cut. -/
def fieldStep (sep c : Char) (pieces : List (List Char)) : List (List Char) :=
  if c = sep then [] :: pieces
  else match pieces with
    | []            => [[c]]
    | piece :: rest => (c :: piece) :: rest

/-- The pieces between the separators, cut from the right. -/
def fields (sep : Char) (cs : List Char) : List (List Char) :=
  cs.foldr (fieldStep sep) [[]]

/-- The line without one carriage return at its end. -/
def dropReturn (line : List Char) : List Char :=
  if line.getLast? = some '\r' then line.dropLast else line

/-- Only a piece that a line feed ends loses its carriage return. -/
def endLines : List (List Char) → List (List Char)
  | []            => []
  | [last]        => [last]
  | piece :: rest => dropReturn piece :: endLines rest

/-- The lines of a text; a text that ends in a line feed has an empty one at its end. -/
def lines (cs : List Char) : List (List Char) :=
  endLines (fields '\n' cs)

end PicBaseline.Text
