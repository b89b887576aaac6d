/-!
# Words and bit fields

A memory cell is a 16-bit `Word`; the machine looks at its low twelve bits only (`wordMask`), and
two bytes make a word low byte first.

A `Field` is a range of bit positions `lo ≤ i < hi` of a word, counted from the least significant
bit.  `extract` reads it, `insert` replaces it and leaves every other bit alone; a value that does
not fit is cut to the width of the field.
-/

namespace PicBaseline

abbrev Byte := BitVec 8

/-- A memory cell, as an image holds it. -/
abbrev Word := BitVec 16

/-- The number of bits of a word that the machine looks at. -/
def wordBits : Nat := 12

/-- Ones at the low twelve bits. -/
def wordMask : Word := 0xFFF#16

/-- The word of two bytes in memory order, low byte first. -/
def Word.ofBytes (low high : Byte) : Word :=
  high ++ low

/-- The bytes of a word in memory order, low byte first. -/
def Word.bytes (w : Word) : List Byte :=
  [w.setWidth 8, (w >>> 8).setWidth 8]

/-- A range of bit positions of a word. -/
structure Field where
  lo : Nat
  hi : Nat
  lo_lt_hi : lo < hi := by decide
  hi_le : hi ≤ 16 := by decide

namespace Field

/-- Ones at the positions of the field. -/
def mask (f : Field) : Word :=
  (BitVec.allOnes 16 <<< f.lo) &&& (BitVec.allOnes 16 >>> (16 - f.hi))

/-- The number that the bits of the field spell. -/
def extract (f : Field) (w : Word) : Word :=
  (w &&& f.mask) >>> f.lo

/-- The word with the low bits of `value` in the field, and its own bits elsewhere. -/
def insert (f : Field) (w value : Word) : Word :=
  (w &&& ~~~f.mask) ||| ((value <<< f.lo) &&& f.mask)

end Field

end PicBaseline
