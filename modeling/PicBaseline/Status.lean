import PicBaseline.Text.Basic
import PicBaseline.Word

/-!
# Status — flags of the STATUS register

Seven of the eight bits of the STATUS register are named flags; bit 5 has no name.  A `Flags` value
is any content of the register, the unnamed bit included, so that nothing is lost in reading it.

A set of flags is written as the full names of its members with ` | ` between them, lowest bit
first, and the bits without a name as one hexadecimal item at the end.  The empty set is the empty
text.  Reading is laxer than writing: items come in any order and may repeat, blanks around an item
do not count, and any item may be hexadecimal.  A hexadecimal item is `0x`, an optional plus sign
and at least one digit, with a value below 256.
-/

namespace PicBaseline.Status

/-! ### Flags and sets of them -/

/-- The named bits of the STATUS register. -/
inductive Flag where
  | carry
  | digitCarry
  | zero
  | notPowerDown
  | notTimeOut
  | comparatorWakeUp
  | pinReset
  deriving DecidableEq

namespace Flag

/-- All flags, lowest bit first. -/
def all : List Flag :=
  [carry, digitCarry, zero, notPowerDown, notTimeOut, comparatorWakeUp, pinReset]

/-- The position of the flag in the register. -/
def bit : Flag → Nat
  | carry            => 0
  | digitCarry       => 1
  | zero             => 2
  | notPowerDown     => 3
  | notTimeOut       => 4
  | comparatorWakeUp => 6
  | pinReset         => 7

/-- The full name, as the set notation spells it. -/
def name : Flag → String
  | carry            => "CARRY"
  | digitCarry       => "DIGIT_CARRY"
  | zero             => "ZERO"
  | notPowerDown     => "NOT_POWER_DOWN"
  | notTimeOut       => "NOT_TIME_OUT"
  | comparatorWakeUp => "COMPARATOR_WAKE_UP"
  | pinReset         => "GPIO_RESET"

/-- The short name, as listings show it. -/
def shortName : Flag → String
  | carry            => "C"
  | digitCarry       => "DC"
  | zero             => "Z"
  | notPowerDown     => "NOT_PD"
  | notTimeOut       => "NOT_TO"
  | comparatorWakeUp => "CWUF"
  | pinReset         => "GPWUF"

/-- The flag at a position, if that bit has a name. -/
def ofBit? (n : Nat) : Option Flag :=
  all.find? fun f => f.bit == n

def ofName? (name : String) : Option Flag :=
  all.find? fun f => f.name == name

end Flag

/-- Any content of the STATUS register. -/
structure Flags where
  bits : Byte
  deriving DecidableEq

namespace Flags

def empty : Flags := ⟨0#8⟩

def single (f : Flag) : Flags :=
  ⟨1#8 <<< f.bit⟩

def union (s t : Flags) : Flags :=
  ⟨s.bits ||| t.bits⟩

instance : Union Flags := ⟨union⟩

/-- The bit of the flag is set. -/
def contains (s : Flags) (f : Flag) : Bool :=
  s.bits.getLsbD f.bit

/-- The union of the given flags. -/
def ofList (fs : List Flag) : Flags :=
  fs.foldl (fun s f => s ∪ single f) empty

/-- The flags in the set, lowest bit first. -/
def members (s : Flags) : List Flag :=
  Flag.all.filter s.contains

/-- The bits that no flag names. -/
def unnamed (s : Flags) : Byte :=
  s.bits &&& ~~~(ofList Flag.all).bits

/-- Every bit of the set is a named flag. -/
def isKnown (s : Flags) : Bool :=
  s.unnamed == 0#8

/-- The set of the flag at a position. -/
def ofBit? (n : Nat) : Option Flags :=
  (Flag.ofBit? n).map single

/-- The short name of the set, if it is exactly one flag. -/
def shortName? (s : Flags) : Option String :=
  (Flag.all.find? fun f => single f == s).map Flag.shortName

/-- The short names of the flags in the set, highest bit first. -/
def text (s : Flags) : String :=
  " ".intercalate (s.members.reverse.map Flag.shortName)

end Flags

/-! ### Set notation -/

namespace Flags

/-- The items of the set notation. -/
def items (s : Flags) : List String :=
  s.members.map Flag.name ++
    if s.unnamed = 0#8 then [] else ["0x" ++ Text.lowerHex 1 s.unnamed.toNat]

def setText (s : Flags) : String :=
  " | ".intercalate s.items

/-- The bits that the digits of a hexadecimal item spell. -/
def ofHex? (digits : List Char) : Option Flags := do
  let digits := match digits with
    | '+' :: rest => rest
    | _           => digits
  guard !digits.isEmpty
  let values ← digits.mapM Text.hexValue?
  let n := Text.hexNumber values
  guard (n < 256)
  return ⟨BitVec.ofNat 8 n⟩

/-- One trimmed item: a hexadecimal number or the full name of a flag. -/
def ofItem? : List Char → Option Flags
  | '0' :: 'x' :: digits => ofHex? digits
  | item                 => (Flag.ofName? (String.ofList item)).map single

/-- The set that a text writes.  A blank text is the empty set; anywhere else an item must not be
empty. -/
def ofSetText? (s : String) : Option Flags :=
  let cs := s.toList
  if cs.all Text.isBlank then some empty
  else do
    let sets ← ((Text.fields '|' cs).map Text.trim).mapM ofItem?
    return sets.foldl union empty

end Flags

end PicBaseline.Status
