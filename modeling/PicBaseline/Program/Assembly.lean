import PicBaseline.IntelHex
import PicBaseline.Program.Basic

/-!
# Programs — from images and back

The words of an image stand low byte first, so a data record at byte address `a` starts at word
`a / 2`.  Word `0xFFF` is the configuration word, which has a record of its own; every other data
record holds instructions, at words up to `0xFF`.

* `assembleWith` makes a program of HEX records, by any decoder.  The first record that cannot be
  taken ends it, with its number and the fault.
* `Program.toHexRecords` is the way back: each record of a program as a data record of its own, two
  bytes at the byte address of its word.
* `Program.ofHex` makes a program straight of the text of an Intel HEX file.  Text that cannot be
  read is reported before any record is looked at.
-/

namespace PicBaseline

/-- Why a record cannot be taken into a program. -/
inductive Fault where
  | unalignedAddress (address : Word)
  | badConfigWordLength (length : Nat)
  | oddByteCount (length : Nat)
  | addressOutOfRange (address : Word)
  | decode (address : Word) (cause : DecodeError)
  | trailingData
  | unsupportedAddressExtension (upper : Word)
  | unsupportedRecordKind (kind : String)
  deriving DecidableEq

namespace Fault

/-- The message of each fault, with the number that it is about. -/
def message : Fault → String
  | unalignedAddress a =>
      "address 0x" ++ Text.lowerHex 4 a.toNat ++ " is unexpectedly not even"
  | badConfigWordLength n =>
      "unexpected configuration word length " ++ Text.decimal n ++ "; expected 2 bytes"
  | oddByteCount n =>
      "expected an even number of data bytes, got " ++ Text.decimal n
        ++ "; words always come in pairs"
  | addressOutOfRange a =>
      "address " ++ hexText 2 a.toNat ++ " is too large; must be FFh or smaller"
  | decode a _ => "cannot decode word at " ++ hexText 2 a.toNat
  | trailingData => "file continues after end-of-file record"
  | unsupportedAddressExtension u =>
      "unexpected extended linear address 0x" ++ Text.lowerHex 4 u.toNat ++ ", expected 0"
  | unsupportedRecordKind kind => "unexpected record type " ++ kind

/-- The messages from the fault down to its cause, which only a word that does not decode has. -/
def chain (f : Fault) : List String :=
  f.message :: match f with
    | decode _ cause => cause.chain
    | _              => []

end Fault

/-- A fault with the number of its record, counted from one. -/
structure AssembleError where
  line : Nat
  fault : Fault
  deriving DecidableEq

namespace AssembleError

/-- The record by its number; the fault is the next message. -/
def message (e : AssembleError) : String :=
  "line " ++ Text.decimal e.line

def chain (e : AssembleError) : List String :=
  e.message :: e.fault.chain

end AssembleError

namespace Assembly

/-- The word address of the configuration word. -/
def configAddress : Word := 0xFFF#16

/-- The last word address of an instruction. -/
def lastAddress : Word := 0xFF#16

/-- The words of a byte list; an odd byte at the end is dropped. -/
def wordsOf : List Byte → List Word
  | low :: high :: rest => Word.ofBytes low high :: wordsOf rest
  | _                   => []

/-- What taking a record comes to: the program records it gives, and the fault that ended it. -/
structure Intake where
  records : List Record
  fault : Option Fault

/-- Decodes words to statements at consecutive addresses, up to the first fault. -/
def statements (decode : Decoder) : Word → List Word → Intake
  | _, [] => ⟨[], none⟩
  | address, word :: rest =>
      if lastAddress < address then ⟨[], some (.addressOutOfRange address)⟩
      else match decode word with
        | .error cause    => ⟨[], some (.decode address cause)⟩
        | .ok instruction =>
            let later := statements decode (address + 1) rest
            ⟨.statement ⟨address.setWidth 8, instruction⟩ :: later.records, later.fault⟩

/-- Takes a data record: the configuration word at its address, and instructions anywhere else. -/
def dataRecord (decode : Decoder) (address : Word) (bytes : List Byte) : Intake :=
  let start := address >>> 1
  if address.getLsbD 0 then ⟨[], some (.unalignedAddress address)⟩
  else if start = configAddress then
    match bytes with
    | [low, high] => ⟨[.config (Word.ofBytes low high)], none⟩
    | _           => ⟨[], some (.badConfigWordLength bytes.length)⟩
  else if bytes.length % 2 = 1 then ⟨[], some (.oddByteCount bytes.length)⟩
  else statements decode start (wordsOf bytes)

/-- Takes a record; `last` says that none follows it. -/
def record (decode : Decoder) (last : Bool) : HexRecord → Intake
  | .data address bytes       => dataRecord decode address bytes
  | .endOfFile                => ⟨[], if last then none else some .trailingData⟩
  | .extendedLinearAddress u  =>
      ⟨[], if u = 0#16 then none else some (.unsupportedAddressExtension u)⟩
  | r@.startSegmentAddress    => ⟨[], some (.unsupportedRecordKind r.kind)⟩
  | r@.extendedSegmentAddress => ⟨[], some (.unsupportedRecordKind r.kind)⟩
  | r@.startLinearAddress     => ⟨[], some (.unsupportedRecordKind r.kind)⟩

/-- The program records of HEX records that are numbered from `line` on. -/
def recordsFrom (decode : Decoder) : Nat → List HexRecord → Except AssembleError (List Record)
  | _, [] => .ok []
  | line, r :: rest =>
      let taken := record decode rest.isEmpty r
      match taken.fault with
      | some fault => .error ⟨line, fault⟩
      | none => do
          let later ← recordsFrom decode (line + 1) rest
          return taken.records ++ later

end Assembly

/-- The program of an image, by any decoder. -/
def assembleWith (decode : Decoder) (records : List HexRecord) : Except AssembleError Program := do
  let records ← Assembly.recordsFrom decode 1 records
  return ⟨records⟩

/-- The program of an image, by the decoder of the instruction set. -/
def assemble (records : List HexRecord) : Except AssembleError Program :=
  assembleWith Instruction.decode records

/-! ### Back to HEX records -/

/-- The data record of one word, at a word address. -/
def HexRecord.ofWord (address word : Word) : HexRecord :=
  .data (address <<< 1) word.bytes

/-- The data record of a program record, with the address counted in bytes. -/
def Record.toHexRecord : Record → HexRecord
  | config w    => .ofWord Assembly.configAddress w
  | statement s => .ofWord (s.address.setWidth 16) s.instruction.encode

/-- The image of a program, without an end-of-file record. -/
def Program.toHexRecords (p : Program) : List HexRecord :=
  p.records.map Record.toHexRecord

/-! ### From HEX text -/

/-- Why a text is no program. -/
inductive ImageError where
  | read (cause : IntelHex.ReadError)
  | assembly (cause : AssembleError)
  deriving DecidableEq

/-- The messages from the error down to its cause. -/
def ImageError.chain : ImageError → List String
  | read e     => e.chain
  | assembly e => e.chain

def Program.ofHex (text : String) : Except ImageError Program :=
  match IntelHex.readRecords text with
  | .error e    => .error (.read e)
  | .ok records => (assemble records).mapError .assembly

end PicBaseline
