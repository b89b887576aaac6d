import PicBaseline.Text.Basic
import PicBaseline.Word

/-!
# Intel HEX

What one line of an Intel HEX file says is a `HexRecord`.  Data and the upper half of a linear
address carry their content; of the other kinds only the presence matters here.

A line is a colon and an even number of hexadecimal digits.  The bytes they spell are the length of
the payload, the address high byte first, the type, the payload and a checksum, which makes the sum
of all bytes a multiple of 256.

`readLine` checks a line in a fixed order: start code, digits, their number, checksum, length,
type.  `readRecords` reads every line that is not empty and stops at the first fault; records after
an end-of-file record are read like any other.
-/

namespace PicBaseline

/-- The content of a line. -/
inductive HexRecord where
  | data (address : Word) (bytes : List Byte)
  | endOfFile
  | extendedLinearAddress (upper : Word)
  | startSegmentAddress
  | extendedSegmentAddress
  | startLinearAddress
  deriving DecidableEq

/-- The kind of a record, as messages name it. -/
def HexRecord.kind : HexRecord → String
  | data _ _                => "data"
  | endOfFile               => "endOfFile"
  | extendedLinearAddress _ => "extendedLinearAddress"
  | startSegmentAddress     => "startSegmentAddress"
  | extendedSegmentAddress  => "extendedSegmentAddress"
  | startLinearAddress      => "startLinearAddress"

/-! ### Lines -/

namespace IntelHex

/-- Why a line is no record. -/
inductive LineError where
  | missingStartCode
  | invalidCharacters
  | tooShort
  | tooLong
  | notEvenLength
  | checksumMismatch (computed written : Byte)
  | payloadLengthMismatch
  | invalidLengthForType
  | unsupportedType (code : Byte)
  deriving DecidableEq

/-- A byte in quotes, as messages show it. -/
def byteText (b : Byte) : String :=
  "'" ++ Text.upperHex 2 b.toNat ++ "'"

/-- The message of each fault of a line; for a checksum, the one computed and then the one written.
-/
def LineError.message : LineError → String
  | missingStartCode      => "missing start code ':'"
  | invalidCharacters     => "invalid characters encountered in record"
  | tooShort              => "too short"
  | tooLong               => "too long"
  | notEvenLength         => "record does not contain a whole number of bytes"
  | checksumMismatch c w  => "invalid checksum " ++ byteText c ++ ", expecting " ++ byteText w
  | payloadLengthMismatch => "payload length does not match record header"
  | invalidLengthForType  => "payload length invalid for record type"
  | unsupportedType code  => "unsupported IHEX record type " ++ byteText code

/-- The bytes that pairs of digit values spell; an odd digit at the end is dropped. -/
def bytesOf : List Nat → List Byte
  | high :: low :: rest => BitVec.ofNat 8 (16 * high + low) :: bytesOf rest
  | _                   => []

/-- The byte that makes the sum of all bytes a multiple of 256. -/
def checksum (bytes : List Byte) : Byte :=
  -bytes.foldl (· + ·) 0#8

/-- The record of a type code, an address and a payload. -/
def recordOf (code : Byte) (address : Word) (payload : List Byte) : Except LineError HexRecord :=
  match code.toNat with
  | 0 => .ok (.data address payload)
  | 1 => if payload.length = 0 then .ok .endOfFile else .error .invalidLengthForType
  | 2 => if payload.length = 2 then .ok .extendedSegmentAddress else .error .invalidLengthForType
  | 3 => if payload.length = 4 then .ok .startSegmentAddress else .error .invalidLengthForType
  | 4 => match payload with
      | [high, low] => .ok (.extendedLinearAddress (Word.ofBytes low high))
      | _           => .error .invalidLengthForType
  | 5 => if payload.length = 4 then .ok .startLinearAddress else .error .invalidLengthForType
  | _ => .error (.unsupportedType code)

/-- The record of the bytes of a line whose checksum holds, without that checksum. -/
def recordOfBytes : List Byte → Except LineError HexRecord
  | length :: high :: low :: code :: payload =>
      if payload.length = length.toNat then recordOf code (Word.ofBytes low high) payload
      else .error .payloadLengthMismatch
  | _ => .error .tooShort

/-- The fewest digits of a line: five bytes around an empty payload. -/
def minDigits : Nat := 10

/-- The most digits of a line: a payload of 255 bytes. -/
def maxDigits : Nat := 520

/-- The record of the digits of a line. -/
def recordOfDigits (digits : List Nat) : Except LineError HexRecord :=
  if digits.length < minDigits then .error .tooShort
  else if maxDigits < digits.length then .error .tooLong
  else if digits.length % 2 = 1 then .error .notEvenLength
  else
    let bytes := bytesOf digits
    let body := bytes.dropLast
    let computed := checksum body
    let written := bytes.getLastD 0#8
    if computed = written then recordOfBytes body
    else .error (.checksumMismatch computed written)

def readLine : List Char → Except LineError HexRecord
  | ':' :: cs =>
      match cs.mapM Text.hexValue? with
      | some digits => recordOfDigits digits
      | none        => .error .invalidCharacters
  | _ => .error .missingStartCode

/-- A line that cannot be read, by its number among the lines that are not empty. -/
structure ReadError where
  number : Nat
  cause : LineError
  deriving DecidableEq

/-- The messages from the error down to its cause. -/
def ReadError.chain (e : ReadError) : List String :=
  ["hex record " ++ Text.decimal e.number, e.cause.message]

/-- The records of lines that are numbered from `n` on. -/
def readLines : Nat → List (List Char) → Except ReadError (List HexRecord)
  | _, [] => .ok []
  | n, line :: rest =>
      match readLine line with
      | .error cause => .error ⟨n, cause⟩
      | .ok record   => do
          let records ← readLines (n + 1) rest
          return record :: records

/-- The records of a text.  Empty lines are not counted. -/
def readRecords (text : String) : Except ReadError (List HexRecord) :=
  readLines 1 ((Text.lines text.toList).filter (!·.isEmpty))

end IntelHex

end PicBaseline
