import Mathlib.Algebra.GroupWithZero.Nat
import PicBaseline.IntelHex
import PicBaseline.Proofs.Prelude
import PicBaseline.Proofs.Text.Numeral

/-!
# Proofs — one line of a HEX text

A line is described by the bytes it spells (`Spells`, two digits a byte in either case), the bytes
by a `Frame`: length, address, type, payload and checksum.  A frame is *sound* when the length byte
counts the payload and all bytes add up to a multiple of 256, and its type says which record it
*carries*.

* `readLine_of_spells`: of a line that spells bytes, the checksum decides first.
* `readLine_eq_ok`: a line reads as a record exactly when it is a line of that record (`IsLineOf`).
-/

namespace PicBaseline.IntelHex

open Text (IsHexDigit hexValue? mapM_hexValue?_eq_some)

/-! ### Bytes as digits -/

/-- The characters spell the bytes, two hexadecimal digits each, the high one first. -/
inductive Spells : List Char → List Byte → Prop where
  | nil : Spells [] []
  | cons {c d : Char} {cs : List Char} {b : Byte} {bytes : List Byte}
      (high : IsHexDigit c (b.toNat / 16)) (low : IsHexDigit d (b.toNat % 16))
      (rest : Spells cs bytes) : Spells (c :: d :: cs) (b :: bytes)

namespace Spells

variable {cs xs ys : List Char} {bytes front back : List Byte}

theorem append (hx : Spells xs front) (hy : Spells ys back) :
    Spells (xs ++ ys) (front ++ back) := by
  induction hx with
  | nil => exact hy
  | cons high low _ ih => exact .cons high low ih

theorem isHexDigit (h : Spells cs bytes) : ∀ c ∈ cs, ∃ n, IsHexDigit c n := by
  induction h with
  | nil => simp
  | cons high low _ ih =>
      exact List.forall_mem_cons.mpr ⟨⟨_, high⟩, List.forall_mem_cons.mpr ⟨⟨_, low⟩, ih⟩⟩

/-- A spelling behind its colon has no other character than digits. -/
theorem notMem_cons (h : Spells cs bytes) {c : Char} (hcolon : c ≠ ':')
    (hdigit : hexValue? c = none) : c ∉ ':' :: cs := by
  intro hmem
  obtain ⟨n, hn⟩ := h.isHexDigit c (List.mem_of_ne_of_mem hcolon hmem)
  rw [Text.hexValue?_eq_some.mpr hn] at hdigit
  cases hdigit

/-- A byte is made of its two digits. -/
theorem ofNat_digits (b : Byte) : BitVec.ofNat 8 (16 * (b.toNat / 16) + b.toNat % 16) = b := by
  rw [Nat.div_add_mod, BitVec.ofNat_toNat, BitVec.setWidth_eq]

/-- The reader sees the digits of spelled bytes, and makes these bytes of them. -/
theorem digits (h : Spells cs bytes) :
    ∃ ds, cs.mapM hexValue? = some ds ∧ ds.length = 2 * bytes.length ∧ bytesOf ds = bytes := by
  simp only [mapM_hexValue?_eq_some]
  induction h with
  | nil => exact ⟨[], .nil, rfl, rfl⟩
  | @cons c d cs b bytes high low _ ih =>
      obtain ⟨ds, hds, hlen, hbytes⟩ := ih
      refine ⟨b.toNat / 16 :: b.toNat % 16 :: ds, .cons high (.cons low hds), ?_, ?_⟩
      · simp only [List.length_cons, hlen]
        omega
      · rw [bytesOf, ofNat_digits, hbytes]

/-- Digits of whole bytes spell them. -/
theorem of_digits {ds : List Nat} (h : List.Forall₂ IsHexDigit cs ds) (heven : ds.length % 2 = 0) :
    Spells cs (bytesOf ds) := by
  fun_induction bytesOf ds generalizing cs with
  | case1 m n ds ih =>
      obtain ⟨c, rest, hc, hrest, rfl⟩ := List.forall₂_cons_right_iff.mp h
      obtain ⟨d, cs, hd, hcs, rfl⟩ := List.forall₂_cons_right_iff.mp hrest
      have hm : m < 16 := hc.1
      have hn : n < 16 := hd.1
      have hbyte : (BitVec.ofNat 8 (16 * m + n)).toNat = 16 * m + n := by
        rw [BitVec.toNat_ofNat]
        omega
      refine .cons ?_ ?_ (ih hcs (by simp only [List.length_cons] at heven; omega))
      · rwa [hbyte, show (16 * m + n) / 16 = m by omega]
      · rwa [hbyte, show (16 * m + n) % 16 = n by omega]
  | case2 ds hpair =>
      match ds, hpair with
      | [], _ =>
          rw [List.forall₂_nil_right_iff.mp h]
          exact .nil
      | [_], _ => cases heven
      | m :: n :: ds, hpair => exact absurd rfl (hpair m n ds)

/-- What follows spelled bytes spells the bytes that are left. -/
theorem of_append (h : Spells (xs ++ ys) bytes) (hx : Spells xs front) :
    ∃ back, bytes = front ++ back ∧ Spells ys back := by
  induction hx generalizing bytes with
  | nil => exact ⟨bytes, rfl, h⟩
  | @cons c d xs b front high low _ ih =>
      cases h with
      | @cons _ _ _ b' bytes high' low' rest =>
          obtain ⟨back, rfl, hback⟩ := ih rest
          have hhigh := high.unique high'
          have hlow := low.unique low'
          obtain rfl : b = b' := by bv_omega
          exact ⟨back, rfl, hback⟩

end Spells

theorem exists_spells (bytes : List Byte) : ∃ cs, Spells cs bytes := by
  induction bytes with
  | nil => exact ⟨[], .nil⟩
  | cons b bytes ih =>
      obtain ⟨cs, hcs⟩ := ih
      have hb := b.isLt
      exact ⟨_, .cons ⟨by omega, Or.inl rfl⟩ ⟨by omega, Or.inl rfl⟩ hcs⟩

/-! ### The checksum -/

/-- The sum of bytes, as a number. -/
def byteSum (bytes : List Byte) : Nat :=
  (bytes.map BitVec.toNat).sum

theorem byteSum_append (xs ys : List Byte) : byteSum (xs ++ ys) = byteSum xs + byteSum ys := by
  simp [byteSum]

/-- A sum of bytes is the sum of their numbers, cut to a byte. -/
theorem toNat_foldl_add (bytes : List Byte) (start : Byte) :
    (bytes.foldl (· + ·) start).toNat = (start.toNat + byteSum bytes) % 256 := by
  induction bytes generalizing start with
  | nil =>
      have := start.isLt
      simp only [List.foldl_nil, byteSum, List.map_nil, List.sum_nil]
      omega
  | cons b bytes ih =>
      rw [List.foldl_cons, ih, BitVec.toNat_add]
      simp only [byteSum, List.map_cons, List.sum_cons]
      omega

/-- The last byte is the checksum of the others exactly when all of them add up to a multiple of
256. -/
theorem checksum_eq_iff {body : List Byte} {b : Byte} :
    checksum body = b ↔ byteSum (body ++ [b]) % 256 = 0 := by
  have hsum := toNat_foldl_add body 0#8
  have hb := b.isLt
  rw [byteSum_append, checksum]
  simp only [BitVec.toNat_ofNat, Nat.zero_mod, Nat.zero_add] at hsum
  simp only [byteSum, List.map_cons, List.map_nil, List.sum_cons, List.sum_nil, Nat.add_zero]
    at hsum ⊢
  rw [← BitVec.toNat_inj, BitVec.toNat_neg, hsum]
  omega

/-! ### Frames -/

/-- The bytes of a line. -/
structure Frame where
  length : Byte
  high : Byte
  low : Byte
  code : Byte
  payload : List Byte
  checksum : Byte

/-- A word of two bytes, high byte first. -/
def bigEndian (high low : Byte) : Word :=
  (high.setWidth 16 <<< 8) ||| low.setWidth 16

namespace Frame

/-- All bytes but the checksum. -/
def body (f : Frame) : List Byte :=
  f.length :: f.high :: f.low :: f.code :: f.payload

/-- All bytes of a line, in order. -/
def bytes (f : Frame) : List Byte :=
  f.body ++ [f.checksum]

/-- The length byte counts the payload, and all bytes add up to a multiple of 256. -/
structure Sound (f : Frame) : Prop where
  length_eq : f.payload.length = f.length.toNat
  sum_eq : byteSum f.bytes % 256 = 0

/-- The record of a frame, by its type.  Only data keeps the address, and only data and the upper
half of a linear address keep the payload. -/
inductive Carries (f : Frame) : HexRecord → Prop where
  | data (type : f.code = 0#8) : f.Carries (.data (bigEndian f.high f.low) f.payload)
  | endOfFile (type : f.code = 1#8) (size : f.payload.length = 0) : f.Carries .endOfFile
  | extendedSegmentAddress (type : f.code = 2#8) (size : f.payload.length = 2) :
      f.Carries .extendedSegmentAddress
  | startSegmentAddress (type : f.code = 3#8) (size : f.payload.length = 4) :
      f.Carries .startSegmentAddress
  | extendedLinearAddress {high low : Byte} (type : f.code = 4#8) (size : f.payload = [high, low]) :
      f.Carries (.extendedLinearAddress (bigEndian high low))
  | startLinearAddress (type : f.code = 5#8) (size : f.payload.length = 4) :
      f.Carries .startLinearAddress

end Frame

/-- A line of a record: a colon and the digits of a sound frame that carries it. -/
def IsLineOf (line : List Char) (r : HexRecord) : Prop :=
  ∃ f : Frame, f.Sound ∧ f.Carries r ∧ ∃ cs, line = ':' :: cs ∧ Spells cs f.bytes

theorem ofBytes_eq_bigEndian (low high : Byte) : Word.ofBytes low high = bigEndian high low := by
  refine BitVec.eq_of_getLsbD_eq fun i hi => ?_
  rw [Word.ofBytes, bigEndian, BitVec.getLsbD_append, BitVec.getLsbD_or, BitVec.getLsbD_shiftLeft,
    BitVec.getLsbD_setWidth, BitVec.getLsbD_setWidth]
  by_cases h : i < 8
  · simp [h, hi]
  · simp [h, hi, BitVec.getLsbD_of_ge low i (by omega)]
    omega

/-- The type decides, and asks for its size of payload. -/
theorem recordOf_eq_ok {f : Frame} {r : HexRecord} :
    recordOf f.code (Word.ofBytes f.low f.high) f.payload = .ok r ↔ f.Carries r := by
  constructor
  · intro h
    have htype : ∀ {n : Nat}, f.code.toNat = n → f.code = BitVec.ofNat 8 n := fun hn => by
      rw [← hn, BitVec.ofNat_toNat, BitVec.setWidth_eq]
    have hsized : ∀ {n : Nat} {q : HexRecord},
        (if f.payload.length = n then .ok q else .error .invalidLengthForType) =
          (.ok r : Except LineError HexRecord) → f.payload.length = n ∧ q = r := by
      intro n q hq
      split at hq
      · rename_i hsize
        exact ⟨hsize, Except.ok.inj hq⟩
      · cases hq
    -- One case a type code, in the order of the codes.
    unfold recordOf at h
    split at h
    · rename_i hcode
      cases h
      rw [ofBytes_eq_bigEndian]
      exact .data (htype hcode)
    · rename_i hcode
      obtain ⟨hsize, rfl⟩ := hsized h
      exact .endOfFile (htype hcode) hsize
    · rename_i hcode
      obtain ⟨hsize, rfl⟩ := hsized h
      exact .extendedSegmentAddress (htype hcode) hsize
    · rename_i hcode
      obtain ⟨hsize, rfl⟩ := hsized h
      exact .startSegmentAddress (htype hcode) hsize
    · rename_i hcode
      split at h
      · rename_i high low hsize
        cases h
        rw [ofBytes_eq_bigEndian]
        exact .extendedLinearAddress (htype hcode) hsize
      · cases h
    · rename_i hcode
      obtain ⟨hsize, rfl⟩ := hsized h
      exact .startLinearAddress (htype hcode) hsize
    · cases h
  · intro h
    cases h with
    | data type => simp [recordOf, type, ofBytes_eq_bigEndian]
    | extendedLinearAddress type size => simp [recordOf, type, size, ofBytes_eq_bigEndian]
    | endOfFile type size | extendedSegmentAddress type size | startSegmentAddress type size
    | startLinearAddress type size => simp [recordOf, type, size]

/-- The record of a body whose length is right. -/
theorem recordOfBytes_body {f : Frame} {r : HexRecord} :
    recordOfBytes f.body = .ok r ↔ f.payload.length = f.length.toNat ∧ f.Carries r := by
  rw [Frame.body, recordOfBytes]
  by_cases hlen : f.payload.length = f.length.toNat
  · rw [if_pos hlen, recordOf_eq_ok]
    exact (and_iff_right hlen).symm
  · rw [if_neg hlen]
    exact iff_of_false nofun fun h => hlen h.1

/-! ### Reading a line -/

theorem length_bytesOf (ds : List Nat) : (bytesOf ds).length = ds.length / 2 := by
  fun_induction bytesOf ds with
  | case1 m n ds ih =>
      simp only [List.length_cons, ih]
      omega
  | case2 ds hpair =>
      match ds, hpair with
      | [], _ => rfl
      | [_], _ => simp
      | m :: n :: ds, hpair => exact absurd rfl (hpair m n ds)

theorem Frame.length_bytes (f : Frame) : f.bytes.length = f.payload.length + 5 := by
  simp [bytes, body]

/-- Five bytes or more are those of a frame. -/
theorem exists_frame {bytes : List Byte} (h : 5 ≤ bytes.length) : ∃ f : Frame, f.bytes = bytes := by
  match bytes, h with
  | length :: high :: low :: code :: b :: rest, _ =>
      rcases List.eq_nil_or_concat (b :: rest) with hnil | ⟨payload, sum, hrest⟩
      · cases hnil
      · refine ⟨⟨length, high, low, code, payload, sum⟩, ?_⟩
        rw [hrest, List.concat_eq_append]
        rfl

/-- Of digits that spell a frame, the checksum decides first. -/
theorem recordOfDigits_eq {ds : List Nat} {f : Frame} (hbytes : bytesOf ds = f.bytes)
    (heven : ds.length % 2 = 0) (hmax : f.payload.length ≤ 255) :
    recordOfDigits ds = if byteSum f.bytes % 256 = 0 then recordOfBytes f.body
      else .error (.checksumMismatch (checksum f.body) f.checksum) := by
  have hlen : ds.length / 2 = f.payload.length + 5 := by
    rw [← length_bytesOf, hbytes, f.length_bytes]
  have hshort : ¬ ds.length < minDigits := by
    have : minDigits = 10 := rfl
    omega
  have hlong : ¬ maxDigits < ds.length := by
    have : maxDigits = 520 := rfl
    omega
  have hlast : f.bytes.getLastD 0#8 = f.checksum := List.getLastD_concat ..
  have hbody : f.bytes.dropLast = f.body := List.dropLast_concat
  have hsum : checksum f.body = f.checksum ↔ byteSum f.bytes % 256 = 0 := checksum_eq_iff
  rw [recordOfDigits, if_neg hshort, if_neg hlong, if_neg (by omega)]
  simp only [hbytes, hbody, hlast, hsum]

/-- **A line that spells a frame** is read if the checksum holds, and else reported for it. -/
theorem readLine_of_spells {cs : List Char} {f : Frame} (h : Spells cs f.bytes)
    (hmax : f.payload.length ≤ 255) :
    readLine (':' :: cs) = if byteSum f.bytes % 256 = 0 then recordOfBytes f.body
      else .error (.checksumMismatch (checksum f.body) f.checksum) := by
  obtain ⟨ds, hds, hlen, hbytes⟩ := h.digits
  rw [readLine, hds]
  exact recordOfDigits_eq hbytes (by omega) hmax

/-- A line that can be read spells a frame whose payload is not too long. -/
theorem frame_of_readLine {line : List Char} {r : HexRecord} (h : readLine line = .ok r) :
    ∃ (cs : List Char) (f : Frame), line = ':' :: cs ∧ Spells cs f.bytes ∧
      f.payload.length ≤ 255 := by
  unfold readLine at h
  split at h
  · rename_i cs
    split at h
    · rename_i ds hds
      unfold recordOfDigits at h
      split at h
      · cases h
      rename_i hshort
      split at h
      · cases h
      rename_i hlong
      split at h
      · cases h
      rename_i heven
      -- At least ten digits make the five bytes of a frame, at most 520 bound its payload.
      have hmin : minDigits = 10 := rfl
      have hmax : maxDigits = 520 := rfl
      have hlen := length_bytesOf ds
      obtain ⟨f, hf⟩ : ∃ f : Frame, f.bytes = bytesOf ds := exists_frame (by omega)
      refine ⟨cs, f, rfl, ?_, ?_⟩
      · rw [hf]
        exact Spells.of_digits (mapM_hexValue?_eq_some.mp hds) (by omega)
      · rw [← hf, f.length_bytes] at hlen
        omega
    · cases h
  · cases h

/-- **What a line reads as**: a line reads as a record exactly when it is a line of that record. -/
theorem readLine_eq_ok {line : List Char} {r : HexRecord} :
    readLine line = .ok r ↔ IsLineOf line r := by
  constructor
  · intro h
    obtain ⟨cs, f, rfl, hspells, hmax⟩ := frame_of_readLine h
    rw [readLine_of_spells hspells hmax] at h
    split at h
    · rename_i hsum
      obtain ⟨hlen, hcarries⟩ := recordOfBytes_body.mp h
      exact ⟨f, ⟨hlen, hsum⟩, hcarries, cs, rfl, hspells⟩
    · cases h
  · rintro ⟨f, hsound, hcarries, cs, rfl, hspells⟩
    have hlen := hsound.length_eq
    have hlt := f.length.isLt
    rw [readLine_of_spells hspells (by omega), if_pos hsound.sum_eq]
    exact recordOfBytes_body.mpr ⟨hlen, hcarries⟩

/-- A line of a record is made of a colon and digits. -/
theorem IsLineOf.notMem {line : List Char} {r : HexRecord} (h : IsLineOf line r) {c : Char}
    (hcolon : c ≠ ':') (hdigit : hexValue? c = none) : c ∉ line := by
  obtain ⟨f, -, -, cs, rfl, hspells⟩ := h
  exact hspells.notMem_cons hcolon hdigit

theorem IsLineOf.ne_nil {line : List Char} {r : HexRecord} (h : IsLineOf line r) : line ≠ [] := by
  obtain ⟨f, -, -, cs, rfl, -⟩ := h
  exact List.cons_ne_nil ':' cs

end PicBaseline.IntelHex
