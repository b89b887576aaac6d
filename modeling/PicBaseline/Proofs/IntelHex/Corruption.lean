import PicBaseline.Program.Assembly
import PicBaseline.Proofs.IntelHex.Rendering

/-!
# Proofs — a changed byte is found

Another value for one byte of a line changes neither the number of digits nor how the text falls
into lines, and moves the sum of the bytes away from a multiple of 256.  The checksum is checked
before the length and the type, so it is what the reader reports, even where the byte is one of
these (`readLine_changed`); and the lines in front read as before, so the report has the number of
the changed line (`changed_byte_is_located`).
-/

namespace PicBaseline.IntelHex

open Text (fullLines)

/-- One byte of the `n`-th line that is not empty has got another value: its two digits are written
anew, and all else is as it was.  The byte is any of the line, behind the colon and a whole number
of bytes. -/
inductive ByteChange (n : Nat) : List Char → List Char → Prop where
  | intro {before digits pair pair' after : List Char} {front : List Byte} {b b' : Byte}
      (start : before = [] ∨ before.getLast? = some '\n')
      (number : n = (fullLines before).length + 1)
      (aligned : Spells digits front) (old : Spells pair [b]) (new : Spells pair' [b'])
      (changed : b ≠ b') :
      ByteChange n (before ++ (':' :: (digits ++ pair) ++ after))
        (before ++ (':' :: (digits ++ pair') ++ after))

/-! ### The changed line -/

/-- One changed byte moves the sum off the multiples of 256. -/
theorem byteSum_changed {front back : List Byte} {b b' : Byte} (h : b ≠ b')
    (hsum : byteSum (front ++ [b] ++ back) % 256 = 0) :
    byteSum (front ++ [b'] ++ back) % 256 ≠ 0 := by
  have hb := b.isLt
  have hb' := b'.isLt
  have hne : b.toNat ≠ b'.toNat := fun heq => h (BitVec.eq_of_toNat_eq heq)
  rw [byteSum_append, byteSum_append] at hsum ⊢
  simp only [byteSum, List.map_cons, List.map_nil, List.sum_cons, List.sum_nil] at hsum ⊢
  omega

/-- A line that reads well fails by its checksum once a byte of it is changed. -/
theorem readLine_changed {digits pair pair' tail : List Char} {front : List Byte} {b b' : Byte}
    (aligned : Spells digits front) (old : Spells pair [b]) (new : Spells pair' [b'])
    (changed : b ≠ b') {r : HexRecord}
    (h : readLine (':' :: (digits ++ pair) ++ tail) = .ok r) :
    ∃ computed written, computed ≠ written ∧
      readLine (':' :: (digits ++ pair') ++ tail) =
        .error (.checksumMismatch computed written) := by
  obtain ⟨f, hsound, -, cs, hline, hspells⟩ := readLine_eq_ok.mp h
  obtain rfl : digits ++ pair ++ tail = cs := (List.cons.inj hline).2
  obtain ⟨back, hbytes, htail⟩ := hspells.of_append (aligned.append old)
  have hnew : Spells (digits ++ pair' ++ tail) (front ++ [b'] ++ back) :=
    (aligned.append new).append htail
  -- The new bytes make a frame of the same length.
  have hlen : (front ++ [b'] ++ back).length = f.payload.length + 5 := by
    rw [← f.length_bytes, hbytes]
    simp
  obtain ⟨f', hf'⟩ : ∃ f' : Frame, f'.bytes = front ++ [b'] ++ back := exists_frame (by omega)
  rw [← hf', f'.length_bytes] at hlen
  rw [← hf'] at hnew
  have hmax : f'.payload.length ≤ 255 := by
    have := hsound.length_eq
    have := f.length.isLt
    omega
  have hsum : byteSum f'.bytes % 256 ≠ 0 := by
    rw [hf']
    exact byteSum_changed changed (hbytes ▸ hsound.sum_eq)
  refine ⟨checksum f'.body, f'.checksum, fun heq => hsum (checksum_eq_iff.mp heq), ?_⟩
  exact (readLine_of_spells hnew hmax).trans (if_neg hsum)

/-! ### The changed text -/

/-- A changed text has the lines of the text, but for the changed one. -/
theorem fullLines_changed {digits pair pair' : List Char} {front : List Byte} {b b' : Byte}
    (aligned : Spells digits front) (old : Spells pair [b]) (new : Spells pair' [b'])
    {before : List Char} (start : before = [] ∨ before.getLast? = some '\n') (after : List Char) :
    ∃ tail more,
      fullLines (before ++ (':' :: (digits ++ pair) ++ after)) =
        fullLines before ++ (':' :: (digits ++ pair) ++ tail) :: more ∧
      fullLines (before ++ (':' :: (digits ++ pair') ++ after)) =
        fullLines before ++ (':' :: (digits ++ pair') ++ tail) :: more := by
  obtain ⟨tail, more, hhead⟩ := Text.fullLines_head after
  have hline : ∀ {cs : List Char} {bytes : List Byte}, Spells cs bytes →
      fullLines (':' :: cs ++ after) = (':' :: cs ++ tail) :: more := fun hcs =>
    hhead _ (List.cons_ne_nil _ _) (hcs.notMem_cons (by decide) (by decide)) fun hlast =>
      hcs.notMem_cons (by decide) (by decide) (List.mem_of_getLast? hlast)
  refine ⟨tail, more, ?_, ?_⟩
  · rw [Text.fullLines_append start, hline (aligned.append old)]
  · rw [Text.fullLines_append start, hline (aligned.append new)]

/-- **Every changed byte is found and located.**  If a text can be read and one byte of its `n`-th
line that is not empty gets another value, reading the text fails at record `n` with a checksum
mismatch, and so does assembling it. -/
theorem changed_byte_is_located {text text' : String} {rs : List HexRecord} {n : Nat}
    (h : readRecords text = .ok rs) (hchange : ByteChange n text.toList text'.toList) :
    ∃ computed written, computed ≠ written ∧
      readRecords text' = .error ⟨n, .checksumMismatch computed written⟩ ∧
      Program.ofHex text' = .error (.read ⟨n, .checksumMismatch computed written⟩) ∧
      (ImageError.read ⟨n, .checksumMismatch computed written⟩).chain.head? =
        some ("hex record " ++ Text.decimal n) := by
  rw [readRecords_eq_ok] at h
  generalize hold : text.toList = cs at h hchange
  generalize hnew : text'.toList = cs' at hchange
  obtain ⟨start, rfl, aligned, old, new, changed⟩ := hchange
  rename_i before digits pair pair' after front b b'
  obtain ⟨tail, more, hlines, hlines'⟩ := fullLines_changed aligned old new start after
  -- The lines of the two texts differ in one, and the old text could be read.
  rw [hlines] at h
  have hread := exists_of_mem_forall₂ h
  obtain ⟨r, hr⟩ := hread (':' :: (digits ++ pair) ++ tail) (by simp)
  obtain ⟨computed, written, hne, herror⟩ :=
    readLine_changed aligned old new changed (readLine_eq_ok.mpr hr)
  have hrecords : readRecords text' =
      .error ⟨(fullLines before).length + 1, .checksumMismatch computed written⟩ := by
    refine readLines_eq_error.mpr ⟨fullLines before, _, more, ?_, Nat.add_comm _ 1, ?_, herror⟩
    · rw [hnew]
      exact hlines'
    · intro l hl
      obtain ⟨q, hq⟩ := hread l (List.mem_append_left _ hl)
      exact ⟨q, readLine_eq_ok.mpr hq⟩
  refine ⟨computed, written, hne, hrecords, ?_, rfl⟩
  rw [Program.ofHex, hrecords]

/-- The type of an end-of-file record changed to that of data, with no payload: but for the checksum
the line would read as an empty data record. -/
theorem changed_byte_is_located_type :
    readRecords ":020000040000FA\r\n\n:00000001FF" =
      .ok [.extendedLinearAddress 0#16, .endOfFile] ∧
    ByteChange 2 ":020000040000FA\r\n\n:00000001FF".toList
      ":020000040000FA\r\n\n:00000000FF".toList ∧
    ∃ computed written, computed ≠ written ∧
      readRecords ":020000040000FA\r\n\n:00000000FF" =
        .error ⟨2, .checksumMismatch computed written⟩ := by
  have h : readRecords ":020000040000FA\r\n\n:00000001FF" =
      .ok [.extendedLinearAddress 0#16, .endOfFile] := rfl
  have hzero : Spells ['0', '0'] [0#8] := .cons (by decide) (by decide) .nil
  have hone : Spells ['0', '1'] [1#8] := .cons (by decide) (by decide) .nil
  have hchange : ByteChange 2 ":020000040000FA\r\n\n:00000001FF".toList
      ":020000040000FA\r\n\n:00000000FF".toList :=
    show ByteChange 2
      (":020000040000FA\r\n\n".toList ++ (':' :: ("000000".toList ++ "01".toList) ++ "FF".toList))
      (":020000040000FA\r\n\n".toList ++ (':' :: ("000000".toList ++ "00".toList) ++ "FF".toList))
    from .intro (Or.inr rfl) rfl ((hzero.append hzero).append hzero) hone hzero (by decide)
  obtain ⟨computed, written, hne, hread, -⟩ := changed_byte_is_located h hchange
  exact ⟨h, hchange, computed, written, hne, hread⟩

end PicBaseline.IntelHex
