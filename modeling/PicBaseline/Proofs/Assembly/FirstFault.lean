import PicBaseline.Proofs.Assembly.Run
import PicBaseline.Proofs.Assembly.Words
import Mathlib.Order.Bounds.Basic

/-!
# Proofs — the first fault is reported

A failed assembly names a record and a fault.  `DataFault D a bytes` says which fault a data record
has, by checks that come one after the other; `dataRecord_fault_eq_some` ties it to what taking the
record does.  `assembleWith_first_fault` then says what the report means for the image: everything
in front of the record is in order, and nothing behind it matters, but that an end-of-file record is
at fault only when something follows it.
-/

namespace PicBaseline.Assembly

variable {D : Decoder} {a : Word} {bytes : List Byte}

/-! ### The fault of a data record -/

/-- The `i`-th word of the record lies past the memory, or does not decode. -/
def Refused (D : Decoder) (a : Word) (bytes : List Byte) (i : Nat) : Prop :=
  0xFF < a.toNat / 2 + i ∨ ∃ cause, D (wordAt bytes i) = .error cause

/-- The first word of the record that is refused. -/
def FirstRefused (D : Decoder) (a : Word) (bytes : List Byte) (i : Nat) : Prop :=
  IsLeast {j | j < bytes.length / 2 ∧ Refused D a bytes j} i

/-- The fault of a data record, in the order of the checks: the address, the length of a
configuration word, the parity of the length, and then word by word the address before the
decoding. -/
inductive DataFault (D : Decoder) (a : Word) (bytes : List Byte) : Fault → Prop where
  | unaligned (odd : a.toNat % 2 = 1) : DataFault D a bytes (.unalignedAddress a)
  | configLength (even : a.toNat % 2 = 0) (config : a = 0x1FFE#16) (length : bytes.length ≠ 2) :
      DataFault D a bytes (.badConfigWordLength bytes.length)
  | oddCount (even : a.toNat % 2 = 0) (code : a ≠ 0x1FFE#16) (length : bytes.length % 2 = 1) :
      DataFault D a bytes (.oddByteCount bytes.length)
  | address {i : Nat} {w : Word} (even : a.toNat % 2 = 0) (code : a ≠ 0x1FFE#16)
      (length : bytes.length % 2 = 0) (first : FirstRefused D a bytes i)
      (past : 0xFF < a.toNat / 2 + i) (here : w.toNat = a.toNat / 2 + i) :
      DataFault D a bytes (.addressOutOfRange w)
  | decode {i : Nat} {w : Word} {cause : DecodeError} (even : a.toNat % 2 = 0)
      (code : a ≠ 0x1FFE#16) (length : bytes.length % 2 = 0) (first : FirstRefused D a bytes i)
      (inside : a.toNat / 2 + i ≤ 0xFF) (here : w.toNat = a.toNat / 2 + i)
      (fails : D (wordAt bytes i) = .error cause) :
      DataFault D a bytes (.decode w cause)

theorem place_ok_iff_not_refused {i : Nat} :
    (∃ r, place D (a.toNat / 2 + i) (wordAt bytes i) = .ok r) ↔ ¬ Refused D a bytes i := by
  simp only [place_eq_ok, Refused, not_or, Nat.not_lt]
  cases D (wordAt bytes i) with
  | error cause => simp
  | ok instruction => simp

/-- The loop stops at the first word that is refused, with the fault of that word. -/
theorem upToFault_placements {f : Fault} :
    (upToFault (placements D a bytes)).fault = some f ↔
      ∃ i, FirstRefused D a bytes i ∧
        place D (a.toNat / 2 + i) (wordAt bytes i) = .error f := by
  rw [upToFault_fault_eq_some]
  simp only [placements_getElem?, FirstRefused, IsLeast, mem_lowerBounds, Set.mem_ofPred_eq]
  constructor
  · rintro ⟨i, ⟨hi, hf⟩, hbefore⟩
    have hrefused : Refused D a bytes i := by
      by_contra hno
      obtain ⟨r, hr⟩ := place_ok_iff_not_refused.mpr hno
      rw [hf] at hr
      cases hr
    refine ⟨i, ⟨⟨hi, hrefused⟩, fun j hj => ?_⟩, hf⟩
    by_contra hlt
    obtain ⟨r, -, hr⟩ := hbefore j (Nat.not_le.mp hlt)
    exact place_ok_iff_not_refused.mp ⟨r, hr⟩ hj.2
  · rintro ⟨i, ⟨⟨hi, -⟩, hleast⟩, hf⟩
    refine ⟨i, ⟨hi, hf⟩, fun j hj => ?_⟩
    have hjn : j < bytes.length / 2 := by omega
    have hno : ¬ Refused D a bytes j := fun h => absurd (hleast j ⟨hjn, h⟩) (Nat.not_le.mpr hj)
    obtain ⟨r, hr⟩ := place_ok_iff_not_refused.mpr hno
    exact ⟨r, hjn, hr⟩

/-- The address of the first refused word fits a word: the ones before it are in memory. -/
theorem FirstRefused.toNat_ofNat {i : Nat} (h : FirstRefused D a bytes i) :
    (BitVec.ofNat 16 (a.toNat / 2 + i)).toNat = a.toNat / 2 + i := by
  have ha := a.isLt
  rw [BitVec.toNat_ofNat]
  refine Nat.mod_eq_of_lt ?_
  rcases Nat.eq_zero_or_pos i with rfl | hpos
  · omega
  · have hprev : ¬ 0xFF < a.toNat / 2 + (i - 1) := fun hgt => by
      have hmem : i - 1 ∈ {j | j < bytes.length / 2 ∧ Refused D a bytes j} :=
        ⟨by have := h.1.1; omega, Or.inl hgt⟩
      have := h.2 hmem
      omega
    omega

/-- **The fault of a data record**, by its conditions in their order. -/
theorem dataRecord_fault_eq_some {f : Fault} :
    (dataRecord D a bytes).fault = some f ↔ DataFault D a bytes f := by
  rw [dataRecord_eq]
  constructor
  · intro h
    split at h
    · rename_i hodd
      cases h
      exact .unaligned hodd
    rename_i heven
    have heven : a.toNat % 2 = 0 := by omega
    split at h
    · rename_i hconfig
      split at h
      · cases h
      · rename_i hlen
        cases h
        exact .configLength heven hconfig hlen
    rename_i hcode
    split at h
    · rename_i hlen
      cases h
      exact .oddCount heven hcode hlen
    · rename_i hlen
      have hlen : bytes.length % 2 = 0 := by omega
      obtain ⟨i, hfirst, hplace⟩ := upToFault_placements.mp h
      rcases place_eq_error.mp hplace with ⟨hpast, rfl⟩ | ⟨hin, cause, hfails, rfl⟩
      · exact .address heven hcode hlen hfirst hpast hfirst.toNat_ofNat
      · exact .decode heven hcode hlen hfirst hin hfirst.toNat_ofNat hfails
  · intro h
    -- The word that a fault names is the one the loop counts to.
    have hword : ∀ {i : Nat} {w : Word}, w.toNat = a.toNat / 2 + i →
        w = BitVec.ofNat 16 (a.toNat / 2 + i) := fun h => by
      rw [← h, BitVec.ofNat_toNat, BitVec.setWidth_eq]
    cases h with
    | unaligned hodd => rw [if_pos hodd]
    | configLength heven hconfig hlen =>
        rw [if_neg (by omega), if_pos hconfig, if_neg hlen]
    | oddCount heven hcode hlen => rw [if_neg (by omega), if_neg hcode, if_pos hlen]
    | address heven hcode hlen hfirst hpast hhere =>
        rw [if_neg (by omega), if_neg hcode, if_neg (by omega), upToFault_placements]
        exact ⟨_, hfirst, place_eq_error.mpr (Or.inl ⟨hpast, by rw [hword hhere]⟩)⟩
    | decode heven hcode hlen hfirst hin hhere hfails =>
        rw [if_neg (by omega), if_neg hcode, if_neg (by omega), upToFault_placements]
        exact ⟨_, hfirst, place_eq_error.mpr (Or.inr ⟨hin, _, hfails, by rw [hword hhere]⟩)⟩

/-! ### Trailing records -/

/-- Only an end-of-file record minds what follows it. -/
theorem record_fault_eq_trailingData {last : Bool} {r : HexRecord} :
    (record D last r).fault = some .trailingData ↔ r = .endOfFile ∧ last = false := by
  cases r with
  | data a bytes =>
      refine iff_of_false (fun h => ?_) nofun
      cases dataRecord_fault_eq_some.mp h
  | endOfFile => cases last <;> simp [record]
  | extendedLinearAddress u => simp [record]
  | startSegmentAddress | extendedSegmentAddress | startLinearAddress => simp [record]

end PicBaseline.Assembly

namespace PicBaseline

open Assembly

/-- **The first fault is reported, exactly.**  The records in front of the reported one hold no
end of file and assemble on their own.  A fault other than trailing data is the same whatever
follows the record; trailing data is reported of an end-of-file record with which the image could
end, and whatever follows it.  A data record is reported for the fault its checks give, in their
order. -/
theorem assembleWith_first_fault {D : Decoder} {rs : List HexRecord} {k : Nat} {f : Fault}
    (h : assembleWith D rs = .error ⟨k, f⟩) :
    (1 ≤ k ∧ k ≤ rs.length) ∧
    (.endOfFile ∉ rs.take (k - 1) ∧ ∃ p, assembleWith D (rs.take (k - 1)) = .ok p) ∧
    (f ≠ .trailingData → ∀ rs', rs.take k <+: rs' → assembleWith D rs' = .error ⟨k, f⟩) ∧
    (f = .trailingData → rs[k - 1]? = some .endOfFile ∧
      (∃ p, assembleWith D (rs.take k) = .ok p) ∧
      ∀ rs', rs.take k <+: rs' → k < rs'.length → assembleWith D rs' = .error ⟨k, f⟩) ∧
    ∀ a bytes, rs[k - 1]? = some (.data a bytes) → ∀ g, DataFault D a bytes g ↔ g = f := by
  obtain ⟨before, r, after, rfl, rfl, hpass, hf⟩ := assembleWith_eq_error.mp h
  have htake : (before ++ r :: after).take (before.length + 1) = before ++ [r] := by
    rw [List.append_cons]
    exact List.take_left' (by simp)
  have hget : (before ++ r :: after)[before.length]? = some r := by simp
  simp only [Nat.add_sub_cancel, List.take_left, htake, hget, Option.some.injEq]
  refine ⟨⟨by omega, by simp⟩, ⟨fun hmem => (hpass _ hmem).ne_endOfFile rfl, _,
    assembleWith_of_passes hpass⟩, fun hne => ?_, fun heq => ?_, ?_⟩
  · -- Any other fault is the record's own, so what follows it may be exchanged.
    rintro _ ⟨rest, rfl⟩
    have hr : r ≠ .endOfFile := by
      rintro rfl
      cases he : after.isEmpty <;> simp [record, he] at hf
      exact hne hf.symm
    rw [record_of_ne hr] at hf
    refine assembleWith_eq_error.mpr ⟨before, r, rest, by simp, rfl, hpass, ?_⟩
    rw [record_of_ne hr, hf]
  · -- Trailing data is a fault of the end of file for what follows it: without that it is taken.
    subst heq
    obtain ⟨rfl, -⟩ := record_fault_eq_trailingData.mp hf
    refine ⟨rfl, ⟨_, assembleWith_concat_of_passes hpass rfl⟩, ?_⟩
    rintro _ ⟨rest, rfl⟩ hlen
    have hrest : rest.isEmpty = false := by
      cases rest with
      | nil => simp at hlen
      | cons q rest => rfl
    exact assembleWith_eq_error.mpr ⟨before, .endOfFile, rest, by simp, rfl, hpass,
      record_fault_eq_trailingData.mpr ⟨rfl, hrest⟩⟩
  · rintro a bytes rfl g
    rw [← dataRecord_fault_eq_some]
    have hdata : (dataRecord D a bytes).fault = some f := hf
    rw [hdata, Option.some.injEq, eq_comm]

/-- With a decoder that refuses every word: a record that runs past the memory is reported for its
first word, which is still inside, and an end-of-file record for what follows it. -/
theorem assembleWith_first_fault_refusing :
    let D : Decoder := fun w => .error (.unknownOpcode w)
    assembleWith D [.data 0x1FE#16 [0x25#8, 0xF0#8, 0x08#8, 0x00#8], .endOfFile, .endOfFile] =
      .error ⟨1, .decode 0xFF#16 (.unknownOpcode 0xF025#16)⟩ ∧
    DataFault D 0x1FE#16 [0x25#8, 0xF0#8, 0x08#8, 0x00#8]
      (.decode 0xFF#16 (.unknownOpcode 0xF025#16)) ∧
    (∀ rs', [.data 0x1FE#16 [0x25#8, 0xF0#8, 0x08#8, 0x00#8]] <+: rs' →
      assembleWith D rs' = .error ⟨1, .decode 0xFF#16 (.unknownOpcode 0xF025#16)⟩) ∧
    assembleWith D [.endOfFile, .startLinearAddress] = .error ⟨1, .trailingData⟩ ∧
    ∃ p, assembleWith D [.endOfFile] = .ok p := by
  intro D
  have h : assembleWith D
      [.data 0x1FE#16 [0x25#8, 0xF0#8, 0x08#8, 0x00#8], .endOfFile, .endOfFile] =
        .error ⟨1, .decode 0xFF#16 (.unknownOpcode 0xF025#16)⟩ := rfl
  have heof : assembleWith D [.endOfFile, .startLinearAddress] = .error ⟨1, .trailingData⟩ := rfl
  obtain ⟨-, -, hsame, -, hdata⟩ := assembleWith_first_fault h
  obtain ⟨-, -, -, htrailing, -⟩ := assembleWith_first_fault heof
  exact ⟨h, (hdata _ _ rfl _).mpr rfl, hsame nofun, heof, (htrailing rfl).2.1⟩

end PicBaseline
