import PicBaseline.Proofs.Assembly.Acceptance
import PicBaseline.Proofs.Assembly.Composition
import Mathlib.Data.List.GetD

/-!
# Proofs — where a data record is cut

Code may be cut into data records at any whole word.  `Cut a a' front` says that `front` is such a
part of a record at `a` and that `a'` is the byte address behind it.  The two records are taken when
the whole one is, and give the same (`Cut.assembles_alike`).

The rest could lie at the configuration word by its address alone.  It never does where that would
matter, because the front would have run past the memory before (`Cut.next_ne_config`).

* `assembleWith_data_cut`: so the cut is not seen in any image around it.
-/

namespace PicBaseline.Assembly

variable {D : Decoder} {a a' : Word} {front rest : List Byte}

/-! ### Words on both sides of a cut -/

theorem wordAt_append_left {i : Nat} (h : 2 * i + 1 < front.length) :
    wordAt (front ++ rest) i = wordAt front i := by
  rw [wordAt, List.getD_append _ _ _ _ (Nat.lt_of_succ_lt h), List.getD_append _ _ _ _ h]
  rfl

theorem wordAt_append_right {n : Nat} (h : front.length = 2 * n) (i : Nat) :
    wordAt (front ++ rest) (n + i) = wordAt rest i := by
  have hlow : 2 * (n + i) - front.length = 2 * i := by omega
  have hhigh : 2 * (n + i) + 1 - front.length = 2 * i + 1 := by omega
  rw [wordAt, List.getD_append_right _ _ _ _ (by omega), List.getD_append_right _ _ _ _ (by omega),
    hlow, hhigh]
  rfl

/-! ### One record or two -/

/-- `front` holds whole words of code from `a` on, and `a'` is the address behind them. -/
structure Cut (a a' : Word) (front : List Byte) : Prop where
  code : a ≠ 0x1FFE#16
  whole : front.length % 2 = 0
  next : a'.toNat = a.toNat + front.length

namespace Cut

theorem front_accepted (h : Cut a a' front) (hall : DataAccepted D a (front ++ rest)) :
    DataAccepted D a front := by
  obtain ⟨hlen, hmem⟩ := hall.code h.code
  have hwhole := h.whole
  rw [List.length_append] at hlen hmem
  refine ⟨⟨hall.even, fun hconfig => absurd hconfig h.code, fun _ => ⟨hwhole, by omega⟩⟩,
    fun _ i hi => ?_⟩
  obtain ⟨instruction, hins⟩ := hall.decodes h.code i (by rw [List.length_append]; omega)
  rw [wordAt_append_left (by omega)] at hins
  exact ⟨instruction, hins⟩

/-- Behind code that is taken the configuration word cannot follow. -/
theorem next_ne_config (h : Cut a a' front) (hfront : DataAccepted D a front) :
    a' ≠ 0x1FFE#16 := by
  intro hconfig
  have hnext := h.next
  rcases (hfront.code h.code).2 with hempty | hmem
  · -- An empty front leaves the address as it is.
    have hsame : a' = a := BitVec.eq_of_toNat_eq (by omega)
    exact h.code (hsame ▸ hconfig)
  · have := h.whole
    have : a'.toNat = 0x1FFE := congrArg BitVec.toNat hconfig
    omega

theorem rest_accepted (h : Cut a a' front) (hall : DataAccepted D a (front ++ rest)) :
    DataAccepted D a' rest := by
  obtain ⟨hlen, hmem⟩ := hall.code h.code
  have heven := hall.even
  have hwhole := h.whole
  have hnext := h.next
  rw [List.length_append] at hlen hmem
  refine ⟨⟨by omega, fun hconfig => absurd hconfig (h.next_ne_config (h.front_accepted hall)),
    fun _ => ⟨by omega, by omega⟩⟩, fun _ i hi => ?_⟩
  obtain ⟨instruction, hins⟩ :=
    hall.decodes h.code (front.length / 2 + i) (by rw [List.length_append]; omega)
  rw [wordAt_append_right (by omega)] at hins
  exact ⟨instruction, hins⟩

theorem accepted_of_parts (h : Cut a a' front) (hfront : DataAccepted D a front)
    (hrest : DataAccepted D a' rest) : DataAccepted D a (front ++ rest) := by
  have hcode' := h.next_ne_config hfront
  obtain ⟨hwhole, hfits⟩ := hfront.code h.code
  obtain ⟨hwhole', hfits'⟩ := hrest.code hcode'
  have hnext := h.next
  refine ⟨⟨hfront.even, fun hconfig => absurd hconfig h.code, fun _ => ?_⟩, fun _ i hi => ?_⟩
  · rw [List.length_append]
    omega
  · -- A word of the whole is one of the front, or one of the rest counted from its end.
    rw [List.length_append] at hi
    by_cases hin : i < front.length / 2
    · rw [wordAt_append_left (by omega)]
      exact hfront.decodes h.code i hin
    · obtain ⟨j, rfl⟩ := Nat.exists_eq_add_of_le (Nat.le_of_not_lt hin)
      rw [wordAt_append_right (by omega)]
      exact hrest.decodes hcode' j (by omega)

/-- **A record of code is taken when both its parts are.** -/
theorem accepted_iff (h : Cut a a' front) :
    DataAccepted D a (front ++ rest) ↔ DataAccepted D a front ∧ DataAccepted D a' rest :=
  ⟨fun hall => ⟨h.front_accepted hall, h.rest_accepted hall⟩,
    fun ⟨hfront, hrest⟩ => h.accepted_of_parts hfront hrest⟩

/-- The words of the parts, one part after the other, keep their addresses. -/
theorem output_eq (h : Cut a a' front) (hnext : a' ≠ 0x1FFE#16) :
    output D (.data a (front ++ rest)) = output D (.data a front) ++ output D (.data a' rest) := by
  obtain ⟨n, hn⟩ : ∃ n, front.length = 2 * n := ⟨front.length / 2, by have := h.whole; omega⟩
  have haddress := h.next
  have hwords : (front ++ rest).length / 2 = n + rest.length / 2 := by
    rw [List.length_append]
    omega
  have hfront : front.length / 2 = n := by omega
  simp only [output, if_neg h.code, if_neg hnext, hwords, hfront]
  rw [List.range_add, List.map_append, List.map_map]
  congr 1
  · refine List.map_congr_left fun i hi => ?_
    have hi := List.mem_range.mp hi
    rw [wordAt_append_left (by omega)]
  · refine List.map_congr_left fun i _ => ?_
    have hplace : a.toNat / 2 + (n + i) = a'.toNat / 2 + i := by omega
    rw [Function.comp_apply, wordAt_append_right hn, hplace]

theorem yield_eq (h : Cut a a' front) (hfront : DataAccepted D a front)
    (hrest : DataAccepted D a' rest) :
    yield D (.data a (front ++ rest)) = yield D (.data a front) ++ yield D (.data a' rest) := by
  refine List.map_injective_iff.mpr (fun _ _ => Option.some.inj) ?_
  rw [List.map_append, yield_data (h.accepted_of_parts hfront hrest), yield_data hfront,
    yield_data hrest, h.output_eq (h.next_ne_config hfront)]

/-- **A record and its two parts assemble alike.** -/
theorem assembles_alike (h : Cut a a' front) (p : Program) :
    assembleWith D [.data a (front ++ rest)] = .ok p ↔
      assembleWith D [.data a front, .data a' rest] = .ok p := by
  simp only [assembleWith_eq_ok, record_fault_eq_none, List.forall_mem_cons, List.not_mem_nil,
    false_implies, implies_true, and_true, RecordAccepted, h.accepted_iff, List.flatMap_cons,
    List.flatMap_nil, List.append_nil]
  constructor
  · rintro ⟨-, ⟨hfront, hrest⟩, hrec⟩
    exact ⟨by simp, ⟨hfront, hrest⟩, hrec.trans (h.yield_eq hfront hrest)⟩
  · rintro ⟨-, ⟨hfront, hrest⟩, hrec⟩
    exact ⟨by simp, ⟨hfront, hrest⟩, hrec.trans (h.yield_eq hfront hrest).symm⟩

end Cut

end PicBaseline.Assembly

namespace PicBaseline

open Assembly

/-- **Record boundaries do not matter.**  In any image and for every decoder, a record of code may
be cut behind whole words into two, the second at the address behind the first: one image gives a
program if and only if the other does, and it is the same program. -/
theorem assembleWith_data_cut (D : Decoder) (before after : List HexRecord) {a : Word}
    {front : List Byte} (rest : List Byte) (hcode : a ≠ 0x1FFE#16) (hwhole : front.length % 2 = 0)
    (hfits : a.toNat + front.length ≤ 0xFFFF) (p : Program) :
    assembleWith D (before ++ [.data a (front ++ rest)] ++ after) = .ok p ↔
      assembleWith D
        (before ++ [.data a front, .data (a + BitVec.ofNat 16 front.length) rest] ++ after) =
          .ok p := by
  have hnext : (a + BitVec.ofNat 16 front.length).toNat = a.toNat + front.length := by
    rw [BitVec.toNat_add, BitVec.toNat_ofNat]
    omega
  have hcut : Cut a (a + BitVec.ofNat 16 front.length) front := ⟨hcode, hwhole, hnext⟩
  exact assembleWith_replace (by simp) (by simp) (by simp) (by simp) hcut.assembles_alike
    before after p

/-- A cut in front of the last word of memory; and one behind which the rest, by its address, would
be the configuration word: that image gives no program, as the whole record gives none. -/
theorem assembleWith_data_cut_last_word :
    let i : Instruction := ⟨⟨"nop", ⟨0#16, 0xFFF#16, .noOperands⟩, 1, .empty⟩, .noOperands⟩
    let D : Decoder := fun _ => .ok i
    (0x1FC#16 ≠ 0x1FFE#16 ∧ [0#8, 0#8].length % 2 = 0 ∧
      (0x1FC#16).toNat + [0#8, 0#8].length ≤ 0xFFFF ∧
      assembleWith D ([] ++ [.data 0x1FC#16 [0#8, 0#8], .data 0x1FE#16 [0#8, 0#8]] ++ []) =
        .ok ⟨[.statement ⟨0xFE#8, i⟩, .statement ⟨0xFF#8, i⟩]⟩) ∧
    ∀ p, assembleWith D
      ([] ++ [.data 0x1FFC#16 [0#8, 0#8], .data 0x1FFE#16 [0xEB#8, 0xFF#8]] ++ []) ≠ .ok p := by
  intro i D
  refine ⟨⟨by decide, by decide, by decide, ?_⟩, fun p hp => ?_⟩
  · exact (assembleWith_data_cut D [] [] [0#8, 0#8] (by decide) (by decide) (by decide) _).mp rfl
  · have hwhole := (assembleWith_data_cut D [] [] [0xEB#8, 0xFF#8]
      (by decide) (by decide) (by decide) p).mpr hp
    cases hwhole

end PicBaseline
