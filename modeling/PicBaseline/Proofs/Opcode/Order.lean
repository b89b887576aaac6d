import PicBaseline.Proofs.Instruction
import PicBaseline.Proofs.Pattern.Overlap

/-!
# Proofs — the order of the instruction set

A word is looked up by the first entry that accepts it, so the order of a table matters where two
entries accept the same word, and nowhere else.

* `lookup_eq_some`: the entry found is the one of lowest position among those that accept the word.
* `lookup_eq_of_sameOrder`: tables of the same entries find the same, if any two entries that accept
  a common word stand in the same order in both.
* `shared_word`: in the instruction set, that is `tris` with each of `nop`, `option`, `sleep` and
  `clrwdt`, and no other two entries.
* `lookup_eq_matching_iff`: hence the orders of the instruction set that decode alike are those that
  keep `tris` behind these four.
-/

namespace PicBaseline

namespace Opcode

variable {entries : List Opcode} {w : Word}

/-! ### Positions -/

/-- The place of a mnemonic in a table, counted from zero. -/
def position (entries : List Opcode) (name : String) : Nat :=
  entries.findIdx fun op => op.name == name

theorem position_getElem (hn : (entries.map name).Nodup) {i : Nat} (hi : i < entries.length) :
    position entries entries[i].name = i := by
  rw [position, List.findIdx_eq hi]
  refine ⟨by simp, ?_⟩
  intro j hj
  have hne : entries[j].name ≠ entries[i].name := by
    intro heq
    have hsame := List.inj_on_of_nodup_map hn (List.getElem_mem _) (List.getElem_mem _) heq
    have := (hn.of_map name).getElem_inj_iff.mp hsame
    omega
  simpa using hne

theorem position_inj (hn : (entries.map name).Nodup) {a b : Opcode} (ha : a ∈ entries)
    (hb : b ∈ entries) (h : position entries a.name = position entries b.name) : a = b := by
  obtain ⟨i, hi, rfl⟩ := List.getElem_of_mem ha
  obtain ⟨j, hj, rfl⟩ := List.getElem_of_mem hb
  rw [position_getElem hn, position_getElem hn] at h
  subst h
  rfl

/-- **The entry found** accepts the word, and no entry in front of it does. -/
theorem lookup_eq_some (hn : (entries.map name).Nodup) {a : Opcode} :
    lookup entries w = some a ↔ a ∈ entries ∧ a.pattern.accepts w ∧
      ∀ b ∈ entries, b.pattern.accepts w → position entries a.name ≤ position entries b.name := by
  rw [lookup, List.find?_eq_some_iff_getElem]
  constructor
  · rintro ⟨ha, i, hi, rfl, hbefore⟩
    refine ⟨List.getElem_mem hi, ha, ?_⟩
    intro b hb hacc
    obtain ⟨j, hj, rfl⟩ := List.getElem_of_mem hb
    rw [position_getElem hn, position_getElem hn]
    by_contra hlt
    have := hbefore j (Nat.not_le.mp hlt)
    simp [hacc] at this
  · rintro ⟨hmem, ha, hfirst⟩
    obtain ⟨i, hi, rfl⟩ := List.getElem_of_mem hmem
    refine ⟨ha, i, hi, rfl, ?_⟩
    intro j hj
    have hlen : j < entries.length := Nat.lt_trans hj hi
    by_contra hacc
    have hle := hfirst entries[j] (List.getElem_mem hlen) (by simpa using hacc)
    rw [position_getElem hn, position_getElem hn] at hle
    omega

theorem lookup_eq_none : lookup entries w = none ↔ ∀ b ∈ entries, ¬ b.pattern.accepts w := by
  rw [lookup, List.find?_eq_none]

/-- **Only the order of overlapping entries counts.** -/
theorem lookup_eq_of_sameOrder {entries' : List Opcode} (hperm : entries'.Perm entries)
    (hn : (entries.map name).Nodup)
    (h : ∀ a ∈ entries, ∀ b ∈ entries, a.pattern.accepts w → b.pattern.accepts w →
      position entries a.name ≤ position entries b.name →
      position entries' a.name ≤ position entries' b.name) :
    lookup entries' w = lookup entries w := by
  have hn' : (entries'.map name).Nodup := (hperm.map name).nodup_iff.mpr hn
  cases hfound : lookup entries w with
  | none =>
      rw [lookup_eq_none] at hfound ⊢
      intro b hb
      exact hfound b (hperm.mem_iff.mp hb)
  | some a =>
      obtain ⟨ha, hacc, hfirst⟩ := (lookup_eq_some hn).mp hfound
      refine (lookup_eq_some hn').mpr ⟨hperm.mem_iff.mpr ha, hacc, ?_⟩
      intro b hb hbacc
      have hb := hperm.mem_iff.mp hb
      exact h a ha b hb hacc hbacc (hfirst b hb hbacc)

/-! ### Words of two entries -/

/-- The opcodes whose word `tris` accepts too. -/
def insideTris : List String :=
  ["nop", "option", "sleep", "clrwdt"]

/-- In the instruction set these four stand in front of `tris`. -/
theorem insideTris_ahead : ∀ n ∈ insideTris, position table n < position table "tris" := by
  decide +kernel

/-- Apart from these four and `tris`, an entry overlaps itself only. -/
theorem overlapping_entries : ∀ a ∈ table, ∀ b ∈ table, a.pattern.overlaps b.pattern →
    a.name = b.name ∨ a.name ∈ insideTris ∧ b.name = "tris" ∨
      b.name ∈ insideTris ∧ a.name = "tris" := by
  decide +kernel

/-- The opcode of each of the four is a word of `tris` too. -/
theorem insideTris_overlaps : ∀ n ∈ insideTris, ∃ a ∈ table, a.name = n ∧
    ∃ t ∈ table, t.name = "tris" ∧
      a.pattern.accepts a.pattern.opcode ∧ t.pattern.accepts a.pattern.opcode := by
  decide +kernel

/-- **Two entries that accept a common word** are the same, or `tris` and one inside it. -/
theorem shared_word {a b : Opcode} (ha : a ∈ table) (hb : b ∈ table) (haw : a.pattern.accepts w)
    (hbw : b.pattern.accepts w) :
    a = b ∨ a.name ∈ insideTris ∧ b.name = "tris" ∨ b.name ∈ insideTris ∧ a.name = "tris" := by
  rcases overlapping_entries a ha b hb (Pattern.overlaps_of_accepts haw hbw) with hname | h
  · exact Or.inl (name_inj ha hb hname)
  · exact Or.inr h

/-- The word of an opcode inside `tris` is that opcode. -/
theorem matching_of_insideTris {a : Opcode} (ha : a ∈ table) (hin : a.name ∈ insideTris)
    (haw : a.pattern.accepts w) : matching w = some a := by
  rw [matching_eq_lookup]
  refine (lookup_eq_some nodup_names).mpr ⟨ha, haw, ?_⟩
  intro b hb hbw
  rcases shared_word ha hb haw hbw with rfl | ⟨-, htris⟩ | ⟨-, htris⟩
  · exact Nat.le_refl _
  · rw [htris]
    exact Nat.le_of_lt (insideTris_ahead _ hin)
  · rw [htris] at hin
    exact absurd hin (by decide)

/-! ### Orders that decode alike -/

/-- **The order of the instruction set matters only for `tris`.**  Among all orders of its entries,
those that find for every word what the instruction set finds are those that keep `tris` behind
`nop`, `option`, `sleep` and `clrwdt`. -/
theorem lookup_eq_matching_iff (hperm : entries.Perm table) :
    (∀ w : Word, lookup entries (w &&& wordMask) = matching w) ↔
      ∀ n ∈ ["nop", "option", "sleep", "clrwdt"],
        position entries n < position entries "tris" := by
  have hn : (entries.map name).Nodup := (hperm.map name).nodup_iff.mpr nodup_names
  constructor
  · -- The word of the opcode itself: `tris` accepts it too, so `tris` must not come first.
    intro hsame n hin
    obtain ⟨a, ha, rfl, t, ht, htris, haw, htw⟩ := insideTris_overlaps n hin
    have hfound := hsame a.pattern.opcode
    rw [matching_of_insideTris ha hin haw, lookup_eq_some hn] at hfound
    obtain ⟨ha', -, hfirst⟩ := hfound
    have ht' : t ∈ entries := hperm.mem_iff.mpr ht
    have hle := hfirst t ht' (by rwa [Pattern.accepts_and_wordMask])
    have hne : position entries a.name ≠ position entries t.name := by
      intro heq
      obtain rfl := position_inj hn ha' ht' heq
      rw [htris] at hin
      exact absurd hin (by decide)
    rw [← htris]
    omega
  · intro hbehind w
    rw [lookup_and_wordMask, matching_eq_lookup]
    refine lookup_eq_of_sameOrder hperm nodup_names ?_
    intro a ha b hb haw hbw hle
    rcases shared_word ha hb haw hbw with rfl | ⟨hin, htris⟩ | ⟨hin, htris⟩
    · exact Nat.le_refl _
    · rw [htris]
      exact Nat.le_of_lt (hbehind _ hin)
    · -- In the instruction set `tris` is behind, so it is not found first.
      have := insideTris_ahead _ hin
      rw [htris] at hle
      omega

/-- The other entries may be turned round if `tris` comes last; turning it round with them makes
`tris` hide `sleep`. -/
theorem lookup_eq_matching_iff_reversed :
    let turned := (table.filter (·.name != "tris")).reverse ++ table.filter (·.name == "tris")
    (turned.Perm table ∧ ∀ w : Word, lookup turned (w &&& wordMask) = matching w) ∧
      (table.reverse.Perm table ∧
        ¬ ∀ w : Word, lookup table.reverse (w &&& wordMask) = matching w) := by
  intro turned
  have hturned : turned.Perm table := by
    refine ((List.reverse_perm _).append_right _).trans ?_
    exact List.perm_append_comm.trans (List.filter_append_perm _ _)
  have hreverse : table.reverse.Perm table := List.reverse_perm table
  refine ⟨⟨hturned, (lookup_eq_matching_iff hturned).mpr (by decide +kernel)⟩, hreverse, ?_⟩
  intro hsame
  have hbehind := (lookup_eq_matching_iff hreverse).mp hsame "sleep" (by simp)
  exact absurd hbehind (by decide +kernel)

end Opcode

end PicBaseline
