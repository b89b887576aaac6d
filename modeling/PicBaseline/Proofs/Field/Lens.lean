import PicBaseline.Operand.Representation
import PicBaseline.Proofs.Field

/-!
# Proofs — the laws of field access

A word is what one of its fields holds, together with the bits outside that field
(`eq_of_extract_eq`).  So a write is known as soon as it is known what the field reads afterwards
and that every other bit stays, and the laws of reading and writing follow from these two facts
without a look at masks and shifts.

* `insert_extract`: writing back what a field holds changes nothing.
* `insert_insert`: of two writes to one field the second decides.
* `Disjoint.insert_comm`: writes to disjoint fields may change places.

Fields may touch: a bit number sits directly above the register, and `Disjoint` asks for no gap.
-/

namespace PicBaseline

namespace Field

variable {f g : Field} {w w' : Word}

/-! ### Positions -/

instance : Membership Nat Field where
  mem f i := f.lo ≤ i ∧ i < f.hi

instance (i : Nat) (f : Field) : Decidable (i ∈ f) :=
  inferInstanceAs (Decidable (f.lo ≤ i ∧ i < f.hi))

/-- No position belongs to both fields. -/
def Disjoint (f g : Field) : Prop := ∀ i ∈ f, i ∉ g

/-- Of two disjoint fields one ends before the other begins. -/
theorem disjoint_iff : f.Disjoint g ↔ f.hi ≤ g.lo ∨ g.hi ≤ f.lo := by
  constructor
  · intro h
    have hf := f.lo_lt_hi
    have hg := g.lo_lt_hi
    refine Decidable.byContradiction fun hmeet => ?_
    -- the higher of the two lower ends would lie in both
    exact h (max f.lo g.lo) ⟨by omega, by omega⟩ ⟨by omega, by omega⟩
  · rintro h i ⟨hfi, hif⟩ ⟨hgi, hig⟩
    omega

instance (f g : Field) : Decidable (f.Disjoint g) :=
  decidable_of_iff _ disjoint_iff.symm

theorem Disjoint.symm (h : f.Disjoint g) : g.Disjoint f :=
  fun i hg hf => h i hf hg

/-! ### A word as a field and the rest -/

/-- Positions outside the field are the frame of a write. -/
theorem getLsbD_insert_of_not_mem {i : Nat} (h : i ∉ f) (w v : Word) :
    (f.insert w v).getLsbD i = w.getLsbD i :=
  (getLsbD_insert f w v i).trans (if_neg h)

/-- The bit that a write leaves at a position depends on the word at that position only. -/
theorem getLsbD_insert_congr {i : Nat} (h : w.getLsbD i = w'.getLsbD i) (f : Field) (v : Word) :
    (f.insert w v).getLsbD i = (f.insert w' v).getLsbD i := by
  rw [getLsbD_insert, getLsbD_insert, h]

/-- **A word is one of its fields and the bits outside it.** -/
theorem eq_of_extract_eq (f : Field) (hin : f.extract w = f.extract w')
    (hout : ∀ i, i ∉ f → w.getLsbD i = w'.getLsbD i) : w = w' := by
  refine BitVec.eq_of_getLsbD_eq fun i _ => ?_
  by_cases hi : i ∈ f
  · exact extract_eq_iff.mp hin i hi.1 hi.2
  · exact hout i hi

/-- What a field reads after a write depends on the value alone, not on the word written to. -/
theorem extract_insert_congr (f : Field) (w w' v : Word) :
    f.extract (f.insert w v) = f.extract (f.insert w' v) :=
  BitVec.eq_of_toNat_eq
    ((toNat_extract_insert f w v).trans (toNat_extract_insert f w' v).symm)

/-! ### One field -/

/-- A value that a field holds fits it, so it is read back whole. -/
theorem extract_insert_extract (f : Field) (w w' : Word) :
    f.extract (f.insert w (f.extract w')) = f.extract w' := by
  refine BitVec.eq_of_toNat_eq ?_
  rw [toNat_extract_insert, Nat.mod_eq_of_lt (toNat_extract_lt f w')]

/-- Writing back what was read changes nothing. -/
theorem insert_extract (f : Field) (w : Word) : f.insert w (f.extract w) = w :=
  f.eq_of_extract_eq (extract_insert_extract f w w)
    fun _ hi => getLsbD_insert_of_not_mem hi w _

/-- The later of two writes counts. -/
theorem insert_insert (f : Field) (w u v : Word) :
    f.insert (f.insert w u) v = f.insert w v := by
  refine f.eq_of_extract_eq (extract_insert_congr f _ _ v) fun i hi => ?_
  exact getLsbD_insert_congr (getLsbD_insert_of_not_mem hi w u) f v

/-! ### Two fields -/

/-- A read does not see a write beside it. -/
theorem Disjoint.extract_insert (h : f.Disjoint g) (w v : Word) :
    f.extract (g.insert w v) = f.extract w :=
  extract_insert_of_disjoint (disjoint_iff.mp h) w v

/-- Writes beside each other may be exchanged. -/
theorem Disjoint.insert_comm (h : f.Disjoint g) (w v u : Word) :
    f.insert (g.insert w u) v = g.insert (f.insert w v) u := by
  refine f.eq_of_extract_eq ?_ fun i hi => ?_
  · calc f.extract (f.insert (g.insert w u) v)
        = f.extract (f.insert w v) := extract_insert_congr f _ _ v
      _ = f.extract (g.insert (f.insert w v) u) := (h.extract_insert _ u).symm
  · -- outside `f` both sides show the write to `g`, on words that agree there
    calc (f.insert (g.insert w u) v).getLsbD i
        = (g.insert w u).getLsbD i := getLsbD_insert_of_not_mem hi _ v
      _ = (g.insert (f.insert w v) u).getLsbD i :=
        getLsbD_insert_congr (getLsbD_insert_of_not_mem hi w v).symm g u

/-! ### The laws together -/

/-- **Field access is lawful**, for every field, word and value.  The positions of a field count
by significance, and a value too wide for it loses its upper bits. -/
theorem access_lens_laws (f : Field) (w v : Word) :
    (f.extract w).toNat = w.toNat / 2 ^ f.lo % 2 ^ (f.hi - f.lo) ∧
    (f.extract (f.insert w v)).toNat = v.toNat % 2 ^ (f.hi - f.lo) ∧
    f.insert w (f.extract w) = w ∧
    (∀ u, f.insert (f.insert w u) v = f.insert w v) ∧
    (∀ i, i ∉ f → (f.insert w v).getLsbD i = w.getLsbD i) ∧
    ∀ g : Field, f.Disjoint g → ∀ u,
      f.insert (g.insert w u) v = g.insert (f.insert w v) u ∧
      f.extract (g.insert w u) = f.extract w ∧
      g.extract (f.insert w v) = g.extract w := by
  refine ⟨toNat_extract f w, toNat_extract_insert f w v, insert_extract f w,
    fun u => insert_insert f w u v, fun i hi => ?_, fun g h u => ?_⟩
  · exact getLsbD_insert_of_not_mem hi w v
  · exact ⟨h.insert_comm w v u, h.extract_insert w u, h.symm.extract_insert w v⟩

/-- The bit number and the register directly below it, each given a value too wide for it: the
bits on both sides of the bit number stay. -/
theorem access_lens_laws_adjacent :
    bitNumber.Disjoint register ∧ 4 ∉ bitNumber ∧ 8 ∉ bitNumber ∧
    (bitNumber.extract (bitNumber.insert 0xB55#16 0xFFFD#16)).toNat = 5 ∧
    (bitNumber.insert 0xB55#16 0xFFFD#16).getLsbD 4 = true ∧
    (bitNumber.insert 0xB55#16 0xFFFD#16).getLsbD 8 = true ∧
    bitNumber.insert (register.insert 0xB55#16 0xFFE3#16) 0xFFFD#16 =
      register.insert (bitNumber.insert 0xB55#16 0xFFFD#16) 0xFFE3#16 ∧
    bitNumber.extract (register.insert 0xB55#16 0xFFE3#16) = 2#16 ∧
    register.extract (bitNumber.insert 0xB55#16 0xFFFD#16) = 0x15#16 := by
  obtain ⟨-, hback, -, -, hstays, hapart⟩ := access_lens_laws bitNumber 0xB55#16 0xFFFD#16
  have hdisjoint : bitNumber.Disjoint register := by decide
  obtain ⟨hcomm, hbit, hregister⟩ := hapart register hdisjoint 0xFFE3#16
  exact ⟨hdisjoint, by decide, by decide, hback, hstays 4 (by decide), hstays 8 (by decide),
    hcomm, hbit, hregister⟩

end Field

end PicBaseline
