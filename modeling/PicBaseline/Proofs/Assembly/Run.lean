import PicBaseline.Program.Assembly
import PicBaseline.Proofs.Prelude
import Mathlib.Data.List.Basic

/-!
# Proofs — the walk over the records

What taking one record can do, and from it what the whole walk does.  Only an end-of-file record
asks what follows it, so a record *passes* (`Passes D r`) when it is taken in front of others, and
the walk is described by which records pass.

* `recordsFrom_eq_ok`: a walk that ends well takes every record, no end-of-file record but the last
  one, and gives what the records give, in their order.
* `recordsFrom_append`: records that pass are gone through, and the walk goes on behind them.
* `recordsFrom_eq_error`: a walk that fails does so at the first record that is not taken, after
  records that pass.
* `recordsFrom_congr`: records that are taken alike, one by one, make walks that end alike.
-/

namespace PicBaseline.Assembly

variable {D : Decoder}

/-- What a record adds to the program. -/
def yield (D : Decoder) (r : HexRecord) : List Record :=
  (record D true r).records

/-- The record is taken, and others may follow it. -/
def Passes (D : Decoder) (r : HexRecord) : Prop :=
  (record D false r).fault = none

/-! ### One record -/

/-- What a record gives does not depend on what follows it. -/
theorem record_records (last : Bool) (r : HexRecord) : (record D last r).records = yield D r := by
  cases r <;> rfl

/-- Only an end of file asks whether a record follows. -/
theorem record_of_ne {r : HexRecord} (h : r ≠ .endOfFile) (last : Bool) :
    record D last r = record D true r := by
  cases r with
  | endOfFile => exact absurd rfl h
  | data | extendedLinearAddress | startSegmentAddress | extendedSegmentAddress
  | startLinearAddress => rfl

/-- What passes: a record that is no end of file, and has no fault as the last one. -/
theorem passes_iff {r : HexRecord} :
    Passes D r ↔ r ≠ .endOfFile ∧ (record D true r).fault = none := by
  by_cases h : r = .endOfFile
  · subst h
    simp [Passes, record]
  · simp [Passes, record_of_ne h, h]

theorem Passes.ne_endOfFile {r : HexRecord} (h : Passes D r) : r ≠ .endOfFile :=
  (passes_iff.mp h).1

theorem Passes.fault_eq_none {r : HexRecord} (h : Passes D r) (last : Bool) :
    (record D last r).fault = none := by
  rw [record_of_ne h.ne_endOfFile]
  exact (passes_iff.mp h).2

/-! ### The walk -/

theorem recordsFrom_cons_fault {line : Nat} {r : HexRecord} {rest : List HexRecord} {f : Fault}
    (h : (record D rest.isEmpty r).fault = some f) :
    recordsFrom D line (r :: rest) = .error ⟨line, f⟩ := by
  simp only [recordsFrom, h]

theorem recordsFrom_cons_taken {line : Nat} {r : HexRecord} {rest : List HexRecord}
    (h : (record D rest.isEmpty r).fault = none) :
    recordsFrom D line (r :: rest) =
      (recordsFrom D (line + 1) rest >>= fun later => .ok (yield D r ++ later)) := by
  simp only [recordsFrom, h, record_records]
  rfl

/-- **A walk that ends well** has taken every record, and only the last may be an end of file. -/
theorem recordsFrom_eq_ok {line : Nat} {rs : List HexRecord} {out : List Record} :
    recordsFrom D line rs = .ok out ↔
      .endOfFile ∉ rs.dropLast ∧ (∀ r ∈ rs, (record D true r).fault = none) ∧
        out = rs.flatMap (yield D) := by
  induction rs generalizing line out with
  | nil => simp [recordsFrom, eq_comm]
  | cons r rest ih =>
      -- A record that is followed has to pass; the last one is asked as the last.
      have hhead : (record D rest.isEmpty r).fault = none ↔
          (rest ≠ [] → r ≠ .endOfFile) ∧ (record D true r).fault = none := by
        cases rest with
        | nil => simp
        | cons q rest => simpa [Passes] using passes_iff (D := D) (r := r)
      have hlast : .endOfFile ∉ (r :: rest).dropLast ↔
          (rest ≠ [] → r ≠ .endOfFile) ∧ .endOfFile ∉ rest.dropLast := by
        cases rest with
        | nil => simp
        | cons q rest => simp [eq_comm]
      cases hf : (record D rest.isEmpty r).fault with
      | some f =>
          rw [recordsFrom_cons_fault hf, hlast]
          constructor
          · intro h; cases h
          · rintro ⟨⟨heof, -⟩, hall, -⟩
            have := hhead.mpr ⟨heof, hall r List.mem_cons_self⟩
            rw [hf] at this
            cases this
      | none =>
          obtain ⟨heof, htaken⟩ := hhead.mp hf
          rw [recordsFrom_cons_taken hf, bind_returns, hlast]
          constructor
          · rintro ⟨later, hlater, hout⟩
            cases hout
            obtain ⟨hrest, hall, rfl⟩ := ih.mp hlater
            exact ⟨⟨heof, hrest⟩, by simpa [htaken] using hall, rfl⟩
          · rintro ⟨⟨-, hrest⟩, hall, rfl⟩
            exact ⟨_, ih.mpr ⟨hrest, fun q hq => hall q (List.mem_cons_of_mem r hq), rfl⟩, rfl⟩

/-- Records that pass are gone through, whatever follows them. -/
theorem recordsFrom_append {before : List HexRecord} (h : ∀ q ∈ before, Passes D q) (line : Nat)
    (rest : List HexRecord) :
    recordsFrom D line (before ++ rest) =
      (recordsFrom D (line + before.length) rest >>= fun later =>
        .ok (before.flatMap (yield D) ++ later)) := by
  induction before generalizing line with
  | nil =>
      show recordsFrom D line rest = recordsFrom D line rest >>= _
      cases recordsFrom D line rest <;> rfl
  | cons r before ih =>
      have hr := (h r List.mem_cons_self).fault_eq_none (before ++ rest).isEmpty
      rw [List.cons_append, recordsFrom_cons_taken hr,
        ih (fun q hq => h q (List.mem_cons_of_mem r hq)), List.length_cons,
        Nat.add_right_comm line, Nat.add_assoc line]
      cases recordsFrom D (line + (before.length + 1)) rest with
      | error e => rfl
      | ok later => simp [bind, Except.bind]

/-- **A walk that fails** does so at a record that is not taken, after records that pass. -/
theorem recordsFrom_eq_error {line k : Nat} {rs : List HexRecord} {f : Fault} :
    recordsFrom D line rs = .error ⟨k, f⟩ ↔
      ∃ before r after, rs = before ++ r :: after ∧ k = line + before.length ∧
        (∀ q ∈ before, Passes D q) ∧ (record D after.isEmpty r).fault = some f := by
  constructor
  · intro h
    induction rs generalizing line with
    | nil => cases h
    | cons r rest ih =>
        cases hf : (record D rest.isEmpty r).fault with
        | some g =>
            rw [recordsFrom_cons_fault hf] at h
            cases h
            exact ⟨[], r, rest, rfl, rfl, by simp, hf⟩
        | none =>
            rw [recordsFrom_cons_taken hf, bind_fails] at h
            rcases h with h | ⟨later, -, h⟩
            · obtain ⟨before, q, after, rfl, rfl, hpass, hq⟩ := ih h
              -- The reported record stands behind this one, so this one is not the last.
              have hr : Passes D r := by
                rwa [List.isEmpty_eq_false_iff.mpr (by simp)] at hf
              refine ⟨r :: before, q, after, rfl, ?_, ?_, hq⟩
              · rw [List.length_cons]
                omega
              · simpa [hr] using hpass
            · cases h
  · rintro ⟨before, r, after, rfl, rfl, hpass, hf⟩
    rw [recordsFrom_append hpass, recordsFrom_cons_fault hf]
    rfl

theorem recordsFrom_congr {D D' : Decoder} {rs rs' : List HexRecord}
    (h : List.Forall₂ (fun r r' => ∀ last, record D last r = record D' last r') rs rs')
    (line : Nat) : recordsFrom D line rs = recordsFrom D' line rs' := by
  induction h generalizing line with
  | nil => rfl
  | @cons r r' rest rest' hr hrest ih =>
      have hlast : rest.isEmpty = rest'.isEmpty := by
        cases hrest <;> rfl
      rw [recordsFrom, recordsFrom, hr, hlast, ih]

end PicBaseline.Assembly

namespace PicBaseline

open Assembly

/-- **When there is a program**: no record has a fault and an end of file comes last; the program is
what the records give, one after the other. -/
theorem assembleWith_eq_ok {D : Decoder} {rs : List HexRecord} {p : Program} :
    assembleWith D rs = .ok p ↔
      .endOfFile ∉ rs.dropLast ∧ (∀ r ∈ rs, (record D true r).fault = none) ∧
        p.records = rs.flatMap (yield D) := by
  unfold assembleWith
  rw [bind_returns]
  constructor
  · rintro ⟨out, hout, h⟩
    cases h
    exact recordsFrom_eq_ok.mp hout
  · intro h
    exact ⟨p.records, recordsFrom_eq_ok.mpr h, rfl⟩

/-- Records that pass assemble, and one more that is taken last may follow them. -/
theorem assembleWith_of_passes {D : Decoder} {before : List HexRecord}
    (h : ∀ q ∈ before, Passes D q) :
    assembleWith D before = .ok ⟨before.flatMap (yield D)⟩ :=
  assembleWith_eq_ok.mpr ⟨fun hmem => (h _ (List.dropLast_subset _ hmem)).ne_endOfFile rfl,
    fun r hr => (h r hr).fault_eq_none true, rfl⟩

theorem assembleWith_concat_of_passes {D : Decoder} {before : List HexRecord} {r : HexRecord}
    (h : ∀ q ∈ before, Passes D q) (hr : (record D true r).fault = none) :
    assembleWith D (before ++ [r]) = .ok ⟨before.flatMap (yield D) ++ yield D r⟩ := by
  refine assembleWith_eq_ok.mpr ⟨?_, fun q hq => ?_, by simp⟩
  · rw [List.dropLast_concat]
    exact fun hmem => (h _ hmem).ne_endOfFile rfl
  · rcases List.mem_append.mp hq with hq | hq
    · exact (h q hq).fault_eq_none true
    · rwa [List.mem_singleton.mp hq]

/-- **When there is a report**: the records in front of the reported one pass, and it has the fault.
-/
theorem assembleWith_eq_error {D : Decoder} {rs : List HexRecord} {k : Nat} {f : Fault} :
    assembleWith D rs = .error ⟨k, f⟩ ↔
      ∃ before r after, rs = before ++ r :: after ∧ k = before.length + 1 ∧
        (∀ q ∈ before, Passes D q) ∧ (record D after.isEmpty r).fault = some f := by
  unfold assembleWith
  rw [bind_fails]
  constructor
  · rintro (h | ⟨out, -, h⟩)
    · simpa [Nat.add_comm] using recordsFrom_eq_error.mp h
    · cases h
  · intro h
    exact Or.inl (recordsFrom_eq_error.mpr (by simpa [Nat.add_comm] using h))

theorem assembleWith_congr {D D' : Decoder} {rs rs' : List HexRecord}
    (h : List.Forall₂ (fun r r' => ∀ last, record D last r = record D' last r') rs rs') :
    assembleWith D rs = assembleWith D' rs' := by
  rw [assembleWith, assembleWith, recordsFrom_congr h]

end PicBaseline
