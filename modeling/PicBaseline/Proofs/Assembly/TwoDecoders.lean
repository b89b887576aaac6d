import PicBaseline.Proofs.Assembly.Run
import PicBaseline.Proofs.Assembly.Words

/-!
# Proofs — one image, two decoders

Two walks over the same records, each with a decoder of its own, stay side by side: they place
records of the same kind at the same addresses and stop at the same faults, until one of the
decoders refuses a word.  From there on nothing is said, since a refused word hides whatever fault
would have come after it.

The relation is `Intake.Parallel` for one record and `Parallel` for a walk.

* `record_parallel`: taking one record keeps the two walks side by side.
* `recordsFrom_parallel`: so does the walk.
* `decoder_decides_instructions`: what that means for programs and for errors, and that decoders
  which agree on the words of code cannot be told apart.
-/

namespace PicBaseline

/-- The fault is a word that the decoder refuses. -/
def Fault.Undecoded (f : Fault) : Prop :=
  ∃ address cause, f = .decode address cause

/-- Two records that differ in the instruction at most. -/
inductive SamePlace : Record → Record → Prop where
  | config (w : Word) : SamePlace (.config w) (.config w)
  | statement (address : Byte) (i j : Instruction) :
      SamePlace (.statement ⟨address, i⟩) (.statement ⟨address, j⟩)

/-! ### One record -/

namespace Assembly

/-- Two intakes come to the same but for the instructions, or one of them met a refused word. -/
inductive Intake.Parallel : Intake → Intake → Prop where
  | left {x y : Intake} {f : Fault} (fault : x.fault = some f) (undecoded : f.Undecoded) :
      Parallel x y
  | right {x y : Intake} {f : Fault} (fault : y.fault = some f) (undecoded : f.Undecoded) :
      Parallel x y
  | same {x y : Intake} (fault : x.fault = y.fault)
      (records : List.Forall₂ SamePlace x.records y.records) : Parallel x y

/-- Two decoders go through the words of a record side by side, until one refuses a word. -/
theorem statements_parallel (D₁ D₂ : Decoder) (a : Word) (ws : List Word) :
    (statements D₁ a ws).Parallel (statements D₂ a ws) := by
  induction ws generalizing a with
  | nil => exact .same rfl .nil
  | cons w ws ih =>
      simp only [statements]
      by_cases hpast : lastAddress < a
      · rw [if_pos hpast, if_pos hpast]
        exact .same rfl .nil
      rw [if_neg hpast, if_neg hpast]
      cases D₁ w with
      | error cause => exact .left rfl ⟨a, cause, rfl⟩
      | ok i =>
          cases D₂ w with
          | error cause => exact .right rfl ⟨a, cause, rfl⟩
          | ok j =>
              -- Both go on to the next address, so what comes later decides.
              cases ih (a + 1) with
              | left hf hu => exact .left hf hu
              | right hf hu => exact .right hf hu
              | same hf hrec => exact .same hf (.cons (.statement _ i j) hrec)

theorem dataRecord_parallel (D₁ D₂ : Decoder) (a : Word) (bytes : List Byte) :
    (dataRecord D₁ a bytes).Parallel (dataRecord D₂ a bytes) := by
  rw [dataRecord_eq, dataRecord_eq]
  -- The checks in front of the words do not ask the decoder.
  split
  · exact .same rfl .nil
  split
  · split
    · exact .same rfl (.cons (.config _) .nil)
    · exact .same rfl .nil
  split
  · exact .same rfl .nil
  · rw [← statements_wordsOf, ← statements_wordsOf]
    exact statements_parallel D₁ D₂ _ _

/-- **One record, by two decoders.** -/
theorem record_parallel (D₁ D₂ : Decoder) (last : Bool) (r : HexRecord) :
    (record D₁ last r).Parallel (record D₂ last r) := by
  cases r with
  | data a bytes => exact dataRecord_parallel D₁ D₂ a bytes
  | endOfFile | extendedLinearAddress | startSegmentAddress | extendedSegmentAddress
  | startLinearAddress => exact .same rfl .nil

/-! ### The walk -/

/-- Two walks end alike: with results that are related, or with the same error; or a refused word
has ended one of them. -/
inductive Parallel {α : Type} (R : α → α → Prop) :
    Except AssembleError α → Except AssembleError α → Prop where
  | left {e : AssembleError} {y : Except AssembleError α} (undecoded : e.fault.Undecoded) :
      Parallel R (.error e) y
  | right {x : Except AssembleError α} {e : AssembleError} (undecoded : e.fault.Undecoded) :
      Parallel R x (.error e)
  | fault (e : AssembleError) : Parallel R (.error e) (.error e)
  | done {a b : α} (related : R a b) : Parallel R (.ok a) (.ok b)

namespace Parallel

variable {α β : Type} {R : α → α → Prop} {S : β → β → Prop} {x y : Except AssembleError α}

theorem map (h : Parallel R x y) {f g : α → β} (hfg : ∀ {a b}, R a b → S (f a) (g b)) :
    Parallel S (x >>= fun a => .ok (f a)) (y >>= fun b => .ok (g b)) := by
  cases h with
  | left hu => exact .left hu
  | right hu => exact .right hu
  | fault e => exact .fault e
  | done hab => exact .done (hfg hab)

theorem related {a b : α} (h : Parallel R (.ok a) (.ok b)) : R a b := by
  cases h with
  | done hab => exact hab

/-- Where one image gives a program and the other a report, a word did not decode. -/
theorem undecoded {e : AssembleError} {a : α}
    (h : Parallel R (.error e) (.ok a) ∨ Parallel R (.ok a) (.error e)) : e.fault.Undecoded := by
  rcases h with h | h
  · cases h with
    | left hu => exact hu
  · cases h with
    | right hu => exact hu

/-- Reports that are not about a word are the same. -/
theorem error_eq {e₁ e₂ : AssembleError} (h : Parallel R (.error e₁) (.error e₂))
    (h₁ : ¬ e₁.fault.Undecoded) (h₂ : ¬ e₂.fault.Undecoded) : e₁ = e₂ := by
  cases h with
  | left hu => exact absurd hu h₁
  | right hu => exact absurd hu h₂
  | fault => rfl

end Parallel

/-- **One walk, by two decoders.** -/
theorem recordsFrom_parallel (D₁ D₂ : Decoder) (line : Nat) (rs : List HexRecord) :
    Parallel (List.Forall₂ SamePlace) (recordsFrom D₁ line rs) (recordsFrom D₂ line rs) := by
  induction rs generalizing line with
  | nil => exact .done .nil
  | cons r rest ih =>
      cases record_parallel D₁ D₂ rest.isEmpty r with
      | left hf hu =>
          rw [recordsFrom_cons_fault hf]
          exact .left hu
      | right hf hu =>
          rw [recordsFrom_cons_fault hf]
          exact .right hu
      | same hfault hrec =>
          rw [record_records, record_records] at hrec
          cases hf : (record D₁ rest.isEmpty r).fault with
          | some f =>
              rw [recordsFrom_cons_fault hf, recordsFrom_cons_fault (hfault ▸ hf)]
              exact .fault _
          | none =>
              rw [recordsFrom_cons_taken hf, recordsFrom_cons_taken (hfault ▸ hf)]
              exact (ih (line + 1)).map fun hlater => List.rel_append hrec hlater

end Assembly

/-! ### Programs and errors -/

open Assembly

theorem assembleWith_parallel (D₁ D₂ : Decoder) (rs : List HexRecord) :
    Parallel (fun p₁ p₂ => List.Forall₂ SamePlace p₁.records p₂.records)
      (assembleWith D₁ rs) (assembleWith D₂ rs) :=
  (recordsFrom_parallel D₁ D₂ 1 rs).map id

/-- Decoders that agree on the words of code assemble alike. -/
theorem assembleWith_eq_of_agree {D₁ D₂ : Decoder} {rs : List HexRecord}
    (h : ∀ a bytes, .data a bytes ∈ rs → a.toNat % 2 = 0 → a ≠ 0x1FFE#16 →
      bytes.length % 2 = 0 → ∀ w ∈ wordsOf bytes, D₁ w = D₂ w) :
    assembleWith D₁ rs = assembleWith D₂ rs := by
  refine assembleWith_congr (List.forall₂_same.mpr fun r hr last => ?_)
  cases r with
  | data a bytes =>
      exact dataRecord_congr rfl (fun _ => rfl) fun heven hcode hlen =>
        List.forall₂_same.mpr (h a bytes hr heven hcode hlen)
  | endOfFile | extendedLinearAddress | startSegmentAddress | extendedSegmentAddress
  | startLinearAddress => rfl

/-- **The decoder decides the instructions and nothing else.**  Two programs of one image have the
same configuration words and the same addresses, record by record.  If one decoder gives a program
and the other an error, the error is a refused word; two errors of any other kind are the same.
Decoders that agree on the words of code give the same result, as no other word reaches them. -/
theorem decoder_decides_instructions (D₁ D₂ : Decoder) (rs : List HexRecord) :
    (∀ p₁ p₂, assembleWith D₁ rs = .ok p₁ → assembleWith D₂ rs = .ok p₂ →
      List.Forall₂ SamePlace p₁.records p₂.records) ∧
    (∀ e p, assembleWith D₁ rs = .error e ∧ assembleWith D₂ rs = .ok p ∨
      assembleWith D₁ rs = .ok p ∧ assembleWith D₂ rs = .error e → e.fault.Undecoded) ∧
    (∀ e₁ e₂, assembleWith D₁ rs = .error e₁ → assembleWith D₂ rs = .error e₂ →
      ¬ e₁.fault.Undecoded → ¬ e₂.fault.Undecoded → e₁ = e₂) ∧
    ((∀ a bytes, .data a bytes ∈ rs → a.toNat % 2 = 0 → a ≠ 0x1FFE#16 → bytes.length % 2 = 0 →
      ∀ w ∈ wordsOf bytes, D₁ w = D₂ w) → assembleWith D₁ rs = assembleWith D₂ rs) := by
  have hpar := assembleWith_parallel D₁ D₂ rs
  refine ⟨fun p₁ p₂ h₁ h₂ => ?_, fun e p h => ?_, fun e₁ e₂ h₁ h₂ hu₁ hu₂ => ?_,
    assembleWith_eq_of_agree⟩
  · rw [h₁, h₂] at hpar
    exact hpar.related
  · rcases h with ⟨h₁, h₂⟩ | ⟨h₁, h₂⟩
    · rw [h₁, h₂] at hpar
      exact Parallel.undecoded (Or.inl hpar)
    · rw [h₁, h₂] at hpar
      exact Parallel.undecoded (Or.inr hpar)
  · rw [h₁, h₂] at hpar
    exact hpar.error_eq hu₁ hu₂

/-- A decoder that takes every word, against one that takes a single word and makes something else
of it: the last word of memory with a configuration word behind it, a word that only the first one
takes, and a record that runs past the memory.  A third decoder differs from the first in the
configuration word alone, and there it is never asked. -/
theorem decoder_decides_instructions_last_word :
    let i : Instruction := ⟨⟨"nop", ⟨0#16, 0xFFF#16, .noOperands⟩, 1, .empty⟩, .noOperands⟩
    let j : Instruction := ⟨⟨"sleep", ⟨3#16, 0xFFF#16, .noOperands⟩, 1, .empty⟩, .noOperands⟩
    let D₁ : Decoder := fun _ => .ok i
    let D₂ : Decoder := fun w => if w = 0x025#16 then .ok j else .error (.unknownOpcode w)
    let D₃ : Decoder := fun w => if w = 0xFFEB#16 then .ok j else .ok i
    let rs : List HexRecord := [.data 0x1FE#16 [0x25#8, 0#8], .data 0x1FFE#16 [0xEB#8, 0xFF#8]]
    (assembleWith D₁ rs = .ok ⟨[.statement ⟨0xFF#8, i⟩, .config 0xFFEB#16]⟩ ∧
      assembleWith D₂ rs = .ok ⟨[.statement ⟨0xFF#8, j⟩, .config 0xFFEB#16]⟩ ∧
      List.Forall₂ SamePlace [.statement ⟨0xFF#8, i⟩, .config 0xFFEB#16]
        [.statement ⟨0xFF#8, j⟩, .config 0xFFEB#16]) ∧
    (∃ e p, assembleWith D₁ [.data 0#16 [8#8, 0#8]] = .ok p ∧
      assembleWith D₂ [.data 0#16 [8#8, 0#8]] = .error e ∧ e.fault.Undecoded) ∧
    (∃ e₁ e₂, assembleWith D₁ [.data 0x1FE#16 [0x25#8, 0#8, 0x25#8, 0#8]] = .error e₁ ∧
      assembleWith D₂ [.data 0x1FE#16 [0x25#8, 0#8, 0x25#8, 0#8]] = .error e₂ ∧ e₁ = e₂) ∧
    D₁ 0xFFEB#16 ≠ D₃ 0xFFEB#16 ∧ assembleWith D₁ rs = assembleWith D₃ rs := by
  intro i j D₁ D₂ D₃ rs
  obtain ⟨hsame, -, -, -⟩ := decoder_decides_instructions D₁ D₂ rs
  obtain ⟨-, hone, -, -⟩ := decoder_decides_instructions D₁ D₂ [.data 0#16 [8#8, 0#8]]
  obtain ⟨-, -, hboth, -⟩ :=
    decoder_decides_instructions D₁ D₂ [.data 0x1FE#16 [0x25#8, 0#8, 0x25#8, 0#8]]
  obtain ⟨-, -, -, hagree⟩ := decoder_decides_instructions D₁ D₃ rs
  have hpast : ¬ (Fault.addressOutOfRange 0x100#16).Undecoded := fun ⟨_, _, h⟩ => nomatch h
  refine ⟨⟨rfl, rfl, hsame _ _ rfl rfl⟩, ⟨_, _, rfl, rfl, hone _ _ (Or.inr ⟨rfl, rfl⟩)⟩,
    ⟨_, _, rfl, rfl, hboth _ _ rfl rfl hpast hpast⟩, fun h => ?_, hagree ?_⟩
  · have hij : i = j := Except.ok.inj h
    exact absurd hij (by decide)
  · intro a bytes hmem _ hcode _ w hw
    simp only [rs, List.mem_cons, List.not_mem_nil, or_false, HexRecord.data.injEq] at hmem
    rcases hmem with ⟨rfl, rfl⟩ | ⟨rfl, rfl⟩
    · obtain rfl : w = 0x025#16 := List.mem_singleton.mp hw
      rfl
    · exact absurd rfl hcode

end PicBaseline
