import PicBaseline.Proofs.Assembly.Words

/-!
# Proofs — the address counter of a data record

The loop over the words of a record has a 16-bit counter with no end of its own, and pushes its
statements onto the program records so far.  `Loop` is its state between two rounds, `Loop.round`
one of them and `dataRecordInto` a record taken with it.

* `dataRecordInto_eq`: what stands in the output before stays there, and what `dataRecord`
  gives comes behind it, whether the record fails or not.
* `Loop.Pushes`: what a number of rounds can do.  A round that pushes has an address in memory
  (`Pushes.of_round`), so the rounds push consecutive addresses and end there (`Reaches.pushes`).
* `data_counter_never_wraps`: so a round begins at the start of the record or no further than one
  past the memory, and the counter has room to move on.
-/

namespace PicBaseline.Assembly

/-! ### The loop, round by round -/

/-- The loop over the words of a record: the counter, the words that are left, and the program
records so far. -/
structure Loop where
  counter : Word
  words : List Word
  out : List Record

/-- A round is followed by another, or it is the last. -/
inductive Round where
  | again (s : Loop)
  | done (s : Loop) (fault : Option Fault)

/-- What a round leaves, whichever way it ends. -/
def Round.state : Round → Loop
  | again s  => s
  | done s _ => s

namespace Loop

variable {D : Decoder} {s t : Loop}

/-- The loop over the bytes of a record at a byte address. -/
def start (a : Word) (bytes : List Byte) (out : List Record) : Loop :=
  ⟨a >>> 1, wordsOf bytes, out⟩

/-- One round of the loop: the counter goes up by one whatever becomes of the word. -/
def round (D : Decoder) (s : Loop) : Round :=
  -- The counter moves on before the round looks for a word.
  let next := s.counter + 1
  match s.words with
  | [] => .done ⟨next, [], s.out⟩ none
  | word :: rest =>
      if lastAddress < s.counter then
        .done ⟨next, rest, s.out⟩ (some (.addressOutOfRange s.counter))
      else match D word with
        | .error cause => .done ⟨next, rest, s.out⟩ (some (.decode s.counter cause))
        | .ok instruction =>
            .again ⟨next, rest, s.out ++ [.statement ⟨s.counter.setWidth 8, instruction⟩]⟩

/-- What a round did that is followed by another. -/
theorem of_round_again (h : s.round D = .again t) :
    ∃ word rest instruction, s.words = word :: rest ∧ s.counter.toNat ≤ 0xFF ∧
      D word = .ok instruction ∧
      t = ⟨s.counter + 1, rest, s.out ++ [.statement ⟨s.counter.setWidth 8, instruction⟩]⟩ := by
  unfold round at h
  split at h
  · cases h
  rename_i word rest hwords
  split at h
  · cases h
  rename_i hmem
  split at h
  · cases h
  · rename_i instruction hdecode
    cases h
    exact ⟨word, rest, instruction, hwords, Nat.not_lt.mp hmem, hdecode, rfl⟩

theorem round_counter (D : Decoder) (s : Loop) : (s.round D).state.counter = s.counter + 1 := by
  unfold round
  split
  · rfl
  split
  · rfl
  split <;> rfl

/-- The last round pushes nothing. -/
theorem out_of_round_done {fault : Option Fault} (h : s.round D = .done t fault) :
    t.out = s.out := by
  unfold round at h
  split at h
  · cases h; rfl
  split at h
  · cases h; rfl
  split at h
  · cases h; rfl
  · cases h

/-- Each round takes a word, so the loop ends. -/
theorem length_of_round_again (h : s.round D = .again t) : t.words.length < s.words.length := by
  obtain ⟨word, rest, instruction, hwords, -, -, rfl⟩ := of_round_again h
  rw [hwords]
  exact Nat.lt_succ_self rest.length

/-- All rounds: what the last one leaves, and the fault that ended it. -/
def run (D : Decoder) (s : Loop) : Loop × Option Fault :=
  match _h : s.round D with
  | .again t      => run D t
  | .done t fault => (t, fault)
termination_by s.words.length
decreasing_by exact length_of_round_again _h

theorem run_of_again (h : s.round D = .again t) : s.run D = t.run D := by
  rw [run]
  split
  · rename_i u hu
    cases h.symm.trans hu
    rfl
  · rename_i hu
    cases h.symm.trans hu

theorem run_of_done {fault : Option Fault} (h : s.round D = .done t fault) :
    s.run D = (t, fault) := by
  rw [run]
  split
  · rename_i hu
    cases h.symm.trans hu
  · rename_i hu
    cases h.symm.trans hu
    rfl

/-- **The loop gives its statements**, behind what stands in the output. -/
theorem run_eq (D : Decoder) (a : Word) (ws : List Word) (out : List Record) :
    ((run D ⟨a, ws, out⟩).1.out, (run D ⟨a, ws, out⟩).2) =
      (out ++ (statements D a ws).records, (statements D a ws).fault) := by
  induction ws generalizing a out with
  | nil =>
      rw [run_of_done rfl, statements, List.append_nil]
  | cons w ws ih =>
      rw [statements]
      by_cases ha : lastAddress < a
      · have hround : round D ⟨a, w :: ws, out⟩ =
            .done ⟨a + 1, ws, out⟩ (some (.addressOutOfRange a)) := if_pos ha
        rw [if_pos ha, run_of_done hround, List.append_nil]
      · rw [if_neg ha]
        cases hdecode : D w with
        | error cause =>
            have hround : round D ⟨a, w :: ws, out⟩ =
                .done ⟨a + 1, ws, out⟩ (some (.decode a cause)) := by
              simp only [round, if_neg ha, hdecode]
            rw [run_of_done hround, List.append_nil]
        | ok i =>
            have hround : round D ⟨a, w :: ws, out⟩ =
                .again ⟨a + 1, ws, out ++ [.statement ⟨a.setWidth 8, i⟩]⟩ := by
              simp only [round, if_neg ha, hdecode]
            -- The statement is pushed by the round, and in front of the rest in the recursion.
            rw [run_of_again hround, ih, List.append_assoc]
            rfl

end Loop

/-- A data record taken into the program records so far: what stands there afterwards, and the
fault. -/
def dataRecordInto (D : Decoder) (a : Word) (bytes : List Byte) (out : List Record) :
    List Record × Option Fault :=
  if a.getLsbD 0 then (out, some (.unalignedAddress a))
  else if a >>> 1 = configAddress then
    match bytes with
    | [low, high] => (out ++ [.config (Word.ofBytes low high)], none)
    | _           => (out, some (.badConfigWordLength bytes.length))
  else if bytes.length % 2 = 1 then (out, some (.oddByteCount bytes.length))
  else
    let ended := (Loop.start a bytes out).run D
    (ended.1.out, ended.2)

/-- **The loop and the recursion agree**: pushing onto a list and building one give the same records
and the same fault. -/
theorem dataRecordInto_eq (D : Decoder) (a : Word) (bytes : List Byte) (out : List Record) :
    dataRecordInto D a bytes out =
      (out ++ (dataRecord D a bytes).records, (dataRecord D a bytes).fault) := by
  simp only [dataRecordInto, dataRecord]
  split
  · rw [List.append_nil]
  split
  · -- Two bytes, or fewer, or more.
    rcases bytes with _ | ⟨low, _ | ⟨high, _ | ⟨next, rest⟩⟩⟩
    · rw [List.append_nil]
    · rw [List.append_nil]
    · rfl
    · rw [List.append_nil]
  split
  · rw [List.append_nil]
  · exact Loop.run_eq D (a >>> 1) (wordsOf bytes) out

/-! ### What the rounds push -/

/-- The addresses of the statements among program records. -/
def addresses (rs : List Record) : List Nat :=
  (rs.filterMap Record.statement?).map fun s => s.address.toNat

theorem addresses_append (rs rs' : List Record) :
    addresses (rs ++ rs') = addresses rs ++ addresses rs' := by
  simp [addresses]

namespace Loop

variable {D : Decoder} {s t u : Loop} {m n : Nat}

/-- The loop goes from one state to another in `n` rounds. -/
inductive Reaches (D : Decoder) : Loop → Nat → Loop → Prop where
  | refl (s : Loop) : Reaches D s 0 s
  | more {s t u : Loop} {n : Nat} (h : s.round D = .again t) (later : Reaches D t n u) :
      Reaches D s (n + 1) u

/-- What `n` rounds do: they count `n` addresses in memory, and push a statement at each. -/
structure Pushes (s : Loop) (n : Nat) (t : Loop) : Prop where
  counter_eq : t.counter.toNat = s.counter.toNat + n
  in_memory : n = 0 ∨ s.counter.toNat + n ≤ 0x100
  out_eq : ∃ pushed, t.out = s.out ++ pushed ∧
    addresses pushed = List.range' s.counter.toNat n

namespace Pushes

theorem refl (s : Loop) : Pushes s 0 s :=
  ⟨rfl, Or.inl rfl, [], (List.append_nil s.out).symm, rfl⟩

theorem of_round (h : s.round D = .again t) : Pushes s 1 t := by
  obtain ⟨word, rest, i, -, hmem, -, rfl⟩ := of_round_again h
  refine ⟨?_, Or.inr (Nat.succ_le_succ hmem), _, rfl, ?_⟩
  · -- The address is in memory, so the counter has room to move on.
    exact toNat_next (by omega)
  · show [(s.counter.setWidth 8).toNat] = [s.counter.toNat]
    rw [BitVec.toNat_setWidth, Nat.mod_eq_of_lt (Nat.lt_succ_of_le hmem)]

theorem trans (h : Pushes s m t) (h' : Pushes t n u) : Pushes s (m + n) u := by
  have hcounter := h.counter_eq
  obtain ⟨pushed, hout, haddr⟩ := h.out_eq
  obtain ⟨pushed', hout', haddr'⟩ := h'.out_eq
  refine ⟨?_, ?_, pushed ++ pushed', ?_, ?_⟩
  · rw [h'.counter_eq, hcounter, Nat.add_assoc]
  · have := h.in_memory
    have := h'.in_memory
    omega
  · rw [hout', hout, List.append_assoc]
  · rw [addresses_append, haddr, haddr', hcounter, List.range'_append_1]

end Pushes

/-- **Rounds push consecutive addresses**, all of them in memory. -/
theorem Reaches.pushes (h : Reaches D s n t) : Pushes s n t := by
  induction h with
  | refl s => exact .refl s
  | @more s t u n hround _ ih =>
      rw [Nat.add_comm]
      exact (Pushes.of_round hround).trans ih

/-- The last round begins where the others lead. -/
theorem exists_reaches_last (D : Decoder) (s : Loop) :
    ∃ n t, Reaches D s n t ∧ t.round D = .done (s.run D).1 (s.run D).2 := by
  fun_induction run D s with
  | case1 s t hround ih =>
      obtain ⟨n, u, hreach, hlast⟩ := ih
      exact ⟨n + 1, u, .more hround hreach, hlast⟩
  | case2 s t fault hround => exact ⟨0, s, .refl s, hround⟩

end Loop

/-- **The addresses of a record are consecutive**, from its first word on and inside memory. -/
theorem addresses_statements (D : Decoder) (a : Word) (ws : List Word) :
    ∃ n, addresses (statements D a ws).records = List.range' a.toNat n ∧
      (n = 0 ∨ a.toNat + n ≤ 0x100) := by
  obtain ⟨n, t, hreach, hlast⟩ := Loop.exists_reaches_last D ⟨a, ws, []⟩
  obtain ⟨pushed, hout, haddr⟩ := hreach.pushes.out_eq
  have hrecords : (statements D a ws).records = pushed :=
    calc (statements D a ws).records
        = (Loop.run D ⟨a, ws, []⟩).1.out := (congrArg Prod.fst (Loop.run_eq D a ws [])).symm
      _ = t.out := Loop.out_of_round_done hlast
      _ = pushed := hout
  exact ⟨n, hrecords ▸ haddr, hreach.pushes.in_memory⟩

theorem addresses_dataRecord (D : Decoder) (a : Word) (bytes : List Byte) :
    ∃ n, addresses (dataRecord D a bytes).records = List.range' (a.toNat / 2) n ∧
      (n = 0 ∨ a.toNat / 2 + n ≤ 0x100) := by
  simp only [dataRecord]
  split
  · exact ⟨0, rfl, Or.inl rfl⟩
  split
  · refine ⟨0, ?_, Or.inl rfl⟩
    split <;> rfl
  split
  · exact ⟨0, rfl, Or.inl rfl⟩
  · rw [← toNat_start]
    exact addresses_statements D (a >>> 1) (wordsOf bytes)

/-! ### The counter -/

/-- **The address counter never wraps.**  Let a data record of any address and any number of bytes
be taken into an output, by any decoder.  Whenever a round of the loop begins, the counter is the
start of the record and the number of rounds before it, as natural numbers, and the round moves it
on by one, to 0x8000 at most, however it ends.  At most 256 rounds push a statement, each at the
start and the number of statements before it and no further than 0xFF, so that consecutive addresses
differ by one.  The output of before stays in front, also when the record fails. -/
theorem data_counter_never_wraps (D : Decoder) (a : Word) (bytes : List Byte)
    (out : List Record) :
    (∀ n s, Loop.Reaches D (.start a bytes out) n s →
      s.counter.toNat = a.toNat / 2 + n ∧
      (s.round D).state.counter.toNat = s.counter.toNat + 1 ∧
      (s.round D).state.counter.toNat ≤ 0x8000 ∧ n ≤ 256 ∧ out <+: s.out) ∧
    dataRecordInto D a bytes out =
      (out ++ (dataRecord D a bytes).records, (dataRecord D a bytes).fault) ∧
    (addresses (dataRecord D a bytes).records).length ≤ 256 ∧
    (∀ i x, (addresses (dataRecord D a bytes).records)[i]? = some x →
      x = a.toNat / 2 + i ∧ x ≤ 0xFF) ∧
    (addresses (dataRecord D a bytes).records).IsChain (fun x y => y = x + 1) := by
  refine ⟨fun n s h => ?_, dataRecordInto_eq D a bytes out, ?_⟩
  · have hpushes := h.pushes
    have hcounter := hpushes.counter_eq
    have hmem := hpushes.in_memory
    obtain ⟨pushed, hout, -⟩ := hpushes.out_eq
    rw [Loop.start, toNat_start] at hcounter hmem
    -- A byte address halves to less than `0x8000`, so the next word is no wrap even there.
    have ha := a.isLt
    have hnext : (s.round D).state.counter.toNat = s.counter.toNat + 1 := by
      rw [Loop.round_counter]
      exact toNat_next (by omega)
    exact ⟨hcounter, hnext, by omega, by omega, hout ▸ List.prefix_append out pushed⟩
  · obtain ⟨n, haddr, hmem⟩ := addresses_dataRecord D a bytes
    rw [haddr]
    refine ⟨?_, fun i x hx => ?_, List.isChain_range' _ n 1⟩
    · rw [List.length_range']
      omega
    · obtain ⟨hi, rfl⟩ := List.getElem?_eq_some_iff.mp hx
      rw [List.length_range'] at hi
      rw [List.getElem_range', Nat.one_mul]
      exact ⟨rfl, by omega⟩

/-- The greatest start there is, from which the counter comes to 0x8000; and a record that fails
behind the last word of memory, with what it pushed and what was there before in the output. -/
theorem data_counter_never_wraps_greatest_start :
    let i : Instruction := ⟨⟨"nop", ⟨0#16, 0xFFF#16, .noOperands⟩, 1, .empty⟩, .noOperands⟩
    let D : Decoder := fun _ => .ok i
    let s : Loop := .start 0xFFFE#16 [0#8, 0#8] []
    (Loop.Reaches D s 0 s ∧ (s.round D).state.counter = 0x8000#16 ∧
      (s.round D).state.counter.toNat = s.counter.toNat + 1) ∧
    dataRecordInto D 0x1FE#16 [0#8, 0#8, 0#8, 0#8] [.config 0xFEB#16] =
      ([.config 0xFEB#16, .statement ⟨0xFF#8, i⟩], some (.addressOutOfRange 0x100#16)) := by
  intro i D s
  obtain ⟨hcounter, -⟩ := data_counter_never_wraps D 0xFFFE#16 [0#8, 0#8] []
  obtain ⟨-, hinto, -⟩ :=
    data_counter_never_wraps D 0x1FE#16 [0#8, 0#8, 0#8, 0#8] [.config 0xFEB#16]
  have hstart : Loop.Reaches D s 0 s := .refl s
  obtain ⟨-, hnext, -⟩ := hcounter 0 s hstart
  exact ⟨⟨hstart, rfl, hnext⟩, hinto.trans rfl⟩

end PicBaseline.Assembly
