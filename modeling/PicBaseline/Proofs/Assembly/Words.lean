import PicBaseline.Program.Assembly
import Mathlib.Data.List.Basic
import Mathlib.Data.List.Forall2

/-!
# Proofs — the words of a data record

The loop over a record's bytes, put as a list that is known before it starts.  `wordAt bytes i` is
the word of the `i`-th pair of bytes and `place D n w` what the program takes of the word `w` at
the word address `n`, a natural number; then

* `wordsOf_eq`: the words of a byte list are `wordAt bytes i` for each whole pair.
* `statements_eq`: the loop gives what is placed at `a`, `a + 1`, … up to the first fault.  Its
  16-bit counter stops at the first address past the memory, so it never wraps.
* `dataRecord_eq`: a data record by the parity of its address and of its length.
* `dataRecord_congr`: what it depends on.  A decoder is asked about the words of code and nothing
  else of a record counts but its address and its length.
-/

namespace PicBaseline.Assembly

/-! ### Words of a byte list -/

/-- The word of the `i`-th pair of bytes, low byte first. -/
def wordAt (bytes : List Byte) (i : Nat) : Word :=
  BitVec.ofNat 16 ((bytes.getD (2 * i) 0#8).toNat + 256 * (bytes.getD (2 * i + 1) 0#8).toNat)

theorem ofBytes_eq (low high : Byte) :
    Word.ofBytes low high = BitVec.ofNat 16 (low.toNat + 256 * high.toNat) := by
  have hl := low.isLt
  have hh := high.isLt
  refine BitVec.eq_of_toNat_eq ?_
  rw [Word.ofBytes, BitVec.toNat_append, Nat.shiftLeft_eq, Nat.mul_comm,
    ← Nat.two_pow_add_eq_or_of_lt hl, BitVec.toNat_ofNat, Nat.mod_eq_of_lt (by omega)]
  omega

theorem wordsOf_eq (bytes : List Byte) :
    wordsOf bytes = (List.range (bytes.length / 2)).map (wordAt bytes) := by
  fun_induction wordsOf bytes with
  | case1 low high rest ih =>
      have hlen : (low :: high :: rest).length / 2 = rest.length / 2 + 1 := by
        simp only [List.length_cons]
        omega
      rw [ih, hlen, List.range_succ_eq_map, List.map_cons, List.map_map, ofBytes_eq]
      rfl
  | case2 bytes h =>
      have hlen : bytes.length < 2 := by
        match bytes, h with
        | [], _ => decide
        | [_], _ => exact Nat.lt_succ_self 1
        | low :: high :: rest, h => exact absurd rfl (h low high rest)
      rw [Nat.div_eq_of_lt hlen]
      rfl

/-! ### Placing one word -/

/-- What the program takes of a word at a word address. -/
def place (decode : Decoder) (n : Nat) (w : Word) : Except Fault Record :=
  if lastAddress.toNat < n then .error (.addressOutOfRange (BitVec.ofNat 16 n))
  else match decode w with
    | .error cause    => .error (.decode (BitVec.ofNat 16 n) cause)
    | .ok instruction => .ok (.statement ⟨BitVec.ofNat 8 n, instruction⟩)

theorem place_of_gt {n : Nat} (h : 0xFF < n) (D : Decoder) (w : Word) :
    place D n w = .error (.addressOutOfRange (BitVec.ofNat 16 n)) :=
  if_pos h

theorem place_of_le {n : Nat} (h : n ≤ 0xFF) (D : Decoder) (w : Word) :
    place D n w = match D w with
      | .error cause => .error (.decode (BitVec.ofNat 16 n) cause)
      | .ok i        => .ok (.statement ⟨BitVec.ofNat 8 n, i⟩) :=
  if_neg (Nat.not_lt.mpr h)

/-- A word is placed inside memory, if it decodes. -/
theorem place_eq_ok {D : Decoder} {n : Nat} {w : Word} {r : Record} :
    place D n w = .ok r ↔
      n ≤ 0xFF ∧ ∃ i, D w = .ok i ∧ r = .statement ⟨BitVec.ofNat 8 n, i⟩ := by
  rcases Nat.lt_or_ge 0xFF n with hn | hn
  · simp [place_of_gt hn, Nat.not_le.mpr hn]
  · rw [place_of_le hn]
    cases D w with
    | error cause => simp
    | ok i => simp [hn, eq_comm]

/-- A word past memory is refused before it is decoded. -/
theorem place_eq_error {D : Decoder} {n : Nat} {w : Word} {f : Fault} :
    place D n w = .error f ↔
      0xFF < n ∧ f = .addressOutOfRange (BitVec.ofNat 16 n) ∨
      n ≤ 0xFF ∧ ∃ cause, D w = .error cause ∧ f = .decode (BitVec.ofNat 16 n) cause := by
  rcases Nat.lt_or_ge 0xFF n with hn | hn
  · simp [place_of_gt hn, hn, Nat.not_le.mpr hn, eq_comm]
  · rw [place_of_le hn]
    cases D w with
    | error cause => simp [hn, Nat.not_lt.mpr hn, eq_comm]
    | ok i => simp [Nat.not_lt.mpr hn]

/-! ### Up to the first fault -/

/-- The records in front of the first fault, and that fault. -/
def upToFault : List (Except Fault Record) → Intake
  | []              => ⟨[], none⟩
  | .error f :: _   => ⟨[], some f⟩
  | .ok r :: placed => ⟨r :: (upToFault placed).records, (upToFault placed).fault⟩

/-- Without a fault, everything is taken and nothing else. -/
theorem upToFault_fault_eq_none {placed : List (Except Fault Record)} :
    (upToFault placed).fault = none ↔ (upToFault placed).records.map .ok = placed := by
  induction placed with
  | nil => simp [upToFault]
  | cons x placed ih =>
      cases x with
      | error f => simp [upToFault]
      | ok r => simp [upToFault, ih]

/-- The fault is the first one of the list. -/
theorem upToFault_fault_eq_some {placed : List (Except Fault Record)} {f : Fault} :
    (upToFault placed).fault = some f ↔
      ∃ i : Nat, placed[i]? = some (.error f) ∧ ∀ j < i, ∃ r, placed[j]? = some (.ok r) := by
  induction placed with
  | nil => simp [upToFault]
  | cons x placed ih =>
      cases x with
      | error g =>
          simp only [upToFault]
          constructor
          · rintro ⟨⟩
            exact ⟨0, rfl, fun j hj => absurd hj (Nat.not_lt_zero j)⟩
          · rintro ⟨i, hi, hbefore⟩
            cases i with
            | zero => cases hi; rfl
            | succ i =>
                -- A later fault would have a placed word at position zero.
                obtain ⟨r, hr⟩ := hbefore 0 (Nat.succ_pos i)
                cases hr
      | ok r =>
          simp only [upToFault, ih]
          constructor
          · rintro ⟨i, hi, hbefore⟩
            refine ⟨i + 1, hi, fun j hj => ?_⟩
            cases j with
            | zero => exact ⟨r, rfl⟩
            | succ j => exact hbefore j (Nat.lt_of_succ_lt_succ hj)
          · rintro ⟨i, hi, hbefore⟩
            cases i with
            | zero => cases hi
            | succ i => exact ⟨i, hi, fun j hj => hbefore (j + 1) (Nat.succ_lt_succ hj)⟩

theorem upToFault_fault_eq_none_iff {placed : List (Except Fault Record)} :
    (upToFault placed).fault = none ↔ ∀ x ∈ placed, ∃ r, x = .ok r := by
  constructor
  · intro h x hx
    rw [← upToFault_fault_eq_none.mp h] at hx
    obtain ⟨r, -, hr⟩ := List.mem_map.mp hx
    exact ⟨r, hr.symm⟩
  · intro h
    cases hf : (upToFault placed).fault with
    | none => rfl
    | some f =>
        obtain ⟨i, hi, -⟩ := upToFault_fault_eq_some.mp hf
        obtain ⟨r, hr⟩ := h _ (List.mem_of_getElem? hi)
        cases hr

/-- Only what is placed is taken. -/
theorem mem_upToFault {placed : List (Except Fault Record)} {r : Record}
    (h : r ∈ (upToFault placed).records) : .ok r ∈ placed := by
  induction placed with
  | nil => cases h
  | cons x placed ih =>
      cases x with
      | error f => cases h
      | ok q =>
          rcases List.mem_cons.mp h with rfl | h
          · exact List.mem_cons_self
          · exact List.mem_cons_of_mem _ (ih h)

/-! ### The loop -/

/-- The counter moves on without wrapping, but for its last value. -/
theorem toNat_next {a : Word} (h : a.toNat < 0xFFFF) : (a + 1).toNat = a.toNat + 1 :=
  BitVec.toNat_add_of_lt (Nat.succ_lt_succ h)

/-- **The loop over words, by position**: the counter of word `i` is `a + i`, up to the first fault.
-/
theorem statements_eq (D : Decoder) (a : Word) (ws : List Word) :
    statements D a ws = upToFault (ws.mapIdx fun i w => place D (a.toNat + i) w) := by
  induction ws generalizing a with
  | nil => rfl
  | cons w ws ih =>
      rw [List.mapIdx_cons, statements, Nat.add_zero]
      rcases Nat.lt_or_ge 0xFF a.toNat with hn | hn
      · have ha : lastAddress < a := hn
        rw [if_pos ha, place_of_gt hn]
        simp [upToFault]
      · have ha : ¬ lastAddress < a := Nat.not_lt.mpr hn
        rw [if_neg ha, place_of_le hn]
        cases D w with
        | error cause => simp [upToFault]
        | ok i =>
            -- The counter moves on only from an address in memory, so it does not wrap.
            have hnext : (a + 1).toNat = a.toNat + 1 := toNat_next (by omega)
            have hrest : (fun (i : Nat) (w : Word) => place D (a.toNat + (i + 1)) w) =
                fun i w => place D ((a + 1).toNat + i) w := by
              funext i w
              rw [hnext, Nat.add_assoc, Nat.add_comm 1]
            have hbyte : a.setWidth 8 = BitVec.ofNat 8 a.toNat := by simp
            simp only [upToFault, ih, hrest, hbyte]

/-! ### A data record -/

/-- What a data record holds from its start on, word by word. -/
def placements (D : Decoder) (a : Word) (bytes : List Byte) : List (Except Fault Record) :=
  (List.range (bytes.length / 2)).map fun i => place D (a.toNat / 2 + i) (wordAt bytes i)

theorem placements_getElem? {D : Decoder} {a : Word} {bytes : List Byte} {i : Nat}
    {x : Except Fault Record} :
    (placements D a bytes)[i]? = some x ↔
      i < bytes.length / 2 ∧ place D (a.toNat / 2 + i) (wordAt bytes i) = x := by
  rw [placements, List.getElem?_map]
  by_cases hi : i < bytes.length / 2
  · simp [hi]
  · simp [hi]

/-- The word address of a byte address. -/
theorem toNat_start (a : Word) : (a >>> 1).toNat = a.toNat / 2 := by
  rw [BitVec.toNat_ushiftRight, Nat.shiftRight_eq_div_pow, Nat.pow_one]

theorem statements_wordsOf (D : Decoder) (a : Word) (bytes : List Byte) :
    statements D (a >>> 1) (wordsOf bytes) = upToFault (placements D a bytes) := by
  rw [statements_eq, wordsOf_eq, toNat_start, placements]
  congr 1
  refine List.ext_getElem? fun i => ?_
  by_cases hi : i < bytes.length / 2
  · simp [hi]
  · simp [hi]

/-- **Taking a data record, in numbers**: the checks in their order, then the words. -/
theorem dataRecord_eq (D : Decoder) (a : Word) (bytes : List Byte) :
    dataRecord D a bytes =
      if a.toNat % 2 = 1 then ⟨[], some (.unalignedAddress a)⟩
      else if a = 0x1FFE#16 then
        if bytes.length = 2 then ⟨[.config (wordAt bytes 0)], none⟩
        else ⟨[], some (.badConfigWordLength bytes.length)⟩
      else if bytes.length % 2 = 1 then ⟨[], some (.oddByteCount bytes.length)⟩
      else upToFault (placements D a bytes) := by
  have hodd : a.getLsbD 0 = decide (a.toNat % 2 = 1) := by
    rw [← BitVec.testBit_toNat, Nat.testBit_zero]
  simp only [dataRecord, hodd, decide_eq_true_eq]
  split
  · rfl
  · rename_i heven
    have hconfig : a >>> 1 = configAddress ↔ a = 0x1FFE#16 := by
      have : configAddress = 0xFFF#16 := rfl
      bv_omega
    simp only [hconfig, statements_wordsOf]
    congr 1
    match bytes with
    | [] => rfl
    | [_] => rfl
    | [low, high] => simp [ofBytes_eq, wordAt]
    | _ :: _ :: _ :: _ => simp

/-! ### What a data record depends on -/

theorem statements_congr {D D' : Decoder} {ws ws' : List Word}
    (h : List.Forall₂ (fun w w' => D w = D' w') ws ws') (a : Word) :
    statements D a ws = statements D' a ws' := by
  induction h generalizing a with
  | nil => rfl
  | cons hw _ ih => rw [statements, statements, hw, ih]

/-- Two data records at one address come to the same, each by its decoder, if the decoders make the
same of their words of code.  At the configuration word it is the bytes that count. -/
theorem dataRecord_congr {D D' : Decoder} {a : Word} {bytes bytes' : List Byte}
    (hlen : bytes.length = bytes'.length) (hconfig : a = 0x1FFE#16 → bytes = bytes')
    (hcode : a.toNat % 2 = 0 → a ≠ 0x1FFE#16 → bytes.length % 2 = 0 →
      List.Forall₂ (fun w w' => D w = D' w') (wordsOf bytes) (wordsOf bytes')) :
    dataRecord D a bytes = dataRecord D' a bytes' := by
  rw [dataRecord_eq, dataRecord_eq, ← hlen]
  by_cases hodd : a.toNat % 2 = 1
  · rw [if_pos hodd, if_pos hodd]
  rw [if_neg hodd, if_neg hodd]
  by_cases hc : a = 0x1FFE#16
  · rw [if_pos hc, if_pos hc, hconfig hc]
  rw [if_neg hc, if_neg hc]
  by_cases hcount : bytes.length % 2 = 1
  · rw [if_pos hcount, if_pos hcount]
  rw [if_neg hcount, if_neg hcount, ← statements_wordsOf, ← statements_wordsOf]
  exact statements_congr (hcode (by omega) hc (by omega)) _

end PicBaseline.Assembly
