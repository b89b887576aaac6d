import PicBaseline.Proofs.Assembly.Composition
import PicBaseline.Proofs.Assembly.Words
import PicBaseline.Proofs.Instruction
import Mathlib.Data.List.GetD

/-!
# Proofs — the upper four bits of a word

The high byte of a word stands at an odd position of its record.  Its upper four bits are invisible
in code and visible in a configuration word.

* `SameCode`: two records that differ in those bits of code at most.
* `assemble_eq_of_sameCode`: images of such records assemble to the same, programs and errors alike.
  An error that reports a word reports it without those bits.
* `assembleWith_config_eq_ok`: a configuration record gives its word whole, between what the records
  around it give.
* `upper_nibble_visibility`: both together.
-/

namespace PicBaseline

open Assembly

/-! ### Words of code -/

/-- Two byte lists that differ at most in the upper four bits of the bytes at odd positions. -/
structure SameBelow (bytes bytes' : List Byte) : Prop where
  length_eq : bytes.length = bytes'.length
  even : ∀ i : Nat, bytes[2 * i]? = bytes'[2 * i]?
  odd : ∀ i : Nat, (bytes[2 * i + 1]?).map (BitVec.setWidth 4) =
    (bytes'[2 * i + 1]?).map (BitVec.setWidth 4)

namespace SameBelow

variable {bytes bytes' : List Byte}

/-- Words of such byte lists differ in their upper four bits at most. -/
theorem wordAt_and_wordMask (h : SameBelow bytes bytes') (i : Nat) :
    wordAt bytes i &&& wordMask = wordAt bytes' i &&& wordMask := by
  have hlow : bytes.getD (2 * i) 0#8 = bytes'.getD (2 * i) 0#8 := by
    rw [List.getD_eq_getElem?_getD, List.getD_eq_getElem?_getD, h.even]
  have hhigh : (bytes.getD (2 * i + 1) 0#8).setWidth 4 =
      (bytes'.getD (2 * i + 1) 0#8).setWidth 4 := by
    rw [List.getD_eq_getElem?_getD, List.getD_eq_getElem?_getD,
      ← Option.getD_map (BitVec.setWidth 4), ← Option.getD_map (BitVec.setWidth 4), h.odd]
  have hnibble := congrArg BitVec.toNat hhigh
  rw [BitVec.toNat_setWidth, BitVec.toNat_setWidth] at hnibble
  refine BitVec.eq_of_toNat_eq ?_
  rw [toNat_and_wordMask, toNat_and_wordMask, wordAt, wordAt, BitVec.toNat_ofNat,
    BitVec.toNat_ofNat, hlow]
  omega

/-- The instruction set makes the same of the words, one by one. -/
theorem decode_eq (h : SameBelow bytes bytes') :
    List.Forall₂ (fun w w' => Instruction.decode w = Instruction.decode w')
      (wordsOf bytes) (wordsOf bytes') := by
  rw [wordsOf_eq, wordsOf_eq, ← h.length_eq, List.forall₂_map_left_iff,
    List.forall₂_map_right_iff, List.forall₂_same]
  intro i _
  rw [← Instruction.decode_and_wordMask, h.wordAt_and_wordMask, Instruction.decode_and_wordMask]

end SameBelow

/-- Two records that are the same, but for the upper four bits of words of code. -/
inductive SameCode : HexRecord → HexRecord → Prop where
  | same (r : HexRecord) : SameCode r r
  | data {a : Word} {bytes bytes' : List Byte} (code : a ≠ 0x1FFE#16)
      (below : SameBelow bytes bytes') : SameCode (.data a bytes) (.data a bytes')

theorem record_eq_of_sameCode {r r' : HexRecord} (h : SameCode r r') (last : Bool) :
    record Instruction.decode last r = record Instruction.decode last r' := by
  cases h with
  | same => rfl
  | data hcode hbelow =>
      exact dataRecord_congr hbelow.length_eq (fun hconfig => absurd hconfig hcode)
        fun _ _ _ => hbelow.decode_eq

/-- **The upper four bits of code are not seen.** -/
theorem assemble_eq_of_sameCode {rs rs' : List HexRecord} (h : List.Forall₂ SameCode rs rs') :
    assemble rs = assemble rs' :=
  assembleWith_congr (h.imp fun _ _ hr => record_eq_of_sameCode hr)

/-! ### Configuration words -/

theorem wordAt_zero_inj {bytes bytes' : List Byte} (h : bytes.length = 2) (h' : bytes'.length = 2)
    (heq : wordAt bytes 0 = wordAt bytes' 0) : bytes = bytes' := by
  obtain ⟨low, high, rfl⟩ := List.length_eq_two.mp h
  obtain ⟨low', high', rfl⟩ := List.length_eq_two.mp h'
  have hlow := low.isLt
  have hhigh := high.isLt
  have hlow' := low'.isLt
  have hhigh' := high'.isLt
  have hword := congrArg BitVec.toNat heq
  simp only [wordAt, List.getD_cons_zero, List.getD_cons_succ, Nat.mul_zero, Nat.zero_add,
    BitVec.toNat_ofNat] at hword
  obtain rfl : low = low' := BitVec.eq_of_toNat_eq (by omega)
  obtain rfl : high = high' := BitVec.eq_of_toNat_eq (by omega)
  rfl

variable {D : Decoder} {before after : List HexRecord} {bytes : List Byte} {p : Program}

/-- A configuration record gives its word, and all sixteen bits of it. -/
theorem assembleWith_config_record :
    assembleWith D [.data 0x1FFE#16 bytes] = .ok p ↔
      bytes.length = 2 ∧ p.records = [.config (wordAt bytes 0)] := by
  have htaken : dataRecord D 0x1FFE#16 bytes =
      if bytes.length = 2 then ⟨[.config (wordAt bytes 0)], none⟩
      else ⟨[], some (.badConfigWordLength bytes.length)⟩ := by
    rw [dataRecord_eq]
    rfl
  rw [assembleWith_eq_ok]
  by_cases hlen : bytes.length = 2
  · rw [if_pos hlen] at htaken
    simp [yield, record, htaken, hlen]
  · rw [if_neg hlen] at htaken
    simp [record, htaken, hlen]

/-- **A configuration record gives its word**, between what the records around it give. -/
theorem assembleWith_config_eq_ok :
    assembleWith D (before ++ [.data 0x1FFE#16 bytes] ++ after) = .ok p ↔
      .endOfFile ∉ before ∧ bytes.length = 2 ∧
        ∃ pre post, assembleWith D before = .ok pre ∧ assembleWith D after = .ok post ∧
          p.records = pre.records ++ .config (wordAt bytes 0) :: post.records := by
  have hdata : .endOfFile ∉ [HexRecord.data 0x1FFE#16 bytes] := by simp
  rw [List.append_assoc, assembleWith_append_eq_ok (Or.inr (by simp))]
  simp only [assembleWith_append_eq_ok (Or.inl hdata), assembleWith_config_record]
  constructor
  · rintro ⟨hbefore, pre, _, hpre, ⟨-, q, post, ⟨hlen, hq⟩, hpost, rfl⟩, rfl⟩
    refine ⟨hbefore, hlen, pre, post, hpre, hpost, ?_⟩
    rw [Program.records_append, Program.records_append, hq]
    rfl
  · rintro ⟨hbefore, hlen, pre, post, hpre, hpost, hrec⟩
    refine ⟨hbefore, pre, ⟨[.config (wordAt bytes 0)]⟩ ++ post, hpre,
      ⟨hdata, ⟨[.config (wordAt bytes 0)]⟩, post, ⟨hlen, rfl⟩, hpost, rfl⟩, ?_⟩
    exact Program.eq_of_records_eq hrec

/-! ### What is seen and what is not -/

/-- **The upper four bits of code are invisible, those of a configuration word are not.**  Images
that differ in those bits of code at most give the same result, be it a program or an error.  Two
images that both assemble, and differ in the bytes of one configuration record, give programs that
differ in the record of that word and nowhere else. -/
theorem upper_nibble_visibility :
    (∀ rs rs', List.Forall₂ SameCode rs rs' → assemble rs = assemble rs') ∧
    ∀ before after bytes bytes' p p', bytes ≠ bytes' →
      assemble (before ++ [.data 0x1FFE#16 bytes] ++ after) = .ok p →
      assemble (before ++ [.data 0x1FFE#16 bytes'] ++ after) = .ok p' →
      p ≠ p' ∧ ∃ pre post w w', assemble before = .ok pre ∧ assemble after = .ok post ∧ w ≠ w' ∧
        p.records = pre.records ++ .config w :: post.records ∧
        p'.records = pre.records ++ .config w' :: post.records := by
  refine ⟨fun rs rs' h => assemble_eq_of_sameCode h, ?_⟩
  intro before after bytes bytes' p p' hne h h'
  obtain ⟨-, hlen, pre, post, hpre, hpost, hrec⟩ := assembleWith_config_eq_ok.mp h
  obtain ⟨-, hlen', pre', post', hpre', hpost', hrec'⟩ := assembleWith_config_eq_ok.mp h'
  obtain rfl : pre = pre' := Except.ok.inj (hpre.symm.trans hpre')
  obtain rfl : post = post' := Except.ok.inj (hpost.symm.trans hpost')
  have hword : wordAt bytes 0 ≠ wordAt bytes' 0 := fun heq => hne (wordAt_zero_inj hlen hlen' heq)
  refine ⟨fun hp => hword ?_, pre, post, _, _, hpre, hpost, hword, hrec, hrec'⟩
  subst hp
  have hsame := List.append_cancel_left (hrec.symm.trans hrec')
  exact Record.config.inj (List.cons.inj hsame).1

/-- The word `0x1C8` names a reserved register, and with its upper bits set it is reported under the
same number; and two configuration words that differ in their highest bit. -/
theorem upper_nibble_visibility_reserved_register :
    (assemble [.data 0#16 [0xC8#8, 0x01#8]] = assemble [.data 0#16 [0xC8#8, 0xF1#8]] ∧
      assemble [.data 0#16 [0xC8#8, 0xF1#8]] =
        .error ⟨1, .decode 0#16 (.operand 0x1C8#16 (.invalidRegister 8))⟩) ∧
    ∃ p p', assemble ([] ++ [.data 0x1FFE#16 [0xEB#8, 0x8F#8]] ++ []) = .ok p ∧
      assemble ([] ++ [.data 0x1FFE#16 [0xEB#8, 0x0F#8]] ++ []) = .ok p' ∧ p ≠ p' := by
  obtain ⟨hcode, hconfig⟩ := upper_nibble_visibility
  have hbelow : SameBelow [0xC8#8, 0x01#8] [0xC8#8, 0xF1#8] :=
    ⟨rfl, fun i => by cases i <;> rfl, fun i => by cases i <;> rfl⟩
  have hbytes : [0xEB#8, 0x8F#8] ≠ [0xEB#8, 0x0F#8] := by decide
  refine ⟨⟨hcode _ _ (.cons (.data (by decide) hbelow) .nil), by decide +kernel⟩,
    ⟨[.config 0x8FEB#16]⟩, ⟨[.config 0x0FEB#16]⟩, rfl, rfl, ?_⟩
  exact (hconfig [] [] _ _ _ _ hbytes rfl rfl).1

end PicBaseline
