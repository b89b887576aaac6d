import PicBaseline.Operand.Representation
import PicBaseline.Proofs.Text.Numeral
import Mathlib.Data.List.Nodup

/-!
# Proofs — what listings show of operands

Registers show by name or by number, bits of the STATUS register by the short names of flags.  Names
are upper case and numbers end in `h`, so none is taken for another: `Register.text_inj`,
`Operand.bitText_inj`.  Hence operands of one shape show by different texts (`Operand.text_inj`).
-/

namespace PicBaseline

open Text (IsWord EndsWord)

/-! ### Registers and numbers -/

theorem isWord_hexText (width n : Nat) : IsWord (hexText width n) :=
  (Text.isWord_upperHex width n).append (by decide)

theorem hexText_inj {width m n : Nat} (h : hexText width m = hexText width n) : m = n := by
  have hlist := congrArg String.toList h
  rw [hexText, hexText, String.toList_append, String.toList_append] at hlist
  exact Text.upperHex_inj (String.toList_injective (List.append_cancel_right hlist))

attribute [ext] Register

namespace Register

/-- The names of the special function registers are words without an `h`. -/
theorem of_name? {r : Register} {name : String} (h : r.name? = some name) :
    IsWord name ∧ 'h' ∉ name.toList := by
  have hall : ∀ name ∈ ["INDF", "TMR0", "PCL", "STATUS", "FSR", "OSCCAL", "GPIO", "CMCON0"],
      IsWord name ∧ 'h' ∉ name.toList := by decide
  exact hall name (List.mem_of_getElem? h)

theorem isWord_text (r : Register) : IsWord r.text := by
  unfold text
  cases h : r.name? with
  | none => exact isWord_hexText 2 r.number
  | some name => exact (of_name? h).1

/-- **Registers show differently**: the eight names are distinct, and no number looks like a name.
-/
theorem text_inj {r r' : Register} (h : r.text = r'.text) : r = r' := by
  have hmark : ∀ n, 'h' ∈ (hexText 2 n).toList := fun n => by
    rw [hexText, String.toList_append]
    exact List.mem_append_right _ (by decide)
  unfold text at h
  cases hr : r.name? with
  | none =>
      cases hr' : r'.name? with
      | none =>
          rw [hr, hr'] at h
          exact Register.ext (hexText_inj h)
      | some name =>
          rw [hr, hr'] at h
          obtain rfl : hexText 2 r.number = name := h
          exact absurd (hmark r.number) (of_name? hr').2
  | some name =>
      cases hr' : r'.name? with
      | none =>
          rw [hr, hr'] at h
          obtain rfl : name = hexText 2 r'.number := h
          exact absurd (hmark r'.number) (of_name? hr).2
      | some name' =>
          rw [hr, hr'] at h
          obtain rfl : name = name' := h
          have hindex := (List.getElem?_eq_some_iff.mp hr).1
          exact Register.ext ((List.getElem?_inj hindex (by decide)).mp (hr.trans hr'.symm))

end Register

theorem Destination.text_inj {d d' : Destination} (h : d.text = d'.text) : d = d' := by
  revert h
  cases d <;> cases d' <;> decide

theorem TrisSelector.text_inj {s s' : TrisSelector} (h : s.text = s'.text) : s = s' := by
  have hregister := congrArg Register.number (Register.text_inj h)
  revert hregister
  cases s <;> cases s' <;> decide

namespace Operand

/-! ### Bits -/

/-- Outside STATUS a bit shows as its number. -/
theorem bitText_of_ne {r : Register} (h : r ≠ Register.status) (b : BitNumber) :
    bitText r b = Text.decimal b.val := by
  rw [bitText, if_neg h]
  rfl

/-- In STATUS the flags have distinct names, and the bit without a name shows as a number. -/
theorem bitText_status : ∀ b c : BitNumber,
    bitText Register.status b = bitText Register.status c → b = c := by
  decide

theorem isWord_bitText (r : Register) (b : BitNumber) : IsWord (bitText r b) := by
  by_cases hr : r = Register.status
  · subst hr
    revert b
    decide
  · rw [bitText_of_ne hr]
    exact Text.isWord_decimal b.val

/-- The flags of STATUS have different names, and its bit 5, which has none, shows as a digit. -/
theorem bitText_inj {r : Register} {b c : BitNumber} (h : bitText r b = bitText r c) : b = c := by
  by_cases hr : r = Register.status
  · subst hr
    exact bitText_status b c h
  · rw [bitText_of_ne hr, bitText_of_ne hr] at h
    exact Fin.ext (Text.decimal_inj h)

/-! ### Operands of one shape -/

/-- Two parts with a comma between them are told apart. -/
theorem comma_inj {r r' : Register} {a a' : String}
    (h : r.text ++ ", " ++ a = r'.text ++ ", " ++ a') : r = r' ∧ a = a' := by
  have hlist := congrArg String.toList h
  simp only [String.toList_append, List.append_assoc] at hlist
  obtain ⟨hregister, hrest⟩ := (Register.isWord_text r).append_inj (Register.isWord_text r')
    (by simp [EndsWord]; decide) (by simp [EndsWord]; decide) hlist
  exact ⟨Register.text_inj hregister, String.toList_injective (List.append_cancel_left hrest)⟩

/-- **Operands of one shape show by different texts.** -/
theorem text_inj {x y : Operand} (hshape : x.shape = y.shape) (h : x.text = y.text) : x = y := by
  cases x with
  | noOperands =>
      cases y with
      | noOperands => rfl
      | _ => cases hshape
  | file r =>
      cases y with
      | file r' => rw [Register.text_inj h]
      | _ => cases hshape
  | fileAndDestination r d =>
      cases y with
      | fileAndDestination r' d' =>
          obtain ⟨rfl, hd⟩ := comma_inj h
          rw [Destination.text_inj hd]
      | _ => cases hshape
  | fileAndBit r b =>
      cases y with
      | fileAndBit r' b' =>
          obtain ⟨rfl, hb⟩ := comma_inj h
          rw [bitText_inj hb]
      | _ => cases hshape
  | literal v =>
      cases y with
      | literal v' => rw [BitVec.eq_of_toNat_eq (hexText_inj h)]
      | _ => cases hshape
  | goto a =>
      cases y with
      | goto a' => rw [Fin.ext (hexText_inj h)]
      | _ => cases hshape
  | tris s =>
      cases y with
      | tris s' => rw [TrisSelector.text_inj h]
      | _ => cases hshape

theorem newline_notMem_text (x : Operand) : '\n' ∉ x.text.toList := by
  have hword : ∀ {s : String}, IsWord s → '\n' ∉ s.toList := fun h => h.notMem (by decide)
  cases x with
  | noOperands => decide
  | file r => exact hword r.isWord_text
  | fileAndDestination r d =>
      have hd : IsWord d.text := by cases d <;> decide
      simp [text, hword r.isWord_text, hword hd]
  | fileAndBit r b => simp [text, hword r.isWord_text, hword (isWord_bitText r b)]
  | literal v => exact hword (isWord_hexText 2 v.toNat)
  | goto a => exact hword (isWord_hexText 3 a.val)
  | tris s => exact hword s.register.isWord_text

end Operand

end PicBaseline
