import PicBaseline.Proofs.Prelude
import PicBaseline.Text.Basic

/-!
# Proofs — numerals and words of a text

What a hexadecimal digit is, said by the sixteen characters and not by ranges of code points
(`hexValue?_eq_some`), and that a numeral is read back from its text, whatever zeros stand in front
(`isHexNumeral_upperHex`, `isHexNumeral_lowerHex`); so different numbers have different numerals.

Listings are made of *words*, runs of letters, digits and underscores, with blanks, commas and
colons between them.  Numerals are words.  A word in front of a character that is in no word can be
told from what follows it (`IsWord.append_inj`), and a word has no line feed.
-/

namespace PicBaseline.Text

/-! ### Hexadecimal digits -/

/-- The character writes a hexadecimal digit, in lower or in upper case. -/
def IsHexDigit (c : Char) (n : Nat) : Prop :=
  n < 16 ∧ (c = Nat.digitChar n ∨ c = (Nat.digitChar n).toUpper)

instance (c : Char) (n : Nat) : Decidable (IsHexDigit c n) :=
  inferInstanceAs (Decidable (_ ∧ _))

theorem hexValue?_digitChar : ∀ n < 16, hexValue? (Nat.digitChar n) = some n := by
  decide

theorem hexValue?_toUpper_digitChar : ∀ n < 16, hexValue? (Nat.digitChar n).toUpper = some n := by
  decide

/-- Nothing but the sixteen digits in their two cases has a value. -/
theorem isHexDigit_of_hexValue? {c : Char} {n : Nat} (h : hexValue? c = some n) :
    IsHexDigit c n := by
  have hle : c.toNat ≤ 'f'.toNat := by
    unfold hexValue? at h
    split at h
    · rename_i hc
      exact Nat.le_trans hc.2 (by decide)
    split at h
    · rename_i hc
      exact hc.2
    split at h
    · rename_i hc
      exact Nat.le_trans hc.2 (by decide)
    · cases h
  -- The ranges of code points are three; the characters up to `f` are checked one by one.
  have hall : ∀ k < 103, ∀ n ∈ hexValue? (Char.ofNat k), IsHexDigit (Char.ofNat k) n := by decide
  have hc := hall c.toNat (Nat.lt_succ_of_le hle) n
  rw [Char.ofNat_toNat] at hc
  exact hc h

/-- **A character has the value of the digit it writes.** -/
theorem hexValue?_eq_some {c : Char} {n : Nat} : hexValue? c = some n ↔ IsHexDigit c n := by
  refine ⟨isHexDigit_of_hexValue?, ?_⟩
  rintro ⟨hn, rfl | rfl⟩
  · exact hexValue?_digitChar n hn
  · exact hexValue?_toUpper_digitChar n hn

theorem IsHexDigit.unique {c : Char} {m n : Nat} (hm : IsHexDigit c m) (hn : IsHexDigit c n) :
    m = n := by
  have h := hexValue?_eq_some.mpr hm
  rw [hexValue?_eq_some.mpr hn] at h
  exact (Option.some.inj h).symm

/-- What holds of the digits in both cases holds of a digit. -/
theorem IsHexDigit.holds {p : Char → Bool} {c : Char} {n : Nat} (h : IsHexDigit c n)
    (hall : ∀ d < 16, p (Nat.digitChar d) = true ∧ p (Nat.digitChar d).toUpper = true) :
    p c = true := by
  obtain ⟨hn, rfl | rfl⟩ := h
  · exact (hall n hn).1
  · exact (hall n hn).2

theorem mapM_hexValue?_eq_some {cs : List Char} {ds : List Nat} :
    cs.mapM hexValue? = some ds ↔ List.Forall₂ IsHexDigit cs ds := by
  rw [mapM_eq_some]
  simp only [hexValue?_eq_some]

/-! ### Hexadecimal numerals -/

/-- The characters write a number in hexadecimal, leading zeros and either case allowed. -/
def IsHexNumeral (cs : List Char) (n : Nat) : Prop :=
  ∃ ds, List.Forall₂ IsHexDigit cs ds ∧ hexNumber ds = n

theorem IsHexNumeral.unique {cs : List Char} {m n : Nat} (hm : IsHexNumeral cs m)
    (hn : IsHexNumeral cs n) : m = n := by
  obtain ⟨ds, hds, rfl⟩ := hm
  obtain ⟨es, hes, rfl⟩ := hn
  have hsome := mapM_hexValue?_eq_some.mpr hds
  rw [mapM_hexValue?_eq_some.mpr hes] at hsome
  rw [Option.some.inj hsome]

theorem IsHexNumeral.concat {cs : List Char} {c : Char} {m d : Nat} (hm : IsHexNumeral cs m)
    (hd : IsHexDigit c d) : IsHexNumeral (cs ++ [c]) (16 * m + d) := by
  obtain ⟨ds, hds, rfl⟩ := hm
  refine ⟨ds ++ [d], List.rel_append hds (.cons hd .nil), ?_⟩
  simp [hexNumber]

/-- Zeros in front count nothing. -/
theorem IsHexNumeral.leftpad {cs : List Char} {n : Nat} (h : IsHexNumeral cs n) (width : Nat) :
    IsHexNumeral (cs.leftpad width '0') n := by
  obtain ⟨ds, hds, rfl⟩ := h
  have hzero : IsHexDigit '0' 0 := by decide
  rw [List.leftpad]
  induction width - cs.length with
  | zero => exact ⟨ds, hds, rfl⟩
  | succ k ih =>
      obtain ⟨es, hes, hvalue⟩ := ih
      exact ⟨0 :: es, .cons hzero hes, hvalue⟩

/-- The digits of a number, each written in one of its cases. -/
theorem isHexNumeral_map_toDigits {f : Char → Char}
    (hf : ∀ d < 16, IsHexDigit (f (Nat.digitChar d)) d) (n : Nat) :
    IsHexNumeral ((Nat.toDigits 16 n).map f) n := by
  -- on the digits from the left: the last one is appended to a numeral
  induction n using Nat.base_induction 16 (by decide) with
  | single m hm =>
      rw [Nat.toDigits_of_lt_base hm]
      exact ⟨[m], .cons (hf m hm) .nil, by simp [hexNumber]⟩
  | digit m k hk hm ih =>
      rw [← Nat.toDigits_append_toDigits (by decide) hm hk, Nat.toDigits_of_lt_base hk,
        List.map_append]
      exact ih.concat (hf k hk)

/-- **The upper-case numeral of a number writes it**, whatever the width. -/
theorem isHexNumeral_upperHex (width n : Nat) : IsHexNumeral (upperHex width n).toList n := by
  rw [upperHex, String.toList_ofList]
  exact (isHexNumeral_map_toDigits (fun _ hd => ⟨hd, Or.inr rfl⟩) n).leftpad width

/-- **So does the lower-case numeral.** -/
theorem isHexNumeral_lowerHex (width n : Nat) : IsHexNumeral (lowerHex width n).toList n := by
  have hdigits : IsHexNumeral ((Nat.toDigits 16 n).map id) n :=
    isHexNumeral_map_toDigits (fun _ hd => ⟨hd, Or.inl rfl⟩) n
  rw [List.map_id] at hdigits
  rw [lowerHex, String.toList_ofList]
  exact hdigits.leftpad width

theorem upperHex_inj {width m n : Nat} (h : upperHex width m = upperHex width n) : m = n :=
  (isHexNumeral_upperHex width m).unique (h ▸ isHexNumeral_upperHex width n)

theorem isHexDigit_of_mem_upperHex {width n : Nat} {c : Char} (h : c ∈ (upperHex width n).toList) :
    ∃ d, IsHexDigit c d := by
  obtain ⟨ds, hds, -⟩ := isHexNumeral_upperHex width n
  exact exists_of_mem_forall₂ hds c h

/-! ### Decimal numerals -/

theorem decimal_inj {m n : Nat} (h : decimal m = decimal n) : m = n := by
  have hdigits : Nat.toDigits 10 m = Nat.toDigits 10 n := String.ofList_injective h
  rw [← Nat.ofDigitChars_ten_toDigits (n := m), hdigits, Nat.ofDigitChars_ten_toDigits]

theorem isDigit_of_mem_decimal {n : Nat} {c : Char} (h : c ∈ (decimal n).toList) :
    c.isDigit = true := by
  rw [decimal, String.toList_ofList] at h
  exact Nat.isDigit_of_mem_toDigits (by decide) (by decide) h

/-! ### Words -/

/-- Letters, digits and the underscore. -/
def isWordChar (c : Char) : Bool :=
  c.isAlphanum || c == '_'

/-- A run of word characters, possibly none. -/
def IsWord (s : String) : Prop :=
  ∀ c ∈ s.toList, isWordChar c = true

instance (s : String) : Decidable (IsWord s) :=
  List.decidableBAll (fun c => isWordChar c = true) s.toList

/-- Nothing, or a character in front that is in no word. -/
def EndsWord (cs : List Char) : Prop :=
  ∀ c ∈ cs.head?, isWordChar c = false

theorem IsWord.append {a b : String} (ha : IsWord a) (hb : IsWord b) : IsWord (a ++ b) := by
  intro c hc
  rw [String.toList_append, List.mem_append] at hc
  exact hc.elim (ha c) (hb c)

theorem IsWord.notMem {s : String} (h : IsWord s) {c : Char} (hc : isWordChar c = false) :
    c ∉ s.toList := by
  intro hmem
  rw [h c hmem] at hc
  cases hc

/-- A word ends at the first character that is in no word. -/
theorem IsWord.append_inj {a b : String} (ha : IsWord a) (hb : IsWord b) {s t : List Char}
    (hs : EndsWord s) (ht : EndsWord t) (h : a.toList ++ s = b.toList ++ t) : a = b ∧ s = t := by
  have hrun : ∀ {a : String} {s : List Char}, IsWord a → EndsWord s →
      (a.toList ++ s).takeWhile isWordChar = a.toList := by
    intro a s ha hs
    have hstop : s.takeWhile isWordChar = [] := by
      cases s with
      | nil => rfl
      | cons c s => exact List.takeWhile_cons_of_neg (by simp [hs c rfl])
    rw [List.takeWhile_append_of_pos ha, hstop, List.append_nil]
  have hlist : a.toList = b.toList := by
    rw [← hrun ha hs, h, hrun hb ht]
  rw [hlist] at h
  exact ⟨String.toList_injective hlist, List.append_cancel_left h⟩

/-! ### Numerals are words -/

theorem isWordChar_of_isHexDigit {c : Char} {n : Nat} (h : IsHexDigit c n) :
    isWordChar c = true :=
  h.holds (by decide)

theorem isWord_upperHex (width n : Nat) : IsWord (upperHex width n) := by
  intro c hc
  obtain ⟨d, hd⟩ := isHexDigit_of_mem_upperHex hc
  exact isWordChar_of_isHexDigit hd

theorem isWord_decimal (n : Nat) : IsWord (decimal n) := by
  intro c hc
  have hdigit := isDigit_of_mem_decimal hc
  simp [isWordChar, Char.isAlphanum, hdigit]

end PicBaseline.Text
