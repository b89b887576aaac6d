import PicBaseline.Proofs.Pattern.Grammar

/-!
# Proofs — why a text is no pattern

`compile` looks for faults in two passes with two checks between them, so a text with several
faults is refused for one of them.  Which one depends on the text without its blanks: `front` is
what stands before the first layout letter, `back` is the rest, and `diagnosis` asks for the faults
in turn.

* `scanOpcode_eq_error`, `scanLayout_eq_error`: a pass fails at the first character foreign to it.
* `error_of_compile`: the error is the diagnosis.
* `compile_congr`: blanks change neither the pattern nor the error.
-/

namespace PicBaseline

namespace Pattern

open Text (solid solid_cons solid_cons_of_blank)

/-! ### The diagnosis -/

/-- The symbols of the opcode. -/
def opcodeDigits : List Char :=
  ['0', '1']

/-- The symbols of layouts. -/
def layoutLetters : List Char :=
  ['b', 'd', 'f', 'k']

/-- The longest front of a text that has no layout letter. -/
def front (w : List Char) : List Char :=
  w.takeWhile fun c => c ∉ layoutLetters

/-- The text from its first layout letter on. -/
def back (w : List Char) : List Char :=
  w.dropWhile fun c => c ∉ layoutLetters

/-- The first character that is not one of the known ones. -/
def firstOutside (known : List Char) (w : List Char) : Option Char :=
  w.find? fun c => c ∉ known

/-- What is wrong with a text without blanks that spells no pattern. -/
def diagnosis (w : List Char) : PatternError :=
  match firstOutside opcodeDigits (front w) with
  | some c => .unexpectedCharacter c
  | none =>
      if front w = [] then .missingOpcode
      else if 12 < (front w).length then .opcodeTooLong (front w).length
      else match firstOutside (opcodeDigits ++ layoutLetters) (back w) with
        | some c => .unexpectedCharacter c
        | none   => .unknownShape (String.ofList (back w))

/-! ### Characters -/

theorem mem_opcodeDigits {c : Char} : c ∈ opcodeDigits ↔ isOpcodeDigit c = true := by
  simp [opcodeDigits, isOpcodeDigit]

theorem mem_layoutLetters {c : Char} : c ∈ layoutLetters ↔ isLayoutLetter c = true := by
  simp [layoutLetters, isLayoutLetter, or_assoc]

theorem mem_digits_or_letters {c : Char} :
    c ∈ opcodeDigits ++ layoutLetters ↔ (isLayoutLetter c || isOpcodeDigit c) = true := by
  rw [List.mem_append, mem_opcodeDigits, mem_layoutLetters, Bool.or_eq_true, or_comm]

theorem notMem_layoutLetters {c : Char} (h : isOpcodeDigit c = true) : c ∉ layoutLetters := by
  rw [mem_layoutLetters]
  intro hletter
  rw [isOpcodeDigit_of_isLayoutLetter hletter] at h
  cases h

section firstOutside

variable {known : List Char} {c : Char}

theorem firstOutside_cons_of_mem (h : c ∈ known) (w : List Char) :
    firstOutside known (c :: w) = firstOutside known w :=
  List.find?_cons_of_neg (by simpa only [decide_eq_true_eq, not_not] using h)

theorem firstOutside_cons (h : c ∉ known) (w : List Char) :
    firstOutside known (c :: w) = some c :=
  List.find?_cons_of_pos (decide_eq_true h)

theorem firstOutside_eq_none {w : List Char} :
    firstOutside known w = none ↔ ∀ c ∈ w, c ∈ known := by
  simp [firstOutside]

end firstOutside

/-! ### Front and back -/

theorem front_cons_of_mem {c : Char} (h : c ∈ layoutLetters) (w : List Char) :
    front (c :: w) = [] :=
  List.takeWhile_cons_of_neg (by simpa using h)

theorem front_cons {c : Char} (h : c ∉ layoutLetters) (w : List Char) :
    front (c :: w) = c :: front w :=
  List.takeWhile_cons_of_pos (by simpa using h)

/-- Blanks do not hide where the opcode ends. -/
theorem stops_solid {cs : List Char} (h : Stops cs) : Stops (solid cs) := by
  cases cs with
  | nil => exact h
  | cons c cs =>
      have hletter : isLayoutLetter c = true := h c rfl
      rw [solid_cons (isBlank_of_isLayoutLetter hletter)]
      simpa [Stops] using hletter

/-- Digits in front of a layout are the front, and the layout is the back. -/
theorem front_back_append {d l : List Char} (hd : ∀ c ∈ d, isOpcodeDigit c = true)
    (hl : Stops l) : front (d ++ l) = d ∧ back (d ++ l) = l := by
  have hpass : ∀ c ∈ d, decide (c ∉ layoutLetters) = true :=
    fun c hc => decide_eq_true (notMem_layoutLetters (hd c hc))
  rw [front, back, List.takeWhile_append_of_pos hpass, List.dropWhile_append_of_pos hpass]
  cases l with
  | nil => simp
  | cons c l =>
      have hletter : c ∈ layoutLetters := mem_layoutLetters.mpr (hl c rfl)
      rw [List.takeWhile_cons_of_neg (by simpa using hletter),
        List.dropWhile_cons_of_neg (by simpa using hletter), List.append_nil]
      exact ⟨rfl, rfl⟩

/-! ### Where the passes fail -/

/-- The first pass fails at the first character of the front that is no digit. -/
theorem scanOpcode_eq_error {cs : List Char} {e : PatternError} :
    scanOpcode cs = .error e ↔
      ∃ c, firstOutside opcodeDigits (front (solid cs)) = some c ∧ e = .unexpectedCharacter c := by
  induction cs with
  | nil => exact iff_of_false (by simp [scanOpcode]) (by simp [solid, front, firstOutside])
  | cons c cs ih =>
      unfold scanOpcode
      split
      · rename_i hdigit
        refine (bind_fails_of_returns fun _ => ⟨_, rfl⟩).trans ?_
        rw [ih, solid_cons (isBlank_of_isOpcodeDigit hdigit),
          front_cons (notMem_layoutLetters hdigit),
          firstOutside_cons_of_mem (mem_opcodeDigits.mpr hdigit)]
      rename_i hdigit
      split
      · -- At a layout letter the scan returns, whatever follows.
        rename_i hletter
        rw [solid_cons (isBlank_of_isLayoutLetter hletter),
          front_cons_of_mem (mem_layoutLetters.mpr hletter)]
        exact iff_of_false (by simp) (by simp [firstOutside])
      rename_i hletter
      split
      · rename_i hblank
        rw [ih, solid_cons_of_blank hblank]
      · rename_i hblank
        rw [solid_cons (by simpa using hblank), front_cons (mt mem_layoutLetters.mp hletter),
          firstOutside_cons (mt mem_opcodeDigits.mp hdigit)]
        simp [eq_comm]

/-- The second pass fails at the first character that is neither a digit nor a letter. -/
theorem scanLayout_eq_error {cs : List Char} {e : PatternError} :
    scanLayout cs = .error e ↔
      ∃ c, firstOutside (opcodeDigits ++ layoutLetters) (solid cs) = some c ∧
        e = .unexpectedCharacter c := by
  induction cs with
  | nil => exact iff_of_false (by simp [scanLayout]) (by simp [solid, firstOutside])
  | cons c cs ih =>
      unfold scanLayout
      split
      · rename_i hblank
        rw [ih, solid_cons_of_blank hblank]
      rename_i hblank
      rw [solid_cons (by simpa using hblank)]
      split
      · rename_i hc
        refine (bind_fails_of_returns fun _ => ⟨_, rfl⟩).trans ?_
        rw [ih, firstOutside_cons_of_mem (mem_digits_or_letters.mpr hc)]
      · rename_i hc
        rw [firstOutside_cons (mt mem_digits_or_letters.mp hc)]
        simp [eq_comm]

/-! ### The error -/

/-- **The error is the diagnosis.** -/
theorem error_of_compile {s : String} {e : PatternError} (h : compile s = .error e) :
    e = diagnosis (solid s.toList) := by
  rcases bind_fails.mp h with hscan | ⟨⟨bits, rest⟩, hscan, h⟩
  · obtain ⟨c, hc, rfl⟩ := scanOpcode_eq_error.mp hscan
    rw [diagnosis, hc]
  -- The first pass has taken the front, so the checks that follow see its length and the back.
  obtain ⟨d, hsolid, hdigits, rfl, hstop⟩ := scanOpcode_eq_ok hscan
  obtain ⟨hfront, hback⟩ := front_back_append hdigits (stops_solid hstop)
  have hnone : firstOutside opcodeDigits d = none :=
    firstOutside_eq_none.mpr fun c hc => mem_opcodeDigits.mpr (hdigits c hc)
  rw [hsolid, diagnosis, hfront, hback, hnone]
  dsimp only at h ⊢
  rw [List.length_map] at h
  split at h
  · rename_i hempty
    cases h
    rw [if_pos (by simpa using hempty)]
  rename_i hempty
  rw [if_neg (by simpa using hempty)]
  split at h
  · rename_i hlong
    cases h
    exact (if_pos hlong).symm
  rename_i hlong
  refine Eq.trans ?_ (if_neg hlong).symm
  rcases bind_fails.mp h with hlayout | ⟨layout, hlayout, h⟩
  · obtain ⟨c, hc, rfl⟩ := scanLayout_eq_error.mp hlayout
    rw [hc]
  · obtain ⟨rfl, hknown⟩ := scanLayout_eq_ok.mp hlayout
    rw [firstOutside_eq_none.mpr fun c hc => mem_digits_or_letters.mpr (hknown c hc)]
    split at h
    · cases h
    · cases h
      rfl

/-- **Blanks do not matter**, neither to the pattern nor to the error. -/
theorem compile_congr {s t : String} (h : solid s.toList = solid t.toList) :
    compile s = compile t := by
  cases hs : compile s with
  | ok p =>
      obtain ⟨d, hd⟩ := spelling_of_compile hs
      rw [← hs, (compile_of_spelling hd).2, (compile_of_spelling (h ▸ hd)).2]
  | error e =>
      cases ht : compile t with
      | ok p =>
          obtain ⟨d, hd⟩ := spelling_of_compile ht
          rw [(compile_of_spelling (h ▸ hd)).2] at hs
          cases hs
      | error e' => rw [error_of_compile hs, error_of_compile ht, h]

end Pattern

/-! ### What is refused -/

open Pattern Text

/-- **Why a text is refused.**  A text is refused when it spells no pattern, with the diagnosis of
the text without its blanks.  Texts that differ in blanks only have the same result, so blanks may
be put in or taken out anywhere. -/
theorem compile_refusal (s : String) :
    (∀ e, compile s = .error e ↔
      (∀ d shape, ¬ Spelling (solid s.toList) d shape) ∧ e = diagnosis (solid s.toList)) ∧
    (∀ t : String, solid t.toList = solid s.toList → compile t = compile s) ∧
    ∀ a blanks b : String, s = a ++ b → (∀ c ∈ blanks.toList, isBlank c = true) →
      compile (a ++ blanks ++ b) = compile s := by
  refine ⟨fun e => ⟨fun h => ⟨fun d shape hd => ?_, error_of_compile h⟩, ?_⟩,
    fun t => compile_congr, ?_⟩
  · rw [(compile_of_spelling hd).2] at h
    cases h
  · rintro ⟨hnone, rfl⟩
    cases hs : compile s with
    | ok p =>
        obtain ⟨d, hd⟩ := spelling_of_compile hs
        exact absurd hd (hnone d p.shape)
    | error e => rw [error_of_compile hs]
  · rintro a blanks b rfl hblank
    have hgone : solid blanks.toList = [] := by simpa [solid] using hblank
    refine compile_congr ?_
    simp only [String.toList_append, solid_append, hgone, List.append_nil]

/-- Thirteen digits are too many before the foreign character behind them is seen, and neither
spaces nor a no-break space among them count. -/
theorem compile_refusal_two_faults :
    compile "0000 0000 0000 0k?" = .error (.opcodeTooLong 13) ∧
    diagnosis (solid "0000 0000 0000 0k?".toList) = .opcodeTooLong 13 ∧
    compile "0000000000000k?" = .error (.opcodeTooLong 13) ∧
    compile ("0000 0000" ++ "\u00a0" ++ " 0000 0k?") = .error (.opcodeTooLong 13) := by
  have h : compile "0000 0000 0000 0k?" = .error (.opcodeTooLong 13) := rfl
  obtain ⟨herror, hcongr, hblanks⟩ := compile_refusal "0000 0000 0000 0k?"
  refine ⟨h, ((herror _).mp h).2.symm, ?_, ?_⟩
  · rw [hcongr _ (by decide), h]
  · rw [hblanks _ _ _ rfl (List.all_eq_true.mp (by decide)), h]

end PicBaseline
