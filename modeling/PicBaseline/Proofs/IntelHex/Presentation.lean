import Mathlib.Logic.Relation
import PicBaseline.Program.Assembly
import PicBaseline.Proofs.IntelHex.Rendering

/-!
# Proofs — how a HEX text is presented

Three things of a text are presentation: the case of its hexadecimal letters, its empty lines, and
whether its lines end with a carriage return and a line feed or with a line feed alone.  A
`Restyle` changes one of them.

What reading depends on is the list of `plainLines`: the lines that are not empty, without their
ends and with their letters in lower case.

* `readRecords_eq_plainLines`: a text is read by its plain lines, and so are its errors.
* `Restyle.plainLines_eq`: a restyled text has the same ones.
* `ofHex_ignores_presentation`: so no number of changes of this kind is seen in the program, or in
  the error and the record it names.
-/

namespace PicBaseline.IntelHex

open Text (LineEnd fullLines hexValue?)

/-! ### Restyled texts -/

/-- The character, a letter from `A` to `F` in lower case. -/
def lowerLetter (c : Char) : Char :=
  if 'A' ≤ c ∧ c ≤ 'F' then c.toLower else c

/-- The text with a carriage return in front of each line feed. -/
def withReturns (cs : List Char) : List Char :=
  cs.flatMap fun c => if c = '\n' then ['\r', '\n'] else [c]

/-- One change of presentation. -/
inductive Restyle : List Char → List Char → Prop where
  /-- Hexadecimal letters, any of them, change their case. -/
  | letterCase {cs cs' : List Char} (h : cs.map lowerLetter = cs'.map lowerLetter) :
      Restyle cs cs'
  /-- An empty line is put in at the start or directly behind a line feed. -/
  | emptyLine {before e after : List Char} (start : before = [] ∨ before.getLast? = some '\n')
      (he : LineEnd e) : Restyle (before ++ after) (before ++ (e ++ after))
  /-- A text without carriage returns gets one at each line feed. -/
  | returns {cs : List Char} (h : '\r' ∉ cs) : Restyle cs (withReturns cs)

/-- The lines that are not empty, with hexadecimal letters in lower case. -/
def plainLines (cs : List Char) : List (List Char) :=
  (fullLines cs).map (·.map lowerLetter)

/-! ### Reading plain lines -/

theorem lowerLetter_eq_or (c : Char) :
    lowerLetter c = c ∨ ∃ n, hexValue? c = some n ∧ hexValue? (lowerLetter c) = some n := by
  unfold lowerLetter
  split
  · rename_i hc
    -- The six letters are checked one by one.
    have hall : ∀ k < 71, 65 ≤ k → ∃ n < 16, hexValue? (Char.ofNat k) = some n ∧
        hexValue? (Char.ofNat k).toLower = some n := by decide
    obtain ⟨n, -, hn⟩ := hall c.toNat (Nat.lt_succ_of_le hc.2) hc.1
    rw [Char.ofNat_toNat] at hn
    exact Or.inr ⟨n, hn⟩
  · exact Or.inl rfl

/-- Case does not change the value of a digit. -/
theorem hexValue?_lowerLetter (c : Char) : hexValue? (lowerLetter c) = hexValue? c := by
  rcases lowerLetter_eq_or c with h | ⟨n, hc, hlower⟩
  · rw [h]
  · rw [hc, hlower]

/-- No other character than a digit becomes another or comes out of one. -/
theorem lowerLetter_eq_iff {d : Char} (hd : hexValue? d = none) (c : Char) :
    lowerLetter c = d ↔ c = d := by
  rcases lowerLetter_eq_or c with h | ⟨n, hc, hlower⟩
  · rw [h]
  · refine iff_of_false ?_ ?_
    · rintro rfl
      rw [hlower] at hd
      cases hd
    · rintro rfl
      rw [hc] at hd
      cases hd

theorem mapM_hexValue?_lowerLetter (cs : List Char) :
    (cs.map lowerLetter).mapM hexValue? = cs.mapM hexValue? := by
  rw [List.mapM_map]
  exact congrArg (cs.mapM ·) (funext hexValue?_lowerLetter)

/-- The case of a letter is not seen in a line, nor in what is wrong with it. -/
theorem readLine_map_lowerLetter (line : List Char) :
    readLine (line.map lowerLetter) = readLine line := by
  cases line with
  | nil => rfl
  | cons c cs =>
      by_cases hc : c = ':'
      · subst hc
        show readLine (':' :: cs.map lowerLetter) = _
        rw [readLine, readLine, mapM_hexValue?_lowerLetter]
      · have hlower : lowerLetter c ≠ ':' := mt (lowerLetter_eq_iff (by decide) c).mp hc
        rw [List.map_cons]
        simp [readLine, hc, hlower]

/-- Nor does it change what lines are read as, or which one is reported. -/
theorem readLines_map_lowerLetter (n : Nat) (ls : List (List Char)) :
    readLines n (ls.map (·.map lowerLetter)) = readLines n ls := by
  induction ls generalizing n with
  | nil => rfl
  | cons line ls ih => simp only [List.map_cons, readLines, readLine_map_lowerLetter, ih]

/-- **Only the plain lines of a text are read.** -/
theorem readRecords_eq_plainLines (text : String) :
    readRecords text = readLines 1 (plainLines text.toList) :=
  (readLines_map_lowerLetter 1 (fullLines text.toList)).symm

/-! ### Restyled texts have the same plain lines -/

theorem plainLines_eq_fullLines (cs : List Char) :
    plainLines cs = fullLines (cs.map lowerLetter) :=
  (Text.fullLines_map (lowerLetter_eq_iff (by decide)) (lowerLetter_eq_iff (by decide)) cs).symm

theorem withReturns_of_notMem {l : List Char} (h : '\n' ∉ l) : withReturns l = l := by
  induction l with
  | nil => rfl
  | cons c l ih =>
      rw [List.mem_cons, not_or] at h
      rw [withReturns, List.flatMap_cons, if_neg (Ne.symm h.1)]
      exact congrArg (c :: ·) (ih h.2)

/-- Carriage returns in front of line feeds do not change the lines. -/
theorem fullLines_withReturns {cs : List Char} (h : '\r' ∉ cs) :
    fullLines (withReturns cs) = fullLines cs := by
  induction cs using Text.lines_induction with
  | last l hl => rw [withReturns_of_notMem hl]
  | line l cs hl ih =>
      rw [List.mem_append, not_or] at h
      have hlast : l.getLast? ≠ some '\r' := fun hmem => h.1 (List.mem_of_getLast? hmem)
      have hreturned : withReturns (l ++ '\n' :: cs) = l ++ (['\r', '\n'] ++ withReturns cs) := by
        rw [withReturns, List.flatMap_append, List.flatMap_cons, if_pos rfl]
        exact congrArg (· ++ _) (withReturns_of_notMem hl)
      calc fullLines (withReturns (l ++ '\n' :: cs))
          = fullLines l ++ fullLines (withReturns cs) := by
            rw [hreturned, Text.fullLines_ended .returnFeed hl hlast]
        _ = fullLines l ++ fullLines cs := by rw [ih (mt (List.mem_cons_of_mem _) h.2)]
        _ = fullLines (l ++ '\n' :: cs) := (Text.fullLines_ended .feed hl hlast cs).symm

/-- **What one change of style keeps**: the lines that are not empty, in lower case. -/
theorem Restyle.plainLines_eq {cs cs' : List Char} (h : Restyle cs cs') :
    plainLines cs = plainLines cs' := by
  cases h with
  | letterCase h => rw [plainLines_eq_fullLines, plainLines_eq_fullLines, h]
  | @emptyLine before e after start he =>
      rw [plainLines, plainLines, Text.fullLines_append start, Text.fullLines_append start,
        Text.fullLines_skip he]
  | returns h => rw [plainLines, plainLines, fullLines_withReturns h]

/-- **Presentation does not matter**, on errors either.  Two texts that come out of each other by
changing the case of hexadecimal letters, putting in or taking out empty lines, and ending lines
with a carriage return and a line feed in place of a line feed, any number of times, give the same
program, or the same error with the same number of its record. -/
theorem ofHex_ignores_presentation {text text' : String}
    (h : Relation.EqvGen Restyle text.toList text'.toList) :
    Program.ofHex text = Program.ofHex text' := by
  have hplain : ∀ {cs cs' : List Char}, Relation.EqvGen Restyle cs cs' →
      plainLines cs = plainLines cs' := by
    intro cs cs' hstyle
    induction hstyle with
    | rel cs cs' hstep => exact hstep.plainLines_eq
    | refl cs => rfl
    | symm cs cs' _ ih => exact ih.symm
    | trans cs cs' cs'' _ _ ih ih' => exact ih.trans ih'
  have hread : readRecords text = readRecords text' := by
    rw [readRecords_eq_plainLines, readRecords_eq_plainLines, hplain h]
  rw [Program.ofHex, Program.ofHex, hread]

/-- All three changes at a text whose second record is too short: carriage returns, an empty line of
each kind, and letters of both records. -/
theorem ofHex_ignores_presentation_short_record :
    Relation.EqvGen Restyle ":00000001FF\n:a".toList "\r\n:00000001fF\r\n\n:A".toList ∧
    Program.ofHex "\r\n:00000001fF\r\n\n:A" = .error (.read ⟨2, .tooShort⟩) := by
  have hreturns : Restyle ":00000001FF\n:a".toList ":00000001FF\r\n:a".toList :=
    .returns (by decide)
  have hfirst : Restyle ":00000001FF\r\n:a".toList "\r\n:00000001FF\r\n:a".toList :=
    .emptyLine (Or.inl rfl) .returnFeed
  have hsecond : Restyle "\r\n:00000001FF\r\n:a".toList "\r\n:00000001FF\r\n\n:a".toList :=
    show Restyle ("\r\n:00000001FF\r\n".toList ++ [':', 'a'])
      ("\r\n:00000001FF\r\n".toList ++ (['\n'] ++ [':', 'a']))
    from .emptyLine (Or.inr rfl) .feed
  have hletters : Restyle "\r\n:00000001FF\r\n\n:a".toList "\r\n:00000001fF\r\n\n:A".toList :=
    .letterCase (by decide)
  have hstyle := ((Relation.EqvGen.rel _ _ hreturns).trans _ _ _ (.rel _ _ hfirst)).trans _ _ _
    ((Relation.EqvGen.rel _ _ hsecond).trans _ _ _ (.rel _ _ hletters))
  exact ⟨hstyle, (ofHex_ignores_presentation hstyle).symm.trans rfl⟩

end PicBaseline.IntelHex
