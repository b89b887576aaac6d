import PicBaseline.Proofs.IntelHex.Rendering

/-!
# Proofs — HEX texts one after the other

A text that is empty or ends with a line feed has whole lines, and a text behind it adds its own.
Nothing that the walk over the lines carries crosses the seam but the number of the line, and that
counts the lines that are not empty, of which each one read is a record.

* `readLines_append`: the walk over two lists of lines is a walk over the first, and one over the
  second that counts on.
* `readLines_add`: counting on changes the number in an error and nothing else.
* `readRecords_append`: so the joint text is read part by part.
* `readRecords_compositional`: the cases of that equation, and where a text fails.
-/

namespace PicBaseline.IntelHex

open Text (fullLines)

/-- The same error, `k` records later. -/
def ReadError.later (k : Nat) (e : ReadError) : ReadError :=
  ⟨e.number + k, e.cause⟩

/-! ### The walk over two lists of lines -/

/-- Lines are read one part after the other, and numbered on. -/
theorem readLines_append (n : Nat) (ls ls' : List (List Char)) :
    readLines n (ls ++ ls') = (readLines n ls >>= fun rs =>
      readLines (n + rs.length) ls' >>= fun rs' => .ok (rs ++ rs')) := by
  induction ls generalizing n with
  | nil =>
      show readLines n ls' = readLines n ls' >>= fun rs' => .ok rs'
      cases readLines n ls' <;> rfl
  | cons line ls ih =>
      rw [List.cons_append]
      cases hline : readLine line with
      | error e =>
          rw [readLines_cons_error hline, readLines_cons_error hline]
          rfl
      | ok r =>
          rw [readLines_cons_ok hline, readLines_cons_ok hline, ih]
          cases readLines (n + 1) ls with
          | error e => rfl
          | ok rs =>
              show (readLines (n + 1 + rs.length) ls' >>= _) >>= _ =
                readLines (n + (rs.length + 1)) ls' >>= _
              rw [Nat.add_assoc n 1, Nat.add_comm 1]
              cases readLines (n + (rs.length + 1)) ls' <;> rfl

/-- Numbering from further on moves the number of the report and nothing else. -/
theorem readLines_add (n k : Nat) (ls : List (List Char)) :
    readLines (n + k) ls = (readLines n ls).mapError (ReadError.later k) := by
  induction ls generalizing n with
  | nil => rfl
  | cons line ls ih =>
      cases hline : readLine line with
      | error e =>
          rw [readLines_cons_error hline, readLines_cons_error hline]
          rfl
      | ok r =>
          rw [readLines_cons_ok hline, readLines_cons_ok hline, Nat.add_right_comm, ih]
          cases readLines (n + 1) ls <;> rfl

/-! ### The joint text -/

/-- **A joint text is read part by part.** -/
theorem readRecords_append {t₁ : String} (h : t₁ = "" ∨ t₁.toList.getLast? = some '\n')
    (t₂ : String) :
    readRecords (t₁ ++ t₂) = (readRecords t₁ >>= fun r₁ =>
      (readRecords t₂).mapError (ReadError.later r₁.length) >>= fun r₂ => .ok (r₁ ++ r₂)) := by
  have hlines : fullLines (t₁ ++ t₂).toList = fullLines t₁.toList ++ fullLines t₂.toList := by
    rw [String.toList_append]
    exact Text.fullLines_append (h.imp_left fun hnil => by rw [hnil]; rfl) t₂.toList
  show readLines 1 (fullLines (t₁ ++ t₂).toList) = _
  rw [hlines, readLines_append]
  simp only [readLines_add]
  rfl

/-- A text fails at the first of its lines that cannot be read. -/
theorem readRecords_eq_error {text : String} {n : Nat} {cause : LineError} :
    readRecords text = .error ⟨n, cause⟩ ↔
      ∃ before line after, fullLines text.toList = before ++ line :: after ∧
        n = before.length + 1 ∧ (∀ l ∈ before, ∃ r, readLine l = .ok r) ∧
        readLine line = .error cause := by
  show readLines 1 (fullLines text.toList) = _ ↔ _
  rw [readLines_eq_error]
  simp only [Nat.add_comm 1]

/-- **Reading HEX text is compositional and fails at the first bad line.**  Let a text be empty or
end with a line feed.  If it cannot be read, it fails alike whatever follows it; if both it and the
text behind it can be read, the joint text has the records of the one and then those of the other;
and if only the second fails, so does the joint text, with the same cause and a number that counts
the records of the first.  The number is that of the first line, among those that are not empty,
that cannot be read. -/
theorem readRecords_compositional {t₁ : String} (h : t₁ = "" ∨ t₁.toList.getLast? = some '\n')
    (t₂ : String) :
    (∀ n cause, readRecords t₁ = .error ⟨n, cause⟩ →
      readRecords (t₁ ++ t₂) = .error ⟨n, cause⟩) ∧
    (∀ r₁ r₂, readRecords t₁ = .ok r₁ → readRecords t₂ = .ok r₂ →
      readRecords (t₁ ++ t₂) = .ok (r₁ ++ r₂)) ∧
    (∀ r₁ n cause, readRecords t₁ = .ok r₁ → readRecords t₂ = .error ⟨n, cause⟩ →
      readRecords (t₁ ++ t₂) = .error ⟨n + r₁.length, cause⟩ ∧
      ReadError.chain ⟨n + r₁.length, cause⟩ =
        ["hex record " ++ Text.decimal (n + r₁.length), cause.message]) ∧
    (∀ text n cause, readRecords text = .error ⟨n, cause⟩ ↔
      ∃ before line after,
        (Text.lines text.toList).filter (!·.isEmpty) = before ++ line :: after ∧
        n = before.length + 1 ∧ (∀ l ∈ before, ∃ r, readLine l = .ok r) ∧
        readLine line = .error cause) := by
  refine ⟨?_, ?_, ?_, fun text n cause => readRecords_eq_error⟩
  · intro n cause h₁
    rw [readRecords_append h, h₁]
    rfl
  · intro r₁ r₂ h₁ h₂
    rw [readRecords_append h, h₁, h₂]
    rfl
  · intro r₁ n cause h₁ h₂
    refine ⟨?_, rfl⟩
    rw [readRecords_append h, h₁, h₂]
    rfl

/-- An empty line on each side of the seam.  The second text is read, or it fails in a last line that
is not ended, behind a record that can be read; and a first text that fails does so whatever
follows. -/
theorem readRecords_compositional_blank_seam :
    (":020000040000FA\r\n\n".toList.getLast? = some '\n' ∧
      readRecords (":020000040000FA\r\n\n" ++ "\n:00000001FF") =
        .ok ([.extendedLinearAddress 0#16] ++ [.endOfFile]) ∧
      readRecords (":020000040000FA\r\n\n" ++ "\n:00000001FF\n:00000001FF\r") =
        .error ⟨2 + 1, .invalidCharacters⟩) ∧
    ("\n:00000004FC\n".toList.getLast? = some '\n' ∧
      readRecords ("\n:00000004FC\n" ++ "\n:00000001FF") = .error ⟨1, .invalidLengthForType⟩) := by
  have hgood : ":020000040000FA\r\n\n".toList.getLast? = some '\n' := rfl
  have hbad : "\n:00000004FC\n".toList.getLast? = some '\n' := rfl
  have hfirst : readRecords ":020000040000FA\r\n\n" = .ok [.extendedLinearAddress 0#16] := rfl
  obtain ⟨-, hok, -, -⟩ := readRecords_compositional (Or.inr hgood) "\n:00000001FF"
  obtain ⟨-, -, hlater, -⟩ :=
    readRecords_compositional (Or.inr hgood) "\n:00000001FF\n:00000001FF\r"
  obtain ⟨herror, -, -, -⟩ := readRecords_compositional (Or.inr hbad) "\n:00000001FF"
  exact ⟨⟨hgood, hok _ _ hfirst rfl, (hlater _ _ _ hfirst rfl).1⟩, hbad, herror _ _ rfl⟩

end PicBaseline.IntelHex
