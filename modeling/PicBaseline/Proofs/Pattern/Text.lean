import PicBaseline.Proofs.Pattern.Diagnosis

/-!
# Proofs — the text of a compiled pattern

The symbols of a pattern are written from its bits and its shape; compiling reads them from a text.
What compiles is written as the text was, in groups of four symbols, whatever its blanks were.

* `take_digits_of_compile`: the bits gathered from digits, written again, are these digits.
* `symbols_of_compile`: hence the symbols of what compiles are those of the text.
* `solid_text`: the groups are parted by blanks only.
-/

namespace PicBaseline

/-- The low twelve bits of a word as digits, most significant first. -/
def Word.digits (w : Word) : List Char :=
  (List.range 12).map fun i => if w.getLsbD (11 - i) then '1' else '0'

theorem Text.solid_solid (cs : List Char) : solid (solid cs) = solid cs := by
  simp [solid]

namespace Pattern

open Text (solid solid_append solid_cons_of_blank solid_solid)

variable {s : String} {p : Pattern}

/-! ### Digits -/

/-- The symbols are the leading digits of the opcode, then the layout. -/
theorem symbols_eq (p : Pattern) :
    p.symbols = (Word.digits p.opcode).take (12 - p.shape.width) ++ p.shape.layout.toList := by
  rw [symbols, Word.digits, ← List.map_take, List.take_range,
    Nat.min_eq_left (Nat.sub_le 12 p.shape.width)]
  rfl

/-- A pattern has the bits of the digits that spell it. -/
theorem opcode_of_compile (h : compile s = .ok p) {d : List Char}
    (hd : Spelling (solid s.toList) d p.shape) :
    p.opcode = ofBits (d.map (· == '1')) <<< p.shape.width := by
  have hbits := (compile_of_spelling hd).2
  rw [h] at hbits
  exact congrArg opcode (Except.ok.inj hbits)

/-- The `i`-th digit is the `i`-th bit of the opcode, from the most significant on. -/
theorem getLsbD_opcode_of_compile (h : compile s = .ok p) {d : List Char}
    (hd : Spelling (solid s.toList) d p.shape) {i : Nat} (hi : i < d.length) :
    p.opcode.getLsbD (11 - i) = (d[i] == '1') := by
  have hlen := hd.length_eq
  have hplace : 11 - i - p.shape.width = d.length - 1 - i := by omega
  have hback : d.length - 1 - (d.length - 1 - i) = i := by omega
  rw [opcode_of_compile h hd, BitVec.getLsbD_shiftLeft, hplace, getLsbD_ofBits,
    List.getD_eq_getElem?_getD, List.getElem?_reverse (by rw [List.length_map]; omega),
    List.length_map, hback, List.getElem?_map, List.getElem?_eq_getElem hi]
  have h₁ : 11 - i < 16 := by omega
  have h₂ : ¬ 11 - i < p.shape.width := by omega
  have h₃ : d.length - 1 - i < 16 := by omega
  simp [h₁, h₂, h₃]

/-- **The digits come back** from the opcode. -/
theorem take_digits_of_compile (h : compile s = .ok p) {d : List Char}
    (hd : Spelling (solid s.toList) d p.shape) : (Word.digits p.opcode).take d.length = d := by
  have hlen := hd.length_eq
  refine List.ext_getElem (by simp [Word.digits]; omega) fun i hi hid => ?_
  simp only [Word.digits, List.getElem_take, List.getElem_map, List.getElem_range,
    getLsbD_opcode_of_compile h hd hid]
  rcases hd.digits d[i] (List.getElem_mem hid) with hc | hc
  · simp [hc]
  · simp [hc]

/-- **The symbols of a compiled pattern are its text without blanks.** -/
theorem symbols_of_compile (h : compile s = .ok p) : p.symbols = solid s.toList := by
  obtain ⟨d, hd⟩ := spelling_of_compile h
  have hlen : 12 - p.shape.width = d.length := by
    have := hd.length_eq
    omega
  rw [symbols_eq, hlen, take_digits_of_compile h hd, hd.text_eq]

/-! ### Groups -/

theorem length_symbols_of_compile (h : compile s = .ok p) : p.symbols.length = 12 := by
  obtain ⟨d, hd⟩ := spelling_of_compile h
  rw [symbols_of_compile h, hd.text_eq, List.length_append, String.length_toList]
  exact hd.length_eq

theorem append_groups (cs : List Char) : cs.take 4 ++ ((cs.drop 4).take 4 ++ cs.drop 8) = cs :=
  calc cs.take 4 ++ ((cs.drop 4).take 4 ++ cs.drop 8)
      = cs.take 4 ++ ((cs.drop 4).take 4 ++ (cs.drop 4).drop 4) := by rw [List.drop_drop]
    _ = cs := by rw [List.take_append_drop, List.take_append_drop]

/-- Twelve symbols are written in three groups of four. -/
theorem text_groups (h : p.symbols.length = 12) :
    ∃ a b c : String, a.length = 4 ∧ b.length = 4 ∧ c.length = 4 ∧
      String.ofList p.symbols = a ++ b ++ c ∧ p.text = a ++ " " ++ b ++ " " ++ c := by
  refine ⟨String.ofList (p.symbols.take 4), String.ofList ((p.symbols.drop 4).take 4),
    String.ofList (p.symbols.drop 8), by simp [h], by simp [h], by simp [h], ?_, ?_⟩
  · rw [String.append_assoc, ← String.ofList_append, ← String.ofList_append, append_groups]
  · refine String.toList_injective ?_
    simp [text]

/-- Without its blanks, the text of a pattern is its symbols. -/
theorem solid_text (p : Pattern) (h : solid p.symbols = p.symbols) :
    solid p.text.toList = p.symbols := by
  have hblank : Text.isBlank ' ' = true := by decide
  rw [text, String.toList_ofList]
  simp only [solid_append, solid_cons_of_blank hblank]
  rw [← solid_append, ← solid_append, append_groups, h]

/-- Hence what a pattern writes differs from what it was read from in blanks only. -/
theorem solid_text_of_compile (h : compile s = .ok p) : solid p.text.toList = solid s.toList := by
  have hsymbols := symbols_of_compile h
  rw [solid_text p (by rw [hsymbols, solid_solid]), hsymbols]

end Pattern

/-! ### There and back -/

open Pattern Text

/-- **Patterns are written as they are read.**  The text of what compiles is that of its source
without blanks, in three groups of four symbols, and compiles to the same pattern again.  Hence two
texts compile to the same pattern exactly when they differ in blanks only. -/
theorem compile_text {s : String} {p : Pattern} (h : compile s = .ok p) :
    (∃ a b c : String, a.length = 4 ∧ b.length = 4 ∧ c.length = 4 ∧
      String.ofList (solid s.toList) = a ++ b ++ c ∧ p.text = a ++ " " ++ b ++ " " ++ c) ∧
    compile p.text = .ok p ∧
    ∀ (t : String) (q : Pattern), compile t = .ok q →
      (p = q ↔ solid s.toList = solid t.toList) := by
  refine ⟨?_, ?_, fun t q ht => ⟨?_, fun hsame => ?_⟩⟩
  · rw [← symbols_of_compile h]
    exact text_groups (length_symbols_of_compile h)
  · rw [compile_congr (solid_text_of_compile h), h]
  · rintro rfl
    rw [← symbols_of_compile h, ← symbols_of_compile ht]
  · rw [compile_congr hsame, ht] at h
    exact (Except.ok.inj h).symm

/-- The second group has digits and letters; one other digit makes another pattern. -/
theorem compile_text_mixed_group :
    compile "00 0111\td fffff" = .ok ⟨0x1C0#16, 0xFC0#16, .fileAndDestination⟩ ∧
    (Pattern.mk 0x1C0#16 0xFC0#16 .fileAndDestination).text = "0001 11df ffff" ∧
    compile "0001 11df ffff" = .ok ⟨0x1C0#16, 0xFC0#16, .fileAndDestination⟩ ∧
    ∃ q, compile "0001 10df ffff" = .ok q ∧
      Pattern.mk 0x1C0#16 0xFC0#16 .fileAndDestination ≠ q := by
  have h : compile "00 0111\td fffff" = .ok ⟨0x1C0#16, 0xFC0#16, .fileAndDestination⟩ := rfl
  have htext : (Pattern.mk 0x1C0#16 0xFC0#16 .fileAndDestination).text = "0001 11df ffff" := by
    decide
  obtain ⟨-, hback, hiff⟩ := compile_text h
  refine ⟨h, htext, htext ▸ hback, _, rfl, ?_⟩
  exact mt (hiff "0001 10df ffff" _ rfl).mp (by decide)

end PicBaseline
