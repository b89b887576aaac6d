import PicBaseline.Text.Basic

/-!
# Proofs — fields and lines of a text

Every text is a field without a separator, or such a field, a separator and a shorter text
(`fields_induction`); `fields` follows this view, and with line feeds for separators so does
`lines` (`lines_induction`).  What reading depends on is the list of lines that are not empty,
`fullLines`:

* `fullLines_ended`, `fullLines_skip`: a line feed ends a line, and takes a carriage return with it;
  an end without a line counts nothing.
* `fullLines_map`: characters may be changed in place, but for those two.
* `fullLines_append`: a text that ends with a line feed keeps its lines, whatever follows it.
* `fullLines_head`: what stands in front of a text stands in front of its first line.
-/

namespace PicBaseline.Text

/-- Cutting from the right gives the pieces of `List.splitOn`. -/
theorem fields_eq_splitOn (sep : Char) (cs : List Char) : fields sep cs = cs.splitOn sep := by
  induction cs with
  | nil => rfl
  | cons c cs ih =>
      rw [List.splitOn_cons_eq_if_modifyHead, ← ih]
      show fieldStep sep c (fields sep cs) = _
      have hne : fields sep cs ≠ [] := ih ▸ List.splitOn_ne_nil sep cs
      simp only [fieldStep, beq_iff_eq]
      split
      · rfl
      · cases hpieces : fields sep cs with
        | nil => exact absurd hpieces hne
        | cons piece rest => rfl

theorem fields_of_notMem {sep : Char} {l : List Char} (h : sep ∉ l) : fields sep l = [l] := by
  rw [fields_eq_splitOn, List.splitOn_eq_singleton h]

theorem fields_field {sep : Char} {l : List Char} (h : sep ∉ l) (cs : List Char) :
    fields sep (l ++ sep :: cs) = l :: fields sep cs := by
  rw [fields_eq_splitOn, fields_eq_splitOn, List.splitOn_append_cons_self_of_not_mem h]

theorem lines_of_notMem {l : List Char} (h : '\n' ∉ l) : lines l = [l] := by
  rw [lines, fields_of_notMem h]
  rfl

/-- The first line ends at the first line feed, and loses a carriage return in front of it. -/
theorem lines_line {l : List Char} (h : '\n' ∉ l) (cs : List Char) :
    lines (l ++ '\n' :: cs) = dropReturn l :: lines cs := by
  rw [lines, lines, fields_field h]
  cases hpieces : fields '\n' cs with
  | nil =>
      rw [fields_eq_splitOn] at hpieces
      exact absurd hpieces (List.splitOn_ne_nil '\n' cs)
  | cons piece rest => rfl

/-- A text, field by field. -/
theorem fields_induction (sep : Char) {motive : List Char → Prop}
    (last : ∀ l, sep ∉ l → motive l)
    (field : ∀ l cs, sep ∉ l → motive cs → motive (l ++ sep :: cs)) (cs : List Char) :
    motive cs := by
  induction hn : cs.length using Nat.strongRecOn generalizing cs with
  | ind n ih =>
      by_cases hmem : sep ∈ cs
      · obtain ⟨l, rest, rfl, hl⟩ := List.eq_append_cons_of_mem hmem
        refine field l rest hl (ih rest.length ?_ rest rfl)
        rw [← hn, List.length_append, List.length_cons]
        omega
      · exact last cs hmem

/-- A text, line by line. -/
theorem lines_induction {motive : List Char → Prop} (last : ∀ l, '\n' ∉ l → motive l)
    (line : ∀ l cs, '\n' ∉ l → motive cs → motive (l ++ '\n' :: cs)) (cs : List Char) :
    motive cs :=
  fields_induction '\n' last line cs

/-! ### The carriage return -/

/-- What does not end in a carriage return keeps all of itself. -/
theorem dropReturn_append {l : List Char} (h : l.getLast? ≠ some '\r') (tail : List Char) :
    dropReturn (l ++ tail) = l ++ dropReturn tail := by
  rcases List.eq_nil_or_concat tail with rfl | ⟨init, c, rfl⟩
  · rw [List.append_nil, dropReturn, if_neg h]
    exact (List.append_nil l).symm
  · rw [List.concat_eq_append, ← List.append_assoc, dropReturn, dropReturn,
      List.getLast?_concat, List.getLast?_concat, List.dropLast_concat, List.dropLast_concat]
    split
    · rfl
    · exact List.append_assoc l init [c]

theorem dropReturn_concat (l : List Char) : dropReturn (l ++ ['\r']) = l := by
  rw [dropReturn, List.getLast?_concat, if_pos rfl, List.dropLast_concat]

/-- A line is what is left of it, or that with a carriage return behind it. -/
theorem eq_dropReturn_or (l : List Char) : l = dropReturn l ∨ l = dropReturn l ++ ['\r'] := by
  rcases List.eq_nil_or_concat l with rfl | ⟨init, c, rfl⟩
  · exact Or.inl rfl
  · rw [List.concat_eq_append, dropReturn, List.getLast?_concat, List.dropLast_concat]
    split
    · rename_i hc
      cases hc
      exact Or.inr rfl
    · exact Or.inl rfl

/-! ### Lines that are not empty -/

/-- The lines of a text that are not empty. -/
def fullLines (cs : List Char) : List (List Char) :=
  (lines cs).filter (!·.isEmpty)

theorem fullLines_of_notMem {l : List Char} (hne : l ≠ []) (h : '\n' ∉ l) : fullLines l = [l] := by
  rw [fullLines, lines_of_notMem h, List.filter_cons_of_pos (by simpa using hne)]
  rfl

theorem fullLines_line {l : List Char} (h : '\n' ∉ l) (hne : dropReturn l ≠ []) (cs : List Char) :
    fullLines (l ++ '\n' :: cs) = dropReturn l :: fullLines cs := by
  rw [fullLines, lines_line h, List.filter_cons_of_pos (by simpa using hne)]
  rfl

theorem fullLines_blank {l : List Char} (h : '\n' ∉ l) (hnil : dropReturn l = [])
    (cs : List Char) : fullLines (l ++ '\n' :: cs) = fullLines cs := by
  rw [fullLines, lines_line h, hnil]
  rfl

/-- A line feed closes the lines in front of it. -/
theorem fullLines_append {before : List Char} (h : before = [] ∨ before.getLast? = some '\n')
    (cs : List Char) : fullLines (before ++ cs) = fullLines before ++ fullLines cs := by
  rcases h with rfl | h
  · rfl
  obtain ⟨init, rfl⟩ := List.getLast?_eq_some_iff.mp h
  rw [List.append_assoc, List.singleton_append]
  -- on the lines of the text in front, the last of which its line feed ends
  induction init using lines_induction with
  | last l hl =>
      by_cases hnil : dropReturn l = []
      · rw [fullLines_blank hl hnil, fullLines_blank hl hnil]
        rfl
      · rw [fullLines_line hl hnil, fullLines_line hl hnil]
        rfl
  | line l init hl ih =>
      have hlast : (init ++ ['\n']).getLast? = some '\n' := List.getLast?_concat
      have hinit := ih hlast
      rw [List.append_assoc, List.append_assoc, List.cons_append, List.cons_append]
      by_cases hnil : dropReturn l = []
      · rw [fullLines_blank hl hnil, fullLines_blank hl hnil, hinit]
      · rw [fullLines_line hl hnil, fullLines_line hl hnil, hinit, List.cons_append]

/-! ### Changed characters -/

section map

variable {f : Char → Char}

/-- A change of characters that keeps carriage returns commutes with dropping one. -/
theorem dropReturn_map (hreturn : ∀ c, f c = '\r' ↔ c = '\r') (l : List Char) :
    dropReturn (l.map f) = (dropReturn l).map f := by
  have hlast : (l.map f).getLast? = some '\r' ↔ l.getLast? = some '\r' := by
    simp [List.getLast?_map, hreturn]
  rw [dropReturn, dropReturn]
  by_cases h : l.getLast? = some '\r'
  · rw [if_pos h, if_pos (hlast.mpr h), List.map_dropLast]
  · rw [if_neg h, if_neg (mt hlast.mp h)]

/-- One that keeps line feeds as well commutes with cutting into lines. -/
theorem lines_map (hfeed : ∀ c, f c = '\n' ↔ c = '\n') (hreturn : ∀ c, f c = '\r' ↔ c = '\r')
    (cs : List Char) : lines (cs.map f) = (lines cs).map (·.map f) := by
  have hmap : ∀ {l : List Char}, '\n' ∉ l → '\n' ∉ l.map f := by
    intro l hl hmem
    obtain ⟨c, hc, hfc⟩ := List.mem_map.mp hmem
    exact hl ((hfeed c).mp hfc ▸ hc)
  induction cs using lines_induction with
  | last l hl =>
      rw [lines_of_notMem hl, lines_of_notMem (hmap hl)]
      rfl
  | line l cs hl ih =>
      rw [List.map_append, List.map_cons, (hfeed '\n').mpr rfl, lines_line (hmap hl), lines_line hl,
        ih, dropReturn_map hreturn]
      rfl

/-- Changing characters in place keeps the lines apart, if it leaves line feeds and carriage returns
as they are and makes no new ones. -/
theorem fullLines_map (hfeed : ∀ c, f c = '\n' ↔ c = '\n') (hreturn : ∀ c, f c = '\r' ↔ c = '\r')
    (cs : List Char) : fullLines (cs.map f) = (fullLines cs).map (·.map f) := by
  rw [fullLines, lines_map hfeed hreturn, List.filter_map]
  simp [fullLines, Function.comp_def]

end map

/-! ### Line ends -/

/-- A line feed, with a carriage return in front of it or without. -/
inductive LineEnd : List Char → Prop where
  | feed : LineEnd ['\n']
  | returnFeed : LineEnd ['\r', '\n']

/-- A line is read as it stands in front of its end, of either kind. -/
theorem fullLines_ended {l e : List Char} (he : LineEnd e) (hl : '\n' ∉ l)
    (hr : l.getLast? ≠ some '\r') (cs : List Char) :
    fullLines (l ++ (e ++ cs)) = fullLines l ++ fullLines cs := by
  have hsplit : ∃ l', l ++ (e ++ cs) = l' ++ '\n' :: cs ∧ '\n' ∉ l' ∧ dropReturn l' = l := by
    cases he with
    | feed => exact ⟨l, rfl, hl, if_neg hr⟩
    | returnFeed =>
        exact ⟨l ++ ['\r'], by simp, by simpa using hl, dropReturn_concat l⟩
  obtain ⟨l', heq, hl', hdrop⟩ := hsplit
  rw [heq]
  by_cases hnil : l = []
  · rw [fullLines_blank hl' (hdrop.trans hnil), hnil]
    rfl
  · rw [fullLines_line hl' (hdrop.symm ▸ hnil), hdrop, fullLines_of_notMem hnil hl]
    rfl

/-- The end of a line in front of a text adds no line. -/
theorem fullLines_skip {e : List Char} (he : LineEnd e) (cs : List Char) :
    fullLines (e ++ cs) = fullLines cs :=
  fullLines_ended (l := []) he List.not_mem_nil (by simp) cs

/-- Every line has an end of one of the two kinds. -/
theorem exists_lineEnd (l : List Char) : ∃ e, LineEnd e ∧ l ++ ['\n'] = dropReturn l ++ e := by
  rcases eq_dropReturn_or l with h | h
  · exact ⟨['\n'], .feed, congrArg (· ++ ['\n']) h⟩
  · refine ⟨['\r', '\n'], .returnFeed, (congrArg (· ++ ['\n']) h).trans ?_⟩
    rw [List.append_assoc]
    rfl

/-! ### The first line -/

/-- Text in front of a text is in front of its first line, and the lines after that one are as they
were. -/
theorem fullLines_head (after : List Char) :
    ∃ tail more, ∀ head, head ≠ [] → '\n' ∉ head → head.getLast? ≠ some '\r' →
      fullLines (head ++ after) = (head ++ tail) :: more := by
  by_cases hmem : '\n' ∈ after
  · obtain ⟨l, rest, rfl, hl⟩ := List.eq_append_cons_of_mem hmem
    refine ⟨dropReturn l, fullLines rest, fun head hne hhead hlast => ?_⟩
    have hfull : dropReturn (head ++ l) = head ++ dropReturn l := dropReturn_append hlast l
    have hline : '\n' ∉ head ++ l := by simp [hhead, hl]
    rw [← List.append_assoc, fullLines_line hline (by simp [hfull, hne]), hfull]
  · refine ⟨after, [], fun head hne hhead _ => ?_⟩
    exact fullLines_of_notMem (by simp [hne]) (by simp [hhead, hmem])

end PicBaseline.Text
