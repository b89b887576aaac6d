import PicBaseline.Proofs.Assembly.Run

/-!
# Proofs — images one after the other

Records that hold no end of file may be followed by others, and then the image is assembled part by
part: nothing that the walk carries crosses the seam but the number of the record.

* `assembleWith_append_eq_ok`: a joint image gives a program exactly when both parts do, and it is
  the two programs joined.
* `assembleWith_append_of_error`, `assembleWith_append_later_error`: a fault of the first part is
  the fault of the whole; one of the second part keeps its kind and is counted on from the first.
* `assembleWith_replace`: records that assemble alike can stand for each other in any image.
* `assembleWith_compositional`: the three cases together.
-/

namespace PicBaseline

open Assembly

variable {D : Decoder} {xs ys : List HexRecord}

/-! ### Joined programs -/

/-- The records of the first program, then those of the second. -/
instance : Append Program where
  append p q := ⟨p.records ++ q.records⟩

namespace Program

theorem eq_of_records_eq {p q : Program} (h : p.records = q.records) : p = q := by
  cases p
  exact congrArg Program.mk h

@[simp] theorem records_append (p q : Program) : (p ++ q).records = p.records ++ q.records :=
  rfl

/-- The later configuration word has effect. -/
theorem configWord?_append (p q : Program) :
    (p ++ q).configWord? = q.configWord?.or p.configWord? := by
  rw [configWord?, records_append, List.filterMap_append, List.getLast?_append]
  rfl

end Program

/-! ### Both parts assemble -/

/-- Where another record follows, an end of file has no place in front of it. -/
theorem endOfFile_notMem_dropLast_append (h : .endOfFile ∉ xs ∨ ys ≠ []) :
    .endOfFile ∉ (xs ++ ys).dropLast ↔ .endOfFile ∉ xs ∧ .endOfFile ∉ ys.dropLast := by
  by_cases hys : ys = []
  · subst hys
    have hxs : HexRecord.endOfFile ∉ xs := h.resolve_right fun hne => hne rfl
    rw [List.append_nil]
    exact iff_of_true (fun hmem => hxs (List.dropLast_subset xs hmem)) ⟨hxs, List.not_mem_nil⟩
  · rw [List.dropLast_append_of_ne_nil hys, List.mem_append, not_or]

/-- **A joint image assembles part by part**, and gives the programs of its parts, joined. -/
theorem assembleWith_append_eq_ok {r : Program} (h : .endOfFile ∉ xs ∨ ys ≠ []) :
    assembleWith D (xs ++ ys) = .ok r ↔
      .endOfFile ∉ xs ∧
        ∃ p q, assembleWith D xs = .ok p ∧ assembleWith D ys = .ok q ∧ r = p ++ q := by
  rw [assembleWith_eq_ok, endOfFile_notMem_dropLast_append h]
  constructor
  · rintro ⟨⟨hxs, hys⟩, htaken, hrec⟩
    obtain ⟨htx, hty⟩ := List.forall_mem_append.mp htaken
    refine ⟨hxs, ⟨xs.flatMap (yield D)⟩, ⟨ys.flatMap (yield D)⟩, ?_, ?_, ?_⟩
    · exact assembleWith_eq_ok.mpr ⟨fun hmem => hxs (List.dropLast_subset xs hmem), htx, rfl⟩
    · exact assembleWith_eq_ok.mpr ⟨hys, hty, rfl⟩
    · rw [List.flatMap_append] at hrec
      exact Program.eq_of_records_eq hrec
  · rintro ⟨hxs, p, q, hp, hq, rfl⟩
    obtain ⟨-, htx, hpx⟩ := assembleWith_eq_ok.mp hp
    obtain ⟨hys, hty, hqy⟩ := assembleWith_eq_ok.mp hq
    refine ⟨⟨hxs, hys⟩, List.forall_mem_append.mpr ⟨htx, hty⟩, ?_⟩
    rw [Program.records_append, hpx, hqy, List.flatMap_append]

/-! ### A part fails -/

/-- A report stays whatever is appended. -/
theorem assembleWith_append_of_error {e : AssembleError} (hxs : .endOfFile ∉ xs)
    (h : assembleWith D xs = .error e) : assembleWith D (xs ++ ys) = .error e := by
  obtain ⟨k, f⟩ := e
  obtain ⟨before, r, after, rfl, rfl, hpass, hf⟩ := assembleWith_eq_error.mp h
  have hr : r ≠ .endOfFile := fun he => hxs (by simp [he])
  refine assembleWith_eq_error.mpr ⟨before, r, after ++ ys, by simp, rfl, hpass, ?_⟩
  rwa [record_of_ne hr] at hf ⊢

/-- A report of what is appended counts the records in front of it. -/
theorem assembleWith_append_later_error {p : Program} {k : Nat} {f : Fault}
    (hxs : .endOfFile ∉ xs) (hp : assembleWith D xs = .ok p)
    (h : assembleWith D ys = .error ⟨k, f⟩) :
    assembleWith D (xs ++ ys) = .error ⟨k + xs.length, f⟩ := by
  obtain ⟨-, htaken, -⟩ := assembleWith_eq_ok.mp hp
  have hpass : ∀ q ∈ xs, Passes D q := fun q hq =>
    passes_iff.mpr ⟨fun he => hxs (he ▸ hq), htaken q hq⟩
  obtain ⟨before, r, after, rfl, rfl, hbefore, hf⟩ := assembleWith_eq_error.mp h
  refine assembleWith_eq_error.mpr ⟨xs ++ before, r, after, by simp, ?_, ?_, hf⟩
  · rw [List.length_append]
    omega
  · exact List.forall_mem_append.mpr ⟨hpass, hbefore⟩

/-! ### Records in their place -/

/-- **Records that assemble alike can stand for each other**, whatever is around them. -/
theorem assembleWith_replace (hx : xs ≠ []) (hy : ys ≠ []) (hxs : .endOfFile ∉ xs)
    (hys : .endOfFile ∉ ys) (h : ∀ p, assembleWith D xs = .ok p ↔ assembleWith D ys = .ok p)
    (before after : List HexRecord) (p : Program) :
    assembleWith D (before ++ xs ++ after) = .ok p ↔
      assembleWith D (before ++ ys ++ after) = .ok p := by
  have hx' : xs ++ after ≠ [] := List.append_ne_nil_of_left_ne_nil hx after
  have hy' : ys ++ after ≠ [] := List.append_ne_nil_of_left_ne_nil hy after
  simp only [List.append_assoc, assembleWith_append_eq_ok (Or.inr hx'),
    assembleWith_append_eq_ok (Or.inr hy'), assembleWith_append_eq_ok (Or.inl hxs),
    assembleWith_append_eq_ok (Or.inl hys), hxs, hys, h]

/-! ### Composition -/

/-- **Assembly is compositional**, for every decoder, where the first records hold no end of file.
Their fault is the fault of the whole; two programs are joined, and the configuration word of the
second has precedence; a fault of the second part is reported with the records of the first counted
in. -/
theorem assembleWith_compositional (D : Decoder) {xs : List HexRecord} (hxs : .endOfFile ∉ xs)
    (ys : List HexRecord) :
    (∀ e, assembleWith D xs = .error e → assembleWith D (xs ++ ys) = .error e) ∧
    (∀ p q, assembleWith D xs = .ok p → assembleWith D ys = .ok q →
      ∃ r, assembleWith D (xs ++ ys) = .ok r ∧ r.records = p.records ++ q.records ∧
        r.configWord? = q.configWord?.or p.configWord?) ∧
    (∀ p line f, assembleWith D xs = .ok p → assembleWith D ys = .error ⟨line, f⟩ →
      assembleWith D (xs ++ ys) = .error ⟨line + xs.length, f⟩) := by
  refine ⟨fun e he => assembleWith_append_of_error hxs he, fun p q hp hq => ?_,
    fun p line f hp hf => assembleWith_append_later_error hxs hp hf⟩
  have hjoined : assembleWith D (xs ++ ys) = .ok (p ++ q) :=
    (assembleWith_append_eq_ok (Or.inl hxs)).mpr ⟨hxs, p, q, hp, hq, rfl⟩
  exact ⟨p ++ q, hjoined, rfl, Program.configWord?_append p q⟩

/-- Two configuration words, one in each part; a part that fails in front of one that assembles;
and a second part that goes on after its end of file. -/
theorem assembleWith_compositional_config :
    let D : Decoder := fun w => .error (.unknownOpcode w)
    let config (low : Byte) : HexRecord := .data 0x1FFE#16 [low, 0xFF#8]
    let code : HexRecord := .data 0#16 [0x25#8, 0xF0#8]
    (.endOfFile ∉ [config 0xEB#8] ∧
      ∃ r, assembleWith D ([config 0xEB#8] ++ [config 0xEA#8, .endOfFile]) = .ok r ∧
        r.records = [.config 0xFFEB#16] ++ [.config 0xFFEA#16] ∧
        r.configWord? = some 0xFFEA#16) ∧
    (.endOfFile ∉ [code] ∧ assembleWith D ([code] ++ [.endOfFile]) =
      .error ⟨1, .decode 0#16 (.unknownOpcode 0xF025#16)⟩) ∧
    assembleWith D ([config 0xEB#8] ++ [.endOfFile, .endOfFile]) =
      .error ⟨1 + 1, .trailingData⟩ := by
  intro D config code
  have hconfig : .endOfFile ∉ [config 0xEB#8] := by simp [config]
  have hcode : .endOfFile ∉ [code] := by simp [code]
  have hfirst : assembleWith D [config 0xEB#8] = .ok ⟨[.config 0xFFEB#16]⟩ := rfl
  obtain ⟨-, hok, -⟩ := assembleWith_compositional D hconfig [config 0xEA#8, .endOfFile]
  obtain ⟨herror, -, -⟩ := assembleWith_compositional D hcode [.endOfFile]
  obtain ⟨-, -, hlater⟩ := assembleWith_compositional D hconfig [.endOfFile, .endOfFile]
  exact ⟨⟨hconfig, hok _ _ hfirst rfl⟩, ⟨hcode, herror _ rfl⟩, hlater _ _ _ hfirst rfl⟩

end PicBaseline
