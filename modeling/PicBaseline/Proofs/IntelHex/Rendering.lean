import PicBaseline.Proofs.IntelHex.Line
import PicBaseline.Proofs.Text.Lines

/-!
# Proofs — which HEX texts are read, and as what

A `Rendering` of records is a text with a line for each record, in order: digits in either case,
line ends of either kind, empty lines anywhere, and a line end after the last line or none.

* `readLines_eq_ok`, `readLines_eq_error`: the walk over the lines reads each of them, or stops at
  the first that is no line of a record.
* `rendering_iff_lines`: a text renders records exactly when its lines that are not empty are lines
  of these records.
* `readRecords_iff_rendering`: so reading accepts exactly the renderings, and takes each back to its
  records.
-/

namespace PicBaseline.IntelHex

open Text (LineEnd fullLines)

/-! ### The walk over the lines -/

theorem readLines_cons_ok {n : Nat} {line : List Char} {rest : List (List Char)} {r : HexRecord}
    (h : readLine line = .ok r) :
    readLines n (line :: rest) = (readLines (n + 1) rest >>= fun later => .ok (r :: later)) := by
  simp only [readLines, h]
  rfl

theorem readLines_cons_error {n : Nat} {line : List Char} {rest : List (List Char)} {e : LineError}
    (h : readLine line = .error e) : readLines n (line :: rest) = .error ⟨n, e⟩ := by
  simp only [readLines, h]

/-- **A walk that ends well** has read each line. -/
theorem readLines_eq_ok {n : Nat} {ls : List (List Char)} {rs : List HexRecord} :
    readLines n ls = .ok rs ↔ List.Forall₂ (fun line r => readLine line = .ok r) ls rs := by
  induction ls generalizing n rs with
  | nil => simp [readLines, eq_comm]
  | cons line ls ih =>
      rw [List.forall₂_cons_left_iff]
      cases hline : readLine line with
      | error e =>
          rw [readLines_cons_error hline]
          refine iff_of_false nofun ?_
          rintro ⟨r, later, h, -, -⟩
          cases h
      | ok r =>
          rw [readLines_cons_ok hline, bind_returns]
          constructor
          · rintro ⟨later, hlater, h⟩
            cases h
            exact ⟨r, later, rfl, ih.mp hlater, rfl⟩
          · rintro ⟨r', later, h, hlater, rfl⟩
            cases h
            exact ⟨later, ih.mpr hlater, rfl⟩

/-- **A walk that fails** does so at a line that cannot be read, after lines that can. -/
theorem readLines_eq_error {n k : Nat} {ls : List (List Char)} {e : LineError} :
    readLines n ls = .error ⟨k, e⟩ ↔
      ∃ before line after, ls = before ++ line :: after ∧ k = n + before.length ∧
        (∀ l ∈ before, ∃ r, readLine l = .ok r) ∧ readLine line = .error e := by
  constructor
  · intro h
    induction ls generalizing n with
    | nil => cases h
    | cons line ls ih =>
        cases hline : readLine line with
        | error e' =>
            rw [readLines_cons_error hline] at h
            cases h
            exact ⟨[], line, ls, rfl, rfl, by simp, hline⟩
        | ok r =>
            rw [readLines_cons_ok hline, bind_fails] at h
            rcases h with h | ⟨later, -, h⟩
            · -- The walk behind the line counts from `n + 1`, and has one line less in front.
              obtain ⟨before, stop, after, rfl, rfl, hread, hstop⟩ := ih h
              refine ⟨line :: before, stop, after, rfl, ?_, ?_, hstop⟩
              · rw [List.length_cons]
                omega
              · exact List.forall_mem_cons.mpr ⟨⟨r, hline⟩, hread⟩
            · cases h
  · rintro ⟨before, line, after, rfl, rfl, hread, hline⟩
    induction before generalizing n with
    | nil => exact readLines_cons_error hline
    | cons l before ih =>
        obtain ⟨r, hr⟩ := hread l List.mem_cons_self
        rw [List.cons_append, readLines_cons_ok hr,
          ih (fun q hq => hread q (List.mem_cons_of_mem l hq)), List.length_cons, Nat.add_assoc,
          Nat.add_comm 1]
        rfl

/-! ### Renderings -/

/-- The text writes the records, each on a line of its own. -/
inductive Rendering : List HexRecord → List Char → Prop where
  | nil : Rendering [] []
  | last {r : HexRecord} {line : List Char} (h : IsLineOf line r) : Rendering [r] line
  | blank {rs : List HexRecord} {e cs : List Char} (he : LineEnd e) (hcs : Rendering rs cs) :
      Rendering rs (e ++ cs)
  | line {r : HexRecord} {rs : List HexRecord} {line e cs : List Char} (h : IsLineOf line r)
      (he : LineEnd e) (hcs : Rendering rs cs) : Rendering (r :: rs) (line ++ (e ++ cs))

theorem lines_of_rendering {rs : List HexRecord} {cs : List Char} (h : Rendering rs cs) :
    List.Forall₂ IsLineOf (fullLines cs) rs := by
  induction h with
  | nil => exact .nil
  | last h =>
      rw [Text.fullLines_of_notMem h.ne_nil (h.notMem (by decide) (by decide))]
      exact .cons h .nil
  | @blank rs e cs he _ ih =>
      rw [Text.fullLines_skip he]
      exact ih
  | @line r rs line e cs h he _ ih =>
      have hfeed : '\n' ∉ line := h.notMem (by decide) (by decide)
      have hreturn : line.getLast? ≠ some '\r' := fun hlast =>
        h.notMem (by decide) (by decide) (List.mem_of_getLast? hlast)
      rw [Text.fullLines_ended he hfeed hreturn, Text.fullLines_of_notMem h.ne_nil hfeed]
      exact .cons h ih

theorem rendering_of_lines {cs : List Char} {rs : List HexRecord}
    (h : List.Forall₂ IsLineOf (fullLines cs) rs) : Rendering rs cs := by
  induction cs using Text.lines_induction generalizing rs with
  | last l hl =>
      by_cases hnil : l = []
      · subst hnil
        obtain rfl := List.forall₂_nil_left_iff.mp h
        exact .nil
      · rw [Text.fullLines_of_notMem hnil hl] at h
        obtain ⟨r, later, hr, hlater, rfl⟩ := List.forall₂_cons_left_iff.mp h
        obtain rfl := List.forall₂_nil_left_iff.mp hlater
        exact .last hr
  | line l cs hl ih =>
      obtain ⟨e, he, hend⟩ := Text.exists_lineEnd l
      have htext : l ++ '\n' :: cs = Text.dropReturn l ++ (e ++ cs) := by
        rw [← List.append_assoc, ← hend, List.append_assoc]
        rfl
      by_cases hnil : Text.dropReturn l = []
      · rw [Text.fullLines_blank hl hnil] at h
        rw [htext, hnil, List.nil_append]
        exact .blank he (ih h)
      · rw [Text.fullLines_line hl hnil] at h
        obtain ⟨r, later, hr, hlater, rfl⟩ := List.forall₂_cons_left_iff.mp h
        rw [htext]
        exact .line hr he (ih hlater)

theorem rendering_iff_lines {cs : List Char} {rs : List HexRecord} :
    Rendering rs cs ↔ List.Forall₂ IsLineOf (fullLines cs) rs :=
  ⟨lines_of_rendering, rendering_of_lines⟩

/-- **Reading gives the records whose lines a text has.** -/
theorem readRecords_eq_ok {text : String} {rs : List HexRecord} :
    readRecords text = .ok rs ↔ List.Forall₂ IsLineOf (fullLines text.toList) rs := by
  rw [readRecords, readLines_eq_ok]
  simp only [readLine_eq_ok]
  rfl

/-! ### Records that can be rendered -/

/-- The sound frame of a type, an address and a payload. -/
def Frame.ofParts (code high low : Byte) (payload : List Byte) : Frame :=
  let body := BitVec.ofNat 8 payload.length :: high :: low :: code :: payload
  ⟨BitVec.ofNat 8 payload.length, high, low, code, payload, IntelHex.checksum body⟩

theorem Frame.sound_ofParts {payload : List Byte} (h : payload.length ≤ 255)
    (code high low : Byte) : (ofParts code high low payload).Sound := by
  refine ⟨?_, checksum_eq_iff.mp rfl⟩
  show payload.length = (BitVec.ofNat 8 payload.length).toNat
  rw [BitVec.toNat_ofNat]
  omega

theorem exists_bigEndian (w : Word) : ∃ high low, w = bigEndian high low := by
  refine ⟨(w >>> 8).setWidth 8, w.setWidth 8, BitVec.eq_of_getLsbD_eq fun i hi => ?_⟩
  simp only [bigEndian, BitVec.getLsbD_or, BitVec.getLsbD_shiftLeft, BitVec.getLsbD_setWidth,
    BitVec.getLsbD_ushiftRight]
  by_cases h : i < 8
  · simp [h, hi]
  · have hback : 8 + (i - 8) = i := by omega
    have hlt : i - 8 < 8 := by omega
    have hword : i - 8 < 16 := by omega
    simp [h, hi, hback, hlt, hword]

/-- A payload of data has to fit the length byte; every other record has a line. -/
theorem exists_isLineOf {r : HexRecord} (h : ∀ a bytes, r = .data a bytes → bytes.length ≤ 255) :
    ∃ line, IsLineOf line r := by
  have hframe : ∀ (code high low : Byte) (payload : List Byte), payload.length ≤ 255 →
      (Frame.ofParts code high low payload).Carries r → ∃ line, IsLineOf line r := by
    intro code high low payload hlen hcarries
    obtain ⟨cs, hcs⟩ := exists_spells (Frame.ofParts code high low payload).bytes
    exact ⟨':' :: cs, _, Frame.sound_ofParts hlen code high low, hcarries, cs, rfl, hcs⟩
  cases r with
  | data a bytes =>
      obtain ⟨high, low, rfl⟩ := exists_bigEndian a
      exact hframe 0#8 high low bytes (h _ bytes rfl)
        (.data (f := .ofParts 0#8 high low bytes) rfl)
  | endOfFile => exact hframe 1#8 0#8 0#8 [] (by decide) (.endOfFile rfl rfl)
  | extendedLinearAddress u =>
      obtain ⟨high, low, rfl⟩ := exists_bigEndian u
      exact hframe 4#8 0#8 0#8 [high, low] (by simp) (.extendedLinearAddress rfl rfl)
  | startSegmentAddress =>
      exact hframe 3#8 0#8 0#8 (List.replicate 4 0#8) (by decide) (.startSegmentAddress rfl rfl)
  | extendedSegmentAddress =>
      exact hframe 2#8 0#8 0#8 (List.replicate 2 0#8) (by decide) (.extendedSegmentAddress rfl rfl)
  | startLinearAddress =>
      exact hframe 5#8 0#8 0#8 (List.replicate 4 0#8) (by decide) (.startLinearAddress rfl rfl)

/-- A line has room for 255 bytes of data. -/
theorem length_le_of_isLineOf {line : List Char} {a : Word} {bytes : List Byte}
    (h : IsLineOf line (.data a bytes)) : bytes.length ≤ 255 := by
  obtain ⟨f, hsound, hcarries, -⟩ := h
  have hlen := hsound.length_eq
  have hlt := f.length.isLt
  cases hcarries
  omega

/-- A list of records has a rendering exactly when each payload of data fits a length byte. -/
theorem exists_rendering_iff {rs : List HexRecord} :
    (∃ cs, Rendering rs cs) ↔ ∀ a bytes, .data a bytes ∈ rs → bytes.length ≤ 255 := by
  constructor
  · rintro ⟨cs, h⟩ a bytes hmem
    induction h with
    | nil => cases hmem
    | last h =>
        obtain rfl := List.mem_singleton.mp hmem
        exact length_le_of_isLineOf h
    | blank _ _ ih => exact ih hmem
    | line h _ _ ih =>
        rcases List.mem_cons.mp hmem with rfl | hmem
        · exact length_le_of_isLineOf h
        · exact ih hmem
  · intro h
    induction rs with
    | nil => exact ⟨[], .nil⟩
    | cons r rs ih =>
        obtain ⟨line, hline⟩ := exists_isLineOf fun a bytes hr =>
          h a bytes (hr ▸ List.mem_cons_self)
        obtain ⟨cs, hcs⟩ := ih fun a bytes hmem => h a bytes (List.mem_cons_of_mem r hmem)
        exact ⟨_, .line hline .feed hcs⟩

/-! ### The reader -/

/-- **Reading HEX text is exact.**  A text reads as records if and only if its lines that are not
empty are lines of these records, one each and in order; that is, if and only if it is a rendering
of them, whatever the case of its digits, its line ends and empty lines, and whatever it writes
where a record keeps nothing.  Every list of records whose payloads of data have at most 255 bytes
has such a text, and no other list has one. -/
theorem readRecords_iff_rendering (rs : List HexRecord) :
    (∀ text, readRecords text = .ok rs ↔
      List.Forall₂ IsLineOf ((Text.lines text.toList).filter (!·.isEmpty)) rs) ∧
    (∀ text, readRecords text = .ok rs ↔ Rendering rs text.toList) ∧
    ((∀ a bytes, .data a bytes ∈ rs → bytes.length ≤ 255) ↔
      ∃ text : String, Rendering rs text.toList) := by
  refine ⟨fun text => readRecords_eq_ok, fun text => ?_, ?_⟩
  · rw [readRecords_eq_ok, rendering_iff_lines]
  · rw [← exists_rendering_iff]
    constructor
    · rintro ⟨cs, hcs⟩
      exact ⟨String.ofList cs, by rwa [String.toList_ofList]⟩
    · rintro ⟨text, htext⟩
      exact ⟨_, htext⟩

/-- Digits of both cases, line ends of both kinds, empty lines, an address on an end-of-file record
and a record behind it. -/
theorem readRecords_iff_rendering_mixed :
    Rendering [.extendedLinearAddress 0#16, .endOfFile, .data 0x1FE#16 [0xFF#8, 0x0F#8]]
      "\r\n:020000040000fA\r\n\n:00123401B9\n:0201Fe00fF0FF1".toList :=
  ((readRecords_iff_rendering _).2.1 _).mp rfl

end PicBaseline.IntelHex
