import PicBaseline.Proofs.Pattern.Compile

/-!
# Proofs — which texts are patterns

A text spells a pattern when, without its blanks, it is opcode digits and then the layout of a
shape, twelve symbols in all: `Spelling w d shape`.  The scanners of `compile` meet blanks anywhere,
so each of them is described by what it makes of the text without blanks.

* `scanOpcode_eq_ok`, `scanOpcode_of_digits`: the first scan takes exactly the digits in front.
* `scanLayout_eq_ok`: the second takes all that is left.
* `lossless`: on up to twelve bits the word arithmetic of `compile` is that of natural numbers.
* `compile_iff_spelling`: what compiles is what is spelled, and its bits are those of the digits.
-/

namespace PicBaseline

/-- The text without its blanks. -/
def Text.solid (cs : List Char) : List Char :=
  cs.filter fun c => !isBlank c

theorem Text.solid_cons {c : Char} (h : isBlank c = false) (cs : List Char) :
    solid (c :: cs) = c :: solid cs :=
  List.filter_cons_of_pos (by simp [h])

theorem Text.solid_cons_of_blank {c : Char} (h : isBlank c = true) (cs : List Char) :
    solid (c :: cs) = solid cs :=
  List.filter_cons_of_neg (by simp [h])

theorem Text.solid_append (cs ds : List Char) : solid (cs ++ ds) = solid cs ++ solid ds :=
  List.filter_append cs ds

/-- A shape is found by its layout only. -/
theorem Shape.ofLayout?_eq_some {layout : List Char} {shape : Shape} :
    ofLayout? layout = some shape ↔ layout = shape.layout.toList := by
  constructor
  · intro h
    unfold ofLayout? at h
    have hfound := List.find?_some h
    exact (beq_iff_eq.mp hfound).symm
  · rintro rfl
    cases shape <;> decide

namespace Pattern

open Text (solid solid_cons solid_cons_of_blank isBlank)

/-! ### Symbols -/

theorem isOpcodeDigit_iff {c : Char} : isOpcodeDigit c = true ↔ c = '0' ∨ c = '1' := by
  simp [isOpcodeDigit]

theorem isBlank_of_isOpcodeDigit {c : Char} (h : isOpcodeDigit c = true) : isBlank c = false := by
  rcases isOpcodeDigit_iff.mp h with rfl | rfl
  · decide
  · decide

theorem isBlank_of_isLayoutLetter {c : Char} (h : isLayoutLetter c = true) :
    isBlank c = false := by
  have hc : ((c = 'b' ∨ c = 'd') ∨ c = 'f') ∨ c = 'k' := by simpa [isLayoutLetter] using h
  rcases hc with ((rfl | rfl) | rfl) | rfl
  · decide
  · decide
  · decide
  · decide

theorem isOpcodeDigit_of_isLayoutLetter {c : Char} (h : isLayoutLetter c = true) :
    isOpcodeDigit c = false := by
  by_contra hd
  rcases isOpcodeDigit_iff.mp (by simpa using hd) with rfl | rfl
  · exact absurd h (by decide)
  · exact absurd h (by decide)

/-- Layouts are drawn with layout letters. -/
theorem isLayoutLetter_of_mem_layout (shape : Shape) :
    ∀ c ∈ shape.layout.toList, isLayoutLetter c = true := by
  rw [← List.all_eq_true]
  cases shape <;> decide

/-! ### The two scans -/

/-- Nothing, or a layout letter in front: where the scan for digits stops. -/
def Stops (cs : List Char) : Prop :=
  ∀ c ∈ cs.head?, isLayoutLetter c = true

/-- The scan for digits has passed over digits and blanks only, and stopped at a letter. -/
theorem scanOpcode_eq_ok {cs rest : List Char} {bits : List Bool}
    (h : scanOpcode cs = .ok (bits, rest)) :
    ∃ d, solid cs = d ++ solid rest ∧ (∀ c ∈ d, isOpcodeDigit c = true) ∧
      bits = d.map (· == '1') ∧ Stops rest := by
  induction cs generalizing bits with
  | nil =>
      cases h
      exact ⟨[], rfl, by simp, rfl, by simp [Stops]⟩
  | cons c cs ih =>
      unfold scanOpcode at h
      split at h
      · rename_i hc
        obtain ⟨⟨later, rest'⟩, hlater, h⟩ := bind_returns.mp h
        cases h
        obtain ⟨d, hd, hdigits, rfl, hstop⟩ := ih hlater
        refine ⟨c :: d, ?_, ?_, rfl, hstop⟩
        · rw [solid_cons (isBlank_of_isOpcodeDigit hc), hd]
          rfl
        · simpa [hc] using hdigits
      split at h
      · rename_i hc
        cases h
        exact ⟨[], rfl, by simp, rfl, by simpa [Stops] using hc⟩
      split at h
      · rename_i hc
        obtain ⟨d, hd, hrest⟩ := ih h
        refine ⟨d, ?_, hrest⟩
        rw [solid_cons_of_blank hc, hd]
      · cases h

/-- Digits in front are taken, wherever the blanks are. -/
theorem scanOpcode_of_digits {cs d l : List Char} (h : solid cs = d ++ l)
    (hd : ∀ c ∈ d, isOpcodeDigit c = true) (hl : Stops l) :
    ∃ rest, scanOpcode cs = .ok (d.map (· == '1'), rest) ∧ solid rest = l := by
  induction cs generalizing d with
  | nil =>
      obtain ⟨rfl, rfl⟩ := List.append_eq_nil_iff.mp h.symm
      exact ⟨[], rfl, rfl⟩
  | cons c cs ih =>
      cases hblank : isBlank c with
      | true =>
          have hskip : solid cs = d ++ l := by
            rwa [solid_cons_of_blank hblank] at h
          obtain ⟨rest, hrest, hsolid⟩ := ih hskip hd
          refine ⟨rest, ?_, hsolid⟩
          have hdigit : ¬ isOpcodeDigit c = true := fun hc => by
            simp [isBlank_of_isOpcodeDigit hc] at hblank
          have hletter : ¬ isLayoutLetter c = true := fun hc => by
            simp [isBlank_of_isLayoutLetter hc] at hblank
          rw [scanOpcode, if_neg hdigit, if_neg hletter, if_pos hblank, hrest]
      | false =>
          have hcons : c :: solid cs = d ++ l := by
            rwa [solid_cons hblank] at h
          cases d with
          | nil =>
              -- The character that is left in front stops the scan.
              obtain rfl : c :: solid cs = l := hcons
              have hletter : isLayoutLetter c = true := hl c rfl
              refine ⟨c :: cs, ?_, h⟩
              rw [scanOpcode, if_neg (by simp [isOpcodeDigit_of_isLayoutLetter hletter]),
                if_pos hletter]
              rfl
          | cons c' d =>
              obtain ⟨rfl, hrest⟩ := List.cons_eq_cons.mp hcons
              obtain ⟨rest, hscan, hsolid⟩ :=
                ih hrest fun x hx => hd x (List.mem_cons_of_mem c hx)
              refine ⟨rest, ?_, hsolid⟩
              rw [scanOpcode, if_pos (hd c List.mem_cons_self), hscan]
              rfl

/-- The scan for the layout returns what is not blank, if these are letters and digits. -/
theorem scanLayout_eq_ok {cs layout : List Char} :
    scanLayout cs = .ok layout ↔
      layout = solid cs ∧ ∀ c ∈ solid cs, isLayoutLetter c || isOpcodeDigit c := by
  induction cs generalizing layout with
  | nil =>
      constructor
      · rintro ⟨⟩
        exact ⟨rfl, by simp [solid]⟩
      · rintro ⟨rfl, -⟩
        rfl
  | cons c cs ih =>
      unfold scanLayout
      split
      · rename_i hblank
        rw [ih, solid_cons_of_blank hblank]
      rename_i hblank
      rw [solid_cons (by simpa using hblank)]
      split
      · rename_i hc
        rw [bind_returns]
        constructor
        · rintro ⟨later, hlater, h⟩
          cases h
          obtain ⟨rfl, hall⟩ := ih.mp hlater
          exact ⟨rfl, List.forall_mem_cons.mpr ⟨hc, hall⟩⟩
        · rintro ⟨rfl, hall⟩
          exact ⟨solid cs, ih.mpr ⟨rfl, fun x hx => hall x (List.mem_cons_of_mem c hx)⟩, rfl⟩
      · rename_i hc
        exact iff_of_false nofun fun h => hc (h.2 c List.mem_cons_self)

/-! ### Word arithmetic -/

/-- The number that binary digits write, most significant first. -/
def binaryValue (d : List Char) : Nat :=
  d.foldl (fun n c => 2 * n + if c = '1' then 1 else 0) 0

theorem binaryValue_concat (d : List Char) (c : Char) :
    binaryValue (d ++ [c]) = 2 * binaryValue d + if c = '1' then 1 else 0 := by
  simp [binaryValue]

/-- A number of `n` bits is shifted without loss as long as it stays in the word. -/
theorem toNat_shiftLeft_of_lt {w : Word} {n k : Nat} (h : w.toNat < 2 ^ n) (hk : n + k ≤ 16) :
    (w <<< k).toNat = w.toNat * 2 ^ k := by
  have hlt : w.toNat * 2 ^ k < 2 ^ 16 := calc
    w.toNat * 2 ^ k < 2 ^ n * 2 ^ k := Nat.mul_lt_mul_of_pos_right h (Nat.two_pow_pos k)
    _ = 2 ^ (n + k) := (Nat.pow_add 2 n k).symm
    _ ≤ 2 ^ 16 := Nat.pow_le_pow_right (by decide) hk
  rw [BitVec.toNat_shiftLeft, Nat.shiftLeft_eq, Nat.mod_eq_of_lt hlt]

theorem toNat_ofBits_lt (bits : List Bool) : (ofBits bits).toNat < 2 ^ bits.length := by
  refine Nat.lt_pow_two_of_testBit _ fun i hi => ?_
  rw [BitVec.testBit_toNat, getLsbD_ofBits, List.getD_eq_getElem?_getD,
    List.getElem?_eq_none (by simpa using hi)]
  simp

theorem toNat_ofBits_shift {bits : List Bool} (h : bits.length < 16) :
    (ofBits bits <<< 1).toNat = 2 * (ofBits bits).toNat := by
  rw [toNat_shiftLeft_of_lt (toNat_ofBits_lt bits) h, Nat.pow_one, Nat.mul_comm]

/-- One more bit doubles the word and adds itself. -/
theorem toNat_ofBits_concat {bits : List Bool} (h : bits.length < 16) (b : Bool) :
    (ofBits (bits ++ [b])).toNat = 2 * (ofBits bits).toNat + b.toNat := by
  rw [ofBits_concat, BitVec.toNat_or, toNat_ofBits_shift h]
  cases b with
  | false => simp
  | true => exact (Nat.two_pow_add_eq_or_of_lt (i := 1) (b := 1) (by decide) _).symm

/-- Up to sixteen digits, the word that is gathered is the number they write. -/
theorem toNat_ofBits {d : List Char} (h : d.length ≤ 16) :
    (ofBits (d.map (· == '1'))).toNat = binaryValue d := by
  induction d using List.reverseRecOn with
  | nil => rfl
  | append_singleton d c ih =>
      rw [List.length_append, List.length_singleton] at h
      rw [List.map_append, List.map_singleton, toNat_ofBits_concat (by rw [List.length_map]; omega),
        ih (by omega), binaryValue_concat]
      by_cases hc : c = '1'
      · simp [hc]
      · simp [hc, beq_false_of_ne hc]

/-- The word arithmetic of `compile` on these opcode bits is that of natural numbers: no difference
goes below zero, no shift is as long as the word, and none pushes a one out of it. -/
structure Lossless (bits : List Bool) : Prop where
  length_le : bits.length ≤ wordBits
  accumulated : ∀ front b, front ++ [b] <+: bits →
    (ofBits front <<< 1).toNat = 2 * (ofBits front).toNat ∧
      (ofBits (front ++ [b])).toNat = 2 * (ofBits front).toNat + b.toNat
  shifts_lt : bits.length < 16 ∧ wordBits - bits.length < 16
  power : (1#16 <<< bits.length).toNat = 2 ^ bits.length
  ones : ((1#16 <<< bits.length) - 1#16).toNat = 2 ^ bits.length - 1
  mask : (((1#16 <<< bits.length) - 1#16) <<< (wordBits - bits.length)).toNat =
    (2 ^ bits.length - 1) * 2 ^ (wordBits - bits.length)
  opcode : (ofBits bits <<< (wordBits - bits.length)).toNat =
    (ofBits bits).toNat * 2 ^ (wordBits - bits.length)

/-- Up to twelve bits none is lost at the top. -/
theorem lossless {bits : List Bool} (h : bits.length ≤ wordBits) : Lossless bits := by
  have hword : wordBits = 12 := rfl
  have hpow : 2 ^ bits.length < 2 ^ 16 := Nat.pow_lt_pow_right (by decide) (by omega)
  have hpos : 0 < 2 ^ bits.length := Nat.two_pow_pos _
  have hpower : (1#16 <<< bits.length).toNat = 2 ^ bits.length := by
    rw [← BitVec.twoPow_eq, BitVec.toNat_twoPow_of_lt (by omega)]
  have hones : ((1#16 <<< bits.length) - 1#16).toNat = 2 ^ bits.length - 1 := by
    have hle : 1#16 ≤ 1#16 <<< bits.length := by
      rw [BitVec.le_def, hpower]
      exact hpos
    rw [BitVec.toNat_sub_of_le hle, hpower]
    rfl
  refine ⟨h, fun front b hfront => ?_, by omega, hpower, hones, ?_, ?_⟩
  · have hlen := hfront.length_le
    rw [List.length_append, List.length_singleton] at hlen
    exact ⟨toNat_ofBits_shift (by omega), toNat_ofBits_concat (by omega) b⟩
  · rw [toNat_shiftLeft_of_lt (n := bits.length) (by omega) (by omega), hones]
  · exact toNat_shiftLeft_of_lt (toNat_ofBits_lt bits) (by omega)

/-! ### Spellings -/

/-- `w` is opcode digits `d` and then the layout of the shape, twelve symbols in all. -/
structure Spelling (w d : List Char) (shape : Shape) : Prop where
  text_eq : w = d ++ shape.layout.toList
  digits_ne : d ≠ []
  digits : ∀ c ∈ d, c = '0' ∨ c = '1'
  length_eq : d.length + shape.width = 12

theorem stops_layout (shape : Shape) : Stops shape.layout.toList :=
  fun c hc => isLayoutLetter_of_mem_layout shape c (List.mem_of_mem_head? hc)

theorem Spelling.isOpcodeDigit {w d : List Char} {shape : Shape} (h : Spelling w d shape) :
    ∀ c ∈ d, isOpcodeDigit c = true :=
  fun c hc => isOpcodeDigit_iff.mpr (h.digits c hc)

/-- The digits are the longest run of digits in front, and the rest is the layout of one shape. -/
theorem Spelling.unique {w d d' : List Char} {shape shape' : Shape} (h : Spelling w d shape)
    (h' : Spelling w d' shape') : d' = d ∧ shape' = shape := by
  have hrun : ∀ {d : List Char} {shape : Shape}, Spelling w d shape →
      w.takeWhile Pattern.isOpcodeDigit = d := by
    intro d shape h
    have hstop : shape.layout.toList.takeWhile Pattern.isOpcodeDigit = [] := by
      cases shape <;> decide
    rw [h.text_eq, List.takeWhile_append_of_pos h.isOpcodeDigit, hstop, List.append_nil]
  obtain rfl : d' = d := (hrun h').symm.trans (hrun h)
  have hlayout : shape'.layout.toList = shape.layout.toList :=
    List.append_cancel_left (h'.text_eq.symm.trans h.text_eq)
  have hshape := Shape.ofLayout?_eq_some.mpr hlayout
  rw [Shape.ofLayout?_eq_some.mpr rfl] at hshape
  exact ⟨rfl, Option.some.inj hshape⟩

/-- What compiles is spelled by the digits of its opcode and the layout of its shape. -/
theorem spelling_of_compile {s : String} {p : Pattern} (h : compile s = .ok p) :
    ∃ d, Spelling (solid s.toList) d p.shape := by
  obtain ⟨bits, rest, layout, hscan, hne, hlayout, hshape, hlen, -, -⟩ := of_compile h
  obtain ⟨d, hsolid, hdigits, rfl, -⟩ := scanOpcode_eq_ok hscan
  obtain ⟨rfl, -⟩ := scanLayout_eq_ok.mp hlayout
  refine ⟨d, ?_, by simpa using hne, fun c hc => isOpcodeDigit_iff.mp (hdigits c hc), ?_⟩
  · rw [hsolid, Shape.ofLayout?_eq_some.mp hshape]
  · rwa [List.length_map] at hlen

/-- The two scans and the shape of the layout make the pattern: the converse of `of_compile`. -/
theorem compile_of_scans {s : String} {bits : List Bool} {rest layout : List Char} {shape : Shape}
    (hscan : scanOpcode s.toList = .ok (bits, rest)) (hne : bits ≠ [])
    (hlayout : scanLayout rest = .ok layout) (hshape : Shape.ofLayout? layout = some shape)
    (hlen : bits.length + shape.width = wordBits) :
    compile s = .ok ⟨ofBits bits <<< shape.width,
      ((1#16 <<< bits.length) - 1#16) <<< shape.width, shape⟩ := by
  obtain hwidth : wordBits - bits.length = shape.width := by omega
  have hfound : (some shape).filter (fun found => found.width == shape.width) = some shape := by
    simp
  refine bind_returns.mpr ⟨_, hscan, ?_⟩
  dsimp only
  rw [if_neg (by simpa using hne), if_neg (by omega)]
  refine bind_returns.mpr ⟨layout, hlayout, ?_⟩
  rw [hshape, hwidth, hfound]
  rfl

/-- What is spelled is scanned as such, and compiles to its bits. -/
theorem compile_of_spelling {s : String} {d : List Char} {shape : Shape}
    (h : Spelling (solid s.toList) d shape) :
    (∃ rest, scanOpcode s.toList = .ok (d.map (· == '1'), rest)) ∧
      compile s = .ok ⟨ofBits (d.map (· == '1')) <<< shape.width,
        ((1#16 <<< d.length) - 1#16) <<< shape.width, shape⟩ := by
  obtain ⟨rest, hscan, hrest⟩ := scanOpcode_of_digits h.text_eq h.isOpcodeDigit (stops_layout shape)
  have hlayout : scanLayout rest = .ok shape.layout.toList := by
    refine scanLayout_eq_ok.mpr ⟨hrest.symm, fun c hc => ?_⟩
    rw [isLayoutLetter_of_mem_layout shape c (hrest ▸ hc)]
    rfl
  have hpattern := compile_of_scans hscan (by simpa using h.digits_ne) hlayout
    (Shape.ofLayout?_eq_some.mpr rfl) (by rw [List.length_map]; exact h.length_eq)
  rw [List.length_map] at hpattern
  exact ⟨⟨rest, hscan⟩, hpattern⟩

end Pattern

/-! ### What compiles -/

open Pattern

/-- The mask of a regular pattern is the word mask without the operand bits. -/
theorem Pattern.Regular.mask_eq {p : Pattern} (hp : p.Regular) :
    p.mask = wordMask &&& ~~~p.shape.mask := by
  refine BitVec.eq_of_getLsbD_eq fun i hi => ?_
  rw [hp.mask_bits, BitVec.getLsbD_and, BitVec.getLsbD_not, getLsbD_wordMask, Shape.getLsbD_mask]
  grind

/-- **The pattern language.**  A text compiles if and only if, without its blanks, it is a run of
digits and the layout of a shape, twelve symbols in all.  Digits and shape are then unique; the
opcode is the number the digits write, moved above the operand bits, and the mask is the word mask
without these; and the words of the computation neither overflow nor lose a bit. -/
theorem compile_iff_spelling (s : String) :
    ((∃ p, compile s = .ok p) ↔ ∃ d shape, Spelling (Text.solid s.toList) d shape) ∧
    ∀ d shape, Spelling (Text.solid s.toList) d shape →
      (∀ d' shape', Spelling (Text.solid s.toList) d' shape' → d' = d ∧ shape' = shape) ∧
      ∀ p, compile s = .ok p →
        p.shape = shape ∧
        p.opcode.toNat = binaryValue d * 2 ^ shape.width ∧
        p.mask = 0xFFF#16 &&& ~~~BitVec.ofNat 16 (2 ^ shape.width - 1) ∧
        ∃ bits rest, scanOpcode s.toList = .ok (bits, rest) ∧ bits = d.map (· == '1') ∧
          Lossless bits := by
  refine ⟨⟨?_, ?_⟩, fun d shape h => ⟨fun d' shape' h' => h.unique h', fun p hp => ?_⟩⟩
  · rintro ⟨p, hp⟩
    obtain ⟨d, hd⟩ := spelling_of_compile hp
    exact ⟨d, p.shape, hd⟩
  · rintro ⟨d, shape, h⟩
    exact ⟨_, (compile_of_spelling h).2⟩
  · obtain ⟨⟨rest, hscan⟩, hpattern⟩ := compile_of_spelling h
    have hmask : p.mask = 0xFFF#16 &&& ~~~BitVec.ofNat 16 (2 ^ p.shape.width - 1) :=
      (regular_of_compile hp).mask_eq
    have hlen := h.length_eq
    have hword : wordBits = 12 := rfl
    have hbits : Lossless (d.map (· == '1')) := lossless (by rw [List.length_map]; omega)
    rw [hp] at hpattern
    cases hpattern
    refine ⟨rfl, ?_, hmask, _, rest, hscan, rfl, hbits⟩
    have hwidth : wordBits - (d.map (· == '1')).length = shape.width := by
      rw [List.length_map]
      omega
    have hopcode := hbits.opcode
    rwa [hwidth, toNat_ofBits (by omega)] at hopcode

/-- Nine letters `k` after three digits, with a no-break space among them: not the layout of
eight. -/
theorem compile_iff_spelling_goto :
    Spelling (Text.solid "10 1k\u00a0kkkk kkkk".toList) ['1', '0', '1'] .goto ∧
    ∃ p, compile "10 1k\u00a0kkkk kkkk" = .ok p ∧ p.shape = .goto ∧ p.opcode.toNat = 5 * 2 ^ 9 ∧
      p.mask = 0xFFF#16 &&& ~~~BitVec.ofNat 16 (2 ^ 9 - 1) := by
  have h : Spelling (Text.solid "10 1k\u00a0kkkk kkkk".toList) ['1', '0', '1'] .goto :=
    ⟨by decide, by decide, by simp, by decide⟩
  obtain ⟨hiff, hbits⟩ := compile_iff_spelling "10 1k\u00a0kkkk kkkk"
  obtain ⟨p, hp⟩ := hiff.mpr ⟨_, _, h⟩
  obtain ⟨hshape, hopcode, hmask, -⟩ := (hbits _ _ h).2 p hp
  exact ⟨h, p, hp, hshape, hopcode, hmask⟩

end PicBaseline
