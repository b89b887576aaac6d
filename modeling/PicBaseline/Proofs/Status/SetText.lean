import Mathlib.Data.List.TakeWhile
import PicBaseline.Proofs.Text.Lines
import PicBaseline.Proofs.Text.Numeral
import PicBaseline.Status

/-!
# Proofs — a set of flags as text

A text `Writes` items when they stand in it in order, with bars between them and blanks around each;
a text of blanks writes none.  An item is the name of a flag or a hexadecimal number, and has a value
(`ItemValue`).

* `ofItem?_eq_some`: an item is read as its value.
* `ofSetText?_of_writes`, `exists_writes`: a text is read by its items.
* `readItems_eq_some`, `readItems_congr`: items are read as the union of their values, so neither
  their order nor their number counts.
* `setText_writes`, `bits_eq_foldl_itemValues`: the text of a set writes its flags and the bits
  without a name, and these are all its bits.
* `setText_denotes_union`: the three together.
-/

namespace PicBaseline.Text

/-! ### Blanks around a text -/

/-- Nothing but blanks. -/
def Blank (cs : List Char) : Prop :=
  ∀ c ∈ cs, isBlank c = true

instance (cs : List Char) : Decidable (Blank cs) :=
  List.decidableBAll (fun c => isBlank c = true) cs

theorem dropWhile_blank {front cs : List Char} (hfront : Blank front)
    (hcs : ∀ c ∈ cs.head?, isBlank c = false) : (front ++ cs).dropWhile isBlank = cs := by
  rw [List.dropWhile_append_of_pos hfront]
  cases cs with
  | nil => rfl
  | cons c cs => exact List.dropWhile_cons_of_neg (by simp [hcs c rfl])

/-- Blanks around a text without blanks are trimmed, and nothing else is. -/
theorem trim_padded {front item back : List Char} (hfront : Blank front) (hback : Blank back)
    (hne : item ≠ []) (hitem : ∀ c ∈ item, isBlank c = false) :
    trim (front ++ (item ++ back)) = item := by
  have hleft : (front ++ (item ++ back)).dropWhile isBlank = item ++ back := by
    refine dropWhile_blank hfront fun c hc => ?_
    rw [List.head?_append_of_ne_nil _ hne] at hc
    exact hitem c (List.mem_of_mem_head? hc)
  have hright : (back.reverse ++ item.reverse).dropWhile isBlank = item.reverse := by
    refine dropWhile_blank (fun c hc => hback c (List.mem_reverse.mp hc)) fun c hc => ?_
    exact hitem c (List.mem_reverse.mp (List.mem_of_mem_head? hc))
  rw [trim, hleft, List.reverse_append, hright, List.reverse_reverse]

/-- A text is what trimming leaves, between blanks. -/
theorem exists_trim (cs : List Char) :
    ∃ front back, Blank front ∧ Blank back ∧ cs = front ++ (trim cs ++ back) := by
  let rest := cs.dropWhile isBlank
  refine ⟨cs.takeWhile isBlank, (rest.reverse.takeWhile isBlank).reverse,
    fun c hc => List.mem_takeWhile_imp hc,
    fun c hc => List.mem_takeWhile_imp (List.mem_reverse.mp hc), ?_⟩
  have hrest : trim cs ++ (rest.reverse.takeWhile isBlank).reverse = rest := by
    rw [trim, ← List.reverse_append, List.takeWhile_append_dropWhile, List.reverse_reverse]
  rw [hrest, List.takeWhile_append_dropWhile]

end PicBaseline.Text

namespace PicBaseline.Status

open Text (Blank IsHexNumeral isBlank)

/-! ### Items and texts -/

/-- What an item stands for: the bit of the flag it names, or the bits of a hexadecimal number. -/
inductive ItemValue : List Char → Byte → Prop where
  | name (flag : Flag) : ItemValue flag.name.toList (1#8 <<< flag.bit)
  | hex {sign digits : List Char} {n : Nat} (hsign : sign = [] ∨ sign = ['+'])
      (hne : digits ≠ []) (hdigits : IsHexNumeral digits n) (hn : n < 256) :
      ItemValue ('0' :: 'x' :: (sign ++ digits)) (BitVec.ofNat 8 n)

/-- Items have no blanks and no bars. -/
def isItemChar (c : Char) : Bool :=
  !isBlank c && c != '|'

/-- The text is the item, with blanks around it or without. -/
structure Padded (item cs : List Char) : Prop where
  ne_nil : item ≠ []
  chars : ∀ c ∈ item, isItemChar c = true
  blanks : ∃ front back, Blank front ∧ Blank back ∧ cs = front ++ (item ++ back)

/-- The text is the items, at least one, with bars between them. -/
inductive Joined : List (List Char) → List Char → Prop where
  | last {item cs : List Char} (h : Padded item cs) : Joined [item] cs
  | more {item cs rest : List Char} {items : List (List Char)} (h : Padded item cs)
      (later : Joined items rest) : Joined (item :: items) (cs ++ '|' :: rest)

/-- The text writes the items: it joins them, or it is blank and there are none. -/
inductive Writes : List (List Char) → List Char → Prop where
  | blank {cs : List Char} (h : Blank cs) : Writes [] cs
  | joined {items : List (List Char)} {cs : List Char} (h : Joined items cs) : Writes items cs

theorem ItemValue.padded {item : List Char} {v : Byte} (h : ItemValue item v)
    {front back : List Char} (hfront : Blank front) (hback : Blank back) :
    Padded item (front ++ (item ++ back)) := by
  have hitem : item ≠ [] ∧ ∀ c ∈ item, isItemChar c = true := by
    cases h with
    | name flag =>
        rw [← List.all_eq_true]
        cases flag <;> decide
    | @hex sign digits n hsign hne hdigits hn =>
        obtain ⟨ds, hds, -⟩ := hdigits
        have hdigit : ∀ c ∈ digits, isItemChar c = true := fun c hc => by
          obtain ⟨d, hd⟩ := exists_of_mem_forall₂ hds c hc
          exact hd.holds (by decide)
        have hplus : ∀ c ∈ sign, isItemChar c = true := by
          rcases hsign with rfl | rfl
          · simp
          · simpa using (by decide : isItemChar '+' = true)
        refine ⟨List.cons_ne_nil _ _, ?_⟩
        exact List.forall_mem_cons.mpr ⟨by decide, List.forall_mem_cons.mpr ⟨by decide,
          List.forall_mem_append.mpr ⟨hplus, hdigit⟩⟩⟩
  exact ⟨hitem.1, hitem.2, front, back, hfront, hback, rfl⟩

namespace Padded

variable {item cs : List Char}

theorem trim_eq (h : Padded item cs) : Text.trim cs = item := by
  obtain ⟨front, back, hfront, hback, rfl⟩ := h.blanks
  refine Text.trim_padded hfront hback h.ne_nil fun c hc => ?_
  have hchar := h.chars c hc
  simp only [isItemChar, Bool.and_eq_true, Bool.not_eq_true'] at hchar
  exact hchar.1

/-- A padded item has no bar, so cutting at bars does not cut it. -/
theorem bar_notMem (h : Padded item cs) : '|' ∉ cs := by
  obtain ⟨front, back, hfront, hback, rfl⟩ := h.blanks
  have hbar : isBlank '|' = false := by decide
  intro hmem
  rcases List.mem_append.mp hmem with hmem | hmem
  · exact Bool.false_ne_true (hbar.symm.trans (hfront _ hmem))
  · rcases List.mem_append.mp hmem with hmem | hmem
    · exact absurd (h.chars _ hmem) (by decide)
    · exact Bool.false_ne_true (hbar.symm.trans (hback _ hmem))

theorem not_blank (h : Padded item cs) : ¬ Blank cs := by
  obtain ⟨front, back, -, -, rfl⟩ := h.blanks
  obtain ⟨c, rest, hitem⟩ := List.exists_cons_of_ne_nil h.ne_nil
  intro hblank
  have hchar := h.chars c (by simp [hitem])
  rw [isItemChar, hblank c (by simp [hitem])] at hchar
  cases hchar

end Padded

namespace Joined

variable {items : List (List Char)} {cs : List Char}

/-- The items of a joined text are its fields, trimmed. -/
theorem map_trim_fields (h : Joined items cs) : (Text.fields '|' cs).map Text.trim = items := by
  induction h with
  | last h => rw [Text.fields_of_notMem h.bar_notMem, List.map_singleton, h.trim_eq]
  | more h _ ih => rw [Text.fields_field h.bar_notMem, List.map_cons, h.trim_eq, ih]

theorem not_blank (h : Joined items cs) : ¬ Blank cs := by
  cases h with
  | last h => exact h.not_blank
  | more h _ => exact fun hblank => h.not_blank fun c hc => hblank c (List.mem_append_left _ hc)

theorem blank_append (h : Joined items cs) {front : List Char} (hfront : Blank front) :
    Joined items (front ++ cs) := by
  have hpad : ∀ {item cs : List Char}, Padded item cs → Padded item (front ++ cs) := by
    rintro item cs ⟨hne, hchars, before, back, hbefore, hback, rfl⟩
    refine ⟨hne, hchars, front ++ before, back, ?_, hback, (List.append_assoc ..).symm⟩
    exact List.forall_mem_append.mpr ⟨hfront, hbefore⟩
  cases h with
  | last h => exact .last (hpad h)
  | more h later =>
      rw [← List.append_assoc]
      exact .more (hpad h) later

end Joined

/-! ### Reading an item -/

theorem Flag.ofName?_eq_some {name : String} {flag : Flag} :
    ofName? name = some flag ↔ flag.name = name := by
  constructor
  · intro h
    unfold ofName? at h
    have hfound := List.find?_some h
    exact beq_iff_eq.mp hfound
  · rintro rfl
    cases flag <;> decide

namespace Flags

/-- The digits of a hexadecimal item, without the plus sign that may stand in front. -/
def unsigned : List Char → List Char
  | '+' :: rest => rest
  | digits      => digits

theorem exists_sign (cs : List Char) :
    ∃ sign, (sign = [] ∨ sign = ['+']) ∧ cs = sign ++ unsigned cs := by
  unfold unsigned
  split
  · exact ⟨['+'], Or.inr rfl, rfl⟩
  · exact ⟨[], Or.inl rfl, rfl⟩

theorem unsigned_of_ne {cs : List Char} (h : ∀ rest, cs = '+' :: rest → False) :
    unsigned cs = cs := by
  unfold unsigned
  split
  · exact absurd rfl (h _)
  · rfl

/-- The sign in front of a numeral is taken off, and nothing else: no digit is a plus. -/
theorem unsigned_append {sign digits : List Char} {n : Nat} (hsign : sign = [] ∨ sign = ['+'])
    (hdigits : IsHexNumeral digits n) : unsigned (sign ++ digits) = digits := by
  rcases hsign with rfl | rfl
  · refine unsigned_of_ne ?_
    rintro rest rfl
    -- A plus sign is no digit.
    obtain ⟨ds, hds, -⟩ := hdigits
    obtain ⟨d, later, hd, -, -⟩ := List.forall₂_cons_left_iff.mp hds
    cases Text.hexValue?_eq_some.mpr hd
  · rfl

/-- The number that digits spell, as bits. -/
def ofDigits? (digits : List Char) : Option Flags :=
  guard (!digits.isEmpty) >>= fun _ => digits.mapM Text.hexValue? >>= fun ds =>
    guard (Text.hexNumber ds < 256) >>= fun _ => some ⟨BitVec.ofNat 8 (Text.hexNumber ds)⟩

/-- Reading drops the sign and then reads digits. -/
theorem ofHex?_eq (cs : List Char) : ofHex? cs = ofDigits? (unsigned cs) := by
  refine congrArg ofDigits? (?_ : _ = unsigned cs)
  split
  · rfl
  · rename_i h
    exact (unsigned_of_ne h).symm

/-- **What a hexadecimal item writes**: a numeral below 256 behind an optional sign. -/
theorem ofHex?_eq_some {cs : List Char} {s : Flags} :
    ofHex? cs = some s ↔ unsigned cs ≠ [] ∧
      ∃ n, IsHexNumeral (unsigned cs) n ∧ n < 256 ∧ s = ⟨BitVec.ofNat 8 n⟩ := by
  rw [ofHex?_eq, ofDigits?, guard_bind_eq_some]
  refine and_congr (by simp) ?_
  rw [Option.bind_eq_bind, Option.bind_eq_some_iff]
  constructor
  · rintro ⟨ds, hds, h⟩
    obtain ⟨hn, h⟩ := guard_bind_eq_some.mp h
    exact ⟨_, ⟨ds, Text.mapM_hexValue?_eq_some.mp hds, rfl⟩, hn, (Option.some.inj h).symm⟩
  · rintro ⟨n, ⟨ds, hds, rfl⟩, hn, rfl⟩
    exact ⟨ds, Text.mapM_hexValue?_eq_some.mpr hds, guard_bind_eq_some.mpr ⟨hn, rfl⟩⟩

/-- **An item is read as its value.** -/
theorem ofItem?_eq_some {cs : List Char} {s : Flags} :
    ofItem? cs = some s ↔ ItemValue cs s.bits := by
  constructor
  · intro h
    unfold ofItem? at h
    split at h
    · rename_i digits
      obtain ⟨hne, n, hdigits, hn, rfl⟩ := ofHex?_eq_some.mp h
      obtain ⟨sign, hsign, heq⟩ := exists_sign digits
      rw [heq]
      exact .hex hsign hne hdigits hn
    · obtain ⟨flag, hflag, rfl⟩ := Option.map_eq_some_iff.mp h
      have hname : flag.name.toList = cs := by
        rw [Flag.ofName?_eq_some.mp hflag, String.toList_ofList]
      rw [← hname]
      exact .name flag
  · obtain ⟨bits⟩ := s
    rintro (flag | ⟨hsign, hne, hdigits, hn⟩)
    · cases flag <;> decide
    · refine ofHex?_eq_some.mpr ?_
      rw [unsigned_append hsign hdigits]
      exact ⟨hne, _, hdigits, hn, rfl⟩

end Flags

theorem ItemValue.unique {item : List Char} {v w : Byte} (hv : ItemValue item v)
    (hw : ItemValue item w) : v = w := by
  have hread : Flags.ofItem? item = some ⟨v⟩ := Flags.ofItem?_eq_some.mpr hv
  have hread' : Flags.ofItem? item = some ⟨w⟩ := Flags.ofItem?_eq_some.mpr hw
  exact congrArg Flags.bits (Option.some.inj (hread.symm.trans hread'))

namespace Flags

variable {items items' : List (List Char)} {values values' : List Byte} {f : Flags}

/-! ### Reading items -/

/-- The union of what the items are read as, if all of them can be read. -/
def readItems (items : List (List Char)) : Option Flags := do
  let sets ← items.mapM ofItem?
  return sets.foldl union empty

theorem bits_foldl_union (sets : List Flags) (s : Flags) :
    (sets.foldl union s).bits = (sets.map Flags.bits).foldl (· ||| ·) s.bits := by
  induction sets generalizing s with
  | nil => rfl
  | cons t sets ih => exact ih (s.union t)

/-- **Items are read as the union of their values.** -/
theorem readItems_eq_some :
    readItems items = some f ↔ ∃ values, List.Forall₂ ItemValue items values ∧
      f.bits = values.foldl (· ||| ·) 0#8 := by
  have hsets : readItems items = some f ↔ ∃ sets, items.mapM ofItem? = some sets ∧
      sets.foldl union empty = f := by
    simp [readItems, Option.bind_eq_some_iff]
  rw [hsets]
  simp only [mapM_eq_some, ofItem?_eq_some]
  constructor
  · rintro ⟨sets, hread, rfl⟩
    exact ⟨sets.map Flags.bits, List.forall₂_map_right_iff.mpr hread, bits_foldl_union sets empty⟩
  · rintro ⟨values, hvalues, hbits⟩
    refine ⟨values.map Flags.mk, List.forall₂_map_right_iff.mpr hvalues, ?_⟩
    obtain ⟨bits⟩ := f
    refine congrArg Flags.mk ((bits_foldl_union _ empty).trans ?_)
    rw [List.map_map]
    exact (congrArg (List.foldl _ _) (List.map_id values)).trans hbits.symm

/-- A bit of a union is a bit of some member. -/
theorem getLsbD_foldl_or (values : List Byte) (b : Byte) (i : Nat) :
    (values.foldl (· ||| ·) b).getLsbD i = (b.getLsbD i || values.any (·.getLsbD i)) := by
  induction values generalizing b with
  | nil => simp
  | cons v values ih => rw [List.foldl_cons, ih, BitVec.getLsbD_or, List.any_cons, Bool.or_assoc]

/-- Which values there are is said by which items there are. -/
theorem mem_values (h : List.Forall₂ ItemValue items values) {v : Byte} :
    v ∈ values ↔ ∃ item ∈ items, ItemValue item v := by
  induction h with
  | nil => simp
  | @cons item w items values hw _ ih =>
      simp only [List.mem_cons, ih, exists_eq_or_imp]
      refine or_congr_left ⟨?_, fun hv => hv.unique hw⟩
      rintro rfl
      exact hw

/-- A union depends on its members only, not on their order or number. -/
theorem foldl_or_congr (h : ∀ v, v ∈ values ↔ v ∈ values') :
    values.foldl (· ||| ·) 0#8 = values'.foldl (· ||| ·) 0#8 := by
  refine BitVec.eq_of_getLsbD_eq fun i _ => ?_
  rw [getLsbD_foldl_or, getLsbD_foldl_or]
  refine congrArg _ (Bool.eq_iff_iff.mpr ?_)
  simp only [List.any_eq_true, h]

/-- **Only the set of the items counts**, not their order and not how often they stand there. -/
theorem readItems_congr (h : ∀ item, item ∈ items ↔ item ∈ items') :
    readItems items = readItems items' := by
  have hincl : ∀ {xs ys : List (List Char)} {f : Flags}, (∀ x, x ∈ xs ↔ x ∈ ys) →
      readItems xs = some f → readItems ys = some f := by
    intro xs ys f hxy hx
    obtain ⟨values, hvalues, hbits⟩ := readItems_eq_some.mp hx
    obtain ⟨values', hvalues'⟩ := exists_forall₂ fun y hy =>
      exists_of_mem_forall₂ hvalues y ((hxy y).mpr hy)
    refine readItems_eq_some.mpr ⟨values', hvalues', hbits.trans (foldl_or_congr fun v => ?_)⟩
    rw [mem_values hvalues, mem_values hvalues']
    simp only [hxy]
  exact Option.ext fun f => ⟨hincl h, hincl fun item => (h item).symm⟩

/-! ### Reading a text -/

/-- **Reading goes by the items that a text writes.** -/
theorem ofSetText?_of_writes {t : String} (h : Writes items t.toList) :
    ofSetText? t = readItems items := by
  cases h with
  | blank h => exact if_pos (List.all_eq_true.mpr h)
  | joined h =>
      have hblank : ¬ t.toList.all isBlank = true := fun hall =>
        h.not_blank (List.all_eq_true.mp hall)
      refine (if_neg hblank).trans ?_
      rw [h.map_trim_fields]
      rfl

/-- Fields that are items when they are trimmed are joined in the text. -/
theorem joined_of_fields {cs : List Char}
    (h : ∀ item ∈ (Text.fields '|' cs).map Text.trim, ∃ v, ItemValue item v) :
    Joined ((Text.fields '|' cs).map Text.trim) cs := by
  have hpadded : ∀ {cs : List Char} {v : Byte}, ItemValue (Text.trim cs) v →
      Padded (Text.trim cs) cs := by
    intro cs v hv
    obtain ⟨front, back, hfront, hback, hcs⟩ := Text.exists_trim cs
    have := hv.padded hfront hback
    rwa [← hcs] at this
  induction cs using Text.fields_induction '|' with
  | last l hl =>
      rw [Text.fields_of_notMem hl] at h ⊢
      obtain ⟨v, hv⟩ := h (Text.trim l) List.mem_cons_self
      exact .last (hpadded hv)
  | field l cs hl ih =>
      rw [Text.fields_field hl, List.map_cons] at h ⊢
      obtain ⟨⟨v, hv⟩, hlater⟩ := List.forall_mem_cons.mp h
      exact .more (hpadded hv) (ih hlater)

theorem exists_writes {t : String} (h : ofSetText? t = some f) : ∃ items, Writes items t.toList := by
  by_cases hblank : t.toList.all isBlank = true
  · exact ⟨[], .blank (List.all_eq_true.mp hblank)⟩
  · have hread : readItems ((Text.fields '|' t.toList).map Text.trim) = some f :=
      (if_neg hblank).symm.trans h
    obtain ⟨values, hvalues, -⟩ := readItems_eq_some.mp hread
    exact ⟨_, .joined (joined_of_fields (exists_of_mem_forall₂ hvalues))⟩

/-! ### Writing a set -/

/-- Items with a bar and blanks between them, as the writer puts them. -/
theorem writes_intercalate (h : ∀ item ∈ items, ∃ v, ItemValue item v) :
    Writes items ([' ', '|', ' '].intercalate items) := by
  have hspace : Blank [' '] := by decide
  have hnil : Blank [] := by decide
  cases items with
  | nil => exact .blank hnil
  | cons item items =>
      refine .joined ?_
      induction items generalizing item with
      | nil =>
          obtain ⟨v, hv⟩ := h item List.mem_cons_self
          have hlast := hv.padded hnil hnil
          rw [List.nil_append, List.append_nil] at hlast
          rw [List.intercalate_singleton]
          exact .last hlast
      | cons next items ih =>
          obtain ⟨⟨v, hv⟩, hlater⟩ := List.forall_mem_cons.mp h
          have hfirst : Padded item (item ++ [' ']) := hv.padded hnil hspace
          have hjoined := (ih next hlater).blank_append hspace
          -- Of ` | ` the first blank goes to this item and the second to the next.
          have htext : [' ', '|', ' '].intercalate (item :: next :: items) =
              (item ++ [' ']) ++ '|' :: ([' '] ++ [' ', '|', ' '].intercalate (next :: items)) := by
            simp [List.intercalate_cons_cons]
          rw [htext]
          exact .more hfirst hjoined

/-- The values of the items of a set: its flags, and the bits without a name if there are any. -/
def itemValues (f : Flags) : List Byte :=
  f.members.map (fun flag => 1#8 <<< flag.bit) ++ if f.unnamed = 0#8 then [] else [f.unnamed]

theorem itemValue_unnamed (b : Byte) :
    ItemValue ("0x" ++ Text.lowerHex 1 b.toNat).toList b := by
  have hne : (Text.lowerHex 1 b.toNat).toList ≠ [] := by
    rw [Text.lowerHex, String.toList_ofList]
    exact List.ne_nil_of_length_pos (by rw [List.length_leftpad]; omega)
  have hvalue := ItemValue.hex (Or.inl rfl) hne (Text.isHexNumeral_lowerHex 1 b.toNat) b.isLt
  rw [BitVec.ofNat_toNat, BitVec.setWidth_eq, List.nil_append] at hvalue
  rw [String.toList_append]
  exact hvalue

/-- The items of a set have the values of its members and of its unnamed bits. -/
theorem items_values (f : Flags) :
    List.Forall₂ ItemValue (f.items.map String.toList) f.itemValues := by
  rw [items, List.map_append]
  refine List.rel_append ?_ ?_
  · rw [List.map_map, List.forall₂_map_left_iff, List.forall₂_map_right_iff, List.forall₂_same]
    exact fun flag _ => .name flag
  · split
    · exact .nil
    · exact .cons (itemValue_unnamed f.unnamed) .nil

/-- The writer puts the items of a set into its text. -/
theorem setText_writes (f : Flags) : Writes (f.items.map String.toList) f.setText.toList := by
  rw [setText, String.toList_intercalate]
  exact writes_intercalate (exists_of_mem_forall₂ f.items_values)

/-! ### The bits of a set -/

/-- The register has a flag at a bit. -/
def named (i : Nat) : Bool :=
  Flag.all.any fun flag => flag.bit == i

theorem getLsbD_single (flag : Flag) (i : Nat) :
    (1#8 <<< flag.bit).getLsbD i = (flag.bit == i) := by
  have hbit : flag.bit < 8 := by cases flag <;> decide
  rw [← BitVec.twoPow_eq, BitVec.getLsbD_twoPow, decide_eq_true hbit, Bool.true_and]
  exact (beq_eq_decide ..).symm

theorem getLsbD_ofList (flags : List Flag) (i : Nat) :
    (ofList flags).bits.getLsbD i = flags.any fun flag => flag.bit == i := by
  have hunion : ofList flags = (flags.map single).foldl union empty := List.foldl_map.symm
  rw [hunion, bits_foldl_union, getLsbD_foldl_or, List.map_map, List.any_map]
  simp only [empty, single, Function.comp_def, getLsbD_single, BitVec.getLsbD_zero, Bool.false_or]

theorem getLsbD_unnamed (f : Flags) {i : Nat} (hi : i < 8) :
    f.unnamed.getLsbD i = (f.bits.getLsbD i && !named i) := by
  rw [unnamed, BitVec.getLsbD_and, BitVec.getLsbD_not, getLsbD_ofList, decide_eq_true hi,
    Bool.true_and]
  rfl

/-- The members of a set have its named bits. -/
theorem any_members (f : Flags) (i : Nat) :
    (f.members.any fun flag => flag.bit == i) = (f.bits.getLsbD i && named i) := by
  rw [members, List.any_filter, named, Bool.eq_iff_iff]
  simp only [List.any_eq_true, Bool.and_eq_true, beq_iff_eq, contains]
  constructor
  · rintro ⟨flag, hmem, hset, rfl⟩
    exact ⟨hset, flag, hmem, rfl⟩
  · rintro ⟨hset, flag, hmem, rfl⟩
    exact ⟨flag, hmem, hset, rfl⟩

/-- **The items of a set are all of it**: its flags and its bits without a name. -/
theorem bits_eq_foldl_itemValues (f : Flags) :
    f.bits = f.itemValues.foldl (· ||| ·) 0#8 := by
  refine BitVec.eq_of_getLsbD_eq fun i hi => ?_
  have hunnamed : (if f.unnamed = 0#8 then [] else [f.unnamed]).any (·.getLsbD i) =
      f.unnamed.getLsbD i := by
    split
    · rename_i h
      simp [h]
    · simp
  calc f.bits.getLsbD i
      = (f.bits.getLsbD i && named i || f.bits.getLsbD i && !named i) := by
        cases f.bits.getLsbD i <;> cases named i <;> rfl
    _ = ((f.members.any fun flag => flag.bit == i) || f.unnamed.getLsbD i) := by
        rw [any_members, getLsbD_unnamed f hi]
    _ = (f.itemValues.foldl (· ||| ·) 0#8).getLsbD i := by
        rw [getLsbD_foldl_or, itemValues, List.any_append, hunnamed, List.any_map]
        simp only [Function.comp_def, getLsbD_single, BitVec.getLsbD_zero, Bool.false_or]

/-- **What is written is read back.** -/
theorem ofSetText?_setText (f : Flags) : ofSetText? f.setText = some f :=
  (ofSetText?_of_writes f.setText_writes).trans
    (readItems_eq_some.mpr ⟨_, f.items_values, f.bits_eq_foldl_itemValues⟩)

/-- **The text of flags is a set notation.**  A text is read as a set exactly when it writes items
with a value each, and then the set is the union of these values; a blank text writes none, and is
the empty set.  Two texts that write the same items are read alike, in whatever order and however
often the items stand there, and whatever blanks are around them.  And the text of every set, with
or without the bit that has no name, is read as that set. -/
theorem setText_denotes_union :
    (∀ (t : String) (f : Flags), ofSetText? t = some f ↔
      ∃ items values, Writes items t.toList ∧ List.Forall₂ ItemValue items values ∧
        f.bits = values.foldl (· ||| ·) 0#8) ∧
    (∀ (t t' : String) (items items' : List (List Char)), Writes items t.toList →
      Writes items' t'.toList → (∀ item, item ∈ items ↔ item ∈ items') →
      ofSetText? t = ofSetText? t') ∧
    (∀ f : Flags, ofSetText? f.setText = some f) := by
  refine ⟨fun t f => ⟨fun h => ?_, ?_⟩, ?_, ofSetText?_setText⟩
  · obtain ⟨items, hwrites⟩ := exists_writes h
    rw [ofSetText?_of_writes hwrites] at h
    obtain ⟨values, hvalues, hbits⟩ := readItems_eq_some.mp h
    exact ⟨items, values, hwrites, hvalues, hbits⟩
  · rintro ⟨items, values, hwrites, hvalues, hbits⟩
    rw [ofSetText?_of_writes hwrites]
    exact readItems_eq_some.mpr ⟨values, hvalues, hbits⟩
  · intro t t' items items' hwrites hwrites' hsame
    rw [ofSetText?_of_writes hwrites, ofSetText?_of_writes hwrites', readItems_congr hsame]

/-- A name and a number that has its bit too, and the bit without a name: once each; then the other
way round, with the number twice and other blanks. -/
theorem setText_denotes_union_overlap :
    Writes ["ZERO".toList, "0x+25".toList] "ZERO|\t0x+25 ".toList ∧
    Writes ["0x+25".toList, "ZERO".toList, "0x+25".toList] " 0x+25|ZERO |0x+25".toList ∧
    ofSetText? "ZERO|\t0x+25 " = some ⟨0x25#8⟩ ∧
    ofSetText? " 0x+25|ZERO |0x+25" = some ⟨0x25#8⟩ ∧
    ofSetText? (setText ⟨0x25#8⟩) = some ⟨0x25#8⟩ := by
  obtain ⟨hreads, hsame, hback⟩ := setText_denotes_union
  have hnil : Blank [] := by decide
  have hspace : Blank [' '] := by decide
  have hzero : ItemValue "ZERO".toList 4#8 := .name .zero
  have hdigits : IsHexNumeral ['2', '5'] 0x25 :=
    ⟨[2, 5], .cons (by decide) (.cons (by decide) .nil), rfl⟩
  have hnumber : ItemValue "0x+25".toList 0x25#8 :=
    .hex (Or.inr rfl) (by decide) hdigits (by decide)
  have honce : Writes ["ZERO".toList, "0x+25".toList] "ZERO|\t0x+25 ".toList :=
    .joined (.more (hzero.padded hnil hnil)
      (.last (hnumber.padded (by decide : Blank ['\t']) hspace)))
  have htwice : Writes ["0x+25".toList, "ZERO".toList, "0x+25".toList]
      " 0x+25|ZERO |0x+25".toList :=
    .joined (.more (hnumber.padded hspace hnil) (.more (hzero.padded hnil hspace)
      (.last (hnumber.padded hnil hnil))))
  have hread : ofSetText? "ZERO|\t0x+25 " = some ⟨0x25#8⟩ :=
    (hreads _ _).mpr ⟨_, _, honce, .cons hzero (.cons hnumber .nil), by decide⟩
  have hmem : ∀ item, item ∈ ["ZERO".toList, "0x+25".toList] ↔
      item ∈ ["0x+25".toList, "ZERO".toList, "0x+25".toList] := by
    intro item
    simp only [List.mem_cons, List.not_mem_nil, or_false]
    exact ⟨Or.inr, fun h => h.elim Or.inr id⟩
  exact ⟨honce, htwice, hread, (hsame _ _ _ _ honce htwice hmem).symm.trans hread, hback _⟩

end Flags

end PicBaseline.Status
