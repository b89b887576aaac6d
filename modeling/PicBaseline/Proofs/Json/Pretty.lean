import PicBaseline.Json.Basic
import PicBaseline.Proofs.Text.Numeral

/-!
# Proofs — what printed JSON shows

A value is *plain* when no number in it is kept by its spelling, as those of the forms written here
are.  A plain value can be read off the front of any text, as long as what follows cannot extend a
word (`prettyAt_inj`); so plain values print to different texts (`pretty_inj`).

The proof follows the printer.  The first character tells a word, which `null`, the booleans and
numbers are, from a string, an array and an object.  A string ends at the first quote that is not
escaped, and the items of an array or members of an object end at the first line that no comma is
in front of.
-/

namespace PicBaseline.Json

open Text (IsWord EndsWord isWordChar)

mutual

/-- No number is kept by its spelling. -/
def Plain : Json → Prop
  | null      => True
  | bool _    => True
  | nat _     => True
  | number _  => False
  | str _     => True
  | arr items => PlainItems items
  | obj ms    => PlainMembers ms

def PlainItems : List Json → Prop
  | []      => True
  | x :: xs => x.Plain ∧ PlainItems xs

def PlainMember : String × Json → Prop
  | (_, value) => value.Plain

def PlainMembers : List (String × Json) → Prop
  | []      => True
  | m :: ms => PlainMember m ∧ PlainMembers ms

end

theorem plainItems_iff {xs : List Json} : PlainItems xs ↔ ∀ x ∈ xs, x.Plain := by
  induction xs with
  | nil => simp [PlainItems]
  | cons x xs ih => simp [PlainItems, ih]

/-! ### Strings -/

/-- The character that a letter after a backslash stands for. -/
def unescapeLetter (c : Char) : Char :=
  if c = 'b' then '\x08'
  else if c = 't' then '\t'
  else if c = 'n' then '\n'
  else if c = 'f' then '\x0c'
  else if c = 'r' then '\r'
  else c

/-- The first character of the inside of a string, and the rest.  The characters that are written
by number are below `0x20`, so the last two digits have it. -/
def unescape : List Char → Option (Char × List Char)
  | '\\' :: 'u' :: _ :: _ :: high :: low :: rest => do
      let h ← Text.hexValue? high
      let l ← Text.hexValue? low
      return (Char.ofNat (16 * h + l), rest)
  | '\\' :: c :: rest => some (unescapeLetter c, rest)
  | c :: rest => some (c, rest)
  | [] => none

theorem lowerHex_of_lt : ∀ n < 0x20, (Text.lowerHex 4 n).toList =
    ['0', '0', Nat.digitChar (n / 16), Nat.digitChar (n % 16)] := by
  decide

/-- **An escape can be told from what follows it**: reading one gives back its character and the
rest. -/
theorem unescape_stringEscape (c : Char) (s : List Char) :
    unescape ((stringEscape c).toList ++ s) = some (c, s) := by
  unfold stringEscape
  split_ifs with hquote hslash hb ht hn hf hr hlow
  · subst hquote; rfl
  · subst hslash; rfl
  · subst hb; rfl
  · subst ht; rfl
  · subst hn; rfl
  · subst hf; rfl
  · subst hr; rfl
  · have hhigh := Text.hexValue?_digitChar (c.toNat / 16) (by omega)
    have hlast := Text.hexValue?_digitChar (c.toNat % 16) (by omega)
    simp [lowerHex_of_lt c.toNat hlow, unescape, hhigh, hlast, Nat.div_add_mod]
  · simp [unescape, hslash]

theorem stringEscape_ne_quote (c : Char) (s t : List Char) :
    (stringEscape c).toList ++ s ≠ '\x22' :: t := by
  intro h
  have hread := unescape_stringEscape c s
  rw [h] at hread
  obtain ⟨rfl, -⟩ : '\x22' = c ∧ t = s := by simpa [unescape] using hread
  cases h

theorem toList_quoted (a : String) (s : List Char) : (quoted a).toList ++ s =
    '\x22' :: (a.toList.flatMap (fun c => (stringEscape c).toList) ++ '\x22' :: s) := by
  simp [quoted, String.toList_join, List.flatMap_map]

/-- Hence a string ends at its closing quote. -/
theorem flatMap_stringEscape_inj : ∀ (cs ds : List Char) {s t : List Char},
    cs.flatMap (fun c => (stringEscape c).toList) ++ '\x22' :: s =
      ds.flatMap (fun c => (stringEscape c).toList) ++ '\x22' :: t → cs = ds ∧ s = t
  | [], [], _, _, h => ⟨rfl, (List.cons.inj h).2⟩
  | [], d :: ds, _, _, h => by
      rw [List.flatMap_cons, List.append_assoc] at h
      exact absurd h.symm (stringEscape_ne_quote d _ _)
  | c :: cs, [], _, _, h => by
      rw [List.flatMap_cons, List.append_assoc] at h
      exact absurd h (stringEscape_ne_quote c _ _)
  | c :: cs, d :: ds, _, _, h => by
      simp only [List.flatMap_cons, List.append_assoc] at h
      -- both sides read back to their first character and what follows it
      have hread := congrArg unescape h
      rw [unescape_stringEscape, unescape_stringEscape] at hread
      obtain ⟨rfl, hrest⟩ := Prod.mk.inj (Option.some.inj hread)
      obtain ⟨rfl, hst⟩ := flatMap_stringEscape_inj cs ds hrest
      exact ⟨rfl, hst⟩

/-- A quoted string ends at its closing quote. -/
theorem quoted_inj {a b : String} {s t : List Char}
    (h : (quoted a).toList ++ s = (quoted b).toList ++ t) : a = b ∧ s = t := by
  rw [toList_quoted, toList_quoted] at h
  obtain ⟨hchars, hst⟩ := flatMap_stringEscape_inj _ _ (List.cons.inj h).2
  exact ⟨String.toList_injective hchars, hst⟩

/-! ### Words -/

/-- The word of a value that is neither string, array nor object. -/
def word? : Json → Option String
  | null       => some "null"
  | bool true  => some "true"
  | bool false => some "false"
  | nat n      => some (Text.decimal n)
  | _          => none

theorem isWord_of_word? {j : Json} {w : String} (h : j.word? = some w) : IsWord w := by
  unfold word? at h
  split at h <;> cases h
  · decide
  · decide
  · decide
  · exact Text.isWord_decimal _

/-- No number is spelled as one of the three names. -/
theorem decimal_ne {n : Nat} {w : String} (h : w.toList.all Char.isDigit = false) :
    Text.decimal n ≠ w := by
  rintro rfl
  have hall : (Text.decimal n).toList.all Char.isDigit = true :=
    List.all_eq_true.mpr fun c hc => Text.isDigit_of_mem_decimal hc
  rw [hall] at h
  cases h

theorem eq_nat_of_word? {j : Json} {n : Nat} (h : j.word? = some (Text.decimal n)) :
    j = .nat n := by
  unfold word? at h
  split at h
  · exact absurd (Option.some.inj h).symm (decimal_ne (by decide))
  · exact absurd (Option.some.inj h).symm (decimal_ne (by decide))
  · exact absurd (Option.some.inj h).symm (decimal_ne (by decide))
  · rw [Text.decimal_inj (Option.some.inj h)]
  · cases h

theorem word?_inj {j k : Json} {w : String} (hj : j.word? = some w) (hk : k.word? = some w) :
    j = k := by
  by_cases hnumber : ∃ n, Text.decimal n = w
  · obtain ⟨n, rfl⟩ := hnumber
    rw [eq_nat_of_word? hj, eq_nat_of_word? hk]
  · -- one of the three names, which are different
    unfold word? at hj hk
    split at hj <;> cases hj <;> split at hk <;> simp_all

/-- The character in front, with `a` for any that words are made of. -/
def lead : Json → Char
  | str _ => '\x22'
  | arr _ => '['
  | obj _ => '\x7b'
  | _     => 'a'

theorem prettyAt_of_word? {j : Json} {w : String} (h : j.word? = some w) (depth : Nat) :
    prettyAt depth j = w := by
  unfold word? at h
  split at h <;> cases h <;> simp [prettyAt]

/-- The first character of a printed value tells its kind. -/
theorem head?_prettyAt {j : Json} (h : j.Plain) (depth : Nat) :
    ∃ c cs, (prettyAt depth j).toList = c :: cs ∧
      (if isWordChar c then 'a' else c) = j.lead := by
  cases j with
  | null => exact ⟨'n', ['u', 'l', 'l'], by simp [prettyAt], by decide⟩
  | bool b =>
      cases b with
      | true => exact ⟨'t', ['r', 'u', 'e'], by simp [prettyAt], by decide⟩
      | false => exact ⟨'f', ['a', 'l', 's', 'e'], by simp [prettyAt], by decide⟩
  | nat n =>
      have hdigits : Nat.toDigits 10 n ≠ [] := Nat.toDigits_ne_nil
      obtain ⟨c, cs, hcs⟩ := List.exists_cons_of_ne_nil hdigits
      have hlist : (Text.decimal n).toList = c :: cs := by
        rw [Text.decimal, String.toList_ofList, hcs]
      have hword := Text.isWord_decimal n c (by simp [hlist])
      exact ⟨c, cs, by rw [prettyAt, hlist], by simp [hword, lead]⟩
  | number s => simp only [Plain] at h
  | str a => exact ⟨'\x22', _, by simp [prettyAt, quoted]; rfl, rfl⟩
  | arr xs => cases xs <;> exact ⟨'[', _, by simp [prettyAt]; rfl, rfl⟩
  | obj ms => cases ms <;> exact ⟨'\x7b', _, by simp [prettyAt]; rfl, rfl⟩

/-- The first character tells the kind of a value. -/
theorem lead_eq {j k : Json} (hj : j.Plain) (hk : k.Plain) {depth : Nat} {s t : List Char}
    (h : (prettyAt depth j).toList ++ s = (prettyAt depth k).toList ++ t) : j.lead = k.lead := by
  obtain ⟨c, cs, hcs, hc⟩ := head?_prettyAt hj depth
  obtain ⟨d, ds, hds, hd⟩ := head?_prettyAt hk depth
  rw [hcs, hds] at h
  rw [← hc, ← hd, (List.cons.inj h).1]

/-- A plain value that starts as a word is one. -/
theorem exists_word? {j : Json} (hj : j.Plain) (h : j.lead = 'a') : ∃ w, j.word? = some w := by
  cases j with
  | null => exact ⟨_, rfl⟩
  | bool b => cases b <;> exact ⟨_, rfl⟩
  | nat n => exact ⟨_, rfl⟩
  | number s => simp only [Plain] at hj
  | str a => exact absurd h (by simp [lead])
  | arr xs => exact absurd h (by simp [lead])
  | obj ms => exact absurd h (by simp [lead])

/-- A value that is written as a word ends where the word ends. -/
theorem prettyAt_inj_of_word? {j k : Json} {w : String} (hw : j.word? = some w)
    (hlead : k.lead = 'a') (hk : k.Plain) {depth : Nat} {s t : List Char} (hs : EndsWord s)
    (ht : EndsWord t) (h : (prettyAt depth j).toList ++ s = (prettyAt depth k).toList ++ t) :
    j = k ∧ s = t := by
  obtain ⟨w', hw'⟩ := exists_word? hk hlead
  rw [prettyAt_of_word? hw, prettyAt_of_word? hw'] at h
  obtain ⟨rfl, hst⟩ := (isWord_of_word? hw).append_inj (isWord_of_word? hw') hs ht h
  exact ⟨word?_inj hw hw', hst⟩

/-! ### Arrays and objects -/

theorem toList_newline (depth : Nat) :
    (newline depth).toList = '\n' :: List.replicate (2 * depth) ' ' := by
  simp [newline]

/-- What follows an item is a comma or a line feed, neither of which extends a word. -/
theorem endsWord_items (depth : Nat) (xs : List Json) (s : List Char) :
    EndsWord ((prettyItems depth xs).toList ++ '\n' :: s) := by
  cases xs <;> simp [prettyItems, EndsWord] <;> decide

/-- Behind a member there is a comma or a line feed, so no word goes on. -/
theorem endsWord_members (depth : Nat) (ms : List (String × Json)) (s : List Char) :
    EndsWord ((prettyMembers depth ms).toList ++ '\n' :: s) := by
  cases ms <;> simp [prettyMembers, EndsWord] <;> decide

/-- The last line of an array or object, past its line feed, and what follows it. -/
def closing (depth : Nat) (bracket : Char) (rest : List Char) : List Char :=
  List.replicate (2 * depth) ' ' ++ bracket :: rest

section Brackets

variable {depth : Nat} {s t : List Char}

/-- Past its bracket an array goes on as items do past a comma. -/
theorem prettyArray_inj {xs ys : List Json}
    (hitems : ∀ {s t : List Char}, (prettyItems (depth + 1) xs).toList ++ '\n' :: s =
      (prettyItems (depth + 1) ys).toList ++ '\n' :: t → xs = ys ∧ s = t)
    (h : (prettyAt depth (.arr xs)).toList ++ s = (prettyAt depth (.arr ys)).toList ++ t) :
    xs = ys ∧ s = t := by
  cases xs with
  | nil =>
      cases ys with
      | nil => simpa [prettyAt] using h
      | cons y ys => simp [prettyAt, toList_newline] at h
  | cons x xs =>
      cases ys with
      | nil => simp [prettyAt, toList_newline] at h
      | cons y ys =>
          -- the text from the bracket on, with a comma in its place
          have hrest : (prettyItems (depth + 1) (x :: xs)).toList ++ '\n' :: closing depth ']' s =
              (prettyItems (depth + 1) (y :: ys)).toList ++ '\n' :: closing depth ']' t := by
            simpa [closing, prettyAt, prettyItems, toList_newline] using h
          obtain ⟨hxs, hend⟩ := hitems hrest
          exact ⟨hxs, by simpa [closing] using hend⟩

theorem prettyObject_inj {ms ns : List (String × Json)}
    (hmembers : ∀ {s t : List Char}, (prettyMembers (depth + 1) ms).toList ++ '\n' :: s =
      (prettyMembers (depth + 1) ns).toList ++ '\n' :: t → ms = ns ∧ s = t)
    (h : (prettyAt depth (.obj ms)).toList ++ s = (prettyAt depth (.obj ns)).toList ++ t) :
    ms = ns ∧ s = t := by
  cases ms with
  | nil =>
      cases ns with
      | nil => simpa [prettyAt] using h
      | cons n ns => simp [prettyAt, toList_newline] at h
  | cons m ms =>
      cases ns with
      | nil => simp [prettyAt, toList_newline] at h
      | cons n ns =>
          -- The first member is one of "the members after the first" once a comma is in front.
          have hrest :
              (prettyMembers (depth + 1) (m :: ms)).toList ++ '\n' :: closing depth '\x7d' s =
                (prettyMembers (depth + 1) (n :: ns)).toList ++ '\n' :: closing depth '\x7d' t := by
            simpa [closing, prettyAt, prettyMembers, toList_newline] using h
          obtain ⟨hms, hend⟩ := hmembers hrest
          exact ⟨hms, by simpa [closing] using hend⟩

end Brackets

mutual

/-- **A plain value is read off the front of a text**, if what follows extends no word. -/
theorem prettyAt_inj (depth : Nat) : ∀ (j k : Json) {s t : List Char}, j.Plain → k.Plain →
    EndsWord s → EndsWord t →
    (prettyAt depth j).toList ++ s = (prettyAt depth k).toList ++ t → j = k ∧ s = t
  | .null, k => fun hj hk hs ht h =>
      prettyAt_inj_of_word? rfl (lead_eq hj hk h).symm hk hs ht h
  | .bool true, k => fun hj hk hs ht h =>
      prettyAt_inj_of_word? rfl (lead_eq hj hk h).symm hk hs ht h
  | .bool false, k => fun hj hk hs ht h =>
      prettyAt_inj_of_word? rfl (lead_eq hj hk h).symm hk hs ht h
  | .nat n, k => fun hj hk hs ht h =>
      prettyAt_inj_of_word? rfl (lead_eq hj hk h).symm hk hs ht h
  | .number _, _ => fun hj => by simp only [Plain] at hj
  | .str a, k => fun hj hk _ _ h => by
      have hlead := lead_eq hj hk h
      cases k with
      | str b =>
          simp only [prettyAt] at h
          obtain ⟨rfl, hst⟩ := quoted_inj h
          exact ⟨rfl, hst⟩
      | _ => exact absurd hlead (by simp [lead])
  | .arr xs, k => fun hj hk _ _ h => by
      have hlead := lead_eq hj hk h
      cases k with
      | arr ys =>
          simp only [Plain] at hj hk
          obtain ⟨rfl, hst⟩ := prettyArray_inj (prettyItems_inj (depth + 1) xs ys hj hk) h
          exact ⟨rfl, hst⟩
      | _ => exact absurd hlead (by simp [lead])
  | .obj ms, k => fun hj hk _ _ h => by
      have hlead := lead_eq hj hk h
      cases k with
      | obj ns =>
          simp only [Plain] at hj hk
          obtain ⟨rfl, hst⟩ := prettyObject_inj (prettyMembers_inj (depth + 1) ms ns hj hk) h
          exact ⟨rfl, hst⟩
      | _ => exact absurd hlead (by simp [lead])

theorem prettyItems_inj (depth : Nat) : ∀ (xs ys : List Json) {s t : List Char},
    PlainItems xs → PlainItems ys →
    (prettyItems depth xs).toList ++ '\n' :: s = (prettyItems depth ys).toList ++ '\n' :: t →
    xs = ys ∧ s = t
  | [], [] => fun _ _ h => by simpa [prettyItems] using h
  | [], _ :: _ => fun _ _ h => by simp [prettyItems] at h
  | _ :: _, [] => fun _ _ h => by simp [prettyItems] at h
  | x :: xs, y :: ys => fun hx hy h => by
      simp only [PlainItems] at hx hy
      simp only [prettyItems, String.toList_append, List.append_assoc,
        List.append_cancel_left_eq] at h
      obtain ⟨rfl, hrest⟩ := prettyAt_inj depth x y hx.1 hy.1 (endsWord_items _ _ _)
        (endsWord_items _ _ _) h
      obtain ⟨rfl, hst⟩ := prettyItems_inj depth xs ys hx.2 hy.2 hrest
      exact ⟨rfl, hst⟩

theorem prettyMember_inj (depth : Nat) : ∀ (m n : String × Json) {s t : List Char},
    PlainMember m → PlainMember n → EndsWord s → EndsWord t →
    (prettyMember depth m).toList ++ s = (prettyMember depth n).toList ++ t → m = n ∧ s = t
  | (a, v), (b, w) => fun hm hn hs ht h => by
      simp only [PlainMember] at hm hn
      simp only [prettyMember, String.toList_append, List.append_assoc] at h
      obtain ⟨rfl, hvalue⟩ := quoted_inj h
      obtain ⟨rfl, hst⟩ := prettyAt_inj depth v w hm hn hs ht (List.append_cancel_left hvalue)
      exact ⟨rfl, hst⟩

theorem prettyMembers_inj (depth : Nat) : ∀ (ms ns : List (String × Json)) {s t : List Char},
    PlainMembers ms → PlainMembers ns →
    (prettyMembers depth ms).toList ++ '\n' :: s = (prettyMembers depth ns).toList ++ '\n' :: t →
    ms = ns ∧ s = t
  | [], [] => fun _ _ h => by simpa [prettyMembers] using h
  | [], _ :: _ => fun _ _ h => by simp [prettyMembers] at h
  | _ :: _, [] => fun _ _ h => by simp [prettyMembers] at h
  | m :: ms, n :: ns => fun hm hn h => by
      simp only [PlainMembers] at hm hn
      simp only [prettyMembers, String.toList_append, List.append_assoc,
        List.append_cancel_left_eq] at h
      obtain ⟨rfl, hrest⟩ := prettyMember_inj depth m n hm.1 hn.1 (endsWord_members _ _ _)
        (endsWord_members _ _ _) h
      obtain ⟨rfl, hst⟩ := prettyMembers_inj depth ms ns hm.2 hn.2 hrest
      exact ⟨rfl, hst⟩

end

/-- **Plain values print to different texts.** -/
theorem pretty_inj {j k : Json} (hj : j.Plain) (hk : k.Plain) (h : j.pretty = k.pretty) :
    j = k := by
  have hlist : (prettyAt 0 j).toList ++ [] = (prettyAt 0 k).toList ++ [] := by
    rw [List.append_nil, List.append_nil]
    exact congrArg String.toList h
  exact (prettyAt_inj 0 j k hj hk (by simp [EndsWord]) (by simp [EndsWord]) hlist).1

end PicBaseline.Json
