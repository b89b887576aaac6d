import PicBaseline.Json.Forms
import PicBaseline.Proofs.Operand.Codec

/-!
# Proofs — what JSON forms are read

A JSON value says what it says by its numbers, names and members; `Operand.Form j x` puts together
what a value has to have to be read as the operand `x`.  The numbers that it gives must be in range,
and nothing that is out of range is brought into range.

* `Register.ofJson_eq_ok`, `BitNumber.ofJson_eq_ok`, `Address.ofJson_eq_ok`: which numbers are read.
* `Operand.ofJson_eq_ok`: a value is read as an operand exactly when it is a form of it.
* `HexRecord.ofJson_toJson`: a record is read back, whatever its address and its bytes are.
* `json_forms_valid_and_lossless`: what is read is valid, and what is written is read back.
-/

namespace PicBaseline

/-! ### Numbers -/

namespace Json

/-- A number is read from its own value only, if it is below the bound. -/
theorem readNat_eq_ok {bound n : Nat} {j : Json} :
    readNat bound j = .ok n ↔ j = .nat n ∧ n < bound := by
  cases j with
  | nat m =>
      by_cases hm : m < bound
      · have hread : readNat bound (.nat m) = .ok m := by simp [readNat, natBelow?, hm]
        rw [hread, Except.ok.injEq, Json.nat.injEq]
        exact ⟨fun h => ⟨h, h ▸ hm⟩, And.left⟩
      · have hread : readNat bound (.nat m) = .error .malformed := by
          simp [readNat, natBelow?, hm]
        rw [hread, Json.nat.injEq]
        refine iff_of_false nofun ?_
        rintro ⟨rfl, hlt⟩
        exact hm hlt
  | null | bool | number | str | arr | obj => simp [readNat, natBelow?]

/-- **A checked number is read as it stands**: the constructor takes the numbers that its values
have, and no value is lost to the bound. -/
theorem readChecked_eq_ok {α : Type} {bound : Nat} {make : Nat → Except OperandError α}
    {number : α → Nat} (hmake : ∀ {n a}, make n = .ok a ↔ number a = n)
    (hbound : ∀ a, number a < bound) {j : Json} {a : α} :
    readChecked bound make j = .ok a ↔ j = .nat (number a) := by
  simp only [readChecked, bind_returns, readNat_eq_ok, mapError_returns, hmake]
  constructor
  · rintro ⟨n, ⟨rfl, -⟩, rfl⟩
    rfl
  · rintro rfl
    exact ⟨number a, ⟨rfl, hbound a⟩, rfl⟩

/-- A number of `k` bits is read as it stands. -/
theorem readBits_eq_ok (k : Nat) {j : Json} {v : BitVec k} :
    (readNat (2 ^ k) j >>= fun n => pure (BitVec.ofNat k n)) = .ok v ↔ j = .nat v.toNat := by
  rw [bind_returns]
  constructor
  · rintro ⟨n, hn, hv⟩
    obtain ⟨rfl, hlt⟩ := readNat_eq_ok.mp hn
    cases hv
    rw [BitVec.toNat_ofNat, Nat.mod_eq_of_lt hlt]
  · rintro rfl
    exact ⟨v.toNat, readNat_eq_ok.mpr ⟨rfl, v.isLt⟩, by simp [pure, Except.pure]⟩

theorem readByte_eq_ok {j : Json} {b : Byte} : readByte j = .ok b ↔ j = .nat b.toNat :=
  readBits_eq_ok 8

theorem readWord_eq_ok {j : Json} {w : Word} : readWord j = .ok w ↔ j = .nat w.toNat :=
  readBits_eq_ok 16

theorem readBytes_map (bytes : List Byte) :
    readBytes (.arr (bytes.map (.nat ·.toNat))) = .ok bytes := by
  rw [readBytes]
  induction bytes with
  | nil => rfl
  | cons b bytes ih =>
      rw [List.map_cons, List.mapM_cons, bind_returns]
      refine ⟨b, readByte_eq_ok.mpr rfl, ?_⟩
      exact bind_returns.mpr ⟨bytes, ih, rfl⟩

/-! ### Members -/

/-- A member that must be there is read from the value of that name. -/
theorem readMember_eq_some {α : Type} {name : String} {read : Json → Except FormError α}
    {ms : List (String × Json)} {a : α} :
    readMember name read ms = .ok (some a) ↔ ∃ j, ms.lookup name = some j ∧ read j = .ok a := by
  rw [readMember]
  cases ms.lookup name with
  | none => simp
  | some j => cases hread : read j <;> simp [Except.map, hread]

theorem require_eq_ok {α : Type} {o : Option α} {a : α} : require o = .ok a ↔ o = some a := by
  cases o <;> simp [require]

end Json

open Json (readByte readBytes readMember readWord readMember_eq_some require_eq_ok)

theorem ofBelow_eq_ok {ε : Type} {k n : Nat} {e : ε} {b : Fin k} :
    (if h : n < k then Except.ok (⟨n, h⟩ : Fin k) else .error e) = .ok b ↔ b.val = n := by
  by_cases hn : n < k
  · rw [dif_pos hn, Except.ok.injEq, Fin.ext_iff]
    exact eq_comm
  · rw [dif_neg hn]
    refine iff_of_false nofun ?_
    rintro rfl
    exact hn b.isLt

theorem Register.ofJson_eq_ok {j : Json} {r : Register} :
    Register.ofJson j = .ok r ↔ j = .nat r.number :=
  Json.readChecked_eq_ok Register.ofNumber_eq_ok fun r => by
    have := r.implemented
    omega

theorem BitNumber.ofJson_eq_ok {j : Json} {b : BitNumber} :
    BitNumber.ofJson j = .ok b ↔ j = .nat b.val :=
  Json.readChecked_eq_ok ofBelow_eq_ok fun b => Nat.lt_trans b.isLt (by decide)

theorem Address.ofJson_eq_ok {j : Json} {a : Address} :
    Address.ofJson j = .ok a ↔ j = .nat a.val :=
  Json.readChecked_eq_ok ofBelow_eq_ok fun a => Nat.lt_trans a.isLt (by decide)

/-! ### Names -/

/-- A name may stand alone or with an empty payload. -/
theorem Destination.ofJson_eq_ok {j : Json} {d : Destination} :
    Destination.ofJson j = .ok d ↔ j.tagged? = d.toJson.tagged? := by
  unfold Destination.ofJson
  constructor
  · intro h
    split at h
    · cases h; assumption
    · cases h; assumption
    · cases h
  · intro h
    rw [h]
    cases d <;> rfl

/-- A selector is read from its name, in both spellings of a tag. -/
theorem TrisSelector.ofJson_eq_ok {j : Json} {s : TrisSelector} :
    TrisSelector.ofJson j = .ok s ↔ j.tagged? = s.toJson.tagged? := by
  unfold TrisSelector.ofJson
  constructor
  · intro h
    split at h
    · cases h; assumption
    · cases h; assumption
    · cases h
  · intro h
    rw [h]
    cases s <;> rfl

/-! ### Operands -/

namespace Operand

/-- The value `j` is a form of an operand: it is tagged with the shape, and the payload has the
members of the shape, with numbers in range.  Members of other names do not matter. -/
inductive Form (j : Json) : Operand → Prop where
  | noOperands (tag : j.tagged? = some ("NoOperands", .null)) : Form j .noOperands
  | file {ms : List (String × Json)} {n : Nat} (tag : j.tagged? = some ("File", .obj ms))
      (register : ms.lookup "register" = some (.nat n)) (range : n < 8 ∨ 16 ≤ n ∧ n < 32) :
      Form j (.file ⟨n, range⟩)
  | fileAndDestination {ms : List (String × Json)} {n : Nat} {k : Json} {d : Destination}
      (tag : j.tagged? = some ("FileAndDestination", .obj ms))
      (register : ms.lookup "register" = some (.nat n)) (range : n < 8 ∨ 16 ≤ n ∧ n < 32)
      (destination : ms.lookup "destination" = some k) (name : k.tagged? = d.toJson.tagged?) :
      Form j (.fileAndDestination ⟨n, range⟩ d)
  | fileAndBit {ms : List (String × Json)} {n b : Nat}
      (tag : j.tagged? = some ("FileAndBitNumber", .obj ms))
      (register : ms.lookup "register" = some (.nat n)) (range : n < 8 ∨ 16 ≤ n ∧ n < 32)
      (bit : ms.lookup "bit" = some (.nat b)) (below : b < 8) :
      Form j (.fileAndBit ⟨n, range⟩ ⟨b, below⟩)
  | literal {ms : List (String × Json)} {v : Byte} (tag : j.tagged? = some ("Literal", .obj ms))
      (value : ms.lookup "value" = some (.nat v.toNat)) : Form j (.literal v)
  | goto {ms : List (String × Json)} {a : Nat} (tag : j.tagged? = some ("Goto", .obj ms))
      (address : ms.lookup "address" = some (.nat a)) (most : a < 0x200) :
      Form j (.goto ⟨a, most⟩)
  | tris {ms : List (String × Json)} {k : Json} {s : TrisSelector}
      (tag : j.tagged? = some ("Tris", .obj ms))
      (selector : ms.lookup "selector" = some k) (name : k.tagged? = s.toJson.tagged?) :
      Form j (.tris s)

/-- Only a form of an operand is read. -/
theorem form_of_ofJson {j : Json} {x : Operand} (h : ofJson j = .ok x) : Form j x := by
  unfold ofJson at h
  -- One case for each tag; the members come in the order in which they are read.
  split at h
  · rename_i htag
    cases h
    exact .noOperands htag
  · rename_i ms htag
    simp only [bind_returns, require_eq_ok] at h
    obtain ⟨_, hr, r, rfl, hx⟩ := h
    obtain ⟨_, hr, hread⟩ := readMember_eq_some.mp hr
    obtain rfl := Register.ofJson_eq_ok.mp hread
    cases hx
    exact .file htag hr r.implemented
  · rename_i ms htag
    simp only [bind_returns, require_eq_ok] at h
    obtain ⟨_, hd, _, hr, r, rfl, d, rfl, hx⟩ := h
    obtain ⟨_, hr, hread⟩ := readMember_eq_some.mp hr
    obtain ⟨k, hd, hname⟩ := readMember_eq_some.mp hd
    obtain rfl := Register.ofJson_eq_ok.mp hread
    cases hx
    exact .fileAndDestination htag hr r.implemented hd (Destination.ofJson_eq_ok.mp hname)
  · rename_i ms htag
    simp only [bind_returns, require_eq_ok] at h
    obtain ⟨_, hb, _, hr, r, rfl, b, rfl, hx⟩ := h
    obtain ⟨_, hr, hread⟩ := readMember_eq_some.mp hr
    obtain ⟨_, hb, hbit⟩ := readMember_eq_some.mp hb
    obtain rfl := Register.ofJson_eq_ok.mp hread
    obtain rfl := BitNumber.ofJson_eq_ok.mp hbit
    cases hx
    exact .fileAndBit htag hr r.implemented hb b.isLt
  · rename_i ms htag
    simp only [bind_returns, require_eq_ok] at h
    obtain ⟨_, hv, v, rfl, hx⟩ := h
    obtain ⟨_, hv, hread⟩ := readMember_eq_some.mp hv
    obtain rfl := Json.readByte_eq_ok.mp hread
    cases hx
    exact .literal htag hv
  · rename_i ms htag
    simp only [bind_returns, require_eq_ok] at h
    obtain ⟨_, ha, a, rfl, hx⟩ := h
    obtain ⟨_, ha, hread⟩ := readMember_eq_some.mp ha
    obtain rfl := Address.ofJson_eq_ok.mp hread
    cases hx
    exact .goto htag ha a.isLt
  · rename_i ms htag
    simp only [bind_returns, require_eq_ok] at h
    obtain ⟨_, hs, s, rfl, hx⟩ := h
    obtain ⟨k, hs, hname⟩ := readMember_eq_some.mp hs
    cases hx
    exact .tris htag hs (TrisSelector.ofJson_eq_ok.mp hname)
  · cases h

theorem readMember_register {ms : List (String × Json)} {r : Register}
    (h : ms.lookup "register" = some (.nat r.number)) :
    readMember "register" Register.ofJson ms = .ok (some r) :=
  readMember_eq_some.mpr ⟨_, h, Register.ofJson_eq_ok.mpr rfl⟩

/-- Every form of an operand is read. -/
theorem Form.ofJson_eq {j : Json} {x : Operand} (h : Form j x) : ofJson j = .ok x := by
  unfold ofJson
  cases h with
  | noOperands htag =>
      rw [htag]
      rfl
  | @file ms n htag hr hrange =>
      have hr : readMember "register" Register.ofJson ms = .ok (some ⟨n, hrange⟩) :=
        readMember_register hr
      rw [htag]
      exact bind_returns.mpr ⟨_, hr, rfl⟩
  | @fileAndDestination ms n k d htag hr hrange hd hname =>
      have hr : readMember "register" Register.ofJson ms = .ok (some ⟨n, hrange⟩) :=
        readMember_register hr
      have hd : readMember "destination" Destination.ofJson ms = .ok (some d) :=
        readMember_eq_some.mpr ⟨k, hd, Destination.ofJson_eq_ok.mpr hname⟩
      rw [htag]
      exact bind_returns.mpr ⟨_, hd, bind_returns.mpr ⟨_, hr, rfl⟩⟩
  | @fileAndBit ms n b htag hr hrange hb hbelow =>
      have hr : readMember "register" Register.ofJson ms = .ok (some ⟨n, hrange⟩) :=
        readMember_register hr
      have hb : readMember "bit" BitNumber.ofJson ms = .ok (some ⟨b, hbelow⟩) :=
        readMember_eq_some.mpr ⟨_, hb, BitNumber.ofJson_eq_ok.mpr rfl⟩
      rw [htag]
      exact bind_returns.mpr ⟨_, hb, bind_returns.mpr ⟨_, hr, rfl⟩⟩
  | @literal ms v htag hv =>
      have hv : readMember "value" readByte ms = .ok (some v) :=
        readMember_eq_some.mpr ⟨_, hv, Json.readByte_eq_ok.mpr rfl⟩
      rw [htag]
      exact bind_returns.mpr ⟨_, hv, rfl⟩
  | @goto ms a htag ha hmost =>
      have ha : readMember "address" Address.ofJson ms = .ok (some ⟨a, hmost⟩) :=
        readMember_eq_some.mpr ⟨_, ha, Address.ofJson_eq_ok.mpr rfl⟩
      rw [htag]
      exact bind_returns.mpr ⟨_, ha, rfl⟩
  | @tris ms k s htag hs hname =>
      have hs : readMember "selector" TrisSelector.ofJson ms = .ok (some s) :=
        readMember_eq_some.mpr ⟨k, hs, TrisSelector.ofJson_eq_ok.mpr hname⟩
      rw [htag]
      exact bind_returns.mpr ⟨_, hs, rfl⟩

/-- **A value is read as an operand exactly when it is a form of it.** -/
theorem ofJson_eq_ok {j : Json} {x : Operand} : ofJson j = .ok x ↔ Form j x :=
  ⟨form_of_ofJson, Form.ofJson_eq⟩

/-- An operand is written in a form of it. -/
theorem form_toJson (x : Operand) : Form x.toJson x := by
  cases x with
  | noOperands => exact .noOperands rfl
  | file r => exact .file rfl rfl r.implemented
  | fileAndDestination r d => exact .fileAndDestination rfl rfl r.implemented rfl rfl
  | fileAndBit r b => exact .fileAndBit rfl rfl r.implemented rfl b.isLt
  | literal v => exact .literal rfl rfl
  | goto a => exact .goto rfl rfl a.isLt
  | tris s => exact .tris rfl rfl rfl

end Operand

/-! ### HEX records -/

/-- A record is read back, whatever its address and its bytes are. -/
theorem HexRecord.ofJson_toJson (r : HexRecord) : HexRecord.ofJson r.toJson = .ok r := by
  cases r with
  | data address bytes =>
      have haddress : readMember "address" readWord
          [("address", .nat address.toNat), ("bytes", .arr (bytes.map (.nat ·.toNat)))] =
            .ok (some address) :=
        readMember_eq_some.mpr ⟨_, rfl, Json.readWord_eq_ok.mpr rfl⟩
      have hbytes : readMember "bytes" readBytes
          [("address", .nat address.toNat), ("bytes", .arr (bytes.map (.nat ·.toNat)))] =
            .ok (some bytes) :=
        readMember_eq_some.mpr ⟨_, rfl, Json.readBytes_map bytes⟩
      exact bind_returns.mpr ⟨_, haddress, bind_returns.mpr ⟨_, hbytes, rfl⟩⟩
  | extendedLinearAddress u =>
      show (readWord (.nat u.toNat)).map _ = _
      rw [Json.readWord_eq_ok.mpr rfl]
      rfl
  | endOfFile | startSegmentAddress | extendedSegmentAddress | startLinearAddress => rfl

/-! ### What is read is valid, and what is written is read back -/

namespace Operand

/-- The registers, bit numbers and addresses that an operand has. -/
def registers : Operand → List Register
  | file r | fileAndDestination r _ | fileAndBit r _ => [r]
  | tris s                                           => [s.register]
  | noOperands | literal _ | goto _                  => []

/-- The bit numbers in the operands. -/
def bitNumbers : Operand → List BitNumber
  | fileAndBit _ b => [b]
  | _              => []

/-- The branch addresses in the operands. -/
def addresses : Operand → List Address
  | goto a => [a]
  | _      => []

end Operand

/-- **JSON brings in no invalid value, and loses none.**  A register, bit number or address is read
from the number it has, which is in range.  An operand is read from its forms and from nothing else,
so from numbers in range, and it survives encoding.  Every one of them is read back from what is
written for it, and so is every HEX record. -/
theorem json_forms_valid_and_lossless :
    (∀ j r, Register.ofJson j = .ok r →
      j = .nat r.number ∧ (r.number ≤ 7 ∨ 16 ≤ r.number ∧ r.number ≤ 31)) ∧
    (∀ j b, BitNumber.ofJson j = .ok b → j = .nat b.val ∧ b.val < 8) ∧
    (∀ j a, Address.ofJson j = .ok a → j = .nat a.val ∧ a.val ≤ 0x1FF) ∧
    (∀ j x, Operand.ofJson j = .ok x ↔ Operand.Form j x) ∧
    (∀ j x, Operand.ofJson j = .ok x →
      (∀ r ∈ x.registers, r.number ≤ 7 ∨ 16 ≤ r.number ∧ r.number ≤ 31) ∧
      (∀ b ∈ x.bitNumbers, b.val < 8) ∧
      (∀ a ∈ x.addresses, a.val ≤ 0x1FF) ∧
      Operand.decode x.shape x.encode = .ok x) ∧
    (∀ r : Register, Register.ofJson r.toJson = .ok r) ∧
    (∀ b : BitNumber, BitNumber.ofJson (BitNumber.toJson b) = .ok b) ∧
    (∀ a : Address, Address.ofJson (Address.toJson a) = .ok a) ∧
    (∀ x : Operand, Operand.ofJson x.toJson = .ok x) ∧
    ∀ r : HexRecord, HexRecord.ofJson r.toJson = .ok r := by
  have hregister : ∀ r : Register, r.number ≤ 7 ∨ 16 ≤ r.number ∧ r.number ≤ 31 := by
    intro r
    have := r.implemented
    omega
  have haddress : ∀ a : Address, a.val ≤ 0x1FF := fun a => Nat.le_of_lt_succ a.isLt
  refine ⟨?_, ?_, ?_, ?_, ?_, ?_, ?_, ?_, ?_, HexRecord.ofJson_toJson⟩
  · intro j r h
    exact ⟨Register.ofJson_eq_ok.mp h, hregister r⟩
  · intro j b h
    exact ⟨BitNumber.ofJson_eq_ok.mp h, b.isLt⟩
  · intro j a h
    exact ⟨Address.ofJson_eq_ok.mp h, haddress a⟩
  · exact fun j x => Operand.ofJson_eq_ok
  · intro j x _
    exact ⟨fun r _ => hregister r, fun b _ => b.isLt, fun a _ => haddress a,
      Operand.decode_encode x⟩
  · exact fun r => Register.ofJson_eq_ok.mpr rfl
  · exact fun b => BitNumber.ofJson_eq_ok.mpr rfl
  · exact fun a => Address.ofJson_eq_ok.mpr rfl
  · exact fun x => (Operand.form_toJson x).ofJson_eq

/-- A bit of the last register, with its members turned round and one more between them; the first
reserved register, which is read as no register; and the last address. -/
theorem json_forms_valid_and_lossless_last_register :
    let bit : Operand := .fileAndBit ⟨31, by decide⟩ 7
    let j : Json := .tagged "FileAndBitNumber"
      (.obj [("bit", .nat 7), ("note", .null), ("register", .nat 31)])
    (Operand.ofJson j = .ok bit ∧ Operand.decode bit.shape bit.encode = .ok bit) ∧
    (∀ r, Register.ofJson (.nat 8) ≠ .ok r) ∧
    (Address.ofJson (.nat 0x1FF) = .ok 0x1FF ∧ (0x1FF : Address).val ≤ 0x1FF) ∧
    HexRecord.ofJson (HexRecord.data 0xFFFF#16 [0xFF#8, 0x00#8]).toJson =
      .ok (.data 0xFFFF#16 [0xFF#8, 0x00#8]) := by
  intro bit j
  obtain ⟨hregister, -, haddress, hform, hoperand, -, -, -, -, hrecord⟩ :=
    json_forms_valid_and_lossless
  have hbit : Operand.ofJson j = .ok bit :=
    (hform j bit).mpr (.fileAndBit rfl rfl (by decide) rfl (by decide))
  refine ⟨⟨hbit, (hoperand j bit hbit).2.2.2⟩, ?_, ⟨rfl, (haddress (.nat 0x1FF) _ rfl).2⟩,
    hrecord _⟩
  intro r hr
  obtain ⟨hnumber, hrange⟩ := hregister _ r hr
  have hnumber : 8 = r.number := Json.nat.inj hnumber
  omega

end PicBaseline
