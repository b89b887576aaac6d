import PicBaseline.Operand.Representation
import PicBaseline.Proofs.Field
import PicBaseline.Proofs.Prelude

/-!
# Proofs — operands and their bits

The fields of a shape tile its low `width` bits (`Shape.fields_le`, `Shape.fields_cover`), so the
layout of a shape and the fields of its codec speak of the same bits.  From this:

* `decode_and`: decoding sees the operand bits and no other bit.
* `encode_of_decode`: what decodes encodes to the operand bits it came from.
* `decode_encode`: every operand survives encoding.
-/

namespace PicBaseline

/-! ### Numbers of registers, destinations and selectors -/

/-- A number is taken for the register that has it. -/
theorem Register.ofNumber_eq_ok {n : Nat} {r : Register} :
    Register.ofNumber n = .ok r ↔ r.number = n := by
  unfold Register.ofNumber
  constructor
  · intro h
    split at h
    · cases h; rfl
    · cases h
  · rintro rfl
    exact dif_pos r.implemented

theorem TrisSelector.ofNumber_eq_ok {n : Nat} {s : TrisSelector} :
    TrisSelector.ofNumber n = .ok s ↔ s.register.number = n := by
  constructor
  · intro h
    unfold TrisSelector.ofNumber at h
    split at h
    · cases h; rfl
    · cases h; rfl
    · cases h
  · rintro rfl
    cases s <;> rfl

theorem Destination.encode_decode {bits : Word} (h : bits.toNat < 2) :
    (Destination.decode bits).encode = bits := by
  obtain rfl | rfl : bits = 0#16 ∨ bits = 1#16 := by bv_omega
  · rfl
  · rfl

theorem Destination.decode_encode (d : Destination) : Destination.decode d.encode = d := by
  cases d <;> rfl

theorem ofNat_mod_toNat {w : Word} {n : Nat} (h : w.toNat < n) :
    BitVec.ofNat 16 (w.toNat % n) = w := by
  rw [Nat.mod_eq_of_lt h, BitVec.ofNat_toNat, BitVec.setWidth_eq]

/-! ### The bits of a shape -/

namespace Shape

/-- Ones at the operand bits of the shape. -/
def mask (s : Shape) : Word :=
  BitVec.ofNat 16 (2 ^ s.width - 1)

/-- Every shape leaves a bit to the opcode. -/
theorem width_lt (s : Shape) : s.width < wordBits := by
  cases s <;> decide

@[simp] theorem getLsbD_mask (s : Shape) (i : Nat) : s.mask.getLsbD i = decide (i < s.width) := by
  have hw : s.width < 12 := s.width_lt
  rw [mask, BitVec.getLsbD_ofNat, Nat.testBit_two_pow_sub_one]
  grind

/-- The fields that the codec of a shape reads and writes. -/
def fields : Shape → List Field
  | noOperands         => []
  | file               => [.register]
  | fileAndDestination => [.register, .destination]
  | fileAndBit         => [.register, .bitNumber]
  | literal            => [.literal]
  | goto               => [.address]
  | tris               => [.tris]

/-- The fields of a shape lie in its operand bits. -/
theorem fields_le (s : Shape) : ∀ f ∈ s.fields, f.hi ≤ s.width := by
  cases s <;> decide

/-- Together they are the operand bits. -/
theorem fields_cover (s : Shape) : s.fields.foldl (fun m f => m ||| f.mask) 0#16 = s.mask := by
  cases s <;> decide

end Shape

namespace Operand

/-! ### Decoding reads its fields -/

/-- **Decoding looks at the fields of its shape only.** -/
theorem decode_congr {s : Shape} {w w' : Word} (h : ∀ f ∈ s.fields, f.extract w = f.extract w') :
    decode s w = decode s w' := by
  cases s <;> simp_all [decode, decodeRegister, Shape.fields]

/-- Bits that are no operand bits may be cleared. -/
theorem decode_and {s : Shape} {m : Word} (h : ∀ i < s.width, m.getLsbD i) (w : Word) :
    decode s (w &&& m) = decode s w :=
  decode_congr fun f hf =>
    Field.extract_and (fun i _ hi => h i (Nat.lt_of_lt_of_le hi (s.fields_le f hf))) w

/-! ### Decoding, then encoding -/

/-- The register that decodes from a word fills the register field as the word does. -/
theorem registerBits_of_decode {w : Word} {r : Register} (h : decodeRegister w = .ok r) :
    registerBits r = w &&& Field.register.mask := by
  have hr : BitVec.ofNat 16 r.number = Field.register.extract w := by
    rw [Register.ofNumber_eq_ok.mp h, BitVec.ofNat_toNat, BitVec.setWidth_eq]
  rw [registerBits, hr, Field.insert_zero_extract]

/-- **Encoding gives back the operand bits** of a word that decodes. -/
theorem encode_of_decode {s : Shape} {w : Word} {x : Operand} (h : decode s w = .ok x) :
    x.shape = s ∧ x.encode = w &&& s.mask := by
  -- The mask as the union of the fields: each field of the encoding is that of the word.
  rw [← s.fields_cover]
  cases s with
  | noOperands => cases h; simp [shape, encode, Shape.fields]
  | file =>
      obtain ⟨r, hr, h⟩ := bind_returns.mp h
      cases h
      simp [shape, encode, Shape.fields, registerBits_of_decode hr]
  | fileAndDestination =>
      obtain ⟨r, hr, h⟩ := bind_returns.mp h
      cases h
      have hd := Destination.encode_decode (Field.destination.toNat_extract_lt w)
      refine ⟨rfl, ?_⟩
      rw [encode, registerBits_of_decode hr, hd, Field.insert_and_extract]
      simp [Shape.fields]
  | fileAndBit =>
      obtain ⟨r, hr, h⟩ := bind_returns.mp h
      cases h
      have hb : BitVec.ofNat 16 (Fin.ofNat 8 (Field.bitNumber.extract w).toNat).val =
          Field.bitNumber.extract w := ofNat_mod_toNat (Field.bitNumber.toNat_extract_lt w)
      refine ⟨rfl, ?_⟩
      rw [encode, registerBits_of_decode hr, hb, Field.insert_and_extract]
      simp [Shape.fields]
  | literal =>
      cases h
      have hlt : (Field.literal.extract w).toNat < 2 ^ 8 := Field.literal.toNat_extract_lt w
      have hv : ((Field.literal.extract w).setWidth 8).setWidth 16 = Field.literal.extract w := by
        bv_omega
      refine ⟨rfl, ?_⟩
      rw [encode, hv, Field.insert_zero_extract]
      simp [Shape.fields]
  | goto =>
      cases h
      have ha : BitVec.ofNat 16 (Fin.ofNat (addressMax + 1) (Field.address.extract w).toNat).val =
          Field.address.extract w := ofNat_mod_toNat (Field.address.toNat_extract_lt w)
      refine ⟨rfl, ?_⟩
      rw [encode, ha, Field.insert_zero_extract]
      simp [Shape.fields]
  | tris =>
      obtain ⟨t, ht, h⟩ := bind_returns.mp h
      cases h
      have hn : BitVec.ofNat 16 t.register.number = Field.tris.extract w := by
        rw [TrisSelector.ofNumber_eq_ok.mp ht, BitVec.ofNat_toNat, BitVec.setWidth_eq]
      refine ⟨rfl, ?_⟩
      rw [encode, hn, Field.insert_zero_extract]
      simp [Shape.fields]

/-! ### Encoding, then decoding -/

theorem decodeRegister_registerBits (r : Register) : decodeRegister (registerBits r) = .ok r := by
  have hr : r.number < 2 ^ (Field.register.hi - Field.register.lo) := by
    have := r.implemented
    simp only [Field.register]
    omega
  rw [decodeRegister, Register.ofNumber_eq_ok, registerBits,
    Field.toNat_extract_insert_ofNat _ _ hr]

/-- A field above the register leaves the register alone. -/
theorem decodeRegister_insert {f : Field} (h : Field.register.hi ≤ f.lo) (r : Register) (v : Word) :
    decodeRegister (f.insert (registerBits r) v) = .ok r := by
  rw [decodeRegister, Field.extract_insert_of_disjoint (Or.inl h)]
  exact decodeRegister_registerBits r

/-- **Decoding gives back the operand**, whatever it is. -/
theorem decode_encode (x : Operand) : decode x.shape x.encode = .ok x := by
  -- The register is decoded first, so the field written above it must leave it alone.
  cases x with
  | noOperands => rfl
  | file r => exact bind_returns.mpr ⟨r, decodeRegister_registerBits r, rfl⟩
  | fileAndDestination r d =>
      refine bind_returns.mpr ⟨r, decodeRegister_insert (by decide) r _, ?_⟩
      have hd : Field.destination.extract (encode (.fileAndDestination r d)) = d.encode := by
        refine BitVec.eq_of_toNat_eq ((Field.toNat_extract_insert _ _ _).trans ?_)
        cases d <;> rfl
      rw [hd, Destination.decode_encode]
      rfl
  | fileAndBit r b =>
      refine bind_returns.mpr ⟨r, decodeRegister_insert (by decide) r _, ?_⟩
      have hb : (Field.bitNumber.extract (encode (.fileAndBit r b))).toNat = b.val :=
        Field.toNat_extract_insert_ofNat _ _ b.isLt
      rw [hb, Fin.ofNat_val_eq_self]
      rfl
  | literal v =>
      have hv : (Field.literal.extract (encode (.literal v))).setWidth 8 = v := by
        have := Field.literal.toNat_extract_insert 0#16 (v.setWidth 16)
        simp only [Field.literal, encode] at this ⊢
        bv_omega
      rw [shape, decode, hv]
  | goto a =>
      have ha : (Field.address.extract (encode (.goto a))).toNat = a.val :=
        Field.toNat_extract_insert_ofNat _ _ a.isLt
      rw [shape, decode, ha, Fin.ofNat_val_eq_self]
  | tris s => cases s <;> rfl

/-- An encoding has operand bits only. -/
theorem getLsbD_encode {x : Operand} {i : Nat} (h : x.encode.getLsbD i) : i < x.shape.width := by
  rw [(encode_of_decode (decode_encode x)).2, BitVec.getLsbD_and, Shape.getLsbD_mask,
    Bool.and_eq_true, decide_eq_true_eq] at h
  exact h.2

end Operand

end PicBaseline
