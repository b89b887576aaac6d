import PicBaseline.Json.Forms
import PicBaseline.Proofs.Assembly.Fidelity
import PicBaseline.Proofs.Json.Pretty
import PicBaseline.Proofs.Program.Listing

/-!
# Proofs — renderings lose nothing

A program is shown as a listing and written as JSON.  The JSON form of an instruction has its
mnemonic and its operands, which for an entry of the instruction set is all of it
(`Program.toJson_inj`); and the form has no number kept by its spelling, so its printed text shows
it (`Program.plain_toJson`).

Assembly takes instructions from its decoder only.  Where these are instructions of the set, equal
renderings come from equal programs (`assembled_renderings_lossless`).
-/

namespace PicBaseline

open Json (tagged)

/-! ### JSON forms of operands and instructions -/

theorem Destination.toJson_inj {d d' : Destination} (h : d.toJson = d'.toJson) : d = d' := by
  cases d <;> cases d' <;> simp_all [toJson]

theorem TrisSelector.toJson_inj {s s' : TrisSelector} (h : s.toJson = s'.toJson) : s = s' := by
  cases s <;> cases s' <;> simp_all [toJson]

namespace Operand

/-- The tag of an operand form is its shape, so forms of different shapes differ. -/
theorem toJson_inj {x y : Operand} (h : x.toJson = y.toJson) : x = y := by
  cases x with
  | noOperands =>
      cases y with
      | noOperands => rfl
      | _ => simp [toJson, tagged] at h
  | file r =>
      cases y with
      | file r' =>
          obtain hr : r.number = r'.number := by simpa [toJson, tagged, Register.toJson] using h
          rw [Register.ext hr]
      | _ => simp [toJson, tagged] at h
  | fileAndDestination r d =>
      cases y with
      | fileAndDestination r' d' =>
          obtain ⟨hr, hd⟩ : r.number = r'.number ∧ d.toJson = d'.toJson := by
            simpa [toJson, tagged, Register.toJson] using h
          rw [Register.ext hr, Destination.toJson_inj hd]
      | _ => simp [toJson, tagged] at h
  | fileAndBit r b =>
      cases y with
      | fileAndBit r' b' =>
          obtain ⟨hr, hb⟩ : r.number = r'.number ∧ b.val = b'.val := by
            simpa [toJson, tagged, Register.toJson, BitNumber.toJson] using h
          rw [Register.ext hr, Fin.ext hb]
      | _ => simp [toJson, tagged] at h
  | literal v =>
      cases y with
      | literal v' =>
          have hv : v.toNat = v'.toNat := by simpa [toJson, tagged] using h
          rw [BitVec.eq_of_toNat_eq hv]
      | _ => simp [toJson, tagged] at h
  | goto a =>
      cases y with
      | goto a' =>
          have ha : a.val = a'.val := by simpa [toJson, tagged, Address.toJson] using h
          rw [Fin.ext ha]
      | _ => simp [toJson, tagged] at h
  | tris s =>
      cases y with
      | tris s' =>
          have hs : s.toJson = s'.toJson := by simpa [toJson, tagged] using h
          rw [TrisSelector.toJson_inj hs]
      | _ => simp [toJson, tagged] at h

end Operand

/-- The mnemonic stands for the entry, and the operands are told apart by their form. -/
theorem Instruction.toJson_inj {i j : Instruction} (hi : i.Listed) (hj : j.Listed)
    (h : i.toJson = j.toJson) : i = j := by
  obtain ⟨hname, hoperands⟩ : i.opcode.name = j.opcode.name ∧
      i.operands.toJson = j.operands.toJson := by
    simpa [toJson] using h
  exact Instruction.ext (Opcode.name_inj hi.mem hj.mem hname) (Operand.toJson_inj hoperands)

theorem Record.toJson_inj {r r' : Record} (hr : r.Listed) (hr' : r'.Listed)
    (h : r.toJson = r'.toJson) : r = r' := by
  cases r with
  | config w =>
      cases r' with
      | config w' =>
          have hw : w.toNat = w'.toNat := by simpa [toJson, tagged] using h
          rw [BitVec.eq_of_toNat_eq hw]
      | statement s' => simp [toJson, tagged] at h
  | statement s =>
      cases r' with
      | config w' => simp [toJson, tagged] at h
      | statement s' =>
          obtain ⟨a, i⟩ := s
          obtain ⟨a', i'⟩ := s'
          obtain ⟨ha, hi⟩ : a.toNat = a'.toNat ∧ i.toJson = i'.toJson := by
            simpa [toJson, tagged, Statement.toJson] using h
          obtain rfl : a = a' := BitVec.eq_of_toNat_eq ha
          obtain rfl : i = i' := Instruction.toJson_inj (hr _ rfl) (hr' _ rfl) hi
          rfl

/-! ### JSON forms of programs -/

theorem Operand.plain_toJson (x : Operand) : x.toJson.Plain := by
  cases x with
  | fileAndDestination r d =>
      cases d <;> simp [toJson, tagged, Register.toJson, Destination.toJson, Json.Plain,
        Json.PlainMembers, Json.PlainMember]
  | tris s =>
      cases s <;> simp [toJson, tagged, TrisSelector.toJson, Json.Plain, Json.PlainMembers,
        Json.PlainMember]
  | _ =>
      simp [toJson, tagged, Register.toJson, BitNumber.toJson, Address.toJson, Json.Plain,
        Json.PlainMembers, Json.PlainMember]

theorem Record.plain_toJson (r : Record) : r.toJson.Plain := by
  cases r <;> simp [toJson, Statement.toJson, Instruction.toJson, tagged, Json.Plain,
    Json.PlainMembers, Json.PlainMember, Operand.plain_toJson]

namespace Program

/-- **The form of a program is plain**, so its text can be told from any other. -/
theorem plain_toJson (p : Program) : p.toJson.Plain := by
  have hitems : Json.PlainItems (p.records.map Record.toJson) :=
    Json.plainItems_iff.mpr (List.forall_mem_map.mpr fun r _ => r.plain_toJson)
  simp [toJson, Json.Plain, Json.PlainMembers, Json.PlainMember, hitems]

/-- **Programs of one JSON form are one program.** -/
theorem toJson_inj {p q : Program} (hp : p.Listed) (hq : q.Listed) (h : p.toJson = q.toJson) :
    p = q := by
  have hforms : p.records.map Record.toJson = q.records.map Record.toJson := by
    simpa [toJson] using h
  exact Program.ext (map_inj_of_forall Record.toJson_inj hp hq hforms)

end Program

/-! ### Programs of the instruction set -/

/-- Every instruction it gives is what some word decodes to in the instruction set. -/
def DrawsOnSet (D : Decoder) : Prop :=
  ∀ w i, D w = .ok i → ∃ v, Instruction.decode v = .ok i

/-- A decoder that draws on the instruction set makes programs of listed records. -/
theorem listed_of_assembleWith {D : Decoder} (hD : DrawsOnSet D) {rs : List HexRecord}
    {p : Program} (h : assembleWith D rs = .ok p) : p.Listed := by
  obtain ⟨-, -, hrec⟩ := assembleWith_eq_ok.mp h
  intro r hr s hs
  obtain rfl : r = .statement s := by
    cases r with
    | config w => cases hs
    | statement s' => cases hs; rfl
  rw [hrec] at hr
  obtain ⟨source, -, hsource⟩ := List.mem_flatMap.mp hr
  obtain ⟨w, hw⟩ := decoded_of_mem_yield hsource
  obtain ⟨v, hv⟩ := hD w _ hw
  exact Instruction.listed_of_decode hv

/-- **Renderings lose nothing.**  Programs that are assembled by decoders of the instruction set,
not the same one needed, are equal as soon as their listings are, or their JSON forms, or the
printed texts of these.  A listing has a line for the number of statements and then, in order, one
line for each record. -/
theorem assembled_renderings_lossless {D E : Decoder} (hD : DrawsOnSet D) (hE : DrawsOnSet E)
    {rs qs : List HexRecord} {p q : Program} (hp : assembleWith D rs = .ok p)
    (hq : assembleWith E qs = .ok q) :
    (p.listing = q.listing ↔ p = q) ∧ (p.toJson = q.toJson ↔ p = q) ∧
      (p.toJson.pretty = q.toJson.pretty ↔ p = q) ∧
      (p.listing.toList.splitOn '\n').length = 1 + p.records.length ∧
      (p.listing.toList.splitOn '\n')[0]? =
        some ("Program (" ++ Text.decimal (p.records.countP fun r => r.statement?.isSome) ++
          " instructions)").toList ∧
      ∀ i r, p.records[i]? = some r →
        (p.listing.toList.splitOn '\n')[i + 1]? = some r.text.toList := by
  have hpl := listed_of_assembleWith hD hp
  have hql := listed_of_assembleWith hE hq
  refine ⟨⟨Program.listing_inj hpl hql, congrArg _⟩, ⟨Program.toJson_inj hpl hql, congrArg _⟩,
    ⟨fun h => ?_, fun h => h ▸ rfl⟩, ?_⟩
  · exact Program.toJson_inj hpl hql (Json.pretty_inj p.plain_toJson q.plain_toJson h)
  · rw [Program.lines_listing hpl]
    refine ⟨by simp [Nat.add_comm], ?_, fun i r hr => by simp [hr]⟩
    rw [← Program.length_statements]
    rfl

/-- Bit 5 of STATUS, which has no name, and bit 2, which has one, by two decoders. -/
theorem assembled_renderings_lossless_status_bits :
    let E : Decoder := fun w => Instruction.decode (w + 1)
    ∃ p q, assembleWith Instruction.decode [.data 0#16 [0xA3#8, 0x04#8]] = .ok p ∧
      assembleWith E [.data 0#16 [0x42#8, 0x04#8], .endOfFile] = .ok q ∧
      p.listing = "Program (1 instructions)\n00h: bcf STATUS, 5" ∧
      q.listing = "Program (1 instructions)\n00h: bcf STATUS, Z" ∧
      p ≠ q ∧ p.toJson ≠ q.toJson ∧ p.toJson.pretty ≠ q.toJson.pretty := by
  intro E
  have hshown : (assembleWith Instruction.decode [.data 0#16 [0xA3#8, 0x04#8]]).toOption.map
      Program.listing = some "Program (1 instructions)\n00h: bcf STATUS, 5" := by decide +kernel
  have hshown' : (assembleWith E [.data 0#16 [0x42#8, 0x04#8], .endOfFile]).toOption.map
      Program.listing = some "Program (1 instructions)\n00h: bcf STATUS, Z" := by decide +kernel
  obtain ⟨p, hp, hpl⟩ := returns_of_map_toOption hshown
  obtain ⟨q, hq, hql⟩ := returns_of_map_toOption hshown'
  obtain ⟨hlisting, hjson, hpretty, -⟩ := assembled_renderings_lossless
    (fun w _ h => ⟨w, h⟩) (fun w _ h => ⟨w + 1, h⟩) hp hq
  have hne : p ≠ q := by
    rw [Ne, ← hlisting, hpl, hql]
    decide
  exact ⟨p, q, hp, hq, hpl, hql, hne, hjson.not.mpr hne, hpretty.not.mpr hne⟩

end PicBaseline
