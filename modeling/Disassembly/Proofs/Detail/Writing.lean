import Disassembly.Detail.Write
import Disassembly.Proofs.Detail.Frame
import Disassembly.Proofs.Detail.Placement

/-!
# Writing holds the detail

`holds_write` — laying a well-formed detail over any filler memory leaves a block that holds it,
each part in the member that the headers declare for it.  Writing is a sequence of steps, each of
which alters one member (`Memory.AltersOnly`), so that what one step has laid down is still there
after all the others.
-/

namespace Disassembly

namespace Memory

/-! ### Laying a number over a member -/

theorem stores_put (s o w k : Nat) (m : Memory) (hk : k < 256 ^ w) :
    (put (s + o) (littleEndianDigits w k) m).Stores s (some ⟨o, w⟩) k := by
  intro x hx
  cases hx
  have hslice := slice_put (s + o) (littleEndianDigits w k) m
  rw [length_littleEndianDigits] at hslice
  have hmod : ((k : Int) % 256 ^ w).toNat = k := by
    rw [Int.emod_eq_of_lt (by omega), Int.toNat_natCast]
    have hcast : ((256 ^ w : Nat) : Int) = 256 ^ w := Int.natCast_pow 256 w
    omega
  rw [hslice, hmod]

theorem stores_putByte (s o : Nat) (b : UInt8) (m : Memory) :
    (putByte (s + o) b m).Stores s (some ⟨o, 1⟩) b.toNat := by
  have hdigits : littleEndianDigits 1 b.toNat = [b] := by simp [littleEndianDigits]
  have hstores := stores_put s o 1 b.toNat m b.toNat_lt
  rw [hdigits] at hstores
  exact hstores

theorem stores_putU32 (s o : Nat) (n : UInt32) (m : Memory) :
    (putU32 (s + o) n m).Stores s (some ⟨o, 4⟩) n.toNat :=
  stores_put s o 4 n.toNat m n.toNat_lt

theorem stores_putU64 (s o : Nat) (n : UInt64) (m : Memory) :
    (putU64 (s + o) n m).Stores s (some ⟨o, 8⟩) n.toNat :=
  stores_put s o 8 n.toNat m n.toNat_lt

theorem storesFlag_putFlag (s o : Nat) (on : Bool) (m : Memory) :
    (putFlag (s + o) on m).StoresFlag s (some ⟨o, 1⟩) on := by
  intro x hx
  cases hx
  have hflag := flag_putFlag (s + o) on m
  rw [flag] at hflag
  simp [slice, window, hflag]

theorem stores_putSigned (l : OperandLayout) (s o : Nat) (n : Int64) (m : Memory) :
    (l.putSigned (s + o) n m).Stores s (some ⟨o, l.width⟩) n.toInt := by
  unfold OperandLayout.putSigned OperandLayout.width
  split
  · exact stores_int64.mpr (stores_putU64 s o n.toUInt64 m)
  · exact stores_toInt32.mpr (stores_int32.mpr (stores_putU32 s o n.toInt32.toUInt32 m))

/-- Bytes laid over an array member are its elements. -/
theorem storesBytes_put {ms : Members} {x : Member} {o : Nat}
    (hms : ∀ i, elementOf ms x .byte i = some ⟨o + i * 1, 1⟩) (s : Nat) (bytes : List UInt8)
    (m : Memory) :
    StoresBytes (put (s + o) bytes m) s ms x (bytes.map fun b => (b.toNat : Int)) := by
  intro i hi f hf
  rw [hms] at hf
  cases hf
  have hlt : i < bytes.length := by simpa using hi
  have hbyte : put (s + o) bytes m (s + o + i) = bytes[i] := put_inside (s + o) bytes m hlt
  have hmod : ((bytes[i].toNat : Int) % 256 ^ 1).toNat = bytes[i].toNat := by
    have hbound := bytes[i].toNat_lt
    omega
  rw [List.getElem_map, hmod]
  simp [slice, window, littleEndianDigits, ← Nat.add_assoc, hbyte]

variable {ms : Members} {y : Member} {o size : Nat}

theorem altersOnly_putByte (hf : memberOf ms y = some ⟨o, 1⟩) (start : Nat) (b : UInt8)
    (m : Memory) : m.AltersOnly (putByte (start + o) b m) start ms [y] :=
  altersOnly_put hf start (Nat.le_refl o) [b] (Nat.le_refl _) m

theorem altersOnly_putFlag (hf : memberOf ms y = some ⟨o, 1⟩) (start : Nat) (on : Bool)
    (m : Memory) : m.AltersOnly (putFlag (start + o) on m) start ms [y] :=
  altersOnly_putByte hf start _ m

theorem altersOnly_putU32 (hf : memberOf ms y = some ⟨o, 4⟩) (start : Nat) (n : UInt32)
    (m : Memory) : m.AltersOnly (putU32 (start + o) n m) start ms [y] :=
  altersOnly_put hf start (Nat.le_refl o) _
    (Nat.add_le_add_left (Nat.le_of_eq (length_littleEndianDigits 4 n.toNat)) o) m

end Memory

open Memory

/-! ### Counted lists of ids -/

theorem map_toNat_toUInt8 {ids : List UInt32} (h : ∀ id ∈ ids, id < 256) :
    (ids.map UInt32.toUInt8).map (fun b => (b.toNat : Int)) =
      ids.map fun id => (id.toNat : Int) := by
  rw [List.map_map]
  apply List.map_congr_left
  intro id hid
  have hlt : id.toNat < 2 ^ 8 := UInt32.lt_iff_toNat_lt.mp (h id hid)
  simp only [Function.comp_apply, UInt32.toNat_toUInt8]
  rw [Nat.mod_eq_of_lt hlt]

theorem IdListLayout.holdsIds_write {l : IdListLayout} {array count : Member}
    (hf : l.Follows array count) (hne : array ≠ count) {ids : List UInt32}
    (hfit : IdsFit l.capacity ids) (m : Memory) :
    HoldsIds (l.write ids m) array count ids ∧
      m.AltersOnly (l.write ids m) 0 blockHeader [array, count] := by
  let m₁ := put (0 + l.start) (ids.map UInt32.toUInt8) m
  let m₂ := putByte (0 + l.count) (UInt8.ofNat ids.length) m₁
  have hwrite : l.write ids m = m₂ := by
    simp only [IdListLayout.write, m₂, m₁, Nat.zero_add]
  have hle : (ids.map UInt32.toUInt8).length ≤ l.capacity := by
    simpa using hfit.length_le
  have hcap := hf.capacity_lt
  have h₁ : m.AltersOnly m₁ 0 blockHeader [array] :=
    altersOnly_put hf.memberOf_array 0 (Nat.le_refl _) _ (Nat.add_le_add_left hle _) m
  have h₂ : m₁.AltersOnly m₂ 0 blockHeader [count] := altersOnly_putByte hf.memberOf_count 0 _ m₁
  have hids : StoresBytes m₁ 0 blockHeader array (ids.map fun id => (id.toNat : Int)) := by
    rw [← map_toNat_toUInt8 hfit.lt]
    exact storesBytes_put hf.element 0 _ m
  have hlen : m₂.Stores 0 (memberOf blockHeader count) ids.length := by
    have hlt : ids.length < 2 ^ 8 := by have := hfit.length_le; omega
    have hstores := stores_putByte 0 l.count (UInt8.ofNat ids.length) m₁
    rw [UInt8.toNat_ofNat', Nat.mod_eq_of_lt hlt] at hstores
    rw [hf.memberOf_count]
    exact hstores
  have hkeep : m₁.AgreeAt m₂ 0 (memberOf blockHeader array) := h₂.agreeAt (by simpa using hne)
  rw [hwrite]
  exact ⟨⟨hlen, hids.agree hf.lookup_array (by simpa using hle) hkeep⟩, h₁.append h₂⟩

/-! ### One operand -/

namespace OperandLayout

variable {l : OperandLayout} {h : Header}

theorem length_bytes_putSigned (l : OperandLayout) (n : Int64) : ∃ bytes : List UInt8,
    bytes.length = l.width ∧ ∀ start, l.putSigned start n = put start bytes := by
  unfold putSigned width
  split
  · exact ⟨_, length_littleEndianDigits 8 _, fun _ => rfl⟩
  · exact ⟨_, length_littleEndianDigits 4 _, fun _ => rfl⟩

theorem altersOnly_putSigned {ms : Members} {y : Member} {o : Nat}
    (hf : memberOf ms y = some ⟨o, l.width⟩) (start : Nat) (n : Int64) (m : Memory) :
    m.AltersOnly (l.putSigned (start + o) n m) start ms [y] := by
  obtain ⟨bytes, hlen, heq⟩ := l.length_bytes_putSigned n
  rw [heq]
  exact altersOnly_put hf start (Nat.le_refl o) bytes (by dsimp only; omega) m

/-- Lay a 32-bit number over a memory, if there is a place for it. -/
def putOptional (place : Option Nat) (start : Nat) (n : UInt32) (m : Memory) : Memory :=
  match place with
  | some o => putU32 (start + o) n m
  | none => m

/-- A 32-bit number in a member that not every architecture has. -/
theorem putOptional_spec {ms : Members} {y : Member} {place : Option Nat}
    (hf : memberOf ms y = place.map fun o => ⟨o, 4⟩) (start : Nat) (n : UInt32) (m : Memory) :
    (putOptional place start n m).Stores start (memberOf ms y) n.toNat ∧
      m.AltersOnly (putOptional place start n m) start ms [y] := by
  cases place with
  | none =>
    refine ⟨fun x hx => ?_, AltersOnly.refl m start ms [y]⟩
    rw [hf] at hx
    cases hx
  | some o =>
    refine ⟨?_, altersOnly_putU32 hf start n m⟩
    rw [hf]
    exact stores_putU32 start o n m

/-- Writing a memory reference: base, index, scale and displacement, one after another. -/
theorem writeMemory_spec (hf : l.Follows h) (s : Nat) (r : MemoryOperand) (m : Memory) :
    (l.writeMemory s r m).Stores s (memberOf h.memory .base) r.base.toNat ∧
      (l.writeMemory s r m).Stores s (memberOf h.memory .index) r.index.toNat ∧
      (l.writeMemory s r m).Stores s (memberOf h.memory .scale) r.scale.toInt ∧
      (l.writeMemory s r m).Stores s (memberOf h.memory .disp) r.disp.toInt ∧
      m.AltersOnly (l.writeMemory s r m) s h.memory [.base, .index, .scale, .disp] := by
  let m₁ := putU32 s r.base m
  let m₂ := putOptional l.index s r.index m₁
  let m₃ := putOptional l.scale s r.scale.toUInt32 m₂
  let m₄ := l.putSigned (s + l.disp) r.disp m₃
  have hwrite : l.writeMemory s r m = m₄ := rfl
  obtain ⟨hindex, h₂⟩ := putOptional_spec hf.index s r.index m₁
  have hbits : m₃.Stores s (memberOf h.memory .scale) r.scale.toUInt32.toNat :=
    (putOptional_spec hf.scale s r.scale.toUInt32 m₂).1
  have h₃ : m₂.AltersOnly m₃ s h.memory [.scale] :=
    (putOptional_spec hf.scale s r.scale.toUInt32 m₂).2
  have hbase : m₁.Stores s (memberOf h.memory .base) r.base.toNat := by
    rw [hf.base]
    exact stores_putU32 s 0 r.base m
  have hscale : m₃.Stores s (memberOf h.memory .scale) r.scale.toInt := by
    rw [hf.scale] at hbits ⊢
    cases hl : l.scale with
    | none => exact fun x hx => nomatch hx
    | some o =>
      rw [hl] at hbits
      exact stores_int32.mpr hbits
  have hdisp : m₄.Stores s (memberOf h.memory .disp) r.disp.toInt := by
    rw [hf.disp]
    exact stores_putSigned l s l.disp r.disp m₃
  have h₁ : m.AltersOnly m₁ s h.memory [.base] := altersOnly_putU32 hf.base s r.base m
  have t₃ : m₃.AltersOnly m₄ s h.memory [.disp] := altersOnly_putSigned hf.disp s r.disp m₃
  have t₂ : m₂.AltersOnly m₄ s h.memory [.scale, .disp] := h₃.append t₃
  have t₁ : m₁.AltersOnly m₄ s h.memory [.index, .scale, .disp] := h₂.append t₂
  rw [hwrite]
  exact ⟨hbase.agree (t₁.agreeAt (by decide)), hindex.agree (t₂.agreeAt (by decide)),
    hscale.agree (t₃.agreeAt (by decide)), hdisp, h₁.append t₁⟩

/-- Laying bytes over a variant alters the value. -/
theorem altersOnly_value (hc : h.Coherent) {x : Member} {o w : Nat}
    (hx : h.valueOf x = some ⟨o, w⟩) (start : Nat) (bytes : List UInt8) (hlen : bytes.length = w)
    (m : Memory) : m.AltersOnly (put (start + o) bytes m) start h.operand [.value] := by
  obtain ⟨v, hv, hlow, hhigh⟩ := Header.valueOf_inside hc hx
  exact altersOnly_put hv start hlow bytes (by rw [hlen]; exact hhigh) m

theorem writeSigned_spec (hf : l.Follows h) (hc : h.Coherent) (start : Nat) (n : Int64)
    (m : Memory) : (l.putSigned (start + l.value) n m).Stores start (h.valueOf .imm) n.toInt ∧
      m.AltersOnly (l.putSigned (start + l.value) n m) start h.operand [.value] := by
  constructor
  · rw [hf.imm]
    exact stores_putSigned l start l.value n m
  · obtain ⟨bytes, hlen, heq⟩ := l.length_bytes_putSigned n
    rw [heq]
    exact altersOnly_value hc hf.imm start bytes hlen m

theorem writeValue_spec (hf : l.Follows h) (hc : h.Coherent) (start : Nat) (v : OperandValue)
    (hfp : v.kind = .fp → .fp ∈ l.kinds) (m : Memory) :
    HoldsValue h (l.writeValue (start + l.value) v m) start v ∧
      m.AltersOnly (l.writeValue (start + l.value) v m) start h.operand [.value] := by
  cases v with
  | invalid => exact ⟨trivial, AltersOnly.refl m start h.operand [.value]⟩
  | reg r =>
    refine ⟨?_, altersOnly_value hc hf.reg start _ (length_littleEndianDigits 4 r.toNat) m⟩
    rw [HoldsValue, hf.reg]
    exact stores_putU32 start l.value r m
  | imm n => exact writeSigned_spec hf hc start n m
  | cimm n => exact writeSigned_spec hf hc start n m
  | pimm n => exact writeSigned_spec hf hc start n m
  | fp bits =>
    have hvalue := hf.fp (hfp rfl)
    refine ⟨?_, altersOnly_value hc hvalue start _ (length_littleEndianDigits 8 bits.toNat) m⟩
    rw [HoldsValue, hvalue]
    exact stores_putU64 start l.value bits m
  | mem r =>
    obtain ⟨hbase, hindex, hscale, hdisp, halters⟩ := writeMemory_spec hf (start + l.value) r m
    obtain ⟨f, hmem, hoffset⟩ := Option.map_eq_some_iff.mp hf.mem
    obtain ⟨v, hv, hlow, hhigh⟩ := Header.valueOf_inside hc hmem
    have hsize := Header.size_mem hc hmem
    exact ⟨⟨hf.stores_referenceOf.mpr hbase, hf.stores_referenceOf.mpr hindex,
      hf.stores_referenceOf.mpr hscale, hf.stores_referenceOf.mpr hdisp⟩,
      halters.widen hv (by omega) (by omega)⟩

/-- The number that is written says the operand's kind. -/
theorem kindOf_writtenId (hf : l.Follows h) {k : OperandKind} (hk : k = .invalid ∨ k ∈ l.kinds)
    (start : Nat) (m : Memory) : l.kindOf (l.writtenId start k m) = k := by
  unfold writtenId
  split
  · next hinvalid => rw [hinvalid.2, hinvalid.1]
  · exact hf.kindOf_idOf hk

/-- The shifter is a structure of its own at its member's offset. -/
theorem writeShift_spec (hf : l.Follows h) {p : Nat} (hp : l.shift = some p) (start : Nat)
    (s : Option Shift) (m : Memory) :
    HoldsShift h (writeShift (start + p) s m) start s ∧
      m.AltersOnly (writeShift (start + p) s m) start h.operand [.shift] := by
  have hshift := hf.shift
  have htype := hf.shiftType
  have hvalue := hf.shiftValue
  rw [hp] at hshift htype hvalue
  cases s with
  | none =>
    have hzero := stores_putU32 start p 0 m
    refine ⟨?_, altersOnly_put hshift start (Nat.le_refl p) _ ?_ m⟩
    · rw [HoldsShift, htype]
      exact hzero
    · simp [length_littleEndianDigits]
  | some s =>
    let m₁ := putU32 (start + p + 0) s.kind m
    let m₂ := putU32 (start + p + 4) s.value m₁
    have h₁ : m.AltersOnly m₁ (start + p) Header.shifter [.shiftType] :=
      altersOnly_putU32 rfl (start + p) s.kind m
    have h₂ : m₁.AltersOnly m₂ (start + p) Header.shifter [.shiftValue] :=
      altersOnly_putU32 rfl (start + p) s.value m₁
    have hkind : m₁.Stores (start + p) (memberOf Header.shifter .shiftType) s.kind.toNat :=
      stores_putU32 (start + p) 0 s.kind m
    have hkind₂ : m₂.Stores (start + p) (some ⟨0, 4⟩) s.kind.toNat :=
      hkind.agree (h₂.agreeAt (by decide))
    have hvalue₂ := stores_putU32 (start + p) 4 s.value m₁
    refine ⟨?_, (h₁.append h₂).widen hshift (Nat.le_refl p) (Nat.le_refl _)⟩
    rw [HoldsShift, htype, hvalue]
    refine ⟨fun x hx => ?_, fun x hx => ?_⟩
    · cases hx
      exact hkind₂ _ rfl
    · cases hx
      have hslice := hvalue₂ _ rfl
      rw [Nat.add_assoc] at hslice
      exact hslice

/-- **Writing an operand record leaves the operand in it**, whatever the record held before. -/
theorem writeOperand_spec (hf : l.Follows h) (hc : h.Coherent) (start : Nat) {o : Operand}
    (hw : o.WellFormed h) (m : Memory) :
    HoldsOperand h (l.writeOperand start o m) start o ∧
      m.AltersOnly (l.writeOperand start o m) start h.operand
        [.opType, .value, .shift, .ext, .size] := by
  let m₁ := putU32 (start + l.kind) (l.writtenId (start + l.kind) o.kind m) m
  let m₂ := l.writeValue (start + l.value) o.value m₁
  let m₃ := match l.shift with
    | some p => writeShift (start + p) o.shift m₂
    | none => m₂
  let m₄ := putOptional l.ext start (o.ext.getD 0) m₃
  let m₅ := match l.size with
    | some p => putByte (start + p) (o.size.getD 0) m₄
    | none => m₄
  have hwrite : l.writeOperand start o m = m₅ := rfl
  have hlisted : o.kind = .invalid ∨ o.kind ∈ l.kinds := by
    simpa only [hf.mem_kinds] using hw.kind
  have hkind : m₁.Stores start (memberOf h.operand .opType)
      (l.writtenId (start + l.kind) o.kind m).toNat := by
    rw [hf.opType]
    exact stores_putU32 start l.kind _ m
  have h₁ : m.AltersOnly m₁ start h.operand [.opType] := altersOnly_putU32 hf.opType start _ m
  have hfp : o.value.kind = .fp → .fp ∈ l.kinds := by
    intro hkindfp
    rcases hlisted with hinvalid | hmem
    · exact absurd (hkindfp.symm.trans hinvalid) (by decide)
    · exact hkindfp ▸ hmem
  obtain ⟨hvalue, h₂⟩ := writeValue_spec hf hc start o.value hfp m₁
  have hshift : HoldsShift h m₃ start o.shift ∧ m₂.AltersOnly m₃ start h.operand [.shift] := by
    cases hp : l.shift with
    | some p =>
      have hm₃ : m₃ = writeShift (start + p) o.shift m₂ := by simp only [m₃, hp]
      rw [hm₃]
      exact writeShift_spec hf hp start o.shift m₂
    | none =>
      have hm₃ : m₃ = m₂ := by simp only [m₃, hp]
      have hlacks : h.shifterOf .shiftType = none := by rw [hf.shiftType, hp, Option.map_none]
      have hnone : o.shift = none := by
        cases hs : o.shift with
        | none => rfl
        | some s => exact absurd (hw.shift s hs).1 (by simp [hlacks])
      rw [hm₃, hnone]
      refine ⟨fun x hx => ?_, AltersOnly.refl m₂ start h.operand [.shift]⟩
      rw [hlacks] at hx
      cases hx
  have hext : m₄.Stores start (memberOf h.operand .ext) (o.ext.getD 0).toNat :=
    (putOptional_spec hf.ext start (o.ext.getD 0) m₃).1
  have h₄ : m₃.AltersOnly m₄ start h.operand [.ext] :=
    (putOptional_spec hf.ext start (o.ext.getD 0) m₃).2
  have hsize : m₅.Stores start (memberOf h.operand .size) (o.size.getD 0).toNat ∧
      m₄.AltersOnly m₅ start h.operand [.size] := by
    have hfield := hf.size
    cases hp : l.size with
    | some p =>
      have hm₅ : m₅ = putByte (start + p) (o.size.getD 0) m₄ := by simp only [m₅, hp]
      rw [hp] at hfield
      rw [hm₅]
      refine ⟨?_, altersOnly_putByte hfield start _ m₄⟩
      rw [hfield]
      exact stores_putByte start p _ m₄
    | none =>
      have hm₅ : m₅ = m₄ := by simp only [m₅, hp]
      rw [hp] at hfield
      rw [hm₅]
      refine ⟨fun x hx => ?_, AltersOnly.refl m₄ start h.operand [.size]⟩
      rw [hfield] at hx
      cases hx
  have t₄ : m₄.AltersOnly m₅ start h.operand [.size] := hsize.2
  have t₃ : m₃.AltersOnly m₅ start h.operand [.ext, .size] := h₄.append t₄
  have t₂ : m₂.AltersOnly m₅ start h.operand [.shift, .ext, .size] := hshift.2.append t₃
  have t₁ : m₁.AltersOnly m₅ start h.operand [.value, .shift, .ext, .size] := h₂.append t₂
  rw [hwrite]
  refine ⟨⟨⟨_, hkind.agree (t₁.agreeAt (by decide)), ?_⟩, hvalue.agree hc (t₂.agreeAt (by decide)),
    hshift.1.agree hc (t₃.agreeAt (by decide)), hext.agree (t₄.agreeAt (by decide)), hsize.1⟩,
    h₁.append t₁⟩
  rw [← hf.kindOf]
  exact kindOf_writtenId hf hlisted (start + l.kind) m

/-! ### All operands -/

theorem recordStart_succ (l : OperandLayout) (i : Nat) :
    l.recordStart (i + 1) = l.recordStart i + l.stride := by
  rw [recordStart, recordStart, Nat.succ_mul, Nat.add_assoc]

/-- A record takes the bytes up to the next one. -/
theorem size_operand (hf : l.Follows h) : (CType.record h.operand).size = l.stride := by
  have helement := hf.operandOf 0
  rw [Header.operandOf, elementOf] at helement
  obtain ⟨f, -, heq⟩ := Option.map_eq_some_iff.mp helement
  exact congrArg Field.size heq

theorem memberOf_operands (hf : l.Follows h) (hc : h.Coherent) :
    memberOf h.fields .operands = some ⟨l.recordStart 0, h.capacity * l.stride⟩ := by
  have helement := hf.operandOf 0
  rw [Header.operandOf, elementOf] at helement
  obtain ⟨f, hmember, heq⟩ := Option.map_eq_some_iff.mp helement
  have hoffset : f.offset + 0 * (CType.record h.operand).size = l.recordStart 0 :=
    congrArg Field.offset heq
  have hsize : f.size = h.capacity * (CType.record h.operand).size :=
    size_memberOf hmember hc.operands
  rw [Nat.zero_mul, Nat.add_zero] at hoffset
  rw [size_operand hf] at hsize
  rw [hmember, ← hoffset, ← hsize]

/-- Writing record after record, from the one with index `i` on: each operand stands in its
record, since the records after it begin where it ends. -/
theorem writeFrom_spec (hf : l.Follows h) (hc : h.Coherent) (start i : Nat) {os : List Operand}
    (hw : ∀ o ∈ os, o.WellFormed h) (m : Memory) :
    (∀ (j : Nat) (hj : j < os.length),
      HoldsOperand h (l.writeFrom start i os m) (start + l.recordStart (i + j)) os[j]) ∧
      ∀ x, x < start + l.recordStart i ∨ start + l.recordStart (i + os.length) ≤ x →
        l.writeFrom start i os m x = m x := by
  induction os generalizing i m with
  | nil => exact ⟨fun j hj => absurd hj (Nat.not_lt_zero j), fun _ _ => rfl⟩
  | cons o os ih =>
    let m₁ := l.writeOperand (start + l.recordStart i) o m
    have hhead : o.WellFormed h := hw o List.mem_cons_self
    have htail : ∀ o' ∈ os, o'.WellFormed h := fun o' ho' => hw o' (List.mem_cons_of_mem o ho')
    obtain ⟨hholds, halters⟩ := writeOperand_spec hf hc (start + l.recordStart i) hhead m
    obtain ⟨hrest, houtside⟩ := ih (i + 1) htail m₁
    have hnext := l.recordStart_succ i
    have hsize := size_operand hf
    have hlast : i + (o :: os).length = i + 1 + os.length := by
      rw [List.length_cons]
      omega
    have hpast : l.recordStart (i + 1) ≤ l.recordStart (i + 1 + os.length) :=
      Nat.add_le_add_left (Nat.mul_le_mul_right _ (Nat.le_add_right _ _)) _
    rw [writeFrom]
    refine ⟨fun j hj => ?_, fun x hx => ?_⟩
    · cases j with
      | zero =>
        refine hholds.agree hc fun y f hfield x hlow hhigh => ?_
        have hle := memberOf_le hfield
        exact houtside x (Or.inl (by omega))
      | succ j =>
        have hindex : i + (j + 1) = i + 1 + j := by omega
        rw [hindex]
        exact hrest j (Nat.lt_of_succ_lt_succ hj)
    · rw [hlast] at hx
      rw [houtside x (by omega)]
      exact halters.outside (by omega)

theorem write_spec (hf : l.Follows h) (hc : h.Coherent) (start : Nat) {os : List Operand}
    (hcap : h.capacity < 256) (hlen : os.length ≤ h.capacity) (hw : ∀ o ∈ os, o.WellFormed h)
    (m : Memory) : HoldsOperands h (l.write start os m) start os ∧
      m.AltersOnly (l.write start os m) start h.fields [.operands, .opCount] := by
  let m₁ := l.writeFrom start 0 os m
  let m₂ := putByte (start + l.count) (UInt8.ofNat os.length) m₁
  obtain ⟨hrecords, houtside⟩ := writeFrom_spec hf hc start 0 hw m
  have h₁ : m.AltersOnly m₁ start h.fields [.operands] := by
    intro x hx
    have hout := hx .operands List.mem_cons_self _ (memberOf_operands hf hc)
    have hpast : l.recordStart (0 + os.length) ≤ l.recordStart 0 + h.capacity * l.stride := by
      have hmul : os.length * l.stride ≤ h.capacity * l.stride := Nat.mul_le_mul_right _ hlen
      rw [recordStart, recordStart, Nat.zero_add, Nat.zero_mul, Nat.add_zero]
      exact Nat.add_le_add_left hmul _
    exact houtside x (by dsimp only at hout; omega)
  have h₂ : m₁.AltersOnly m₂ start h.fields [.opCount] := altersOnly_putByte hf.opCount start _ m₁
  have hcount : m₂.Stores start (memberOf h.fields .opCount) os.length := by
    have hlt : os.length < 2 ^ 8 := by omega
    have hstores := stores_putByte start l.count (UInt8.ofNat os.length) m₁
    rw [UInt8.toNat_ofNat', Nat.mod_eq_of_lt hlt] at hstores
    rw [hf.opCount]
    exact hstores
  have hwrite : l.write start os m = m₂ := rfl
  rw [hwrite]
  refine ⟨⟨hcount, fun i hi f hfield => ?_⟩, h₁.append h₂⟩
  have hoperand := hrecords i hi
  have hoffset : f.offset = l.recordStart i := by
    rw [hf.operandOf i] at hfield
    cases hfield
    rfl
  rw [Nat.zero_add, ← hoffset] at hoperand
  exact hoperand.agree hc
    (agreeAt_operand hc (Nat.lt_of_lt_of_le hi hlen) hfield (h₂.agreeAt (by decide)))

end OperandLayout

end Disassembly
