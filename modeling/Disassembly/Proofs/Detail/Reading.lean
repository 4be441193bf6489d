import Disassembly.Proofs.Detail.Placement

/-!
# Reading what a block holds

`decode_of_holds` — decoding a block that holds a well-formed detail gives that detail, whatever
the bytes are that no member of it stands in.  One lemma for each kind of part leads there:
`decode_of_holdsIds` for the counted lists, `decodeOperand_of_holds` for one operand,
`decode_of_holdsOperands` for the operands, and one for the fields of each architecture.
-/

namespace Disassembly

open Memory

/-- The number that stands in a one-byte member, if it is below 256. -/
theorem toNat_of_stores {m : Memory} {s o n : Nat} (h : m.Stores s (some ⟨o, 1⟩) n)
    (hn : n < 256) : (m (s + o)).toNat = n := by
  have hofNat : (UInt8.ofNat n).toNat = n := by
    rw [UInt8.toNat_ofNat', Nat.mod_eq_of_lt hn]
  rw [← hofNat] at h
  rw [byte_of_stores h, hofNat]

theorem flag_of_stores {m : Memory} {s o : Nat} {on : Bool}
    (h : m.StoresFlag s (some ⟨o, 1⟩) on) : m.flag (s + o) = on := by
  rw [h ⟨o, 1⟩ rfl]
  simp [flag, slice, window]

/-! ### Counted lists of ids -/

theorem decode_of_holdsIds {l : IdListLayout} {array count : Member} (hf : l.Follows array count)
    {m : Memory} {ids : List UInt32} (hfit : IdsFit l.capacity ids)
    (h : HoldsIds m array count ids) : l.decode m = ids := by
  have hcount := h.count
  rw [hf.memberOf_count] at hcount
  have hle := hfit.length_le
  have hcap := hf.capacity_lt
  have hlen := toNat_of_stores hcount (by omega)
  rw [Nat.zero_add] at hlen
  rw [IdListLayout.decode, hlen, Nat.min_eq_left hle]
  apply List.ext_getElem
  · simp [slice]
  · intro i h₁ h₂
    have hi : i < (ids.map fun id => (id.toNat : Int)).length := by simpa using h₂
    have hid := h.ids i hi
    rw [hf.element, List.getElem_map] at hid
    have hlt : ids[i].toNat < 256 := UInt32.lt_iff_toNat_lt.mp (hfit.lt ids[i] (by simp))
    have hbyte := toNat_of_stores hid hlt
    simp only [slice, List.getElem_map, List.getElem_range, window]
    apply UInt32.toNat.inj
    rw [UInt8.toNat_toUInt32, ← hbyte, Nat.mul_one, Nat.zero_add]

/-! ### Operands -/

namespace OperandLayout

variable {l : OperandLayout} {h : Header} {m : Memory} {start : Nat}

theorem decodeMemory_of_holds (hf : l.Follows h) {r : MemoryOperand}
    (hr : HoldsValue h m start (.mem r))
    (hdisp : ∀ f ∈ memberOf h.memory .disp, FitsSigned f.size r.disp.toInt)
    (hindex : memberOf h.memory .index = none → r.index = 0)
    (hscale : memberOf h.memory .scale = none → r.scale = 1) :
    l.decodeMemory (m.window (start + l.value)) = r := by
  obtain ⟨hb, hi, hs, hd⟩ := hr
  rw [hf.stores_referenceOf] at hb hi hs hd
  rw [hf.base] at hb
  rw [hf.index] at hi hindex
  rw [hf.scale] at hs hscale
  rw [hf.disp] at hd
  have hwidth : FitsSigned l.width r.disp.toInt := hdisp ⟨_, l.width⟩ hf.disp
  have hbase : (m.window (start + l.value)).u32 0 = r.base := by
    rw [u32_window, u32_of_stores hb]
  have hind : (l.index.map (m.window (start + l.value)).u32).getD 0 = r.index := by
    cases ho : l.index with
    | none =>
      rw [ho] at hindex
      exact (hindex rfl).symm
    | some o =>
      rw [ho] at hi
      rw [Option.map_some, Option.getD_some, u32_window, u32_of_stores hi]
  have hsc : (l.scale.map (m.window (start + l.value)).i32).getD 1 = r.scale := by
    cases ho : l.scale with
    | none =>
      rw [ho] at hscale
      exact (hscale rfl).symm
    | some o =>
      rw [ho] at hs
      rw [Option.map_some, Option.getD_some, i32_window, i32_of_stores hs]
  have hdi : l.signed (m.window (start + l.value)) l.disp = r.disp := by
    rw [signed_window, signed_of_stores hd hwidth]
  rw [decodeMemory, hbase, hind, hsc, hdi]

/-- An immediate that stands in an operand, of whichever kind it is. -/
theorem signed_of_holds (hf : l.Follows h) {n : Int64}
    (hn : m.Stores start (h.valueOf .imm) n.toInt)
    (hfits : ∀ f ∈ h.valueOf .imm, FitsSigned f.size n.toInt) :
    l.signed (m.window (start + l.value)) 0 = n := by
  have hwidth : FitsSigned l.width n.toInt := hfits ⟨_, l.width⟩ hf.imm
  rw [hf.imm] at hn
  rw [signed_window, Nat.add_zero, signed_of_stores hn hwidth]

theorem decodeValue_of_holds (hf : l.Follows h) {o : Operand} (hw : o.WellFormed h)
    (hv : HoldsValue h m start o.value) :
    l.decodeValue (m.window (start + l.value)) o.kind = o.value := by
  obtain ⟨value, shift, ext, size⟩ := o
  cases value with
  | invalid => rfl
  | reg r =>
    simp only [HoldsValue, hf.reg] at hv
    simp only [Operand.kind, OperandValue.kind, decodeValue, u32_window, Nat.add_zero,
      u32_of_stores hv]
  | imm n => exact congrArg OperandValue.imm (signed_of_holds hf hv (hw.imm n rfl))
  | cimm n => exact congrArg OperandValue.cimm (signed_of_holds hf hv (hw.imm n rfl))
  | pimm n => exact congrArg OperandValue.pimm (signed_of_holds hf hv (hw.imm n rfl))
  | fp bits =>
    have hmem : OperandKind.fp ∈ l.kinds := by
      rcases hw.kind with hinvalid | hlisted
      · cases hinvalid
      · exact (hf.mem_kinds .fp).mp hlisted
    simp only [HoldsValue, hf.fp hmem] at hv
    simp only [Operand.kind, OperandValue.kind, decodeValue, u64_window, Nat.add_zero,
      u64_of_stores hv]
  | mem r =>
    exact congrArg OperandValue.mem
      (decodeMemory_of_holds hf hv (hw.disp r rfl) (hw.index r rfl) (hw.scale r rfl))

theorem decodeShift_of_holds (hf : l.Follows h) {s : Option Shift}
    (hw : ∀ x, s = some x → (h.shifterOf .shiftType).isSome ∧ x.kind ≠ 0)
    (hs : HoldsShift h m start s) : l.shift.bind (decodeShift (m.window start)) = s := by
  rw [hf.shiftType] at hw
  cases ho : l.shift with
  | none =>
    rw [ho] at hw
    cases s with
    | none => rfl
    | some x => cases (hw x rfl).1
  | some p =>
    rw [Option.bind_some, decodeShift, u32_window, u32_window]
    cases s with
    | none =>
      have hzero : m.Stores start (h.shifterOf .shiftType) (0 : UInt32).toNat := hs
      rw [hf.shiftType, ho] at hzero
      rw [if_pos (u32_of_stores hzero)]
    | some x =>
      obtain ⟨hkind, hvalue⟩ := hs
      rw [hf.shiftType, ho] at hkind
      rw [hf.shiftValue, ho] at hvalue
      rw [u32_of_stores hkind, u32_of_stores hvalue, if_neg (hw x rfl).2]

theorem decodeExt_of_holds (hf : l.Follows h) {e : Option UInt32}
    (hw : ∀ x, e = some x → (memberOf h.operand .ext).isSome ∧ x ≠ 0)
    (he : m.Stores start (memberOf h.operand .ext) (e.getD 0).toNat) :
    l.ext.bind (decodeExt (m.window start)) = e := by
  rw [hf.ext] at hw he
  cases ho : l.ext with
  | none =>
    rw [ho] at hw
    cases e with
    | none => rfl
    | some x => cases (hw x rfl).1
  | some p =>
    rw [ho] at he
    rw [Option.bind_some, decodeExt, u32_window, u32_of_stores he]
    cases e with
    | none => rfl
    | some x => exact if_neg (hw x rfl).2

theorem decodeSize_of_holds (hf : l.Follows h) {z : Option UInt8}
    (hw : z.isSome = (memberOf h.operand .size).isSome)
    (hz : m.Stores start (memberOf h.operand .size) (z.getD 0).toNat) :
    l.size.map (m.window start) = z := by
  rw [hf.size] at hw hz
  cases ho : l.size with
  | none =>
    rw [ho] at hw
    exact (Option.isSome_eq_false_iff.mp hw |> Option.isNone_iff_eq_none.mp).symm
  | some p =>
    rw [ho] at hw hz
    obtain ⟨b, rfl⟩ := Option.isSome_iff_exists.mp hw
    exact congrArg some (byte_of_stores hz)

/-- Reading one operand record. -/
theorem decodeOperand_of_holds (hf : l.Follows h) {o : Operand} (hw : o.WellFormed h)
    (ho : HoldsOperand h m start o) : l.decodeOperand (m.window start) = o := by
  obtain ⟨id, hid, hkind⟩ := ho.kind
  rw [hf.opType] at hid
  have hread : l.kindOf ((m.window start).u32 l.kind) = o.kind := by
    rw [u32_window, u32_of_stores hid, hf.kindOf, hkind]
  rw [decodeOperand, hread, window_window, decodeValue_of_holds hf hw ho.value,
    decodeShift_of_holds hf hw.shift ho.shift, decodeExt_of_holds hf hw.ext ho.ext,
    decodeSize_of_holds hf hw.size ho.size]

/-- Reading all of them, by the length of the list and then record by record. -/
theorem decode_of_holdsOperands (hf : l.Follows h) {os : List Operand}
    (hcap : h.capacity < 256) (hlen : os.length ≤ h.capacity) (hw : ∀ o ∈ os, o.WellFormed h)
    (ho : HoldsOperands h m start os) : l.decode (m.window start) = os := by
  have hcount := ho.count
  rw [hf.opCount] at hcount
  have hfilled : l.filled (m.window start) = os.length := by
    rw [filled, window, toNat_of_stores hcount (by omega), hf.capacity, Nat.min_eq_left hlen]
  rw [decode, hfilled]
  apply List.ext_getElem
  · simp
  · intro i h₁ h₂
    simp only [List.getElem_map, List.getElem_range, window_window]
    exact decodeOperand_of_holds hf (hw _ (List.getElem_mem h₂))
      (ho.operands i h₂ _ (hf.operandOf i))

end OperandLayout

/-! ### The fields of an architecture -/

variable {m : Memory} {start : Nat}

theorem ArmDetail.decode_of_holdsArm {l : OperandLayout} {h : Header} (hf : l.Follows h)
    (hcc : memberOf h.fields .cc = some ⟨0, 4⟩)
    (hupdate : memberOf h.fields .updateFlags = some ⟨4, 1⟩)
    (hwriteback : memberOf h.fields .writeback = some ⟨5, 1⟩) {d : ArmDetail}
    (hcap : h.capacity < 256) (hlen : d.operands.length ≤ h.capacity)
    (hw : ∀ o ∈ d.operands, o.WellFormed h) (ha : HoldsArm h m start d) :
    ArmDetail.decode l (m.window start) = d := by
  have hc := ha.cc
  have hu := ha.updateFlags
  have hb := ha.writeback
  rw [hcc] at hc
  rw [hupdate] at hu
  rw [hwriteback] at hb
  have hops := OperandLayout.decode_of_holdsOperands hf hcap hlen hw ha.operands
  have hread : (m.window start).u32 0 = d.cc := by rw [u32_window, u32_of_stores hc]
  have hflags : (m.window start).flag 4 = d.updateFlags := flag_of_stores hu
  have hback : (m.window start).flag 5 = d.writeback := flag_of_stores hb
  rw [ArmDetail.decode, hread, hflags, hback, hops]

theorem PpcDetail.decode_of_holdsPpc {d : PpcDetail} (hlen : d.operands.length ≤ 8)
    (hw : ∀ o ∈ d.operands, o.WellFormed Header.ppc) (hp : HoldsPpc m start d) :
    PpcDetail.decode (m.window start) = d := by
  have hops := OperandLayout.decode_of_holdsOperands (OperandLayout.follows .ppc) (by decide) hlen
    hw hp.operands
  have hbc : (m.window start).u32 0 = d.bc := (u32_window m _ 0).trans (u32_of_stores hp.bc)
  have hbh : (m.window start).u32 4 = d.bh := (u32_window m _ 4).trans (u32_of_stores hp.bh)
  have hcr : (m.window start).flag 8 = d.updateCr0 := flag_of_stores hp.updateCr0
  rw [PpcDetail.decode, hbc, hbh, hcr]
  exact congrArg (PpcDetail.mk _ _ _) hops

/-- Bytes that stand in an array member come back as the vector they are the elements of. -/
theorem vector_of_storesBytes {ms : Members} {array : Member} {o n : Nat}
    (hms : ∀ i, elementOf ms array .byte i = some ⟨o + i * 1, 1⟩) {v : Vector UInt8 n}
    (h : StoresBytes m start ms array (v.toList.map fun b => (b.toNat : Int))) :
    (Vector.ofFn fun i => m.window start (o + i.val)) = v := by
  apply Vector.ext
  intro i hi
  have hlen : i < (v.toList.map fun b => (b.toNat : Int)).length := by simpa using hi
  have hb := h i hlen
  rw [hms, List.getElem_map, Vector.getElem_toList] at hb
  rw [Vector.getElem_ofFn]
  have hbyte := byte_of_stores hb
  rw [Nat.mul_one] at hbyte
  exact hbyte

theorem X86Detail.decode_of_holdsX86 {d : X86Detail} (hlen : d.operands.length ≤ 8)
    (hw : ∀ o ∈ d.operands, o.WellFormed Header.x86) (hx : HoldsX86 m start d) :
    X86Detail.decode (m.window start) = d := by
  have hops : OperandLayout.x86.decode (m.window start) = d.operands :=
    OperandLayout.decode_of_holdsOperands (OperandLayout.follows .x86) (by decide) hlen hw
      hx.operands
  have hprefixes : (Vector.ofFn fun i : Fin 5 => m.window start (0 + i.val)) = d.prefixes :=
    vector_of_storesBytes (fun _ => rfl) hx.prefixes
  have hopcode : (Vector.ofFn fun i : Fin 3 => m.window start (12 + i.val)) = d.opcode :=
    vector_of_storesBytes (fun _ => rfl) hx.opcode
  have hsegment : (m.window start).u32 8 = d.segment :=
    (u32_window m _ 8).trans (u32_of_stores hx.segment)
  have hopSize : m.window start 15 = d.opSize := byte_of_stores hx.opSize
  have haddrSize : m.window start 16 = d.addrSize := byte_of_stores hx.addrSize
  have hdispSize : m.window start 17 = d.dispSize := byte_of_stores hx.dispSize
  have himmSize : m.window start 18 = d.immSize := byte_of_stores hx.immSize
  have hmodrm : m.window start 19 = d.modrm := byte_of_stores hx.modrm
  have hsib : m.window start 20 = d.sib := byte_of_stores hx.sib
  have hdisp : (m.window start).i32 24 = d.disp :=
    (i32_window m _ 24).trans (i32_of_stores hx.disp)
  have hsibIndex : (m.window start).u32 28 = d.sibIndex :=
    (u32_window m _ 28).trans (u32_of_stores hx.sibIndex)
  have hscaleByte : m.window start 32 = d.sibScale.toUInt8 :=
    byte_of_stores (stores_int8.mp hx.sibScale)
  have hsibBase : (m.window start).u32 36 = d.sibBase :=
    (u32_window m _ 36).trans (u32_of_stores hx.sibBase)
  simp only [Nat.zero_add] at hprefixes
  rw [X86Detail.decode, hprefixes, hopcode, hsegment, hopSize, haddrSize, hdispSize, himmSize,
    hmodrm, hsib, hdisp, hsibIndex, hscaleByte, hsibBase, hops, Int8.toInt8_toUInt8]

theorem ArchDetail.decode_of_holdsArch {d : ArchDetail}
    (hlen : d.operands.length ≤ (headers d.arch).capacity)
    (hw : ∀ o ∈ d.operands, o.WellFormed (headers d.arch)) (hd : HoldsArch m start d) :
    ArchDetail.decode (m.window start) d.arch = d := by
  cases d with
  | arm d =>
    exact congrArg ArchDetail.arm (ArmDetail.decode_of_holdsArm (OperandLayout.follows .arm)
      rfl rfl rfl (by decide) hlen hw hd)
  | arm64 d =>
    exact congrArg ArchDetail.arm64 (ArmDetail.decode_of_holdsArm (OperandLayout.follows .arm64)
      rfl rfl rfl (by decide) hlen hw hd)
  | mips os =>
    exact congrArg ArchDetail.mips (OperandLayout.decode_of_holdsOperands
      (OperandLayout.follows .mips) (by decide) hlen hw hd)
  | x86 d => exact congrArg ArchDetail.x86 (X86Detail.decode_of_holdsX86 hlen hw hd)
  | ppc d => exact congrArg ArchDetail.ppc (PpcDetail.decode_of_holdsPpc hlen hw hd)

/-! ### The whole block -/

theorem Detail.ofMemory_of_holds {d : Detail} (hw : d.WellFormed) (hd : Holds m d) :
    Detail.ofMemory d.arch.arch m = d := by
  have hread : IdListLayout.regsRead.decode m = d.regsRead :=
    decode_of_holdsIds IdListLayout.follows_regsRead hw.regsRead hd.regsRead
  have hwrite : IdListLayout.regsWrite.decode m = d.regsWrite :=
    decode_of_holdsIds IdListLayout.follows_regsWrite hw.regsWrite hd.regsWrite
  have hgroups : IdListLayout.groups.decode m = d.groups :=
    decode_of_holdsIds IdListLayout.follows_groups hw.groups hd.groups
  have harch : ArchDetail.decode (m.window archStart) d.arch.arch = d.arch :=
    ArchDetail.decode_of_holdsArch hw.length_le hw.operands hd.arch
  rw [Detail.ofMemory, hread, hwrite, hgroups, harch]

/-- **What a block holds is what decoding gives.** -/
theorem Detail.decode_of_holds {d : Detail} (hw : d.WellFormed) {b : Block}
    (hb : Holds b.memory d) : Detail.decode d.arch.arch b = d :=
  Detail.ofMemory_of_holds hw hb

end Disassembly
