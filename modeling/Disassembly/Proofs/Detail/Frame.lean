import Disassembly.Proofs.Detail.Headers

/-!
# What a held detail depends on

A memory holds a detail by the bytes of the members that its parts stand in, and by no other byte.

* `Memory.AgreeAt` — two memories agree on the bytes of a member; `HoldsOperand.agree`,
  `HoldsArch.agree` and `Holds.agree` — such memories hold the same;
* `Memory.AltersOnly` — a memory differs from another in the bytes of some members only;
  `AltersOnly.agreeAt` — it agrees with it on every other member, since members do not overlap.
-/

namespace Disassembly

namespace Memory

/-! ### Agreement on a member -/

/-- Two memories agree on the bytes of a member of a structure that begins at `start`. -/
def AgreeAt (m m' : Memory) (start : Nat) (f : Option Field) : Prop :=
  ∀ x ∈ f, ∀ i, start + x.offset ≤ i → i < start + x.offset + x.size → m' i = m i

theorem slice_congr {m m' : Memory} {start n : Nat}
    (h : ∀ i, start ≤ i → i < start + n → m' i = m i) : m'.slice start n = m.slice start n := by
  apply List.map_congr_left
  intro i hi
  have hlt := List.mem_range.mp hi
  exact h (start + i) (by omega) (by omega)

variable {m m' m'' : Memory} {start start' : Nat} {f g : Option Field}

/-- Agreement on a member is agreement on everything inside it. -/
theorem AgreeAt.inside (h : m.AgreeAt m' start f)
    (hin : ∀ y ∈ g, ∃ x ∈ f, start + x.offset ≤ start' + y.offset ∧
      start' + y.offset + y.size ≤ start + x.offset + x.size) : m.AgreeAt m' start' g := by
  intro y hy i hlow hhigh
  obtain ⟨x, hx, hle, hge⟩ := hin y hy
  exact h x hx i (by omega) (by omega)

theorem Stores.agree {n : Int} (h : m.Stores start f n) (ha : m.AgreeAt m' start f) :
    m'.Stores start f n := by
  intro x hx
  rw [slice_congr (ha x hx)]
  exact h x hx

theorem StoresFlag.agree {on : Bool} (h : m.StoresFlag start f on) (ha : m.AgreeAt m' start f) :
    m'.StoresFlag start f on := by
  intro x hx
  rw [slice_congr (ha x hx)]
  exact h x hx

/-! ### Alterations -/

/-- A memory differs from another in the bytes of some members of a structure only. -/
def AltersOnly (m m' : Memory) (start : Nat) (ms : Members) (ys : List Member) : Prop :=
  ∀ i, (∀ y ∈ ys, ∀ f ∈ memberOf ms y, i < start + f.offset ∨ start + f.offset + f.size ≤ i) →
    m' i = m i

variable {ms : Members} {y : Member} {ys : List Member} {x : Field}

theorem AltersOnly.refl (m : Memory) (start : Nat) (ms : Members) (ys : List Member) :
    m.AltersOnly m start ms ys :=
  fun _ _ => rfl

/-- One alteration after another. -/
theorem AltersOnly.append {zs : List Member} (h : m.AltersOnly m' start ms ys)
    (h' : m'.AltersOnly m'' start ms zs) : m.AltersOnly m'' start ms (ys ++ zs) := by
  intro i hi
  rw [h' i fun z hz => hi z (List.mem_append_right ys hz)]
  exact h i fun z hz => hi z (List.mem_append_left zs hz)

/-- A member that is not altered reads as before. -/
theorem AltersOnly.agreeAt (h : m.AltersOnly m' start ms ys) {z : Member} (hz : z ∉ ys) :
    m.AgreeAt m' start (memberOf ms z) := by
  intro f hf i hlow hhigh
  apply h i
  intro y hy g hg
  have hne : z ≠ y := fun heq => hz (heq ▸ hy)
  rcases memberOf_disjoint hf hg hne with hbefore | hafter
  · exact Or.inl (by omega)
  · exact Or.inr (by omega)

/-- Nothing outside the structure is altered. -/
theorem AltersOnly.outside (h : m.AltersOnly m' start ms ys) {i : Nat}
    (hi : i < start ∨ start + (CType.record ms).size ≤ i) : m' i = m i := by
  apply h i
  intro y _ f hf
  have hle := memberOf_le hf
  omega

/-- Altering a structure inside a member alters that member. -/
theorem AltersOnly.widen {sub : Members} {o : Nat} (h : m.AltersOnly m' (start + o) sub ys)
    (hx : x ∈ memberOf ms y) (hlow : x.offset ≤ o)
    (hhigh : o + (CType.record sub).size ≤ x.offset + x.size) : m.AltersOnly m' start ms [y] := by
  intro i hi
  have hout := hi y List.mem_cons_self x hx
  exact h.outside (by omega)

/-- Laying bytes inside a member alters that member. -/
theorem altersOnly_put (hx : x ∈ memberOf ms y) (start : Nat) {o : Nat} (hlow : x.offset ≤ o)
    (bytes : List UInt8) (hhigh : o + bytes.length ≤ x.offset + x.size) (m : Memory) :
    m.AltersOnly (put (start + o) bytes m) start ms [y] := by
  intro i hi
  have hout := hi y List.mem_cons_self x hx
  exact put_outside (start + o) bytes m (by omega)

end Memory

open Memory

/-! ### Parts of an operand -/

namespace Header

variable {h : Header}

theorem valueOf_inside (hc : h.Coherent) {x : Member} {f : Field} (hf : f ∈ h.valueOf x) :
    ∃ v ∈ memberOf h.operand .value,
      v.offset ≤ f.offset ∧ f.offset + f.size ≤ v.offset + v.size := by
  obtain ⟨v, hv, hmap⟩ := Option.bind_eq_some_iff.mp hf
  obtain ⟨w, hw, rfl⟩ := Option.map_eq_some_iff.mp hmap
  have hle := variantOf_le hw
  rw [← size_memberOf hv hc.value] at hle
  exact ⟨v, hv, by dsimp only; omega, by dsimp only; omega⟩

theorem size_mem (hc : h.Coherent) {f : Field} (hf : h.valueOf .mem = some f) :
    f.size = (CType.record h.memory).size := by
  obtain ⟨v, -, hmap⟩ := Option.bind_eq_some_iff.mp hf
  rw [variantOf, hc.mem] at hmap
  exact (congrArg Field.size (Option.some.inj hmap)).symm

theorem referenceOf_inside (hc : h.Coherent) {x : Member} {f : Field} (hf : f ∈ h.referenceOf x) :
    ∃ v ∈ memberOf h.operand .value,
      v.offset ≤ f.offset ∧ f.offset + f.size ≤ v.offset + v.size := by
  obtain ⟨v, hv, hmap⟩ := Option.bind_eq_some_iff.mp hf
  obtain ⟨w, hw, rfl⟩ := Option.map_eq_some_iff.mp hmap
  obtain ⟨u, hu, hlow, hhigh⟩ := valueOf_inside hc hv
  have hsize := size_mem hc hv
  have hle := memberOf_le hw
  exact ⟨u, hu, by dsimp only; omega, by dsimp only; omega⟩

theorem shifterOf_inside (hc : h.Coherent) {x : Member} {f : Field} (hf : f ∈ h.shifterOf x) :
    ∃ v ∈ memberOf h.operand .shift,
      v.offset ≤ f.offset ∧ f.offset + f.size ≤ v.offset + v.size := by
  obtain ⟨v, hv, hmap⟩ := Option.bind_eq_some_iff.mp hf
  obtain ⟨w, hw, rfl⟩ := Option.map_eq_some_iff.mp hmap
  have hsize : v.size = (CType.record shifter).size := by
    have hlookup := size_of_lookup hv
    obtain ⟨t, ht, hts⟩ := Option.map_eq_some_iff.mp hlookup
    rw [← hts, hc.shift t ht]
  have hle := memberOf_le hw
  exact ⟨v, hv, by dsimp only; omega, by dsimp only; omega⟩

end Header

/-! ### Agreeing memories hold the same -/

variable {h : Header} {m m' : Memory} {start : Nat}

/-- Agreement on the value of an operand is agreement on each variant of it. -/
theorem Memory.AgreeAt.valueOf (hc : h.Coherent)
    (ha : m.AgreeAt m' start (memberOf h.operand .value)) (x : Member) :
    m.AgreeAt m' start (h.valueOf x) :=
  ha.inside fun f hf => by
    obtain ⟨u, hu, hlow, hhigh⟩ := Header.valueOf_inside hc hf
    exact ⟨u, hu, by omega, by omega⟩

/-- It is agreement on each member of a memory reference, too. -/
theorem Memory.AgreeAt.referenceOf (hc : h.Coherent)
    (ha : m.AgreeAt m' start (memberOf h.operand .value)) (x : Member) :
    m.AgreeAt m' start (h.referenceOf x) :=
  ha.inside fun f hf => by
    obtain ⟨u, hu, hlow, hhigh⟩ := Header.referenceOf_inside hc hf
    exact ⟨u, hu, by omega, by omega⟩

theorem Memory.AgreeAt.shifterOf (hc : h.Coherent)
    (ha : m.AgreeAt m' start (memberOf h.operand .shift)) (x : Member) :
    m.AgreeAt m' start (h.shifterOf x) :=
  ha.inside fun f hf => by
    obtain ⟨u, hu, hlow, hhigh⟩ := Header.shifterOf_inside hc hf
    exact ⟨u, hu, by omega, by omega⟩

theorem HoldsValue.agree (hc : h.Coherent) {v : OperandValue} (hv : HoldsValue h m start v)
    (ha : m.AgreeAt m' start (memberOf h.operand .value)) : HoldsValue h m' start v := by
  cases v with
  | invalid => trivial
  | reg r => exact Stores.agree hv (ha.valueOf hc .reg)
  | imm n => exact Stores.agree hv (ha.valueOf hc .imm)
  | cimm n => exact Stores.agree hv (ha.valueOf hc .imm)
  | pimm n => exact Stores.agree hv (ha.valueOf hc .imm)
  | fp bits => exact Stores.agree hv (ha.valueOf hc .fp)
  | mem r =>
    obtain ⟨hbase, hindex, hscale, hdisp⟩ := hv
    exact ⟨hbase.agree (ha.referenceOf hc .base), hindex.agree (ha.referenceOf hc .index),
      hscale.agree (ha.referenceOf hc .scale), hdisp.agree (ha.referenceOf hc .disp)⟩

theorem HoldsShift.agree (hc : h.Coherent) {s : Option Shift} (hs : HoldsShift h m start s)
    (ha : m.AgreeAt m' start (memberOf h.operand .shift)) : HoldsShift h m' start s := by
  cases s with
  | none => exact Stores.agree hs (ha.shifterOf hc .shiftType)
  | some x =>
    exact ⟨hs.1.agree (ha.shifterOf hc .shiftType), hs.2.agree (ha.shifterOf hc .shiftValue)⟩

theorem HoldsOperand.agree (hc : h.Coherent) {o : Operand} (ho : HoldsOperand h m start o)
    (ha : ∀ x, m.AgreeAt m' start (memberOf h.operand x)) : HoldsOperand h m' start o := by
  obtain ⟨id, hid, hkind⟩ := ho.kind
  exact ⟨⟨id, hid.agree (ha .opType), hkind⟩, ho.value.agree hc (ha .value),
    ho.shift.agree hc (ha .shift), ho.ext.agree (ha .ext), ho.size.agree (ha .size)⟩

/-- An element with an index below the length of an array lies inside the array. -/
theorem elementOf_inside {ms : Members} {x : Member} {t : CType} {n i : Nat}
    (hx : ms.lookup x = some (t.array n)) (hi : i < n) {f : Field} (hf : f ∈ elementOf ms x t i) :
    ∃ v ∈ memberOf ms x,
      v.offset ≤ f.offset ∧ f.offset + f.size ≤ v.offset + v.size ∧ f.size = t.size := by
  obtain ⟨v, hv, rfl⟩ := Option.map_eq_some_iff.mp hf
  have hsize : v.size = n * t.size := size_memberOf hv hx
  have hle : (i + 1) * t.size ≤ n * t.size := Nat.mul_le_mul_right _ hi
  rw [Nat.succ_mul] at hle
  exact ⟨v, hv, by dsimp only; omega, by dsimp only; omega, rfl⟩

/-- Agreement on an array is agreement on each of its elements. -/
theorem Memory.AgreeAt.elementOf {ms : Members} {x : Member} {t : CType} {n i : Nat}
    (ha : m.AgreeAt m' start (memberOf ms x)) (hx : ms.lookup x = some (t.array n)) (hi : i < n) :
    m.AgreeAt m' start (elementOf ms x t i) :=
  ha.inside fun f hf => by
    obtain ⟨v, hv, hlow, hhigh, -⟩ := elementOf_inside hx hi hf
    exact ⟨v, hv, by omega, by omega⟩

theorem StoresBytes.agree {ms : Members} {x : Member} {n : Nat}
    (hx : ms.lookup x = some (CType.byte.array n)) {l : List Int} (hl : StoresBytes m start ms x l)
    (hlen : l.length ≤ n) (ha : m.AgreeAt m' start (memberOf ms x)) :
    StoresBytes m' start ms x l := fun i hi =>
  (hl i hi).agree (ha.elementOf hx (Nat.lt_of_lt_of_le hi hlen))

/-- Agreement on the array of operands is agreement on each member of each operand record. -/
theorem agreeAt_operand (hc : h.Coherent) {i : Nat} (hi : i < h.capacity) {f : Field}
    (hf : f ∈ h.operandOf i) (ha : m.AgreeAt m' start (memberOf h.fields .operands)) (x : Member) :
    m.AgreeAt m' (start + f.offset) (memberOf h.operand x) := by
  obtain ⟨v, hv, hlow, hhigh, hsize⟩ := elementOf_inside hc.operands hi hf
  refine ha.inside fun y hy => ?_
  have hle := memberOf_le hy
  exact ⟨v, hv, by omega, by omega⟩

theorem HoldsOperands.agree (hc : h.Coherent) {os : List Operand} (ho : HoldsOperands h m start os)
    (hlen : os.length ≤ h.capacity) (ha : ∀ x, m.AgreeAt m' start (memberOf h.fields x)) :
    HoldsOperands h m' start os :=
  ⟨ho.count.agree (ha .opCount), fun i hi f hf => (ho.operands i hi f hf).agree hc
    (agreeAt_operand hc (Nat.lt_of_lt_of_le hi hlen) hf (ha .operands))⟩

theorem HoldsArm.agree (hc : h.Coherent) {d : ArmDetail} (hd : HoldsArm h m start d)
    (hlen : d.operands.length ≤ h.capacity) (ha : ∀ x, m.AgreeAt m' start (memberOf h.fields x)) :
    HoldsArm h m' start d :=
  ⟨hd.cc.agree (ha .cc), hd.updateFlags.agree (ha .updateFlags),
    hd.writeback.agree (ha .writeback), hd.operands.agree hc hlen ha⟩

theorem HoldsX86.agree {d : X86Detail} (hd : HoldsX86 m start d) (hlen : d.operands.length ≤ 8)
    (ha : ∀ x, m.AgreeAt m' start (memberOf Header.x86.fields x)) : HoldsX86 m' start d where
  prefixes := hd.prefixes.agree rfl (n := 5) (by simp) (ha .prefixes)
  segment := hd.segment.agree (ha .segment)
  opcode := hd.opcode.agree rfl (n := 3) (by simp) (ha .opcode)
  opSize := hd.opSize.agree (ha .opSize)
  addrSize := hd.addrSize.agree (ha .addrSize)
  dispSize := hd.dispSize.agree (ha .dispSize)
  immSize := hd.immSize.agree (ha .immSize)
  modrm := hd.modrm.agree (ha .modrm)
  sib := hd.sib.agree (ha .sib)
  disp := hd.disp.agree (ha .disp)
  sibIndex := hd.sibIndex.agree (ha .sibIndex)
  sibScale := hd.sibScale.agree (ha .sibScale)
  sibBase := hd.sibBase.agree (ha .sibBase)
  operands := hd.operands.agree (coherent_headers .x86) hlen ha

theorem HoldsPpc.agree {d : PpcDetail} (hd : HoldsPpc m start d) (hlen : d.operands.length ≤ 8)
    (ha : ∀ x, m.AgreeAt m' start (memberOf Header.ppc.fields x)) : HoldsPpc m' start d :=
  ⟨hd.bc.agree (ha .bc), hd.bh.agree (ha .bh), hd.updateCr0.agree (ha .updateCr0),
    hd.operands.agree (coherent_headers .ppc) hlen ha⟩

/-- What an architecture's structure holds hangs on the bytes of that structure. -/
theorem HoldsArch.agree {d : ArchDetail} (hd : HoldsArch m start d)
    (hlen : d.operands.length ≤ (headers d.arch).capacity)
    (ha : ∀ x, m.AgreeAt m' start (memberOf (headers d.arch).fields x)) : HoldsArch m' start d := by
  cases d with
  | arm d => exact HoldsArm.agree (coherent_headers .arm) hd hlen ha
  | arm64 d => exact HoldsArm.agree (coherent_headers .arm64) hd hlen ha
  | mips os => exact HoldsOperands.agree (coherent_headers .mips) hd hlen ha
  | x86 d => exact HoldsX86.agree hd hlen ha
  | ppc d => exact HoldsPpc.agree hd hlen ha

theorem HoldsIds.agree {array count : Member} {n : Nat} {ids : List UInt32}
    (hx : blockHeader.lookup array = some (CType.byte.array n)) (hi : HoldsIds m array count ids)
    (hlen : ids.length ≤ n) (harray : m.AgreeAt m' 0 (memberOf blockHeader array))
    (hcount : m.AgreeAt m' 0 (memberOf blockHeader count)) : HoldsIds m' array count ids :=
  ⟨hi.count.agree hcount, hi.ids.agree hx (by simpa using hlen) harray⟩

theorem fields_inside (a : Arch) {x : Member} {f : Field} (hf : f ∈ memberOf (headers a).fields x) :
    ∃ v ∈ memberOf blockHeader .arch, v.offset = archOffset ∧ f.offset + f.size ≤ v.size :=
  ⟨_, memberOf_arch, rfl, Nat.le_trans (memberOf_le hf) (size_fields_le a)⟩

/-- Agreement on the architecture's part of a block is agreement on the fields in it. -/
theorem Memory.AgreeAt.fields (ha : m.AgreeAt m' 0 (memberOf blockHeader .arch)) (a : Arch)
    (x : Member) : m.AgreeAt m' archOffset (memberOf (headers a).fields x) :=
  ha.inside fun f hf => by
    obtain ⟨v, hv, hoffset, hle⟩ := fields_inside a hf
    exact ⟨v, hv, by omega, by omega⟩

/-- What a block holds hangs on the bytes of its members. -/
theorem Holds.agree {d : Detail} (hd : Holds m d) (hw : d.WellFormed)
    (ha : ∀ x, m.AgreeAt m' 0 (memberOf blockHeader x)) : Holds m' d where
  regsRead := hd.regsRead.agree rfl hw.regsRead.length_le (ha _) (ha _)
  regsWrite := hd.regsWrite.agree rfl hw.regsWrite.length_le (ha _) (ha _)
  groups := hd.groups.agree rfl hw.groups.length_le (ha _) (ha _)
  arch := hd.arch.agree hw.length_le ((ha .arch).fields d.arch.arch)

end Disassembly
