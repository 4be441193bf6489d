import Disassembly.Proofs.Detail.Frame
import Disassembly.Proofs.Detail.Placement

/-!
# Decoding reads live bytes only

Which bytes of a block are live is said by the headers and by the block itself: entries up to a
count, and of an operand's value the variant that its kind number selects.  No block is excluded:
counts may exceed the room there is, and kind numbers may be unknown.

* `LiveIds`, `LiveValue`, `LiveOperand`, `LiveFields`, `LiveAgree` — two memories agree on the live
  bytes of a part;
* `decode_of_liveIds`, `decodeOperand_of_live`, `decode_of_liveFields` — then the part is read
  alike;
* `Detail.decode_of_liveAgree` — blocks that agree on their live bytes decode alike.
-/

namespace Disassembly

namespace Memory

/-- The number that stands in a member. -/
def numberAt (m : Memory) (start : Nat) (f : Option Field) : Nat :=
  (f.map fun x => littleEndian (m.slice (start + x.offset) x.size)).getD 0

/-- Two memories agree on the truth of a member: in both its bytes are zero, or in neither. -/
def AgreeOnTruth (m m' : Memory) (start : Nat) (f : Option Field) : Prop :=
  ∀ x ∈ f, (m'.slice (start + x.offset) x.size).any (· != 0) =
    (m.slice (start + x.offset) x.size).any (· != 0)

end Memory

open Memory

/-! ### Live bytes -/

/-- Members that are read as truth values. -/
def Member.flags : List Member := [.updateFlags, .writeback, .updateCr0]

/-- Agreement on a counted list of ids: on the count, and on the entries it counts. -/
structure LiveIds (m m' : Memory) (array count : Member) (capacity : Nat) : Prop where
  number : m.AgreeAt m' 0 (memberOf blockHeader count)
  entries : ∀ i < min (m.numberAt 0 (memberOf blockHeader count)) capacity,
    m.AgreeAt m' 0 (elementOf blockHeader array .byte i)

/-- Agreement on the variant of a kind. -/
def LiveValue (h : Header) (m m' : Memory) (start : Nat) : OperandKind → Prop
  | .invalid => True
  | .reg => m.AgreeAt m' start (h.valueOf .reg)
  | .imm | .cimm | .pimm => m.AgreeAt m' start (h.valueOf .imm)
  | .fp => m.AgreeAt m' start (h.valueOf .fp)
  | .mem => ∀ x ∈ h.memory.map Prod.fst, m.AgreeAt m' start (h.referenceOf x)

/-- Agreement on the operand record that begins at `start`. -/
structure LiveOperand (h : Header) (m m' : Memory) (start : Nat) : Prop where
  opType : m.AgreeAt m' start (memberOf h.operand .opType)
  value : LiveValue h m m' start (h.kindOf (m.numberAt start (memberOf h.operand .opType)))
  shiftType : m.AgreeAt m' start (h.shifterOf .shiftType)
  shiftValue : m.numberAt start (h.shifterOf .shiftType) ≠ 0 →
    m.AgreeAt m' start (h.shifterOf .shiftValue)
  ext : m.AgreeAt m' start (memberOf h.operand .ext)
  size : m.AgreeAt m' start (memberOf h.operand .size)

/-- Agreement on the architecture's structure that begins at `start`. -/
structure LiveFields (h : Header) (m m' : Memory) (start : Nat) : Prop where
  scalars : ∀ x ∈ h.fields.map Prod.fst, x ≠ .operands → x ∉ Member.flags →
    m.AgreeAt m' start (memberOf h.fields x)
  flags : ∀ x ∈ Member.flags, m.AgreeOnTruth m' start (memberOf h.fields x)
  operands : ∀ i < min (m.numberAt start (memberOf h.fields .opCount)) h.capacity,
    ∀ f ∈ h.operandOf i, LiveOperand h m m' (start + f.offset)

/-- Two memories agree on the live bytes of a block of an architecture. -/
structure LiveAgree (a : Arch) (m m' : Memory) : Prop where
  regsRead : LiveIds m m' .regsRead .regsReadCount 12
  regsWrite : LiveIds m m' .regsWrite .regsWriteCount 20
  groups : LiveIds m m' .groups .groupsCount 8
  fields : LiveFields (headers a) m m' archOffset

/-- A member that is neither the operands nor a truth value is live, declared or not. -/
theorem LiveFields.scalar {h : Header} {m m' : Memory} {start : Nat}
    (hlive : LiveFields h m m' start)
    {x : Member} (hx : x ≠ .operands) (hflag : x ∉ Member.flags) :
    m.AgreeAt m' start (memberOf h.fields x) :=
  fun f hf => hlive.scalars x (mem_of_memberOf hf) hx hflag f hf

/-! ### Reading where memories agree -/

theorem littleEndian_lt (bytes : List UInt8) : littleEndian bytes < 256 ^ bytes.length := by
  induction bytes with
  | nil => exact Nat.one_pos
  | cons b bs ih =>
    have hb := b.toNat_lt
    rw [littleEndian, List.length_cons, Nat.pow_succ]
    omega

namespace Memory

variable {m m' : Memory} {start o : Nat}

theorem numberAt_byte (m : Memory) (start o : Nat) :
    m.numberAt start (some ⟨o, 1⟩) = (m (start + o)).toNat := by
  simp [numberAt, slice, window, littleEndian]

theorem numberAt_word (m : Memory) (start o : Nat) :
    m.numberAt start (some ⟨o, 4⟩) = (m.u32 (start + o)).toNat := by
  have hlen : (m.slice (start + o) 4).length = 4 := by simp [slice]
  have hlt : littleEndian (m.slice (start + o) 4) < 2 ^ 32 := by
    have hbytes := littleEndian_lt (m.slice (start + o) 4)
    rw [hlen] at hbytes
    omega
  rw [u32, UInt32.toNat_ofNat', Nat.mod_eq_of_lt hlt]
  rfl

theorem AgreeAt.slice {w : Nat} (h : m.AgreeAt m' start (some ⟨o, w⟩)) :
    m'.slice (start + o) w = m.slice (start + o) w :=
  slice_congr (h ⟨o, w⟩ rfl)

theorem AgreeAt.byte (h : m.AgreeAt m' start (some ⟨o, 1⟩)) : m' (start + o) = m (start + o) :=
  h ⟨o, 1⟩ rfl (start + o) (Nat.le_refl _) (Nat.lt_succ_self _)

theorem AgreeAt.u32 (h : m.AgreeAt m' start (some ⟨o, 4⟩)) :
    m'.u32 (start + o) = m.u32 (start + o) := by
  rw [Memory.u32, Memory.u32, h.slice]

theorem AgreeAt.u64 (h : m.AgreeAt m' start (some ⟨o, 8⟩)) :
    m'.u64 (start + o) = m.u64 (start + o) := by
  rw [Memory.u64, Memory.u64, h.slice]

theorem AgreeAt.i32 (h : m.AgreeAt m' start (some ⟨o, 4⟩)) :
    m'.i32 (start + o) = m.i32 (start + o) := by
  rw [Memory.i32, Memory.i32, h.u32]

theorem AgreeAt.signed {l : OperandLayout} (h : m.AgreeAt m' start (some ⟨o, l.width⟩)) :
    l.signed m' (start + o) = l.signed m (start + o) := by
  unfold OperandLayout.width at h
  unfold OperandLayout.signed
  split at h
  · next hwide => rw [if_pos hwide, if_pos hwide, i64, i64, h.u64]
  · next hwide => rw [if_neg hwide, if_neg hwide, h.i32]

theorem AgreeOnTruth.flag (h : m.AgreeOnTruth m' start (some ⟨o, 1⟩)) :
    m'.flag (start + o) = m.flag (start + o) := by
  have htruth := h ⟨o, 1⟩ rfl
  simpa [slice, window, Memory.flag] using htruth

end Memory

/-! ### Counted lists of ids -/

theorem decode_of_liveIds {l : IdListLayout} {array count : Member} (hf : l.Follows array count)
    {m m' : Memory} (h : LiveIds m m' array count l.capacity) : l.decode m' = l.decode m := by
  have hcount := h.number
  have hentries := h.entries
  rw [hf.memberOf_count] at hcount hentries
  rw [numberAt_byte, Nat.zero_add] at hentries
  have hbyte := hcount.byte
  rw [Nat.zero_add] at hbyte
  rw [IdListLayout.decode, IdListLayout.decode, hbyte]
  congr 1
  apply List.map_congr_left
  intro i hi
  have hlive := hentries i (List.mem_range.mp hi)
  rw [hf.element] at hlive
  have hentry := hlive.byte
  rw [Nat.zero_add, Nat.mul_one] at hentry
  exact hentry

/-! ### Operands -/

namespace OperandLayout

variable {l : OperandLayout} {h : Header} {m m' : Memory} {start : Nat}

/-- The parts of a reference are structure members from the start of the value. -/
theorem Follows.agreeAt_referenceOf (hf : l.Follows h) {x : Member} :
    m.AgreeAt m' start (h.referenceOf x) ↔
      m.AgreeAt m' (start + l.value) (memberOf h.memory x) := by
  obtain ⟨v, hv, hoffset⟩ := Option.map_eq_some_iff.mp hf.mem
  rw [Header.referenceOf, hv, Option.bind_some]
  cases memberOf h.memory x with
  | none => simp [AgreeAt]
  | some f => simp [AgreeAt, hoffset, Nat.add_assoc]

theorem decodeMemory_of_live (hf : l.Follows h)
    (hlive : ∀ x ∈ h.memory.map Prod.fst, m.AgreeAt m' start (h.referenceOf x)) :
    l.decodeMemory (m'.window (start + l.value)) = l.decodeMemory (m.window (start + l.value)) := by
  have hpart : ∀ x, m.AgreeAt m' (start + l.value) (memberOf h.memory x) := fun x f hx =>
    hf.agreeAt_referenceOf.mp (hlive x (mem_of_memberOf hx)) f hx
  have hb := hpart .base
  have hi := hpart .index
  have hs := hpart .scale
  have hd := hpart .disp
  rw [hf.base] at hb
  rw [hf.index] at hi
  rw [hf.scale] at hs
  rw [hf.disp] at hd
  have hindex : l.index.map (m'.window (start + l.value)).u32 =
      l.index.map (m.window (start + l.value)).u32 := by
    cases ho : l.index with
    | none => rfl
    | some o =>
      rw [ho] at hi
      rw [Option.map_some, Option.map_some, u32_window, u32_window, hi.u32]
  have hscale : l.scale.map (m'.window (start + l.value)).i32 =
      l.scale.map (m.window (start + l.value)).i32 := by
    cases ho : l.scale with
    | none => rfl
    | some o =>
      rw [ho] at hs
      rw [Option.map_some, Option.map_some, i32_window, i32_window, hs.i32]
  rw [decodeMemory, decodeMemory, hindex, hscale, u32_window, u32_window, signed_window,
    signed_window, hb.u32, hd.signed]

theorem signed_of_live (hf : l.Follows h) (hlive : m.AgreeAt m' start (h.valueOf .imm)) :
    l.signed (m'.window (start + l.value)) 0 = l.signed (m.window (start + l.value)) 0 := by
  rw [hf.imm] at hlive
  rw [signed_window, signed_window, Nat.add_zero, hlive.signed]

/-- A number that says a kind says one the architecture has, or none at all. -/
theorem kindOf_mem (l : OperandLayout) (id : UInt32) :
    l.kindOf id = .invalid ∨ l.kindOf id ∈ l.kinds := by
  unfold kindOf
  cases hid : (OperandKind.invalid :: l.kinds)[id.toNat]? with
  | none => exact Or.inl rfl
  | some k => exact List.mem_cons.mp (List.mem_of_getElem? hid)

theorem decodeValue_of_live (hf : l.Follows h) {k : OperandKind} (hk : k = .invalid ∨ k ∈ l.kinds)
    (hlive : LiveValue h m m' start k) :
    l.decodeValue (m'.window (start + l.value)) k =
      l.decodeValue (m.window (start + l.value)) k := by
  cases k with
  | invalid => rfl
  | reg =>
    simp only [LiveValue, hf.reg] at hlive
    simp only [decodeValue, u32_window, Nat.add_zero, hlive.u32]
  | imm => exact congrArg OperandValue.imm (signed_of_live hf hlive)
  | cimm => exact congrArg OperandValue.cimm (signed_of_live hf hlive)
  | pimm => exact congrArg OperandValue.pimm (signed_of_live hf hlive)
  | fp =>
    have hmem : OperandKind.fp ∈ l.kinds := hk.resolve_left (by decide)
    simp only [LiveValue, hf.fp hmem] at hlive
    simp only [decodeValue, u64_window, Nat.add_zero, hlive.u64]
  | mem => exact congrArg OperandValue.mem (decodeMemory_of_live hf hlive)

/-- The amount of a shift is looked at only where its type is not zero. -/
theorem decodeShift_of_live (hf : l.Follows h)
    (htype : m.AgreeAt m' start (h.shifterOf .shiftType))
    (hvalue : m.numberAt start (h.shifterOf .shiftType) ≠ 0 →
      m.AgreeAt m' start (h.shifterOf .shiftValue)) :
    l.shift.bind (decodeShift (m'.window start)) = l.shift.bind (decodeShift (m.window start)) := by
  rw [hf.shiftType] at htype hvalue
  rw [hf.shiftValue] at hvalue
  cases ho : l.shift with
  | none => rfl
  | some p =>
    rw [ho] at htype hvalue
    simp only [Option.map_some] at htype hvalue
    rw [numberAt_word] at hvalue
    simp only [Option.bind_some, decodeShift, u32_window, htype.u32]
    split
    · rfl
    · next hne =>
      have hnat : (m.u32 (start + p)).toNat ≠ 0 := fun hzero => hne (UInt32.toNat.inj hzero)
      rw [(hvalue hnat).u32]

theorem decodeExt_of_live (hf : l.Follows h)
    (hlive : m.AgreeAt m' start (memberOf h.operand .ext)) :
    l.ext.bind (decodeExt (m'.window start)) = l.ext.bind (decodeExt (m.window start)) := by
  rw [hf.ext] at hlive
  cases ho : l.ext with
  | none => rfl
  | some p =>
    rw [ho] at hlive
    simp only [Option.bind_some, decodeExt, u32_window, hlive.u32]

theorem decodeSize_of_live (hf : l.Follows h)
    (hlive : m.AgreeAt m' start (memberOf h.operand .size)) :
    l.size.map (m'.window start) = l.size.map (m.window start) := by
  rw [hf.size] at hlive
  cases ho : l.size with
  | none => rfl
  | some p =>
    rw [ho] at hlive
    exact congrArg some hlive.byte

/-- An operand record is read alike: the kind number is live, and it selects the variant. -/
theorem decodeOperand_of_live (hf : l.Follows h) (hlive : LiveOperand h m m' start) :
    l.decodeOperand (m'.window start) = l.decodeOperand (m.window start) := by
  have htype := hlive.opType
  have hvalue := hlive.value
  rw [hf.opType] at htype hvalue
  rw [numberAt_word, ← hf.kindOf] at hvalue
  have hread := decodeValue_of_live hf (l.kindOf_mem _) hvalue
  rw [decodeOperand, decodeOperand, u32_window, u32_window, htype.u32, window_window,
    window_window, hread, decodeShift_of_live hf hlive.shiftType hlive.shiftValue,
    decodeExt_of_live hf hlive.ext, decodeSize_of_live hf hlive.size]

theorem decode_of_liveFields (hf : l.Follows h) (hlive : LiveFields h m m' start) :
    l.decode (m'.window start) = l.decode (m.window start) := by
  have hcount := hlive.scalar (x := .opCount) (by decide) (by decide)
  have hoperands := hlive.operands
  rw [hf.opCount] at hcount hoperands
  rw [numberAt_byte, ← hf.capacity] at hoperands
  have hfilled : l.filled (m'.window start) = l.filled (m.window start) := by
    rw [filled, filled, window, window, hcount.byte]
  rw [decode, decode, hfilled]
  apply List.map_congr_left
  intro i hi
  rw [window_window, window_window]
  exact decodeOperand_of_live hf (hoperands i (List.mem_range.mp hi) _ (hf.operandOf i))

end OperandLayout

/-! ### The fields of an architecture -/

variable {m m' : Memory} {start : Nat}

theorem ArmDetail.decode_of_live {l : OperandLayout} {h : Header} (hf : l.Follows h)
    (hcc : memberOf h.fields .cc = some ⟨0, 4⟩)
    (hupdate : memberOf h.fields .updateFlags = some ⟨4, 1⟩)
    (hwriteback : memberOf h.fields .writeback = some ⟨5, 1⟩) (hlive : LiveFields h m m' start) :
    ArmDetail.decode l (m'.window start) = ArmDetail.decode l (m.window start) := by
  have hc := hlive.scalar (x := .cc) (by decide) (by decide)
  have hu := hlive.flags .updateFlags (by decide)
  have hb := hlive.flags .writeback (by decide)
  rw [hcc] at hc
  rw [hupdate] at hu
  rw [hwriteback] at hb
  have hflags : (m'.window start).flag 4 = (m.window start).flag 4 := hu.flag
  have hback : (m'.window start).flag 5 = (m.window start).flag 5 := hb.flag
  rw [ArmDetail.decode, ArmDetail.decode, u32_window, u32_window, hc.u32, hflags, hback,
    OperandLayout.decode_of_liveFields hf hlive]

theorem PpcDetail.decode_of_live (hlive : LiveFields Header.ppc m m' start) :
    PpcDetail.decode (m'.window start) = PpcDetail.decode (m.window start) := by
  have hbc : m'.u32 (start + 0) = m.u32 (start + 0) :=
    (hlive.scalar (x := .bc) (by decide) (by decide)).u32
  have hbh : m'.u32 (start + 4) = m.u32 (start + 4) :=
    (hlive.scalar (x := .bh) (by decide) (by decide)).u32
  have hcr : (m'.window start).flag 8 = (m.window start).flag 8 :=
    (hlive.flags .updateCr0 (by decide)).flag
  have hops : OperandLayout.ppc.decode (m'.window start) =
      OperandLayout.ppc.decode (m.window start) :=
    OperandLayout.decode_of_liveFields (OperandLayout.follows .ppc) hlive
  simp only [PpcDetail.decode, u32_window, hbc, hbh, hcr, hops]

theorem X86Detail.decode_of_live (hlive : LiveFields Header.x86 m m' start) :
    X86Detail.decode (m'.window start) = X86Detail.decode (m.window start) := by
  have hscalar : ∀ x, x ≠ .operands → x ∉ Member.flags →
      m.AgreeAt m' start (memberOf Header.x86.fields x) := fun _ => hlive.scalar
  have hprefixes : ∀ i : Fin 5, m'.window start i = m.window start i := fun i =>
    hscalar .prefixes (by decide) (by decide) ⟨0, 5⟩ rfl _ (Nat.le_add_right _ _)
      (Nat.add_lt_add_left i.isLt start)
  have hopcode : ∀ i : Fin 3, m'.window start (12 + i) = m.window start (12 + i) := fun i =>
    hscalar .opcode (by decide) (by decide) ⟨12, 3⟩ rfl _ (by dsimp only; omega)
      (by have := i.isLt; dsimp only; omega)
  have hsegment : m'.u32 (start + 8) = m.u32 (start + 8) :=
    (hscalar .segment (by decide) (by decide)).u32
  have hopSize : m'.window start 15 = m.window start 15 :=
    (hscalar .opSize (by decide) (by decide)).byte
  have haddrSize : m'.window start 16 = m.window start 16 :=
    (hscalar .addrSize (by decide) (by decide)).byte
  have hdispSize : m'.window start 17 = m.window start 17 :=
    (hscalar .dispSize (by decide) (by decide)).byte
  have himmSize : m'.window start 18 = m.window start 18 :=
    (hscalar .immSize (by decide) (by decide)).byte
  have hmodrm : m'.window start 19 = m.window start 19 :=
    (hscalar .modrm (by decide) (by decide)).byte
  have hsib : m'.window start 20 = m.window start 20 :=
    (hscalar .sib (by decide) (by decide)).byte
  have hdisp : m'.i32 (start + 24) = m.i32 (start + 24) :=
    (hscalar .disp (by decide) (by decide)).i32
  have hsibIndex : m'.u32 (start + 28) = m.u32 (start + 28) :=
    (hscalar .sibIndex (by decide) (by decide)).u32
  have hsibScale : m'.window start 32 = m.window start 32 :=
    (hscalar .sibScale (by decide) (by decide)).byte
  have hsibBase : m'.u32 (start + 36) = m.u32 (start + 36) :=
    (hscalar .sibBase (by decide) (by decide)).u32
  have hops : OperandLayout.x86.decode (m'.window start) =
      OperandLayout.x86.decode (m.window start) :=
    OperandLayout.decode_of_liveFields (OperandLayout.follows .x86) hlive
  simp only [X86Detail.decode, u32_window, i32_window, hprefixes, hopcode, hsegment, hopSize,
    haddrSize, hdispSize, himmSize, hmodrm, hsib, hdisp, hsibIndex, hsibScale, hsibBase, hops]

theorem ArchDetail.decode_of_live {a : Arch} (hlive : LiveFields (headers a) m m' start) :
    ArchDetail.decode (m'.window start) a = ArchDetail.decode (m.window start) a := by
  cases a with
  | arm =>
    exact congrArg ArchDetail.arm
      (ArmDetail.decode_of_live (OperandLayout.follows .arm) rfl rfl rfl hlive)
  | arm64 =>
    exact congrArg ArchDetail.arm64
      (ArmDetail.decode_of_live (OperandLayout.follows .arm64) rfl rfl rfl hlive)
  | mips =>
    exact congrArg ArchDetail.mips
      (OperandLayout.decode_of_liveFields (OperandLayout.follows .mips) hlive)
  | x86 => exact congrArg ArchDetail.x86 (X86Detail.decode_of_live hlive)
  | ppc => exact congrArg ArchDetail.ppc (PpcDetail.decode_of_live hlive)

/-! ### The whole block -/

/-- **Decoding reads live bytes only**: blocks that agree on them decode alike, whatever their
counts and kind numbers, and whatever else they hold. -/
theorem Detail.decode_of_liveAgree (a : Arch) (b b' : Block)
    (h : LiveAgree a b.memory b'.memory) : Detail.decode a b' = Detail.decode a b := by
  have hread : IdListLayout.regsRead.decode b'.memory = IdListLayout.regsRead.decode b.memory :=
    decode_of_liveIds IdListLayout.follows_regsRead h.regsRead
  have hwrite : IdListLayout.regsWrite.decode b'.memory = IdListLayout.regsWrite.decode b.memory :=
    decode_of_liveIds IdListLayout.follows_regsWrite h.regsWrite
  have hgroups : IdListLayout.groups.decode b'.memory = IdListLayout.groups.decode b.memory :=
    decode_of_liveIds IdListLayout.follows_groups h.groups
  have harch : ArchDetail.decode (b'.memory.window archStart) a =
      ArchDetail.decode (b.memory.window archStart) a := ArchDetail.decode_of_live h.fields
  rw [Detail.decode, Detail.decode, Detail.ofMemory, Detail.ofMemory, hread, hwrite, hgroups, harch]

/-! Agreement on the live bytes can be computed. -/

instance (f : Option Field) : Decidable (m.AgreeAt m' start f) :=
  decidable_of_iff
    (∀ x ∈ f, ∀ j < x.size, m' (start + x.offset + j) = m (start + x.offset + j))
    ⟨fun h x hx i hlow hhigh => by
      have hj := h x hx (i - (start + x.offset)) (by omega)
      rwa [Nat.add_sub_cancel' hlow] at hj,
    fun h x hx j hj => h x hx _ (Nat.le_add_right _ _) (Nat.add_lt_add_left hj _)⟩

instance (f : Option Field) : Decidable (m.AgreeOnTruth m' start f) :=
  inferInstanceAs (Decidable (∀ x ∈ f, _ = _))

instance (array count : Member) (capacity : Nat) : Decidable (LiveIds m m' array count capacity) :=
  decidable_of_iff (_ ∧ _) ⟨fun ⟨hnumber, hentries⟩ => ⟨hnumber, hentries⟩,
    fun h => ⟨h.number, h.entries⟩⟩

instance (h : Header) : (k : OperandKind) → Decidable (LiveValue h m m' start k)
  | .invalid => isTrue trivial
  | .reg => inferInstanceAs (Decidable (AgreeAt _ _ _ _))
  | .imm => inferInstanceAs (Decidable (AgreeAt _ _ _ _))
  | .cimm => inferInstanceAs (Decidable (AgreeAt _ _ _ _))
  | .pimm => inferInstanceAs (Decidable (AgreeAt _ _ _ _))
  | .fp => inferInstanceAs (Decidable (AgreeAt _ _ _ _))
  | .mem => inferInstanceAs (Decidable (∀ x ∈ h.memory.map Prod.fst, AgreeAt _ _ _ _))

instance (h : Header) : Decidable (LiveOperand h m m' start) :=
  decidable_of_iff (_ ∧ _ ∧ _ ∧ _ ∧ _ ∧ _)
    ⟨fun ⟨htype, hvalue, hshift, hamount, hext, hsize⟩ =>
      ⟨htype, hvalue, hshift, hamount, hext, hsize⟩,
    fun h => ⟨h.opType, h.value, h.shiftType, h.shiftValue, h.ext, h.size⟩⟩

instance (h : Header) : Decidable (LiveFields h m m' start) :=
  decidable_of_iff (_ ∧ _ ∧ _)
    ⟨fun ⟨hscalars, hflags, hoperands⟩ => ⟨hscalars, hflags, hoperands⟩,
    fun h => ⟨h.scalars, h.flags, h.operands⟩⟩

instance (a : Arch) : Decidable (LiveAgree a m m') :=
  decidable_of_iff (_ ∧ _ ∧ _ ∧ _)
    ⟨fun ⟨hread, hwrite, hgroups, hfields⟩ => ⟨hread, hwrite, hgroups, hfields⟩,
    fun h => ⟨h.regsRead, h.regsWrite, h.groups, h.fields⟩⟩

/-- An ARM block that claims 200 operands, the first a shifted register and the others of no kind,
with a filler in every dead byte and in the bytes that say true. -/
def Block.stale (filler : UInt8) : Block :=
  .ofMemory fun i =>
    if i ∈ [12, 33, 42, 61, 62, 63] then 0
    else if i = 54 then 200
    else if i ∈ [56, 60, 64, 72] then 1
    else if 48 ≤ i ∧ i % 8 < 4 ∧ i ≠ 52 ∧ i ≠ 53 then 0
    else filler

/-- Two such blocks differ in hundreds of bytes and decode alike. -/
theorem Detail.decode_stale :
    LiveAgree .arm (Block.stale 1).memory (Block.stale 255).memory ∧
      Detail.decode .arm (.stale 255) = Detail.decode .arm (.stale 1) := by
  have hlive : LiveAgree .arm (Block.stale 1).memory (Block.stale 255).memory := by
    rw [Block.stale, Block.stale, Block.memory_ofMemory, Block.memory_ofMemory]
    decide +kernel
  exact ⟨hlive, Detail.decode_of_liveAgree .arm (.stale 1) (.stale 255) hlive⟩

end Disassembly
