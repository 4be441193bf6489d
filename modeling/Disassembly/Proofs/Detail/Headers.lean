import Disassembly.Detail.Basic
import Disassembly.Detail.Block
import Disassembly.Proofs.Detail.Structure
import Mathlib.Algebra.Group.Int.Defs
import Mathlib.Algebra.Group.Nat.Defs

/-!
# The engine's headers

Where a detail block keeps its fields is not a table that somebody chose: the engine's headers
declare structures, and the compiler places their members.  This file carries the declarations
and says what it is for a memory to hold a detail, and nothing of how blocks are read or written:

* `Header` and `headers` — the structures of the five architectures, with their operand kinds;
* `Memory.Stores` — a number stands in a member, in two's complement, least significant byte
  first; `Holds` — a memory holds a detail, member by member;
* `Detail.WellFormed` — the details that the declared structures have room for.
-/

namespace Disassembly

/-! ### What the headers declare -/

/-- The structures of one architecture: its own, an operand record with its union, and a memory
reference, with the room for operand records and the numbers of their kinds. -/
structure Header where
  fields : Members
  operand : Members
  value : Members
  memory : Members
  capacity : Nat
  kinds : List (Nat × OperandKind)

namespace Header

open CType

/-- A shifter, on ARM and ARM64. -/
def shifter : Members :=
  [(.shiftType, word), (.shiftValue, word)]

def armMemory : Members :=
  [(.base, word), (.index, word), (.scale, word), (.disp, word)]

def armValue : Members :=
  [(.reg, word), (.imm, word), (.fp, double), (.mem, record armMemory)]

def armOperand : Members :=
  [(.shift, record shifter), (.opType, word), (.value, union (armValue.map Prod.snd))]

def arm : Header where
  fields :=
    [(.cc, word), (.updateFlags, byte), (.writeback, byte), (.opCount, byte),
      (.operands, array (record armOperand) 20)]
  operand := armOperand
  value := armValue
  memory := armMemory
  capacity := 20
  kinds := [(1, .reg), (2, .cimm), (3, .pimm), (4, .imm), (5, .fp), (6, .mem)]

def arm64Memory : Members :=
  [(.base, word), (.index, word), (.disp, word)]

def arm64Value : Members :=
  [(.reg, word), (.imm, word), (.fp, double), (.mem, record arm64Memory)]

def arm64Operand : Members :=
  [(.shift, record shifter), (.ext, word), (.opType, word),
    (.value, union (arm64Value.map Prod.snd))]

def arm64 : Header where
  fields :=
    [(.cc, word), (.updateFlags, byte), (.writeback, byte), (.opCount, byte),
      (.operands, array (record arm64Operand) 8)]
  operand := arm64Operand
  value := arm64Value
  memory := arm64Memory
  capacity := 8
  kinds := [(1, .reg), (2, .cimm), (3, .imm), (4, .fp), (5, .mem)]

def mipsMemory : Members :=
  [(.base, word), (.disp, double)]

def mipsValue : Members :=
  [(.reg, word), (.imm, double), (.mem, record mipsMemory)]

def mipsOperand : Members :=
  [(.opType, word), (.value, union (mipsValue.map Prod.snd))]

def mips : Header where
  fields := [(.opCount, byte), (.operands, array (record mipsOperand) 8)]
  operand := mipsOperand
  value := mipsValue
  memory := mipsMemory
  capacity := 8
  kinds := [(1, .reg), (2, .imm), (3, .mem)]

def x86Memory : Members :=
  [(.base, word), (.index, word), (.scale, word), (.disp, double)]

def x86Value : Members :=
  [(.reg, word), (.imm, double), (.fp, double), (.mem, record x86Memory)]

def x86Operand : Members :=
  [(.opType, word), (.value, union (x86Value.map Prod.snd)), (.size, byte)]

def x86 : Header where
  fields :=
    [(.prefixes, array byte 5), (.segment, word), (.opcode, array byte 3), (.opSize, byte),
      (.addrSize, byte), (.dispSize, byte), (.immSize, byte), (.modrm, byte), (.sib, byte),
      (.disp, word), (.sibIndex, word), (.sibScale, byte), (.sibBase, word), (.opCount, byte),
      (.operands, array (record x86Operand) 8)]
  operand := x86Operand
  value := x86Value
  memory := x86Memory
  capacity := 8
  kinds := [(1, .reg), (2, .imm), (3, .fp), (4, .mem)]

def ppcMemory : Members :=
  [(.base, word), (.disp, word)]

def ppcValue : Members :=
  [(.reg, word), (.imm, word), (.mem, record ppcMemory)]

def ppcOperand : Members :=
  [(.opType, word), (.value, union (ppcValue.map Prod.snd))]

def ppc : Header where
  fields :=
    [(.bc, word), (.bh, word), (.updateCr0, byte), (.opCount, byte),
      (.operands, array (record ppcOperand) 8)]
  operand := ppcOperand
  value := ppcValue
  memory := ppcMemory
  capacity := 8
  kinds := [(1, .reg), (2, .imm), (3, .mem)]

/-- The operand record with an index. -/
def operandOf (h : Header) (i : Nat) : Option Field :=
  elementOf h.fields .operands (record h.operand) i

/-- The kind with a number; a number the headers do not list is that of an invalid operand. -/
def kindOf (h : Header) (id : Nat) : OperandKind :=
  (h.kinds.lookup id).getD .invalid

/-- A part of the shifter of an operand, if the architecture has shifters. -/
def shifterOf (h : Header) (m : Member) : Option Field :=
  (memberOf h.operand .shift).bind fun s =>
    (memberOf shifter m).map fun f => ⟨s.offset + f.offset, f.size⟩

/-- A variant of the value of an operand, from the start of the operand. -/
def valueOf (h : Header) (m : Member) : Option Field :=
  (memberOf h.operand .value).bind fun v =>
    (variantOf h.value m).map fun f => ⟨v.offset + f.offset, f.size⟩

/-- A part of the memory reference in the value of an operand, from the start of the operand. -/
def referenceOf (h : Header) (m : Member) : Option Field :=
  (h.valueOf .mem).bind fun v =>
    (memberOf h.memory m).map fun f => ⟨v.offset + f.offset, f.size⟩

/-- The structures of an architecture are declared in terms of each other: the value of an operand
is the union of its variants, one of which is a memory reference, and the operands are an array
of operand records. -/
structure Coherent (h : Header) : Prop where
  value : h.operand.lookup .value = some (union (h.value.map Prod.snd))
  mem : h.value.lookup .mem = some (record h.memory)
  shift : ∀ t ∈ h.operand.lookup .shift, t = record shifter
  operands : h.fields.lookup .operands = some (array (record h.operand) h.capacity)

end Header

open Header in
/-- The structures of each architecture. -/
def headers : Arch → Header
  | .arm => arm
  | .arm64 => arm64
  | .mips => mips
  | .x86 => x86
  | .ppc => ppc

theorem coherent_headers (a : Arch) : (headers a).Coherent := by
  cases a with
  | arm => exact ⟨rfl, rfl, fun _ ht => (Option.some.inj ht).symm, rfl⟩
  | arm64 => exact ⟨rfl, rfl, fun _ ht => (Option.some.inj ht).symm, rfl⟩
  | mips => exact ⟨rfl, rfl, fun _ ht => (nomatch ht), rfl⟩
  | x86 => exact ⟨rfl, rfl, fun _ ht => (nomatch ht), rfl⟩
  | ppc => exact ⟨rfl, rfl, fun _ ht => (nomatch ht), rfl⟩

open CType in
/-- The block: three counted lists of ids, and the union of the architectures' structures. -/
def blockHeader : Members :=
  [(.regsRead, array byte 12), (.regsReadCount, byte), (.regsWrite, array byte 20),
    (.regsWriteCount, byte), (.groups, array byte 8), (.groupsCount, byte),
    (.arch, union (Arch.all.map fun a => record (headers a).fields))]

/-- The declared block takes exactly the bytes of a `Block`. -/
theorem size_blockHeader : (CType.record blockHeader).size = 696 := by decide +kernel

/-- Where the architecture's structure starts in a block. -/
def archOffset : Nat :=
  ((memberOf blockHeader .arch).map Field.offset).getD 0

/-! ### Numbers in memory -/

namespace Memory

/-- A number stands in a member of a structure that begins at `start`: in two's complement, least
significant byte first.  In a member the structure lacks nothing stands. -/
def Stores (m : Memory) (start : Nat) (f : Option Field) (n : Int) : Prop :=
  ∀ x ∈ f, m.slice (start + x.offset) x.size =
    littleEndianDigits x.size (n % 256 ^ x.size).toNat

/-- A truth value stands in a member: any byte but zero says true. -/
def StoresFlag (m : Memory) (start : Nat) (f : Option Field) (on : Bool) : Prop :=
  ∀ x ∈ f, on = (m.slice (start + x.offset) x.size).any (· != 0)

end Memory

/-- The elements of a list stand in the first elements of an array member. -/
def StoresBytes (m : Memory) (start : Nat) (ms : Members) (array : Member) (l : List Int) : Prop :=
  ∀ (i : Nat) (h : i < l.length), m.Stores start (elementOf ms array .byte i) l[i]

/-- A counted list of ids stands in two members of the block. -/
structure HoldsIds (m : Memory) (array count : Member) (ids : List UInt32) : Prop where
  count : m.Stores 0 (memberOf blockHeader count) ids.length
  ids : StoresBytes m 0 blockHeader array (ids.map fun id => (id.toNat : Int))

/-- A value stands in the operand record that begins at `start`, in the variant of its kind. -/
def HoldsValue (h : Header) (m : Memory) (start : Nat) : OperandValue → Prop
  | .invalid => True
  | .reg r => m.Stores start (h.valueOf .reg) r.toNat
  | .imm n => m.Stores start (h.valueOf .imm) n.toInt
  | .cimm n => m.Stores start (h.valueOf .imm) n.toInt
  | .pimm n => m.Stores start (h.valueOf .imm) n.toInt
  | .fp bits => m.Stores start (h.valueOf .fp) bits.toNat
  | .mem r =>
    m.Stores start (h.referenceOf .base) r.base.toNat ∧
      m.Stores start (h.referenceOf .index) r.index.toNat ∧
      m.Stores start (h.referenceOf .scale) r.scale.toInt ∧
      m.Stores start (h.referenceOf .disp) r.disp.toInt

/-- A shifter stands in the operand record that begins at `start`; without one its type is zero
and its value may be anything. -/
def HoldsShift (h : Header) (m : Memory) (start : Nat) : Option Shift → Prop
  | some s =>
    m.Stores start (h.shifterOf .shiftType) s.kind.toNat ∧
      m.Stores start (h.shifterOf .shiftValue) s.value.toNat
  | none => m.Stores start (h.shifterOf .shiftType) 0

/-- An operand stands in the record that begins at `start`. -/
structure HoldsOperand (h : Header) (m : Memory) (start : Nat) (o : Operand) : Prop where
  /-- The number of the operand's kind, any unlisted number for an invalid operand. -/
  kind : ∃ id : UInt32,
    m.Stores start (memberOf h.operand .opType) id.toNat ∧ h.kindOf id.toNat = o.kind
  value : HoldsValue h m start o.value
  shift : HoldsShift h m start o.shift
  ext : m.Stores start (memberOf h.operand .ext) (o.ext.getD 0).toNat
  size : m.Stores start (memberOf h.operand .size) (o.size.getD 0).toNat

/-- Operands and their number stand in the architecture's structure that begins at `start`. -/
structure HoldsOperands (h : Header) (m : Memory) (start : Nat) (os : List Operand) : Prop where
  count : m.Stores start (memberOf h.fields .opCount) os.length
  operands : ∀ (i : Nat) (hi : i < os.length), ∀ f ∈ h.operandOf i,
    HoldsOperand h m (start + f.offset) os[i]

/-- ARM or ARM64 fields stand in the structure that begins at `start`. -/
structure HoldsArm (h : Header) (m : Memory) (start : Nat) (d : ArmDetail) : Prop where
  cc : m.Stores start (memberOf h.fields .cc) d.cc.toNat
  updateFlags : m.StoresFlag start (memberOf h.fields .updateFlags) d.updateFlags
  writeback : m.StoresFlag start (memberOf h.fields .writeback) d.writeback
  operands : HoldsOperands h m start d.operands

/-- X86 fields stand in the structure that begins at `start`. -/
structure HoldsX86 (m : Memory) (start : Nat) (d : X86Detail) : Prop where
  prefixes : StoresBytes m start Header.x86.fields .prefixes
    (d.prefixes.toList.map fun b => (b.toNat : Int))
  segment : m.Stores start (memberOf Header.x86.fields .segment) d.segment.toNat
  opcode : StoresBytes m start Header.x86.fields .opcode
    (d.opcode.toList.map fun b => (b.toNat : Int))
  opSize : m.Stores start (memberOf Header.x86.fields .opSize) d.opSize.toNat
  addrSize : m.Stores start (memberOf Header.x86.fields .addrSize) d.addrSize.toNat
  dispSize : m.Stores start (memberOf Header.x86.fields .dispSize) d.dispSize.toNat
  immSize : m.Stores start (memberOf Header.x86.fields .immSize) d.immSize.toNat
  modrm : m.Stores start (memberOf Header.x86.fields .modrm) d.modrm.toNat
  sib : m.Stores start (memberOf Header.x86.fields .sib) d.sib.toNat
  disp : m.Stores start (memberOf Header.x86.fields .disp) d.disp.toInt
  sibIndex : m.Stores start (memberOf Header.x86.fields .sibIndex) d.sibIndex.toNat
  sibScale : m.Stores start (memberOf Header.x86.fields .sibScale) d.sibScale.toInt
  sibBase : m.Stores start (memberOf Header.x86.fields .sibBase) d.sibBase.toNat
  operands : HoldsOperands Header.x86 m start d.operands

/-- PPC fields stand in the structure that begins at `start`. -/
structure HoldsPpc (m : Memory) (start : Nat) (d : PpcDetail) : Prop where
  bc : m.Stores start (memberOf Header.ppc.fields .bc) d.bc.toNat
  bh : m.Stores start (memberOf Header.ppc.fields .bh) d.bh.toNat
  updateCr0 : m.StoresFlag start (memberOf Header.ppc.fields .updateCr0) d.updateCr0
  operands : HoldsOperands Header.ppc m start d.operands

/-- An architecture's fields stand in its structure that begins at `start`. -/
def HoldsArch (m : Memory) (start : Nat) : ArchDetail → Prop
  | .arm d => HoldsArm Header.arm m start d
  | .arm64 d => HoldsArm Header.arm64 m start d
  | .mips os => HoldsOperands Header.mips m start os
  | .x86 d => HoldsX86 m start d
  | .ppc d => HoldsPpc m start d

/-- A memory holds a detail, each of its parts in the member that the headers declare for it. -/
structure Holds (m : Memory) (d : Detail) : Prop where
  regsRead : HoldsIds m .regsRead .regsReadCount d.regsRead
  regsWrite : HoldsIds m .regsWrite .regsWriteCount d.regsWrite
  groups : HoldsIds m .groups .groupsCount d.groups
  arch : HoldsArch m archOffset d.arch

/-! ### Details the headers have room for -/

/-- A signed number of some bytes. -/
def FitsSigned (bytes : Nat) (n : Int) : Prop :=
  -(2 ^ (8 * bytes - 1) : Int) ≤ n ∧ n < 2 ^ (8 * bytes - 1)

/-- An operand that an architecture's operand record can express: what is not declared there has its
default, and what is declared fits. -/
structure Operand.WellFormed (h : Header) (o : Operand) : Prop where
  kind : o.kind = .invalid ∨ o.kind ∈ h.kinds.map Prod.snd
  imm : ∀ n ∈ o.imm, ∀ f ∈ h.valueOf .imm, FitsSigned f.size n.toInt
  disp : ∀ r ∈ o.mem, ∀ f ∈ memberOf h.memory .disp, FitsSigned f.size r.disp.toInt
  index : ∀ r ∈ o.mem, memberOf h.memory .index = none → r.index = 0
  scale : ∀ r ∈ o.mem, memberOf h.memory .scale = none → r.scale = 1
  shift : ∀ s ∈ o.shift, (h.shifterOf .shiftType).isSome ∧ s.kind ≠ 0
  ext : ∀ e ∈ o.ext, (memberOf h.operand .ext).isSome ∧ e ≠ 0
  size : o.size.isSome = (memberOf h.operand .size).isSome

/-- A list of ids of one byte each that fits the room it has. -/
structure IdsFit (capacity : Nat) (ids : List UInt32) : Prop where
  length_le : ids.length ≤ capacity
  lt : ∀ id ∈ ids, id < 256

/-- A detail that the block and its architecture's structure can express. -/
structure Detail.WellFormed (d : Detail) : Prop where
  regsRead : IdsFit 12 d.regsRead
  regsWrite : IdsFit 20 d.regsWrite
  groups : IdsFit 8 d.groups
  length_le : d.operands.length ≤ (headers d.arch.arch).capacity
  operands : ∀ o ∈ d.operands, o.WellFormed (headers d.arch.arch)

/-! Whether a detail is well-formed can be computed.  What holds of all ids in a list or of a
number that may be there is decided by looking at these, not at all numbers of the type. -/

instance (bytes : Nat) (n : Int) : Decidable (FitsSigned bytes n) :=
  inferInstanceAs (Decidable (_ ∧ _))

instance (priority := high) decidableForallMemList {α : Type} (l : List α) (p : α → Prop)
    [DecidablePred p] : Decidable (∀ a ∈ l, p a) :=
  List.decidableBAll p l

instance (priority := high) decidableForallMemOption {α : Type} (o : Option α) (p : α → Prop)
    [DecidablePred p] : Decidable (∀ a ∈ o, p a) :=
  Option.decidableForallMem o

instance (h : Header) (o : Operand) : Decidable (o.WellFormed h) :=
  decidable_of_iff
    ((o.kind = .invalid ∨ o.kind ∈ h.kinds.map Prod.snd) ∧
      (∀ n ∈ o.imm, ∀ f ∈ h.valueOf .imm, FitsSigned f.size n.toInt) ∧
      (∀ r ∈ o.mem, ∀ f ∈ memberOf h.memory .disp, FitsSigned f.size r.disp.toInt) ∧
      (∀ r ∈ o.mem, memberOf h.memory .index = none → r.index = 0) ∧
      (∀ r ∈ o.mem, memberOf h.memory .scale = none → r.scale = 1) ∧
      (∀ s ∈ o.shift, (h.shifterOf .shiftType).isSome ∧ s.kind ≠ 0) ∧
      (∀ e ∈ o.ext, (memberOf h.operand .ext).isSome ∧ e ≠ 0) ∧
      o.size.isSome = (memberOf h.operand .size).isSome)
    ⟨fun ⟨hkind, himm, hdisp, hindex, hscale, hshift, hext, hsize⟩ =>
      ⟨hkind, himm, hdisp, hindex, hscale, hshift, hext, hsize⟩,
    fun hw => ⟨hw.kind, hw.imm, hw.disp, hw.index, hw.scale, hw.shift, hw.ext, hw.size⟩⟩

instance (capacity : Nat) (ids : List UInt32) : Decidable (IdsFit capacity ids) :=
  decidable_of_iff (ids.length ≤ capacity ∧ ∀ id ∈ ids, id < 256)
    ⟨fun ⟨hlen, hlt⟩ => ⟨hlen, hlt⟩, fun hfit => ⟨hfit.length_le, hfit.lt⟩⟩

instance (d : Detail) : Decidable d.WellFormed :=
  decidable_of_iff
    (IdsFit 12 d.regsRead ∧ IdsFit 20 d.regsWrite ∧ IdsFit 8 d.groups ∧
      d.operands.length ≤ (headers d.arch.arch).capacity ∧
      ∀ o ∈ d.operands, o.WellFormed (headers d.arch.arch))
    ⟨fun ⟨hread, hwrite, hgroups, hlen, hops⟩ => ⟨hread, hwrite, hgroups, hlen, hops⟩,
      fun hw => ⟨hw.regsRead, hw.regsWrite, hw.groups, hw.length_le, hw.operands⟩⟩

/-! ### The union of the architectures' structures -/

theorem memberOf_arch : memberOf blockHeader .arch = some ⟨archOffset, 648⟩ := by decide +kernel

/-- Every architecture's structure fits the union. -/
theorem size_fields_le (a : Arch) : (CType.record (headers a).fields).size ≤ 648 := by
  cases a <;> decide +kernel

end Disassembly
