import Disassembly.Detail.Basic
import Disassembly.Detail.Layout
import Disassembly.Text.Quoted

/-!
# Reading a detail block

`Detail.decode` reads a block as the detail of an instruction of a given
architecture. The block does not say which architecture filled it, so the
architecture always comes along. Counts beyond a list's room are cut to it, so
every offset stays inside the block.
-/

namespace Disassembly

namespace IdListLayout

/-- The ids of a counted list, as many as there are room for at most. -/
def decode (l : IdListLayout) (m : Memory) : List UInt32 :=
  (m.slice l.start (min (m l.count).toNat l.capacity)).map UInt8.toUInt32

end IdListLayout

namespace OperandLayout

/-- A signed number of the architecture's width, extended to 64 bits. -/
def signed (l : OperandLayout) (m : Memory) (start : Nat) : Int64 :=
  if l.wide then m.i64 start else (m.i32 start).toInt64

def decodeMemory (l : OperandLayout) (m : Memory) : MemoryOperand where
  base := m.u32 0
  index := (l.index.map m.u32).getD 0
  scale := (l.scale.map m.i32).getD 1
  disp := l.signed m l.disp

/-- The value of a kind at the start of `m`. -/
def decodeValue (l : OperandLayout) (m : Memory) : OperandKind → OperandValue
  | .invalid => .invalid
  | .reg => .reg (m.u32 0)
  | .imm => .imm (l.signed m 0)
  | .cimm => .cimm (l.signed m 0)
  | .pimm => .pimm (l.signed m 0)
  | .fp => .fp (m.u64 0)
  | .mem => .mem (l.decodeMemory m)

/-- The shifter at an offset; kind zero is no shifter. -/
def decodeShift (m : Memory) (start : Nat) : Option Shift :=
  if m.u32 start = 0 then none else some ⟨m.u32 start, m.u32 (start + 4)⟩

def decodeExt (m : Memory) (start : Nat) : Option UInt32 :=
  if m.u32 start = 0 then none else some (m.u32 start)

def decodeOperand (l : OperandLayout) (m : Memory) : Operand where
  value := l.decodeValue (m.window l.value) (l.kindOf (m.u32 l.kind))
  shift := l.shift.bind (decodeShift m)
  ext := l.ext.bind (decodeExt m)
  size := l.size.map m

def filled (l : OperandLayout) (m : Memory) : Nat :=
  min (m l.count).toNat l.capacity

/-- The operands among the architecture's fields `m`. -/
def decode (l : OperandLayout) (m : Memory) : List Operand :=
  (List.range (l.filled m)).map fun i => l.decodeOperand (m.window (l.recordStart i))

end OperandLayout

namespace ArmDetail

/-- ARM and ARM64 fields, which differ in their operands only. -/
def decode (l : OperandLayout) (m : Memory) : ArmDetail where
  cc := m.u32 0
  updateFlags := m.flag 4
  writeback := m.flag 5
  operands := l.decode m

end ArmDetail

namespace X86Detail

def decode (m : Memory) : X86Detail where
  prefixes := .ofFn fun i => m i
  segment := m.u32 8
  opcode := .ofFn fun i => m (12 + i)
  opSize := m 15
  addrSize := m 16
  dispSize := m 17
  immSize := m 18
  modrm := m 19
  sib := m 20
  disp := m.i32 24
  sibIndex := m.u32 28
  sibScale := (m 32).toInt8
  sibBase := m.u32 36
  operands := OperandLayout.x86.decode m

end X86Detail

namespace PpcDetail

def decode (m : Memory) : PpcDetail where
  bc := m.u32 0
  bh := m.u32 4
  updateCr0 := m.flag 8
  operands := OperandLayout.ppc.decode m

end PpcDetail

namespace ArchDetail

def decode (m : Memory) : Arch → ArchDetail
  | .arm => .arm (ArmDetail.decode .arm m)
  | .arm64 => .arm64 (ArmDetail.decode .arm64 m)
  | .mips => .mips (OperandLayout.mips.decode m)
  | .x86 => .x86 (X86Detail.decode m)
  | .ppc => .ppc (PpcDetail.decode m)

end ArchDetail

namespace Detail

/-- The detail that a memory holds for an architecture. -/
def ofMemory (a : Arch) (m : Memory) : Detail where
  regsRead := IdListLayout.regsRead.decode m
  regsWrite := IdListLayout.regsWrite.decode m
  groups := IdListLayout.groups.decode m
  arch := ArchDetail.decode (m.window archStart) a

/-- The detail that a block holds for an architecture. -/
def decode (a : Arch) (b : Block) : Detail :=
  ofMemory a b.memory

end Detail

/-- A block's counts, shown as data. -/
def Block.shown (b : Block) : String :=
  let count (l : IdListLayout) := toString (b.memory l.count).toNat
  Quoted.record "CsDetail"
    [("regs_read_count", count .regsRead), ("regs_write_count", count .regsWrite),
      ("groups_count", count .groups)] true

end Disassembly
