import Disassembly.Arch
import Disassembly.Detail.Operand

/-!
# Instruction detail

The detail of an instruction: the registers it reads and writes without naming
them, the groups it belongs to, and an architecture's own fields with the
explicit operands. `Detail.opCount` and `Detail.opFind` enumerate the operands
of one kind, positions counting from one.
-/

namespace Disassembly

/-- Fields of an ARM or ARM64 instruction. -/
structure ArmDetail where
  cc : UInt32 := 0
  updateFlags : Bool := false
  writeback : Bool := false
  operands : List Operand := []
  deriving DecidableEq, Repr

/-- Fields of an X86 instruction. Prefix and opcode bytes are zero where there are none. -/
structure X86Detail where
  prefixes : Vector UInt8 5 := .replicate 5 0
  segment : UInt32 := 0
  opcode : Vector UInt8 3 := .replicate 3 0
  opSize : UInt8 := 0
  addrSize : UInt8 := 0
  dispSize : UInt8 := 0
  immSize : UInt8 := 0
  modrm : UInt8 := 0
  sib : UInt8 := 0
  disp : Int32 := 0
  sibIndex : UInt32 := 0
  sibScale : Int8 := 0
  sibBase : UInt32 := 0
  operands : List Operand := []
  deriving DecidableEq, Repr

structure PpcDetail where
  bc : UInt32 := 0
  bh : UInt32 := 0
  updateCr0 : Bool := false
  operands : List Operand := []
  deriving DecidableEq, Repr

/-- The architecture's own half of a detail. -/
inductive ArchDetail where
  | arm (d : ArmDetail)
  | arm64 (d : ArmDetail)
  | mips (operands : List Operand)
  | x86 (d : X86Detail)
  | ppc (d : PpcDetail)
  deriving DecidableEq, Repr

namespace ArchDetail

def arch : ArchDetail → Arch
  | .arm _ => .arm
  | .arm64 _ => .arm64
  | .mips _ => .mips
  | .x86 _ => .x86
  | .ppc _ => .ppc

/-- The explicit operands, in order. -/
def operands : ArchDetail → List Operand
  | .arm d => d.operands
  | .arm64 d => d.operands
  | .mips os => os
  | .x86 d => d.operands
  | .ppc d => d.operands

end ArchDetail

structure Detail where
  regsRead : List UInt32 := []
  regsWrite : List UInt32 := []
  groups : List UInt32 := []
  arch : ArchDetail
  deriving DecidableEq, Repr

namespace Detail

def operands (d : Detail) : List Operand :=
  d.arch.operands

def ofKind (d : Detail) (k : OperandKind) : List Operand :=
  d.operands.filter (fun o => o.kind == k)

def opCount (d : Detail) (k : OperandKind) : Nat :=
  (d.ofKind k).length

def opFind (d : Detail) (k : OperandKind) : Nat → Option Operand
  | 0 => none
  | p + 1 => (d.ofKind k)[p]?

end Detail

end Disassembly
