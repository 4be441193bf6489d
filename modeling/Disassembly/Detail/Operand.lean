/-!
# Operands

An operand is a value of one of seven kinds, with the extras its architecture
attaches: a shifter and an extender on ARM, a size on X86. `Operand.reg`,
`Operand.imm` and `Operand.mem` give the value as a register, as an immediate of
any of the three kinds, or as a memory reference.
-/

namespace Disassembly

/-- Kinds of operands over all architectures; `cimm` and `pimm` are immediates of a coprocessor. -/
inductive OperandKind where
  | invalid
  | reg
  | imm
  | cimm
  | pimm
  | fp
  | mem
  deriving DecidableEq, Repr

namespace OperandKind

def all : List OperandKind := [.invalid, .reg, .imm, .cimm, .pimm, .fp, .mem]

def label : OperandKind → String
  | .invalid => "Invalid"
  | .reg => "Reg"
  | .imm => "Imm"
  | .cimm => "CImm"
  | .pimm => "PImm"
  | .fp => "Fp"
  | .mem => "Mem"

end OperandKind

/-- A memory reference `base + index * scale + disp`, without an index register or a scale where an
architecture has none. -/
structure MemoryOperand where
  base : UInt32
  index : UInt32
  scale : Int32
  disp : Int64
  deriving DecidableEq, Repr

/-- The value of an operand; a double is kept as its bit pattern. -/
inductive OperandValue where
  | invalid
  | reg (id : UInt32)
  | imm (n : Int64)
  | cimm (n : Int64)
  | pimm (n : Int64)
  | fp (bits : UInt64)
  | mem (m : MemoryOperand)
  deriving DecidableEq, Repr

structure Shift where
  kind : UInt32
  value : UInt32
  deriving DecidableEq, Repr

/-- An operand with its extras: a shifter on ARM and ARM64, an extender on ARM64, a size in bytes on
X86. -/
structure Operand where
  value : OperandValue
  shift : Option Shift := none
  ext : Option UInt32 := none
  size : Option UInt8 := none
  deriving DecidableEq, Repr

namespace OperandValue

def kind : OperandValue → OperandKind
  | .invalid => .invalid
  | .reg _ => .reg
  | .imm _ => .imm
  | .cimm _ => .cimm
  | .pimm _ => .pimm
  | .fp _ => .fp
  | .mem _ => .mem

end OperandValue

namespace Operand

def kind (o : Operand) : OperandKind :=
  o.value.kind

def reg (o : Operand) : Option UInt32 :=
  match o.value with
  | .reg r => some r
  | _ => none

/-- The number, if the operand is an immediate of any kind. -/
def imm (o : Operand) : Option Int64 :=
  match o.value with
  | .imm n => some n
  | .cimm n => some n
  | .pimm n => some n
  | _ => none

def mem (o : Operand) : Option MemoryOperand :=
  match o.value with
  | .mem m => some m
  | _ => none

end Operand

end Disassembly
