import Disassembly.Arch
import Disassembly.Detail.Block
import Disassembly.Detail.Operand

/-!
# Where a detail block keeps its fields

A block starts with three counted lists of one-byte ids; from offset 48 on it
holds the fields of one architecture. Operand records of the five architectures
differ in stride, capacity, numbering of kinds, width of numbers and extras:
`OperandLayout` collects these decisions, and `OperandLayout.ofArch` makes them.
-/

namespace Disassembly

/-- A list of one-byte ids with a count byte. -/
structure IdListLayout where
  start : Nat
  capacity : Nat
  count : Nat

namespace IdListLayout

def regsRead : IdListLayout := ⟨0, 12, 12⟩

def regsWrite : IdListLayout := ⟨13, 20, 33⟩

def groups : IdListLayout := ⟨34, 8, 42⟩

end IdListLayout

/-- Where the architecture's fields start in a block. -/
def archStart : Nat := 48

/-- How an architecture stores its operands. Offsets of `count` and `first` count from the start
of the architecture's fields, the others from the start of an operand record, and those of the
parts of a memory reference (`index`, `scale`, `disp`) from the start of its value. The kinds are
numbered from one on; `wide` says that immediates and displacements have 64 bits rather than 32. -/
structure OperandLayout where
  count : Nat
  first : Nat
  stride : Nat
  capacity : Nat
  kind : Nat
  value : Nat
  shift : Option Nat := none
  ext : Option Nat := none
  size : Option Nat := none
  kinds : List OperandKind
  wide : Bool
  index : Option Nat := none
  scale : Option Nat := none
  disp : Nat

namespace OperandLayout

def arm : OperandLayout where
  count := 6
  first := 8
  stride := 32
  capacity := 20
  shift := some 0
  kind := 8
  value := 16
  kinds := [.reg, .cimm, .pimm, .imm, .fp, .mem]
  wide := false
  index := some 4
  scale := some 8
  disp := 12

def arm64 : OperandLayout where
  count := 6
  first := 8
  stride := 32
  capacity := 8
  shift := some 0
  ext := some 8
  kind := 12
  value := 16
  kinds := [.reg, .cimm, .imm, .fp, .mem]
  wide := false
  index := some 4
  disp := 8

def mips : OperandLayout where
  count := 0
  first := 8
  stride := 24
  capacity := 8
  kind := 0
  value := 8
  kinds := [.reg, .imm, .mem]
  wide := true
  disp := 8

def x86 : OperandLayout where
  count := 40
  first := 48
  stride := 40
  capacity := 8
  kind := 0
  value := 8
  size := some 32
  kinds := [.reg, .imm, .fp, .mem]
  wide := true
  index := some 4
  scale := some 8
  disp := 16

def ppc : OperandLayout where
  count := 9
  first := 12
  stride := 12
  capacity := 8
  kind := 0
  value := 4
  kinds := [.reg, .imm, .mem]
  wide := false
  disp := 4

def ofArch : Arch → OperandLayout
  | .arm => arm
  | .arm64 => arm64
  | .mips => mips
  | .x86 => x86
  | .ppc => ppc

/-- The kind with a number; a number without a kind is that of no operand. -/
def kindOf (l : OperandLayout) (id : UInt32) : OperandKind :=
  ((OperandKind.invalid :: l.kinds)[id.toNat]?).getD .invalid

/-- The number of a kind, zero where the architecture has no such operand. -/
def idOf (l : OperandLayout) (k : OperandKind) : UInt32 :=
  UInt32.ofNat (if k ∈ l.kinds then l.kinds.idxOf k + 1 else 0)

/-- Where the operand record with an index starts, from the start of the architecture's fields. -/
def recordStart (l : OperandLayout) (i : Nat) : Nat :=
  l.first + i * l.stride

end OperandLayout

end Disassembly
