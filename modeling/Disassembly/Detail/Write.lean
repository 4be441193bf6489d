import Disassembly.Detail.Decode

/-!
# Writing a detail block

`Detail.write` lays the fields of a detail over a filler memory, each at the
offset where reading expects it. Everything reading does not look at is left to
the filler: padding, slots past a count, value bytes a kind does not use. Where
several bytes mean the same, the filler chooses among them: any non-zero byte
for a true flag, any number without a kind for an invalid operand.
-/

namespace Disassembly

namespace Memory

/-- Lay a 32-bit number over a memory. -/
def putU32 (start : Nat) (n : UInt32) : Memory → Memory :=
  put start (littleEndianDigits 4 n.toNat)

/-- Lay a 64-bit number over a memory. -/
def putU64 (start : Nat) (n : UInt64) : Memory → Memory :=
  put start (littleEndianDigits 8 n.toNat)

/-- Lay one byte over a memory. -/
def putByte (start : Nat) (b : UInt8) : Memory → Memory :=
  put start [b]

/-- Lay a flag over a memory, keeping a byte that already says true. -/
def putFlag (start : Nat) (on : Bool) (m : Memory) : Memory :=
  putByte start (if on then (if m start = 0 then 1 else m start) else 0) m

theorem u32_putU32 (start : Nat) (n : UInt32) (m : Memory) : (putU32 start n m).u32 start = n := by
  have hlen := length_littleEndianDigits 4 n.toNat
  have hslice := slice_put start (littleEndianDigits 4 n.toNat) m
  rw [hlen] at hslice
  rw [u32, putU32, hslice, littleEndian_digits]
  exact UInt32.toNat.inj (by simp [Nat.mod_eq_of_lt n.toNat_lt])

theorem u64_putU64 (start : Nat) (n : UInt64) (m : Memory) : (putU64 start n m).u64 start = n := by
  have hlen := length_littleEndianDigits 8 n.toNat
  have hslice := slice_put start (littleEndianDigits 8 n.toNat) m
  rw [hlen] at hslice
  rw [u64, putU64, hslice, littleEndian_digits]
  exact UInt64.toNat.inj (by simp [Nat.mod_eq_of_lt n.toNat_lt])

theorem flag_putFlag (start : Nat) (on : Bool) (m : Memory) :
    (putFlag start on m).flag start = on := by
  have hbyte : ∀ b, putByte start b m start = b := fun b => put_inside start [b] m (i := 0) (by simp)
  rw [flag, putFlag, hbyte]
  cases on with
  | false => rfl
  | true =>
    by_cases h : m start = 0
    · simp [h]
    · simp [h]

end Memory

open Memory

namespace IdListLayout

/-- Lay a list of ids and its count over a memory. -/
def write (l : IdListLayout) (ids : List UInt32) (m : Memory) : Memory :=
  putByte l.count (UInt8.ofNat ids.length) (put l.start (ids.map UInt32.toUInt8) m)

end IdListLayout

namespace OperandLayout

/-- Lay a signed number of the architecture's width over a memory. -/
def putSigned (l : OperandLayout) (start : Nat) (n : Int64) : Memory → Memory :=
  if l.wide then putU64 start n.toUInt64 else putU32 start n.toInt32.toUInt32

/-- Lay a memory reference over a memory, its parts where the architecture has them. -/
def writeMemory (l : OperandLayout) (start : Nat) (r : MemoryOperand) (m : Memory) : Memory :=
  let m := putU32 start r.base m
  let m := match l.index with
    | some o => putU32 (start + o) r.index m
    | none => m
  let m := match l.scale with
    | some o => putU32 (start + o) r.scale.toUInt32 m
    | none => m
  l.putSigned (start + l.disp) r.disp m

/-- Lay an operand's value over a memory. -/
def writeValue (l : OperandLayout) (start : Nat) (v : OperandValue) (m : Memory) : Memory :=
  match v with
  | .invalid => m
  | .reg r => putU32 start r m
  | .imm n => l.putSigned start n m
  | .cimm n => l.putSigned start n m
  | .pimm n => l.putSigned start n m
  | .fp bits => putU64 start bits m
  | .mem r => l.writeMemory start r m

/-- The kind number written for an operand: an invalid one keeps any number without a kind. -/
def writtenId (l : OperandLayout) (start : Nat) (k : OperandKind) (m : Memory) : UInt32 :=
  if k = .invalid ∧ l.kindOf (m.u32 start) = .invalid then m.u32 start else l.idOf k

/-- Lay a shifter over a memory; without one, its kind is zero. -/
def writeShift (start : Nat) (s : Option Shift) (m : Memory) : Memory :=
  match s with
  | some s => putU32 (start + 4) s.value (putU32 start s.kind m)
  | none => putU32 start 0 m

/-- Lay an operand record over a memory. -/
def writeOperand (l : OperandLayout) (start : Nat) (o : Operand) (m : Memory) : Memory :=
  let m := putU32 (start + l.kind) (l.writtenId (start + l.kind) o.kind m) m
  let m := l.writeValue (start + l.value) o.value m
  let m := match l.shift with
    | some p => writeShift (start + p) o.shift m
    | none => m
  let m := match l.ext with
    | some p => putU32 (start + p) (o.ext.getD 0) m
    | none => m
  match l.size with
  | some p => putByte (start + p) (o.size.getD 0) m
  | none => m

/-- Lay operands over a memory, the first at the record with index `i`. -/
def writeFrom (l : OperandLayout) (start i : Nat) : List Operand → Memory → Memory
  | [], m => m
  | o :: os, m => writeFrom l start (i + 1) os (l.writeOperand (start + l.recordStart i) o m)

/-- Lay operands and their count over a memory whose architecture fields begin at `start`. -/
def write (l : OperandLayout) (start : Nat) (os : List Operand) (m : Memory) : Memory :=
  putByte (start + l.count) (UInt8.ofNat os.length) (l.writeFrom start 0 os m)

end OperandLayout

namespace ArmDetail

/-- Lay ARM or ARM64 fields over a memory in which they begin at `start`. -/
def write (l : OperandLayout) (start : Nat) (d : ArmDetail) (m : Memory) : Memory :=
  let m := putU32 start d.cc m
  let m := putFlag (start + 4) d.updateFlags m
  let m := putFlag (start + 5) d.writeback m
  l.write start d.operands m

end ArmDetail

namespace X86Detail

/-- Lay X86 fields over a memory in which they begin at `start`. -/
def write (start : Nat) (d : X86Detail) (m : Memory) : Memory :=
  let m := put start d.prefixes.toList m
  let m := putU32 (start + 8) d.segment m
  let m := put (start + 12) d.opcode.toList m
  let m := put (start + 15) [d.opSize, d.addrSize, d.dispSize, d.immSize, d.modrm, d.sib] m
  let m := putU32 (start + 24) d.disp.toUInt32 m
  let m := putU32 (start + 28) d.sibIndex m
  let m := putByte (start + 32) d.sibScale.toUInt8 m
  let m := putU32 (start + 36) d.sibBase m
  OperandLayout.x86.write start d.operands m

end X86Detail

namespace PpcDetail

/-- Lay PPC fields over a memory in which they begin at `start`. -/
def write (start : Nat) (d : PpcDetail) (m : Memory) : Memory :=
  let m := putU32 start d.bc m
  let m := putU32 (start + 4) d.bh m
  let m := putFlag (start + 8) d.updateCr0 m
  OperandLayout.ppc.write start d.operands m

end PpcDetail

namespace ArchDetail

/-- Lay an architecture's fields over a memory in which they begin at `start`. -/
def write (start : Nat) : ArchDetail → Memory → Memory
  | .arm d => d.write .arm start
  | .arm64 d => d.write .arm64 start
  | .mips os => OperandLayout.mips.write start os
  | .x86 d => d.write start
  | .ppc d => d.write start

end ArchDetail

namespace Detail

/-- Lay a detail over a filler memory. -/
def write (d : Detail) (filler : Memory) : Memory :=
  let m := IdListLayout.regsRead.write d.regsRead filler
  let m := IdListLayout.regsWrite.write d.regsWrite m
  let m := IdListLayout.groups.write d.groups m
  d.arch.write archStart m

/-- The block that holds a detail, zero wherever nothing is said. -/
def block (d : Detail) : Block :=
  .ofMemory (d.write fun _ => 0)

end Detail

end Disassembly
