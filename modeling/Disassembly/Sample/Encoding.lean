import Disassembly.Detail.Write
import Disassembly.Mode
import Disassembly.Session.Insn

/-!
# The table of the sample engine

The sample engine decodes a handful of encodings of the five architectures and
knows the names of a few registers. An `Encoding` is one entry: what it is
recognised by, how it reads in each dialect, and its detail. `Encoding.find?`
recognises the start of some code.
-/

namespace Disassembly

/-- One encoding the sample engine knows. -/
structure Encoding where
  arch : Arch
  needs : Mode := .littleEndian
  forbids : Mode := .littleEndian
  bytes : List UInt8
  id : UInt32
  text : Rendering
  alternatives : List (Dialect × Rendering) := []
  regsRead : List UInt32 := []
  regsWrite : List UInt32 := []
  groups : List UInt32 := []
  fields : ArchDetail
  bytes_ne_nil : bytes ≠ [] := by decide

namespace Encoding

/-- Whether the encoding is decoded for an architecture in a mode. -/
def admitted (e : Encoding) (a : Arch) (m : Mode) : Bool :=
  e.arch == a && m.contains e.needs && m.bits &&& e.forbids.bits == 0

/-- The rendering in a dialect. -/
def rendering (e : Encoding) (d : Dialect) : Rendering :=
  (e.alternatives.lookup d).getD e.text

/-- The detail of the encoding. -/
def detail (e : Encoding) : Detail :=
  ⟨e.regsRead, e.regsWrite, e.groups, e.fields⟩

/-- An X86 register operand of four bytes. -/
def x86Reg (id : UInt32) : Operand :=
  { value := .reg id, size := some 4 }

/-- An X86 instruction known by its first opcode byte. -/
def x86Opcode (b : UInt8) : Vector UInt8 3 := #v[b, 0, 0]

def lea : Encoding where
  arch := .x86
  bytes := [0x8d, 0x4c, 0x32, 0x08]
  id := 322
  text := ⟨"lea", "ecx, dword ptr [edx + esi + 8]"⟩
  alternatives := [(.att, ⟨"leal", "8(%edx, %esi), %ecx"⟩)]
  fields := .x86 {
    opcode := x86Opcode 0x8d
    addrSize := 4
    opSize := 4
    modrm := 0x4c
    sib := 0x32
    disp := 8
    dispSize := 1
    sibBase := 24
    sibIndex := 29
    sibScale := 1
    operands := [x86Reg 22, { value := .mem ⟨24, 29, 1, 8⟩, size := some 4 }] }

def addReg : Encoding where
  arch := .x86
  bytes := [0x01, 0xd8]
  id := 8
  text := ⟨"add", "eax, ebx"⟩
  alternatives := [(.att, ⟨"addl", "%ebx, %eax"⟩)]
  regsWrite := [25]
  fields := .x86 {
    opcode := x86Opcode 0x01
    modrm := 0xd8
    operands := [x86Reg 19, x86Reg 21] }

def addImm : Encoding where
  arch := .x86
  bytes := [0x81, 0xc6, 0x34, 0x12, 0x00, 0x00]
  id := 8
  text := ⟨"add", "esi, 0x1234"⟩
  alternatives := [(.att, ⟨"addl", "$0x1234, %esi"⟩)]
  regsWrite := [25]
  fields := .x86 {
    opcode := x86Opcode 0x81
    modrm := 0xc6
    immSize := 4
    operands := [x86Reg 29, { value := .imm 0x1234, size := some 4 }] }

def push : Encoding where
  arch := .x86
  forbids := .width64
  bytes := [0x55]
  id := 588
  text := ⟨"push", "ebp"⟩
  alternatives := [(.att, ⟨"pushl", "%ebp"⟩)]
  regsRead := [30]
  regsWrite := [30]
  groups := [130]
  fields := .x86 {
    opcode := x86Opcode 0x55
    operands := [x86Reg 20] }

def bx : Encoding where
  arch := .arm
  needs := .thumb
  bytes := [0x70, 0x47]
  id := 16
  text := ⟨"bx", "lr"⟩
  regsWrite := [11]
  groups := [1]
  fields := .arm {
    cc := 15
    operands := [{ value := .reg 10 }] }

def str : Encoding where
  arch := .arm
  forbids := .thumb
  bytes := [0x04, 0xe0, 0x2d, 0xe5]
  id := 215
  text := ⟨"str", "lr, [sp, #-4]!"⟩
  fields := .arm {
    cc := 15
    writeback := true
    operands := [{ value := .reg 10 }, { value := .mem ⟨12, 0, 1, -4⟩ }] }

def mul : Encoding where
  arch := .arm64
  bytes := [0x21, 0x7c, 0x02, 0x9b]
  id := 195
  text := ⟨"mul", "x1, x1, x2"⟩
  fields := .arm64 {
    operands := [{ value := .reg 200 }, { value := .reg 200 }, { value := .reg 201 }] }

def jal : Encoding where
  arch := .mips
  needs := .bigEndian
  bytes := [0x0c, 0x10, 0x00, 0x97]
  id := 243
  text := ⟨"jal", "0x40025c"⟩
  regsWrite := [31]
  groups := [2]
  fields := .mips [{ value := .imm 0x40025c }]

def lwz : Encoding where
  arch := .ppc
  needs := .bigEndian
  bytes := [0x80, 0x20, 0x00, 0x00]
  id := 300
  text := ⟨"lwz", "r1, 0(0)"⟩
  alternatives := [(.noRegName, ⟨"lwz", "1, 0(0)"⟩)]
  fields := .ppc {
    operands := [{ value := .reg 45 }, { value := .mem ⟨0, 0, 1, 0⟩ }] }

def blr : Encoding where
  arch := .ppc
  needs := .bigEndian
  bytes := [0x4e, 0x80, 0x00, 0x20]
  id := 31
  text := ⟨"blr", ""⟩
  groups := [3]
  fields := .ppc { bc := 20 }

/-- The encodings, in the order in which they are tried. -/
def table : List Encoding :=
  [lea, addReg, addImm, push, bx, str, mul, jal, lwz, blr]

/-- The entry that decodes the start of the code. -/
def find? (a : Arch) (m : Mode) (code : List UInt8) : Option Encoding :=
  table.find? fun e => e.admitted a m && e.bytes.isPrefixOf code

end Encoding

/-- The registers the sample engine has names for. -/
def sampleRegisters : List ((Arch × UInt32) × String) :=
  [((.x86, 19), "eax"), ((.x86, 20), "ebp"), ((.x86, 21), "ebx"), ((.x86, 22), "ecx"),
   ((.x86, 24), "edx"), ((.x86, 25), "eflags"), ((.x86, 29), "esi"), ((.x86, 30), "esp"),
   ((.arm, 10), "lr"), ((.arm, 11), "pc"), ((.arm, 12), "sp"), ((.arm64, 200), "x1"),
   ((.arm64, 201), "x2"), ((.mips, 31), "ra"), ((.ppc, 45), "r1")]

end Disassembly
