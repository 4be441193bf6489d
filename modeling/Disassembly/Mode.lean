import Disassembly.Arch
import Disassembly.Text.Numeral

/-!
# Decode modes

A mode is a 32-bit mask of endianness, bit width and sub-architecture flags.
`Mode.supportedBy` says which masks an architecture takes: only its own flags,
exactly one width on X86, at most one on MIPS and PPC.
-/

namespace Disassembly

/-- A mask of decode mode flags. -/
structure Mode where
  bits : UInt32
  deriving DecidableEq, Repr

namespace Mode

/-- No flag at all; little-endian is the absence of `bigEndian`. -/
def littleEndian : Mode := ⟨0⟩

/-- 32-bit ARM decoding, which needs no flag. -/
def arm : Mode := ⟨0⟩

def width16 : Mode := ⟨0x2⟩

def width32 : Mode := ⟨0x4⟩

def width64 : Mode := ⟨0x8⟩

def thumb : Mode := ⟨0x10⟩

/-- MicroMIPS, on the same bit as `thumb`. -/
def micro : Mode := ⟨0x10⟩

/-- Nintendo 64 MIPS. -/
def n64 : Mode := ⟨0x20⟩

def bigEndian : Mode := ⟨0x80000000⟩

instance : Inhabited Mode := ⟨littleEndian⟩

/-- The flags of both modes. -/
def union (m n : Mode) : Mode := ⟨m.bits ||| n.bits⟩

instance : OrOp Mode := ⟨union⟩

/-- Every flag of `n` is a flag of `m`. -/
def contains (m n : Mode) : Bool :=
  m.bits &&& n.bits == n.bits

/-- The three width flags. -/
def widths : List Mode := [width16, width32, width64]

/-- How many width flags the mode has. -/
def widthCount (m : Mode) : Nat :=
  (widths.filter m.contains).length

/-- The flags an architecture knows. -/
def allowed : Arch → Mode
  | .arm => thumb ||| bigEndian
  | .arm64 => bigEndian
  | .mips => micro ||| n64 ||| width32 ||| width64 ||| bigEndian
  | .x86 => width16 ||| width32 ||| width64
  | .ppc => width32 ||| width64 ||| bigEndian

/-- The number of widths an architecture accepts in one mode. -/
def widthsFit : Arch → Nat → Bool
  | .x86, n => n == 1
  | .mips, n => n ≤ 1
  | .ppc, n => n ≤ 1
  | .arm, _ => true
  | .arm64, _ => true

/-- Whether `a` takes the mode: no foreign flag and a fitting number of widths. -/
def supportedBy (m : Mode) (a : Arch) : Bool :=
  (allowed a).contains m && widthsFit a m.widthCount

/-- The mask in marked hexadecimal. -/
def text (m : Mode) : String :=
  Numeral.marked m.bits.toNat

/-- The mode shown as data. -/
def shown (m : Mode) : String :=
  "Mode(" ++ toString m.bits.toNat ++ ")"

end Mode

end Disassembly
