/-!
# Architectures and operand text dialects

An engine decodes for one of five architectures. `Arch.raw` numbers them the way
the engine does, `Arch.name` is the lower-case word used in output and
`Arch.label` the capitalised one. Operand text comes in four dialects; only X86
starts out with one chosen.
-/

namespace Disassembly

/-- How operand text is written: by default as the engine likes, without register names with bare
numbers in their place. -/
inductive Dialect where
  | default
  | intel
  | att
  | noRegName
  deriving DecidableEq, Repr

namespace Dialect

def all : List Dialect := [.default, .intel, .att, .noRegName]

def raw : Dialect → Nat
  | .default => 0
  | .intel => 1
  | .att => 2
  | .noRegName => 3

def label : Dialect → String
  | .default => "Default"
  | .intel => "Intel"
  | .att => "Att"
  | .noRegName => "NoRegName"

end Dialect

inductive Arch where
  | arm
  | arm64
  | mips
  | x86
  | ppc
  deriving DecidableEq, Repr

namespace Arch

def all : List Arch := [.arm, .arm64, .mips, .x86, .ppc]

def raw : Arch → UInt32
  | .arm => 0
  | .arm64 => 1
  | .mips => 2
  | .x86 => 3
  | .ppc => 4

def name : Arch → String
  | .arm => "arm"
  | .arm64 => "arm64"
  | .mips => "mips"
  | .x86 => "x86"
  | .ppc => "ppc"

def label : Arch → String
  | .arm => "Arm"
  | .arm64 => "Arm64"
  | .mips => "Mips"
  | .x86 => "X86"
  | .ppc => "Ppc"

/-- The dialect a fresh handle starts with; only X86 has one. -/
def defaultDialect : Arch → Option Dialect
  | .x86 => some .intel
  | _ => none

end Arch

end Disassembly
