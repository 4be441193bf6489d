import Disassembly.Arch
import Disassembly.Detail.Block
import Disassembly.Error
import Disassembly.Mode

/-!
# The engine's entry points

A native engine is asked through eleven entry points. `Call` is one question
with its arguments, `Call.Answer` the type of what comes back, `Call.text` the
line under which the question is recorded.
-/

namespace Disassembly

/-- The engine's token for one open instance. -/
structure Handle where
  value : Nat
  deriving DecidableEq, Repr

/-- The version of an engine: major, minor, and the two in one number. -/
structure Version where
  major : Int32
  minor : Int32
  combined : Int32
  deriving DecidableEq, Repr

inductive Setting where
  | dialect (d : Dialect)
  | detail (on : Bool)
  | mode (m : Mode)
  deriving DecidableEq, Repr

namespace Setting

def type : Setting → Nat
  | .dialect _ => 1
  | .detail _ => 2
  | .mode _ => 3

def value : Setting → Nat
  | .dialect d => d.raw
  | .detail on => if on then 3 else 0
  | .mode m => m.bits.toNat

end Setting

/-- One instruction as the engine hands it out. The text fields end with a zero byte or with their
own end. -/
structure NativeInsn where
  id : UInt32
  address : UInt64
  size : UInt16
  bytes : Vector UInt8 16
  mnemonic : List UInt8
  opStr : List UInt8
  detail : Option Block
  deriving DecidableEq

/-- An array of instructions the engine has allocated, known by its number. -/
structure NativeArray where
  number : Nat
  insns : List NativeInsn
  deriving DecidableEq

/-- What a decode call hands out: a count, and an array unless the pointer was left null. -/
structure Decoded where
  count : Nat
  array : Option NativeArray
  deriving DecidableEq

namespace Decoded

/-- The instructions handed out: as many of the array as were counted. -/
def entries (d : Decoded) : List NativeInsn :=
  match d.array with
  | some a => a.insns.take d.count
  | none => []

end Decoded

inductive Call where
  | version
  | support (query : Int32)
  | openEngine (arch : Arch) (mode : Mode)
  | close (h : Handle)
  | option (h : Handle) (s : Setting)
  | errno (h : Handle)
  | disasm (h : Handle) (code : List UInt8) (address : UInt64) (count : Nat)
  | free (array : Nat) (count : Nat)
  | regName (h : Handle) (id : UInt32)
  | insnName (h : Handle) (id : UInt32)
  | strerror (status : Status)
  deriving DecidableEq

namespace Call

/-- What comes back for a question. Names and messages are zero-ended bytes, `none` for a null
pointer; opening gives a handle that means something only with status zero. -/
abbrev Answer : Call → Type
  | .version => Version
  | .support _ => Bool
  | .openEngine _ _ => Status × Handle
  | .close _ => Status
  | .option _ _ => Status
  | .errno _ => Status
  | .disasm _ _ _ _ => Decoded
  | .free _ _ => Unit
  | .regName _ _ => Option (List UInt8)
  | .insnName _ _ => Option (List UInt8)
  | .strerror _ => Option (List UInt8)

def handle? : Call → Option Handle
  | .close h => some h
  | .option h _ => some h
  | .errno h => some h
  | .disasm h _ _ _ => some h
  | .regName h _ => some h
  | .insnName h _ => some h
  | _ => none

def text : Call → String
  | .version => "version"
  | .support q => "support " ++ toString q.toInt
  | .openEngine a m => "open " ++ toString a.raw.toNat ++ " " ++ toString m.bits.toNat
  | .close h => "close " ++ toString h.value
  | .option h s =>
    "option " ++ toString h.value ++ " " ++ toString s.type ++ " " ++ toString s.value
  | .errno h => "errno " ++ toString h.value
  | .disasm h code address count =>
    "disasm " ++ toString h.value ++ " [" ++ Numeral.bytes code ++ "] " ++
      toString address.toNat ++ " " ++ toString count
  | .free array count => "free #" ++ toString array ++ " " ++ toString count
  | .regName h id => "reg_name " ++ toString h.value ++ " " ++ toString id.toNat
  | .insnName h id => "insn_name " ++ toString h.value ++ " " ++ toString id.toNat
  | .strerror s => "strerror " ++ toString s.toInt

end Call

/-- A native engine: its hidden state, how it answers, and what can be changed about it between
two uses. -/
structure Backend where
  State : Type
  answer : State → (c : Call) → c.Answer × State
  Change : Type
  change : State → Change → State

end Disassembly
