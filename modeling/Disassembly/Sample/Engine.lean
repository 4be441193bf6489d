import Disassembly.Native.Messages
import Disassembly.Sample.Encoding
import Disassembly.Session.Version

/-!
# The sample engine

A small engine of its own over the table of `Encoding`. It keeps a table of its
open handles and counts what is asked of it. It can be told to be a diet build,
to report another version, to reject options, to fail to close, and to leave a
status behind an empty decode.

* `SampleHandle` is what it keeps for an open handle; `SampleHandle.decode` cuts
  code into entries of the table.
* `Sample` is its state, `Sample.answer` how it answers.
-/

namespace Disassembly

structure SampleHandle where
  arch : Arch
  mode : Mode
  dialect : Dialect
  detail : Bool
  errno : Status
  deriving DecidableEq, Repr

namespace SampleHandle

/-- A handle as it is opened. -/
def fresh (a : Arch) (m : Mode) : SampleHandle :=
  ⟨a, m, a.defaultDialect.getD .default, false, 0⟩

def configure (h : SampleHandle) : Setting → SampleHandle
  | .dialect d => { h with dialect := d }
  | .detail on => { h with detail := on }
  | .mode m => { h with mode := m }

/-- The native entry of an encoding at an address. -/
def build (h : SampleHandle) (diet : Bool) (address : UInt64) (e : Encoding) : NativeInsn where
  id := e.id
  address := address
  size := UInt16.ofNat e.bytes.length
  bytes := .ofFn fun i => (e.bytes[i.val]?).getD 0
  mnemonic := if diet then [] else textBytes (e.rendering h.dialect).mnemonic
  opStr := if diet then [] else textBytes (e.rendering h.dialect).opStr
  detail := if h.detail then some e.detail.block else none

/-- Decode at most `limit` instructions from the start of the code. -/
def decode (h : SampleHandle) (diet : Bool) : (limit : Nat) → List UInt8 → UInt64 → List NativeInsn
  | 0, _, _ => []
  | limit + 1, code, address =>
    match Encoding.find? h.arch h.mode code with
    | none => []
    | some e =>
      h.build diet address e ::
        h.decode diet limit (code.drop e.bytes.length) (address + UInt64.ofNat e.bytes.length)

end SampleHandle

/-- The sample engine's state: how it has been told to behave, what it has been asked so far, and
what is in its clients' hands. -/
structure Sample where
  diet : Bool := false
  major : Int32 := 2
  minor : Int32 := 1
  -- Left behind by a decode that finds nothing.
  emptyErrno : Status := 0
  rejectOptions : Bool := false
  failClose : Bool := false
  opens : Nat := 0
  closes : Nat := 0
  optionCalls : Nat := 0
  disasmCalls : Nat := 0
  frees : Nat := 0
  -- Instructions handed out and not yet freed.
  outstanding : Nat := 0
  handles : List (Nat × SampleHandle) := []
  lastHandle : Nat := 0x100
  lastArray : Nat := 0

namespace Sample

def handle? (s : Sample) (h : Handle) : Option SampleHandle :=
  s.handles.lookup h.value

def setHandle (s : Sample) (h : Handle) (kept : SampleHandle) : Sample :=
  { s with handles := s.handles.map fun p => if p.1 = h.value then (p.1, kept) else p }

def openEngine (s : Sample) (a : Arch) (m : Mode) : (Status × Handle) × Sample :=
  ((0, ⟨s.lastHandle + 1⟩),
    { s with
      opens := s.opens + 1
      lastHandle := s.lastHandle + 1
      handles := s.handles ++ [(s.lastHandle + 1, .fresh a m)] })

/-- Give a handle up, unless told to fail. -/
def close (s : Sample) (h : Handle) : Status × Sample :=
  let s := { s with closes := s.closes + 1 }
  if s.failClose then (ErrorCode.invalidHandle.raw, s)
  else match s.handle? h with
    | some _ => (0, { s with handles := s.handles.filter fun p => p.1 ≠ h.value })
    | none => (ErrorCode.invalidHandleRef.raw, s)

/-- Set an option of a handle, unless told to reject it. -/
def option (s : Sample) (h : Handle) (o : Setting) : Status × Sample :=
  let s := { s with optionCalls := s.optionCalls + 1 }
  match s.handle? h with
  | none => (ErrorCode.invalidHandleRef.raw, s)
  | some kept =>
    if s.rejectOptions then
      (ErrorCode.unsupportedOption.raw,
        s.setHandle h { kept with errno := ErrorCode.unsupportedOption.raw })
    else (0, s.setHandle h (kept.configure o))

/-- Decode code under a handle; no limit when `count` is zero. -/
def disasm (s : Sample) (h : Handle) (code : List UInt8) (address : UInt64) (count : Nat) :
    Decoded × Sample :=
  let s := { s with disasmCalls := s.disasmCalls + 1 }
  match s.handle? h with
  | none => (⟨0, none⟩, s)
  | some kept =>
    match kept.decode s.diet (if count = 0 then code.length else count) code address with
    | [] => (⟨0, none⟩, s.setHandle h { kept with errno := s.emptyErrno })
    | insns =>
      (⟨insns.length, some ⟨s.lastArray + 1, insns⟩⟩,
        { s.setHandle h { kept with errno := 0 } with
          outstanding := s.outstanding + insns.length
          lastArray := s.lastArray + 1 })

def supports (s : Sample) (query : Int32) : Bool :=
  if query = Capability.diet.raw then s.diet
  else if query = Capability.allArchs.raw then true
  else query.toUInt32 ≤ Arch.ppc.raw

/-- The name of a register on a handle's architecture. -/
def regName (s : Sample) (h : Handle) (id : UInt32) : Option (List UInt8) := do
  let kept ← s.handle? h
  textBytes <$> sampleRegisters.lookup (kept.arch, id)

/-- The mnemonic of the first encoding with a number on a handle's architecture. -/
def insnName (s : Sample) (h : Handle) (id : UInt32) : Option (List UInt8) := do
  let kept ← s.handle? h
  let e ← Encoding.table.find? fun e => e.arch == kept.arch && e.id == id
  return textBytes e.text.mnemonic

/-- The answer to a call, and the state after it. -/
def answer (s : Sample) : (c : Call) → c.Answer × Sample
  | .version => (⟨s.major, s.minor, s.major * 256 + s.minor⟩, s)
  | .support q => (s.supports q, s)
  | .openEngine a m => s.openEngine a m
  | .close h => s.close h
  | .option h o => s.option h o
  | .errno h => (((s.handle? h).map SampleHandle.errno).getD ErrorCode.invalidHandleRef.raw, s)
  | .disasm h code address count => s.disasm h code address count
  | .free _ count => ((), { s with frees := s.frees + 1, outstanding := s.outstanding - count })
  | .regName h id => (s.regName h id, s)
  | .insnName h id => (s.insnName h id, s)
  | .strerror status => (nativeMessage status, s)

/-- What the engine has been asked to do so far, and how many handles are open. -/
def counters (s : Sample) : List Nat :=
  [s.opens, s.closes, s.optionCalls, s.disasmCalls, s.frees, s.outstanding, s.handles.length]

inductive Change where
  | diet (on : Bool)
  | version (major minor : Int32)
  | emptyErrno (status : Status)
  | rejectOptions (on : Bool)
  | failClose (on : Bool)
  deriving DecidableEq, Repr

def change (s : Sample) : Change → Sample
  | .diet on => { s with diet := on }
  | .version major minor => { s with major := major, minor := minor }
  | .emptyErrno status => { s with emptyErrno := status }
  | .rejectOptions on => { s with rejectOptions := on }
  | .failClose on => { s with failClose := on }

def backend : Backend where
  State := Sample
  answer := answer
  Change := Change
  change := change

end Sample

end Disassembly
