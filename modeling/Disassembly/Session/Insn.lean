import Disassembly.Detail.Decode
import Disassembly.Native.Dialogue
import Disassembly.Text.Quoted

/-!
# Instruction records

An `Insn` is an owned copy of one native entry. It has text unless its engine
was built without, and a detail block if detail was on when it was decoded.
`Insn.display`, `Insn.fullLine` and `Insn.shown` are its three texts.

The block is decoded when it is first asked about: a `Record` is an `Insn` with
what has been decoded so far. `Record.inquire` asks one query of it. What the
query comes to does not hang on what was asked before: that is `Insn.answer`, a
function of the instruction and of the words the engine has for a refusal.
-/

namespace Disassembly

/-- The longest encoding an entry can hold. -/
def maxInsnBytes : Nat := 16

structure Rendering where
  mnemonic : String
  opStr : String
  deriving DecidableEq, Repr

namespace Rendering

def ofNative (n : NativeInsn) : Rendering :=
  ⟨fieldText n.mnemonic, fieldText n.opStr⟩

end Rendering

/-- One decoded instruction, with the architecture of the engine that decoded it. There is no text
if that engine was diet, and a block only if detail was on and the engine gave one. -/
structure Insn where
  id : UInt32
  address : UInt64
  bytes : List UInt8
  text : Option Rendering
  arch : Arch
  block : Option Block

namespace Insn

/-- A copy of a native entry, made with detail on or off, with text unless the engine is diet. -/
def ofNative (arch : Arch) (diet detail : Bool) (n : NativeInsn) : Insn where
  id := n.id
  address := n.address
  bytes := n.bytes.toList.take (min n.size.toNat maxInsnBytes)
  text := if diet then none else some (.ofNative n)
  arch := arch
  block := if detail then n.detail else none

def size (i : Insn) : Nat :=
  i.bytes.length

def diet (i : Insn) : Bool :=
  i.text.isNone

def hasDetail (i : Insn) : Bool :=
  i.block.isSome

def marked (i : Insn) : String :=
  Numeral.marked i.address.toNat

/-- Address and text, or address and number where there is no text. -/
def display (i : Insn) : String :=
  i.marked ++ ":\t" ++
    match i.text with
    | some t => if t.opStr.isEmpty then t.mnemonic else t.mnemonic ++ "\t" ++ t.opStr
    | none => "<id " ++ toString i.id.toNat ++ ">"

/-- The bytes as pairs of upper-case digits, separated by blanks. -/
def byteColumn (i : Insn) : String :=
  String.intercalate " " (i.bytes.map fun b => Numeral.hexUpperPadded 2 b.toNat)

/-- Address, bytes and text in columns. -/
def fullLine (i : Insn) : String :=
  let mnemonic := (i.text.map Rendering.mnemonic).getD "?"
  let opStr := (i.text.map Rendering.opStr).getD ""
  Numeral.hexUpperPadded 8 i.address.toNat ++ " | " ++ Numeral.column 24 i.byteColumn ++ " | " ++
    Numeral.column 6 mnemonic ++ " " ++ opStr

def shown (i : Insn) : String :=
  Quoted.record "Insn"
    [("id", toString i.id.toNat),
      ("address", i.marked),
      ("bytes", Quoted.listed (i.bytes.map fun b => toString b.toNat)),
      ("mnemonic", Quoted.optional (i.text.map fun t => Quoted.text t.mnemonic)),
      ("op_str", Quoted.optional (i.text.map fun t => Quoted.text t.opStr)),
      ("arch", i.arch.label),
      ("has_detail", toString i.hasDetail)] false

end Insn

/-- An instruction reduced to its place and text. -/
structure LiteInsn where
  address : UInt64
  size : Nat
  text : Rendering
  deriving DecidableEq, Repr

namespace LiteInsn

def ofNative (n : NativeInsn) : LiteInsn :=
  ⟨n.address, min n.size.toNat maxInsnBytes, .ofNative n⟩

def display (i : LiteInsn) : String :=
  Numeral.marked i.address.toNat ++ ":\t" ++ i.text.mnemonic ++ "\t" ++ i.text.opStr

end LiteInsn

/-! ### Queries -/

/-- What can be asked of a detail; of a record all this and what it says without its detail. -/
inductive DetailQuery where
  | regsRead
  | regsWrite
  | groups
  | readsReg (id : UInt32)
  | writesReg (id : UInt32)
  | inGroup (id : UInt32)
  | archDetail
  | operands
  | whole
  | opCount (k : OperandKind)
  | opFind (k : OperandKind) (position : Nat)
  deriving DecidableEq, Repr

inductive Query where
  | mnemonic
  | opStr
  | hasDetail
  | display
  | fullLine
  | shown
  | summary
  | detail (q : DetailQuery)
  deriving DecidableEq, Repr

inductive Answer where
  | text (s : String)
  | flag (b : Bool)
  | ids (l : List UInt32)
  | archDetail (d : ArchDetail)
  | operands (l : List Operand)
  | detail (d : Detail)
  | count (n : Nat)
  | found (o : Option Operand)
  | summary (i : Insn) (mnemonic opStr : Except Error String)

namespace DetailQuery

def answer (d : Detail) : DetailQuery → Answer
  | .regsRead => .ids d.regsRead
  | .regsWrite => .ids d.regsWrite
  | .groups => .ids d.groups
  | .readsReg id => .flag (d.regsRead.contains id)
  | .writesReg id => .flag (d.regsWrite.contains id)
  | .inGroup id => .flag (d.groups.contains id)
  | .archDetail => .archDetail d.arch
  | .operands => .operands d.operands
  | .whole => .detail d
  | .opCount k => .count (d.opCount k)
  | .opFind k p => .found (d.opFind k p)

end DetailQuery

namespace Insn

/-- The detail of a record, or the code that says why there is none. -/
def detail (i : Insn) : Except ErrorCode Detail :=
  match i.text, i.block with
  | none, _ => .error .dietUnsupported
  | some _, none => .error .detailNotRequested
  | some _, some b => .ok (Detail.decode i.arch b)

/-- A refusal in an engine's words; `say` gives them for each code. -/
def refused {α : Type} (say : ErrorCode → String) (c : ErrorCode) : Except Error α :=
  .error (.engine c (say c))

/-- A text of the record, refused where there is none. -/
def textOf (say : ErrorCode → String) (i : Insn) (part : Rendering → String) :
    Except Error String :=
  match i.text with
  | some t => .ok (part t)
  | none => refused say .dietUnsupported

/-- What a query on a record comes to, whatever has been asked before. -/
def answer (say : ErrorCode → String) (i : Insn) : Query → Except Error Answer
  | .mnemonic => (i.textOf say Rendering.mnemonic).map .text
  | .opStr => (i.textOf say Rendering.opStr).map .text
  | .hasDetail => .ok (.flag i.hasDetail)
  | .display => .ok (.text i.display)
  | .fullLine => .ok (.text i.fullLine)
  | .shown => .ok (.text i.shown)
  | .summary =>
    .ok (.summary i (i.textOf say Rendering.mnemonic) (i.textOf say Rendering.opStr))
  | .detail q =>
    match i.detail with
    | .ok d => .ok (q.answer d)
    | .error c => refused say c

end Insn

/-- An instruction with its detail as far as it has been decoded. -/
structure Record where
  insn : Insn
  decoded : Option Detail := none

namespace Record

variable {B : Backend}

/-- A text of the instruction, refused where there is none. -/
def readText (r : Record) (part : Rendering → String) : Attempt B String :=
  match r.insn.text with
  | some t => return part t
  | none => Attempt.refuse .dietUnsupported

/-- The detail, decoded at the first call, and the record that remembers it. -/
def readDetail (r : Record) : Attempt B (Detail × Record) :=
  if r.insn.diet then Attempt.refuse .dietUnsupported
  else match r.insn.block, r.decoded with
    | none, _ => Attempt.refuse .detailNotRequested
    | some _, some d => return (d, r)
    | some b, none => do
      Attempt.log .trace ("decoding " ++ r.insn.arch.name ++ " detail at " ++ r.insn.marked)
      let d := Detail.decode r.insn.arch b
      return (d, { r with decoded := some d })

/-- The record with its texts or what stands in their way. -/
def summary (r : Record) : Dialogue B Answer := do
  let mnemonic ← (r.readText Rendering.mnemonic).run
  let opStr ← (r.readText Rendering.opStr).run
  return .summary r.insn mnemonic opStr

/-- Ask a record, and get the record back with what it remembers. -/
def inquire (r : Record) : Query → Dialogue B (Except Error Answer × Record)
  | .mnemonic => do return ((← (r.readText Rendering.mnemonic).run).map .text, r)
  | .opStr => do return ((← (r.readText Rendering.opStr).run).map .text, r)
  | .hasDetail => return (.ok (.flag r.insn.hasDetail), r)
  | .display => return (.ok (.text r.insn.display), r)
  | .fullLine => return (.ok (.text r.insn.fullLine), r)
  | .shown => return (.ok (.text r.insn.shown), r)
  | .summary => do return (.ok (← r.summary), r)
  | .detail q => do
    match ← r.readDetail.run with
    | .ok (d, after) => return (.ok (q.answer d), after)
    | .error e => return (.error e, r)

/-- Ask a record one query after another. -/
def inquireAll (r : Record) : List Query → Dialogue B (List (Except Error Answer) × Record)
  | [] => return ([], r)
  | q :: qs => do
    let (first, r) ← r.inquire q
    let (rest, r) ← r.inquireAll qs
    return (first :: rest, r)

end Record

end Disassembly
