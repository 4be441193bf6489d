import Disassembly.Session.Cursor
import Disassembly.Session.Engine

/-!
# Several engines at once

A `Desk` holds open engines in numbered slots and records kept under names.
`Op` is one operation on it, `Reply` what comes back, `Desk.step` carries an
operation out. A `Move` is an operation, or a change to the native engine behind
everything; `Desk.run` makes moves one after another, and `Desk.clear` drops the
engines that are left.
-/

namespace Disassembly

/-- What can be done with one open engine. Of three ways to decode, one keeps the records under a
name, one steps through them, and one reads the detail of each. -/
inductive Action where
  | close
  | drop
  | setDialect (d : Dialect)
  | setDetail (on : Bool)
  | setMode (m : Mode)
  | regName (id : UInt32)
  | insnName (id : UInt32)
  | errno
  | shown
  | disasm (code : List UInt8) (address : UInt64) (count : Nat) (keep : Option String)
  | iterate (code : List UInt8) (address : UInt64) (count steps : Nat)
  | lite (code : List UInt8) (address : UInt64) (count : Nat)
  | examine (code : List UInt8) (address : UInt64) (count : Nat)

/-- What can be done: with the engine of a slot, with an engine of its own, with a record kept under
a name, and with the library as a whole. An engine that stands in a slot is dropped once another
has been opened into it. -/
inductive Op where
  | openEngine (slot : Nat) (arch : Arch) (mode : Mode)
  | act (slot : Nat) (a : Action)
  | quick (arch : Arch) (mode : Mode) (code : List UInt8) (address : UInt64) (count : Nat)
      (keep : Option String)
  | liteQuick (arch : Arch) (mode : Mode) (code : List UInt8) (address : UInt64) (count : Nat)
  | inquire (name : String) (index : Nat) (queries : List Query)
  | version
  | supports (query : Int32)
  | message (status : Status)
  | describeBuild
  | checkVersion
  | status (status : Status)

/-- What comes back. Records are told by their summaries, a walk by the cursor at its start and by
what each step handed out. -/
inductive Reply where
  | done
  | failed (e : Error)
  | noEngine
  | noRecord
  | name (n : Option String)
  | code (c : ErrorCode)
  | text (s : String)
  | flag (b : Bool)
  | version (v : Version)
  | records (l : List Answer)
  | liteRecords (l : List LiteInsn)
  | walk (start : Cursor Insn) (steps : List (Option Insn × Cursor Insn))
  | lite (start after : Cursor LiteInsn)
  | answers (l : List (Except Error Answer))
  | examined (l : List (Answer × Except Error Detail))

namespace Reply

def ofResult {α : Type} (r : Except Error α) (f : α → Reply) : Reply :=
  match r with
  | .ok a => f a
  | .error e => .failed e

end Reply

/-- Open engines by slot, in increasing order, and records by name. -/
structure Desk where
  engines : List (Nat × Engine) := []
  kept : List (String × List Record) := []

namespace Desk

variable {B : Backend}

def engine? (d : Desk) (slot : Nat) : Option Engine :=
  d.engines.lookup slot

/-- Put an engine into its place among the slots. -/
def insert (slot : Nat) (e : Engine) : List (Nat × Engine) → List (Nat × Engine)
  | [] => [(slot, e)]
  | p :: ps =>
    if slot < p.1 then (slot, e) :: p :: ps
    else if slot = p.1 then (slot, e) :: ps
    else p :: insert slot e ps

def put (d : Desk) (slot : Nat) (e : Engine) : Desk :=
  { d with engines := insert slot e d.engines }

def remove (d : Desk) (slot : Nat) : Desk :=
  { d with engines := d.engines.filter fun p => p.1 ≠ slot }

/-- Keep records under a name, if there is one, in place of those kept under it before. -/
def keep (d : Desk) (name : Option String) (records : List Record) : Desk :=
  match name with
  | none => d
  | some n => { d with kept := (n, records) :: d.kept.filter fun p => p.1 ≠ n }

def record? (d : Desk) (name : String) (index : Nat) : Option Record :=
  (d.kept.lookup name).bind fun l => l[index]?

def setRecord (d : Desk) (name : String) (index : Nat) (r : Record) : Desk :=
  { d with kept := d.kept.map fun p => if p.1 = name then (p.1, p.2.set index r) else p }

/-- Decoded instructions as a reply, and kept. Describing them leaves no trace. -/
def present (d : Desk) (result : Except Error (List Insn)) (name : Option String) :
    Dialogue B (Reply × Desk) := do
  match result with
  | .error e => return (.failed e, d)
  | .ok insns =>
    let records := insns.map fun i => Record.mk i none
    let summaries ← Dialogue.unrecorded (records.mapM Record.summary)
    return (.records summaries, d.keep name records)

/-- The summary of a record, which leaves no trace, and its detail. -/
def examine (i : Insn) : Dialogue B (Answer × Except Error Detail) := do
  let summary ← Dialogue.unrecorded (Record.mk i none).summary
  let detail ← (Record.mk i none).readDetail.run
  return (summary, detail.map Prod.fst)

/-- Commit an engine's new configuration, if there is one. -/
def commit (d : Desk) (slot : Nat) (result : Except Error Engine) : Reply × Desk :=
  match result with
  | .ok e => (.done, d.put slot e)
  | .error err => (.failed err, d)

/-- Do something with the engine of a slot. -/
def act (d : Desk) (slot : Nat) (e : Engine) : Action → Dialogue B (Reply × Desk)
  | .close => do return (.ofResult (← e.close.run) fun _ => .done, d.remove slot)
  | .drop => do
    e.drop
    return (.done, d.remove slot)
  | .setDialect x => do return d.commit slot (← (e.setDialect x).run)
  | .setDetail on => do return d.commit slot (← (e.setDetail on).run)
  | .setMode m => do return d.commit slot (← (e.setMode m).run)
  | .regName id => do return (.ofResult (← (e.regName id).run) .name, d)
  | .insnName id => do return (.ofResult (← (e.insnName id).run) .name, d)
  | .errno => do return (.ofResult (← e.errno.run) .code, d)
  | .shown => return (.text e.shown, d)
  | .disasm code address count name => do
    d.present (← (e.disasm code address count).run) name
  | .iterate code address count steps => do
    let result ← (e.disasm code address count).run
    return (.ofResult result fun l => .walk (.start l) ((Cursor.start l).walk steps), d)
  | .lite code address count => do
    let result ← (e.disasmLite code address count).run
    return (.ofResult result fun l => .lite (.start l) (Cursor.start l).next.2, d)
  | .examine code address count => do
    match ← (e.disasm code address count).run with
    | .error err => return (.failed err, d)
    | .ok l => return (.examined (← l.mapM examine), d)

/-- Drop the engine of a slot, if it holds one. -/
def dropSlot (d : Desk) (slot : Nat) : Dialogue B Unit :=
  match d.engine? slot with
  | some e => e.drop
  | none => return ()

def step (d : Desk) : Op → Dialogue B (Reply × Desk)
  | .openEngine slot arch mode => do
    match ← (Engine.openWith arch mode).run with
    | .error e => return (.failed e, d)
    | .ok e =>
      d.dropSlot slot
      return (.done, d.put slot e)
  | .act slot a =>
    match d.engine? slot with
    | some e => d.act slot e a
    | none => return (.noEngine, d)
  | .quick arch mode code address count name => do
    d.present (← (disasmQuick arch mode code address count).run) name
  | .liteQuick arch mode code address count => do
    return (.ofResult (← (disasmLiteQuick arch mode code address count).run) .liteRecords, d)
  | .inquire name index queries => do
    match d.record? name index with
    | none => return (.noRecord, d)
    | some r =>
      let (answers, r) ← r.inquireAll queries
      return (.answers answers, d.setRecord name index r)
  | .version => do return (.version (← Dialogue.ask .version), d)
  | .supports query => do return (.flag (← Dialogue.ask (.support query)), d)
  | .message status => do return (.text (← Dialogue.message status), d)
  | .describeBuild => do return (.text (← Dialogue.describeBuild), d)
  | .checkVersion => do
    return (.ofResult (← (Disassembly.checkVersion : Attempt B Unit).run) fun _ => .done, d)
  | .status status => do
    return (.ofResult (← (Attempt.check status : Attempt B Unit).run) fun _ => .done, d)

def dropAll : List (Nat × Engine) → Dialogue B Unit
  | [] => return ()
  | p :: ps => do
    p.2.drop
    dropAll ps

/-- Drop the engines that are left, lowest slot first. -/
def clear (d : Desk) : Dialogue B Unit :=
  dropAll d.engines

end Desk

/-! ### Runs -/

/-- An operation, or changes to the native engine. -/
inductive Move (B : Backend) where
  | op (o : Op)
  | change (l : List B.Change)

/-- What a move came to: the reply, the desk and the native engine after it, and its events. -/
structure Report (B : Backend) where
  reply : Reply
  desk : Desk
  state : B.State
  events : List Event

namespace Desk

variable {B : Backend}

def move (d : Desk) (s : B.State) : Move B → Report B
  | .op o =>
    let out := d.step o s
    ⟨out.value.1, out.value.2, out.state, out.events⟩
  | .change l => ⟨.done, d, l.foldl B.change s, []⟩

def run (d : Desk) (s : B.State) : List (Move B) → List (Report B)
  | [] => []
  | m :: ms =>
    let r := d.move s m
    r :: r.desk.run r.state ms

end Desk

/-- A whole session: the reports of its moves, and what clearing the desk came to. -/
structure Session (B : Backend) where
  reports : List (Report B)
  cleared : Outcome B.State Unit

namespace Session

variable {B : Backend}

/-- Start with an empty desk, make the moves, clear the desk. -/
def play (s : B.State) (moves : List (Move B)) : Session B :=
  let reports := Desk.run {} s moves
  match reports.getLast? with
  | some r => ⟨reports, r.desk.clear r.state⟩
  | none => ⟨[], (Desk.clear {}) s⟩

end Session

end Disassembly
