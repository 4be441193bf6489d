import Disassembly.CommandLine.Arguments
import Disassembly.CommandLine.MachineCode
import Disassembly.Decimal.Shortest
import Disassembly.Library.Cell
import Disassembly.Session.Engine

/-!
# The program

The program loads the library, opens an engine, decodes, prints one line per
instruction with its detail below if asked for, and closes the engine. Whatever
fails ends it; an open engine is closed on every way out.

* `Failure` is why it ended early, `Failure.report` what is written about it.
* `printDetail` prints the detail of one instruction.
* `run` is the program for parsed arguments, `execute` for an argument list.

Three forms are not the program's own: a failure is written as the library
`anyhow` reports an error with its cause, a log record as `env_logger` writes it,
and `Style` has the terminal codes of `colored`.
-/

namespace Disassembly.CommandLine

/-- Four blanks after every line break. -/
def indent (text : String) : String :=
  String.ofList (text.toList.flatMap fun c => if c = '\n' then c :: List.replicate 4 ' ' else [c])

/-- Why the program ended early: what it was doing, and what went wrong. -/
structure Failure where
  message : String
  cause : Option String := none
  deriving DecidableEq, Repr

namespace Failure

def report (f : Failure) : String :=
  "Error: " ++ f.message ++ "\n" ++
    match f.cause with
    | some c => "\nCaused by:\n    " ++ indent c ++ "\n"
    | none => ""

end Failure

/-- Whether output is coloured. -/
structure Style where
  color : Bool

namespace Style

/-- A text in a style of the terminal. -/
def paint (s : Style) (code text : String) : String :=
  if s.color then "\x1b[" ++ code ++ "m" ++ text ++ "\x1b[0m" else text

def dimmed (s : Style) : String → String := s.paint "2"

def green (s : Style) : String → String := s.paint "32"

def yellow (s : Style) : String → String := s.paint "33"

def cyan (s : Style) : String → String := s.paint "36"

end Style

/-- A part of the program: a dialogue that can end it. -/
abbrev Stage (B : Backend) (α : Type) : Type :=
  ExceptT Failure (Dialogue B) α

namespace Stage

variable {B : Backend} {α : Type}

/-- A dialogue that cannot end the program. -/
def of (x : Dialogue B α) : Stage B α :=
  ExceptT.lift x

def print (text : String) : Stage B Unit :=
  of (Dialogue.print text)

/-- An attempt whose failure ends the program. -/
def attempt (x : Attempt B α) : Stage B α := do
  match ← of x.run with
  | .ok a => return a
  | .error e => throw ⟨e.message, none⟩

/-- An attempt whose failure ends the program as the cause of something larger. -/
def during (what : String) (x : Attempt B α) : Stage B α := do
  match ← of x.run with
  | .ok a => return a
  | .error e => throw ⟨what, some e.message⟩

end Stage

/-! ### Detail -/

/-- The margin of detail lines. -/
def margin : String := "         "

def armFields (d : ArmDetail) : String :=
  " cc " ++ toString d.cc.toNat ++ " update_flags " ++ toString d.updateFlags ++
    " writeback " ++ toString d.writeback

/-- The fields of an architecture in one line; MIPS has none. -/
def archLine (s : Style) : ArchDetail → Option String
  | .x86 d => some (s.cyan "x86:" ++ " opcode " ++ Numeral.bytes d.opcode.toList ++
      " modrm 0x" ++ Numeral.byte d.modrm ++ " sib 0x" ++ Numeral.byte d.sib ++
      " disp " ++ Numeral.signed32 d.disp)
  | .arm d => some (s.cyan "arm:" ++ armFields d)
  | .arm64 d => some (s.cyan "arm64:" ++ armFields d)
  | .ppc d => some (s.cyan "ppc:" ++ " bc " ++ toString d.bc.toNat ++ " bh " ++
      toString d.bh.toNat ++ " update_cr0 " ++ toString d.updateCr0)
  | .mips _ => none

def memoryText (m : MemoryOperand) : String :=
  "[base " ++ toString m.base.toNat ++ " index " ++ toString m.index.toNat ++ " scale " ++
    toString m.scale.toInt ++ " disp " ++ Numeral.signed64 m.disp ++ "]"

section Detail

variable {B : Backend}

/-- The names of registers; one without a name goes by its number. -/
def registerNames (e : Engine) : List UInt32 → Stage B (List String)
  | [] => return []
  | id :: ids => do
    let name ← Stage.attempt (e.regName id)
    let rest ← registerNames e ids
    return name.getD ("r" ++ toString id.toNat) :: rest

def valueText (e : Engine) : OperandValue → Stage B String
  | .reg r => do
    match ← Stage.of (e.regName r).run with
    | .ok (some name) => return name
    | _ => return "reg " ++ toString r.toNat
  | .imm n => return Numeral.signed64 n
  | .cimm n => return Numeral.signed64 n
  | .pimm n => return Numeral.signed64 n
  | .fp bits => return (Decimal.Double.ofBits bits).text
  | .mem m => return memoryText m
  | .invalid => return "invalid"

/-- Print a heading and what it is about, unless that is nothing. -/
def printList (heading text : String) (isEmpty : Bool) : Stage B Unit :=
  if isEmpty then return () else Stage.print (margin ++ heading ++ " " ++ text)

/-- Print operands, the first under an index. -/
def printOperands (s : Style) (e : Engine) : Nat → List Operand → Stage B Unit
  | _, [] => return ()
  | i, o :: os => do
    let value ← valueText e o.value
    Stage.print (margin ++ s.green ("op[" ++ toString i ++ "]") ++ " " ++ o.kind.label ++ " " ++
      value)
    printOperands s e (i + 1) os

/-- Print a detail. The names of all implicit registers are asked for first. -/
def printDetail (s : Style) (e : Engine) (i : Insn) : Stage B Unit := do
  if e.diet then
    Stage.print (margin ++ s.dimmed "(diet engine: no detail)")
  else
    let (d, _) ← Stage.attempt (Record.mk i none).readDetail
    let read ← registerNames e d.regsRead
    let written ← registerNames e d.regsWrite
    printList (s.yellow "read:") (String.intercalate ", " read) read.isEmpty
    printList (s.yellow "write:") (String.intercalate ", " written) written.isEmpty
    printList (s.yellow "groups:") (Quoted.listed (d.groups.map fun g => toString g.toNat))
      d.groups.isEmpty
    printOperands s e 0 d.operands
    match archLine s d.arch with
    | some line => Stage.print (margin ++ line)
    | none => return ()

/-- Print instructions, each with its detail below it if asked for. -/
def printInsns (s : Style) (e : Engine) (detail : Bool) : List Insn → Stage B Unit
  | [] => return ()
  | i :: is => do
    Stage.print i.fullLine
    if detail then printDetail s e i
    printInsns s e detail is

end Detail

/-! ### The program -/

variable {B : Backend}

/-- What is done with an open engine before it is closed. -/
def useEngine (s : Style) (a : Arguments) (code : List UInt8) (e : Engine) : Stage B Unit := do
  let e ← match a.dialect with
    | some d => Stage.during "Syntax rejected" (e.setDialect d)
    | none => pure e
  let e ← if a.detail then Stage.during "Detail rejected" (e.setDetail true) else pure e
  let insns ← Stage.during "Disassembly failed" (e.disasm code a.address a.count)
  if insns.isEmpty then
    Stage.print (s.dimmed "(no valid instruction at start of buffer)")
  printInsns s e a.detail insns
  let decoded := insns.foldl (fun n i => n + i.size) 0
  if decoded < code.length then
    Stage.of (Dialogue.log .info (toString (code.length - decoded) ++
      " trailing bytes not decoded"))

/-- Use an engine and close it. A failure to close counts only if nothing failed before. -/
def closing (e : Engine) (use : Stage B Unit) : Stage B Unit := do
  match ← Stage.of use.run with
  | .ok () => Stage.during "Failed to close engine" e.close
  | .error f =>
    Stage.of e.drop
    throw f

def readInput (text : String) : Stage B (List UInt8) :=
  match readCode text with
  | .ok code => return code
  | .error .empty => throw ⟨"no machine code given", none⟩
  | .error (.undecoded e) => throw ⟨"Invalid hex string " ++ Quoted.text text, some e.message⟩

/-- Disassemble machine code given as text. -/
def disassemble (s : Style) (a : Arguments) (arch : Arch) (text : String) : Stage B Unit := do
  let code ← readInput text
  let mode := combineModes arch a.flags
  let e ← Stage.during ("Failed to open " ++ arch.name ++ " engine (mode " ++ mode.text ++ ")")
    (Engine.openWith arch mode)
  closing e (useEngine s a code e)

/-- The program for parsed arguments. The version is asked for only where it is logged. -/
def run (w : Surroundings) (s : Style) (a : Arguments) : Stage B Unit := do
  let cell ← Stage.of (match a.lib with
    | some path => Cell.empty.initFrom w path
    | none => Cell.empty.init w)
  Stage.during "Failed to load the capstone library" (ofExcept cell.result)
  if 0 < a.verbosity then
    let version ← Stage.of (Dialogue.ask .version)
    Stage.of (Dialogue.log .info ("capstone " ++ version.shown ++ " loaded"))
  match a.task with
  | .info => Stage.print (← Stage.of Dialogue.describeBuild)
  | .disassemble arch text => disassemble s a arch text

def versionLine : String := "capstone-bind 0.1.0"

inductive Execution where
  | refused (e : UsageError)
  | version
  | help
  | ran (verbosity : Nat) (result : Except Failure Unit) (events : List Event)

/-- The log records that are written at a verbosity. -/
def writtenLogs (verbosity : Nat) (es : List Event) : List (Level × String) :=
  (logsOf es).filter fun p => p.1.rank ≤ verbosity

/-- A log record as it is written: behind its level, its further lines indented. -/
def logText (level : Level) (message : String) : String :=
  level.name ++ " " ++ indent message

/-- The program for an argument list, with an engine in a given state. -/
def execute (w : Surroundings) (s : Style) (args : List String) (state : B.State) : Execution :=
  match parseArguments args with
  | .error e => .refused e
  | .ok .version => .version
  | .ok .help => .help
  | .ok (.run a) =>
    let out := (run w s a : Stage B Unit).run state
    .ran a.verbosity out.value out.events

end Disassembly.CommandLine
