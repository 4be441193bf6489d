import Disassembly.Native.Call
import Disassembly.Text.Utf8

/-!
# Dialogues with an engine

A `Dialogue` asks an engine questions and yields a value; whatever can be seen
of it from outside, in order, is its list of events: calls with their answers,
log records, printed lines and attempts to load a library. A dialogue that can
fail is an `Attempt`; its events stay even if it fails.
-/

namespace Disassembly

/-- How important a log record is, most important first. -/
inductive Level where
  | warn
  | info
  | debug
  | trace
  deriving DecidableEq, Repr

namespace Level

def rank : Level → Nat
  | .warn => 0
  | .info => 1
  | .debug => 2
  | .trace => 3

def name : Level → String
  | .warn => "WARN"
  | .info => "INFO"
  | .debug => "DEBUG"
  | .trace => "TRACE"

end Level

/-- One thing that can be seen from outside: a question with its answer, a log record, a printed
line, an attempt to load a library. -/
inductive Event where
  | call (c : Call) (a : c.Answer)
  | log (level : Level) (message : String)
  | line (text : String)
  | load (path : String)

namespace Event

def call? : Event → Option Call
  | .call c _ => some c
  | _ => none

def log? : Event → Option (Level × String)
  | .log l m => some (l, m)
  | _ => none

def line? : Event → Option String
  | .line t => some t
  | _ => none

def load? : Event → Option String
  | .load p => some p
  | _ => none

end Event

def callsOf (es : List Event) : List Call :=
  es.filterMap Event.call?

def logsOf (es : List Event) : List (Level × String) :=
  es.filterMap Event.log?

def linesOf (es : List Event) : List String :=
  es.filterMap Event.line?

def loadsOf (es : List Event) : List String :=
  es.filterMap Event.load?

/-- What a dialogue comes to. -/
structure Outcome (σ α : Type) where
  value : α
  state : σ
  events : List Event

/-- A computation that asks an engine. -/
def Dialogue (B : Backend) (α : Type) : Type :=
  B.State → Outcome B.State α

namespace Dialogue

variable {B : Backend} {α β : Type}

def pure (a : α) : Dialogue B α :=
  fun s => ⟨a, s, []⟩

/-- One dialogue after another; the events follow each other. -/
def bind (x : Dialogue B α) (f : α → Dialogue B β) : Dialogue B β :=
  fun s =>
    let first := x s
    let second := f first.value first.state
    ⟨second.value, second.state, first.events ++ second.events⟩

instance : Monad (Dialogue B) where
  pure := Dialogue.pure
  bind := Dialogue.bind

def emit (e : Event) : Dialogue B Unit :=
  fun s => ⟨(), s, [e]⟩

def ask (c : Call) : Dialogue B c.Answer :=
  fun s => ⟨(B.answer s c).1, (B.answer s c).2, [.call c (B.answer s c).1]⟩

def log (level : Level) (message : String) : Dialogue B Unit :=
  emit (.log level message)

def print (text : String) : Dialogue B Unit :=
  emit (.line text)

/-- The engine's message for a status. -/
def message (status : Status) : Dialogue B String := do
  match ← ask (.strerror status) with
  | some bytes => return fieldText bytes
  | none => return "unknown error code " ++ toString status.toInt

/-- The same dialogue with nothing recorded. -/
def unrecorded (x : Dialogue B α) : Dialogue B α :=
  fun s => ⟨(x s).value, (x s).state, []⟩

@[simp]
theorem run_pure (a : α) (s : B.State) : (Pure.pure a : Dialogue B α) s = ⟨a, s, []⟩ := rfl

@[simp]
theorem run_bind (x : Dialogue B α) (f : α → Dialogue B β) (s : B.State) :
    (x >>= f) s =
      ⟨(f (x s).value (x s).state).value, (f (x s).value (x s).state).state,
        (x s).events ++ (f (x s).value (x s).state).events⟩ := rfl

theorem bind_pure_id (x : Dialogue B α) : id <$> x = x := by
  funext s
  change (⟨(x s).value, (x s).state, (x s).events ++ []⟩ : Outcome B.State α) = x s
  rw [List.append_nil]

instance : LawfulMonad (Dialogue B) :=
  LawfulMonad.mk' (Dialogue B) bind_pure_id (fun _ _ => rfl) (fun x f g => by
    funext s
    simp only [run_bind, List.append_assoc])

end Dialogue

/-- A dialogue that can fail; what it did before failing stays done. -/
abbrev Attempt (B : Backend) (α : Type) : Type :=
  ExceptT Error (Dialogue B) α

namespace Attempt

variable {B : Backend} {α : Type}

/-- A dialogue that does not fail. -/
def of (x : Dialogue B α) : Attempt B α :=
  ExceptT.lift x

def ask (c : Call) : Attempt B c.Answer :=
  of (Dialogue.ask c)

def log (level : Level) (message : String) : Attempt B Unit :=
  of (Dialogue.log level message)

/-- What has come to a result comes to it. -/
@[simp]
theorem ofExcept_run (r : Except Error α) : (ofExcept r : Attempt B α).run = return r := by
  cases r <;> rfl

/-- Fail with a known code, in the engine's words. -/
def refuse (code : ErrorCode) : Attempt B α := do
  let message ← of (Dialogue.message code.raw)
  throw (.engine code message)

/-- Go on after status zero, fail after any other. -/
def check (status : Status) : Attempt B Unit :=
  match ErrorCode.ofRaw? status with
  | some .ok => return ()
  | some code => refuse code
  | none => throw (.unknownStatus status)

end Attempt

end Disassembly
