import Disassembly.Session.Insn
import Disassembly.Session.Version

/-!
# Open engines

An `Engine` is a handle together with the configuration the native side last
accepted. It is obtained by `Engine.openWith`, changed by the setters, which
give a new value only if the engine agreed, and given up by `Engine.close` or
`Engine.drop`.

What has an owner is dropped in the end, also after it was closed. An
`Engine.Owned` therefore has a mark that its handle is open, which is cleared
before the handle is closed: `Engine.close` drops an engine without its mark,
and this does nothing (`Engine.Owned.drop_of_closed`), even if the closing
failed. `Engine.close_eq` and `Engine.drop_eq` are what remains, one call each.

Decoding is one native call. The array it hands out is read and freed before
the operation ends, on every way out of it.
-/

namespace Disassembly

/-- A handle and the configuration that goes with it. -/
structure Engine where
  handle : Handle
  arch : Arch
  -- Asked once, when the handle is opened.
  diet : Bool
  mode : Mode
  -- None before a choice, except on X86.
  dialect : Option Dialect
  detail : Bool
  deriving DecidableEq, Repr

namespace Engine

variable {B : Backend}

def shown (e : Engine) : String :=
  Quoted.record "Engine"
    [("arch", e.arch.label),
      ("mode", e.mode.shown),
      ("syntax", Quoted.optional (e.dialect.map Dialect.label)),
      ("detail", toString e.detail),
      ("diet", toString e.diet)] true

/-! ### Opening and closing -/

/-- Open an engine: version first, then the mode, then the handle. -/
def openWith (arch : Arch) (mode : Mode) : Attempt B Engine := do
  checkVersion
  if mode.supportedBy arch then
    let (status, handle) ← Attempt.ask (.openEngine arch mode)
    Attempt.check status
    let diet ← Attempt.of (Dialogue.supports .diet)
    Attempt.log .debug ("opened " ++ arch.name ++ " engine (mode " ++ mode.text ++ ", diet " ++
      toString diet ++ ", handle " ++ Numeral.marked handle.value ++ ")")
    return {
      handle := handle
      arch := arch
      diet := diet
      mode := mode
      dialect := arch.defaultDialect
      detail := false }
  else
    Attempt.log .debug ("rejecting mode " ++ mode.text ++ " for " ++ arch.name)
    Attempt.refuse .unsupportedMode

/-- An engine in its owner's hands, with the mark that its handle is open. -/
structure Owned where
  engine : Engine
  isOpen : Bool := true

/-- An engine is open when its owner gets it. -/
def owned (e : Engine) : Owned where
  engine := e

namespace Owned

/-- Close the handle if it is open. The mark is cleared first: a closing that fails is not made
again when the engine is dropped. -/
def closeNative (o : Owned) : Dialogue B (Except Error Unit × Owned) := do
  if o.isOpen then
    let o := { o with isOpen := false }
    let status ← Dialogue.ask (.close o.engine.handle)
    Dialogue.log .debug ("closed " ++ o.engine.arch.name ++ " engine (status " ++
      toString status.toInt ++ ")")
    return (← (Attempt.check status).run, o)
  else
    return (.ok (), o)

/-- Close the handle if it is open; a failure is only logged. -/
def drop (o : Owned) : Dialogue B Unit := do
  match (← o.closeNative).1 with
  | .ok () => return ()
  | .error err =>
    Dialogue.log .warn ("closing " ++ o.engine.arch.name ++ " engine on drop failed: " ++
      err.message)

/-- Closing clears the mark, however it went. -/
theorem isOpen_closeNative (o : Owned) (s : B.State) :
    (o.closeNative s).value.2.isOpen = false := by
  rw [closeNative]
  cases hopen : o.isOpen with
  | true => rfl
  | false => exact hopen

/-- An engine that was closed is dropped without a word. -/
theorem drop_of_closed {o : Owned} (h : o.isOpen = false) :
    (o.drop : Dialogue B Unit) = return () := by
  rw [drop, closeNative, h]
  rfl

end Owned

/-- Close the handle and report how that went; then the engine is dropped. -/
def close (e : Engine) : Attempt B Unit := do
  let (result, o) ← Attempt.of e.owned.closeNative
  Attempt.of o.drop
  ofExcept result

/-- Give an engine up without closing it first. -/
def drop (e : Engine) : Dialogue B Unit :=
  e.owned.drop

/-- **The handle is closed once**: the engine that is dropped after its closing has no mark. -/
theorem close_eq (e : Engine) : (e.close : Attempt B Unit) = (do
    let status ← Attempt.ask (.close e.handle)
    Attempt.log .debug ("closed " ++ e.arch.name ++ " engine (status " ++
      toString status.toInt ++ ")")
    Attempt.check status) := by
  refine ExceptT.ext ?_
  simp [close, owned, Owned.closeNative, Owned.drop_of_closed, Attempt.of, Attempt.ask, Attempt.log]

/-- Dropping an open engine is closing it, with a warning if that fails. -/
theorem drop_eq (e : Engine) : (e.drop : Dialogue B Unit) = (do
    match ← e.close.run with
    | .ok () => return ()
    | .error err =>
      Dialogue.log .warn ("closing " ++ e.arch.name ++ " engine on drop failed: " ++
        err.message)) := by
  rw [close_eq]
  simp [drop, owned, Owned.closeNative, Owned.drop, Attempt.of, Attempt.ask, Attempt.log]

/-! ### Options -/

def option (e : Engine) (s : Setting) : Attempt B Unit := do
  Attempt.check (← Attempt.ask (.option e.handle s))

/-- Choose the dialect of later decodes. -/
def setDialect (e : Engine) (d : Dialect) : Attempt B Engine := do
  e.option (.dialect d)
  Attempt.log .debug (e.arch.name ++ " syntax -> " ++ d.label)
  return { e with dialect := some d }

/-- Turn detail on or off for later decodes. -/
def setDetail (e : Engine) (on : Bool) : Attempt B Engine := do
  e.option (.detail on)
  Attempt.log .debug (e.arch.name ++ " detail -> " ++ toString on)
  return { e with detail := on }

/-- Choose the mode of later decodes; one the architecture does not take is refused here. -/
def setMode (e : Engine) (m : Mode) : Attempt B Engine := do
  if m.supportedBy e.arch then
    e.option (.mode m)
    Attempt.log .debug (e.arch.name ++ " mode -> " ++ m.text)
    return { e with mode := m }
  else
    Attempt.refuse .unsupportedOption

/-! ### Questions -/

/-- The status the engine last recorded for the handle. -/
def errno (e : Engine) : Attempt B ErrorCode := do
  let status ← Attempt.ask (.errno e.handle)
  match ErrorCode.ofRaw? status with
  | some code => return code
  | none => throw (.unknownStatus status)

/-- Refuse what a diet engine does not have. -/
def ensureNotDiet (e : Engine) : Attempt B Unit :=
  if e.diet then Attempt.refuse .dietUnsupported else return ()

def regName (e : Engine) (id : UInt32) : Attempt B (Option String) := do
  e.ensureNotDiet
  return (← Attempt.ask (.regName e.handle id)).map fieldText

def insnName (e : Engine) (id : UInt32) : Attempt B (Option String) := do
  e.ensureNotDiet
  return (← Attempt.ask (.insnName e.handle id)).map fieldText

/-! ### Decoding -/

/-- One native decode. A count of zero is an error or an empty success, as the engine's errno
says; an array with entries is freed. -/
def decodeNative (e : Engine) (code : List UInt8) (address : UInt64) (count : Nat) :
    Attempt B (List NativeInsn) := do
  let decoded ← Attempt.ask (.disasm e.handle code address count)
  Attempt.log .trace (e.arch.name ++ " decode of " ++ toString code.length ++ " bytes at " ++
    Numeral.marked address.toNat ++ ": " ++ toString decoded.count ++ " insns")
  if decoded.count = 0 then
    Attempt.check (← Attempt.ask (.errno e.handle))
  else
    match decoded.array with
    | some a => Attempt.ask (.free a.number decoded.count)
    | none => pure ()
  return decoded.entries

/-- Decode at most `count` instructions, all of them for count zero. -/
def disasm (e : Engine) (code : List UInt8) (address : UInt64) (count : Nat) :
    Attempt B (List Insn) := do
  return (← e.decodeNative code address count).map (Insn.ofNative e.arch e.diet e.detail)

/-- Decode to place and text only, which a diet engine does not have. -/
def disasmLite (e : Engine) (code : List UInt8) (address : UInt64) (count : Nat) :
    Attempt B (List LiteInsn) := do
  e.ensureNotDiet
  return (← e.decodeNative code address count).map LiteInsn.ofNative

end Engine

variable {B : Backend}

/-- Open an engine, use it once, close it whatever happened. A failing use is reported before a
failing close. -/
def withEngine {α : Type} (arch : Arch) (mode : Mode) (use : Engine → Attempt B α) :
    Attempt B α := do
  let e ← Engine.openWith arch mode
  let used ← Attempt.of (use e).run
  let closed ← Attempt.of e.close.run
  let result ← ofExcept used
  ofExcept closed
  return result

/-- Decode with an engine of its own. -/
def disasmQuick (arch : Arch) (mode : Mode) (code : List UInt8) (address : UInt64) (count : Nat) :
    Attempt B (List Insn) :=
  withEngine arch mode fun e => e.disasm code address count

/-- Decode to place and text with an engine of its own; a diet engine is refused unopened. -/
def disasmLiteQuick (arch : Arch) (mode : Mode) (code : List UInt8) (address : UInt64)
    (count : Nat) : Attempt B (List LiteInsn) := do
  checkVersion
  if ← Attempt.of (Dialogue.supports .diet) then
    Attempt.refuse .dietUnsupported
  withEngine arch mode fun e => e.disasmLite code address count

end Disassembly
