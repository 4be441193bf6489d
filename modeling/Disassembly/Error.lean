import Disassembly.Text.Numeral

/-!
# Status codes and failures

`ErrorCode` names the eleven status codes an engine reports; `ofRaw?` and `raw`
go between a 32-bit status and its code. `Error` says why an operation failed:
with a known code and the engine's own message for it, with a status nobody
knows, or because no library could be loaded. `Error.message` is its wording.
-/

namespace Disassembly

/-- What a native function returns to say how it went. -/
abbrev Status := Int32

inductive ErrorCode where
  | ok
  | outOfMemory
  | unsupportedArch
  | invalidHandle
  | invalidHandleRef
  | unsupportedMode
  | unsupportedOption
  | detailNotRequested
  | memSetupFailure
  | versionMismatch
  | dietUnsupported
  deriving DecidableEq, Repr

namespace ErrorCode

def all : List ErrorCode :=
  [.ok, .outOfMemory, .unsupportedArch, .invalidHandle, .invalidHandleRef, .unsupportedMode,
    .unsupportedOption, .detailNotRequested, .memSetupFailure, .versionMismatch,
    .dietUnsupported]

/-- The status that reports the code. -/
def raw : ErrorCode → Status
  | .ok => 0
  | .outOfMemory => 1
  | .unsupportedArch => 2
  | .invalidHandle => 3
  | .invalidHandleRef => 4
  | .unsupportedMode => 5
  | .unsupportedOption => 6
  | .detailNotRequested => 7
  | .memSetupFailure => 8
  | .versionMismatch => 9
  | .dietUnsupported => 10

/-- The code a status reports, if it reports one. -/
def ofRaw? (s : Status) : Option ErrorCode :=
  all.find? (fun c => c.raw == s)

theorem ofRaw?_raw (c : ErrorCode) : ofRaw? c.raw = some c := by
  cases c <;> rfl

/-- A status reports the code whose number it is, and no other. -/
theorem raw_of_ofRaw? {s : Status} {c : ErrorCode} (h : ofRaw? s = some c) : c.raw = s := by
  have hfound := List.find?_some h
  exact eq_of_beq hfound

def isOk (c : ErrorCode) : Bool :=
  c == .ok

def name : ErrorCode → String
  | .ok => "Ok"
  | .outOfMemory => "OutOfMemory"
  | .unsupportedArch => "UnsupportedArch"
  | .invalidHandle => "InvalidHandle"
  | .invalidHandleRef => "InvalidHandleRef"
  | .unsupportedMode => "UnsupportedMode"
  | .unsupportedOption => "UnsupportedOption"
  | .detailNotRequested => "DetailNotRequested"
  | .memSetupFailure => "MemSetupFailure"
  | .versionMismatch => "VersionMismatch"
  | .dietUnsupported => "DietUnsupported"

end ErrorCode

/-- Why an operation failed. -/
inductive Error where
  | engine (code : ErrorCode) (message : String)
  | unknownStatus (status : Status)
  | libraryLoad (reason : String)
  deriving DecidableEq, Repr

namespace Error

/-- The code of the failure, if the engine named one. -/
def code : Error → Option ErrorCode
  | .engine c _ => some c
  | _ => none

def message : Error → String
  | .engine c m => m ++ " (" ++ c.name ++ ")"
  | .unknownStatus s => "engine reported unknown status " ++ toString s.toInt
  | .libraryLoad r => "capstone library unavailable: " ++ r

end Error

end Disassembly
