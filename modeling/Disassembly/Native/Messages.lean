import Disassembly.Error

/-!
# The engine's own messages

The text an engine ships for each status code it knows, and bytes of texts in
the form in which an engine hands them out.
-/

namespace Disassembly

def textBytes (s : String) : List UInt8 :=
  s.toUTF8.toList

def ErrorCode.nativeMessage : ErrorCode → String
  | .ok => "OK (CS_ERR_OK)"
  | .outOfMemory => "Out of memory (CS_ERR_MEM)"
  | .unsupportedArch => "Invalid architecture (CS_ERR_ARCH)"
  | .invalidHandle => "Invalid handle (CS_ERR_HANDLE)"
  | .invalidHandleRef => "Invalid csh (CS_ERR_CSH)"
  | .unsupportedMode => "Invalid mode (CS_ERR_MODE)"
  | .unsupportedOption => "Invalid option (CS_ERR_OPTION)"
  | .detailNotRequested => "Details are unavailable (CS_ERR_DETAIL)"
  | .memSetupFailure => "Dynamic memory management uninitialized (CS_ERR_MEMSETUP)"
  | .versionMismatch => "Different API version between core & binding (CS_ERR_VERSION)"
  | .dietUnsupported => "Information irrelevant in diet engine (CS_ERR_DIET)"

/-- The bytes of the engine's message for a status, `none` for a status it does not know. -/
def nativeMessage (s : Status) : Option (List UInt8) :=
  (ErrorCode.ofRaw? s).map fun c => textBytes c.nativeMessage

end Disassembly
