import Disassembly.Error
import Disassembly.Text.Quoted

/-!
# Loading a library

The system loader opens files and looks symbols up, and has its own words for
what fails. A library can be used if it opens and has all thirteen entry points;
`Loader.load` says what is missing otherwise, the first symbol in the order in
which they are resolved, and passes the loader's words on.
-/

namespace Disassembly

/-- The entry points of an engine library. -/
inductive EntryPoint where
  | openEngine
  | disasm
  | free
  | close
  | regName
  | insnName
  | opCount
  | opIndex
  | errno
  | option
  | version
  | support
  | strerror
  deriving DecidableEq, Repr

namespace EntryPoint

/-- The entry points in the order in which they are resolved. -/
def all : List EntryPoint :=
  [.openEngine, .disasm, .free, .close, .regName, .insnName, .opCount, .opIndex, .errno, .option,
    .version, .support, .strerror]

def symbol : EntryPoint → String
  | .openEngine => "cs_open"
  | .disasm => "cs_disasm_ex"
  | .free => "cs_free"
  | .close => "cs_close"
  | .regName => "cs_reg_name"
  | .insnName => "cs_insn_name"
  | .opCount => "cs_op_count"
  | .opIndex => "cs_op_index"
  | .errno => "cs_errno"
  | .option => "cs_option"
  | .version => "cs_version"
  | .support => "cs_support"
  | .strerror => "cs_strerror"

end EntryPoint

/-- What the system loader makes of a path. An open library has the entry points for which it has
no complaint. -/
inductive Opening where
  | unopened (complaint : String)
  | opened (complaint? : EntryPoint → Option String)

/-- Why a library cannot be used: the path or the symbol, and the system loader's complaint. -/
inductive LoadError where
  | unopened (path complaint : String)
  | missing (e : EntryPoint) (complaint : String)
  deriving DecidableEq, Repr

namespace LoadError

def message : LoadError → String
  | .unopened path complaint => path ++ ": " ++ complaint
  | .missing e complaint => "missing symbol " ++ e.symbol ++ ": " ++ complaint

end LoadError

/-- The system loader. -/
abbrev Loader := String → Opening

namespace Loader

/-- Load the library at a path and resolve its entry points. -/
def load (l : Loader) (path : String) : Except LoadError Unit :=
  match l path with
  | .unopened complaint => .error (.unopened path complaint)
  | .opened complaint? =>
    match EntryPoint.all.findSome? fun e => (complaint? e).map (LoadError.missing e) with
    | some err => .error err
    | none => .ok ()

end Loader

/-- A resolved library as data; `fromFile` says that it was loaded from a file. -/
def shownLibrary (fromFile : Bool) : String :=
  Quoted.record "NativeApi" [("loaded_library", toString fromFile)] true

end Disassembly
