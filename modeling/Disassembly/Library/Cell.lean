import Disassembly.Library.Loader
import Disassembly.Native.Dialogue

/-!
# The library of the process

A process uses one library. Its `Cell` is written once, by whoever comes first:
by a search of the usual places, or by the load of an explicit path. Everyone
later sees what was written, success or failure.

* `Surroundings.searchPaths` lists the usual places in order.
* `Cell.init` and `Cell.initFrom` are the two ways to a library, which is known by
  the path it was loaded from.
-/

namespace Disassembly

/-- The environment variable that holds the path of the library. -/
def libraryVariable : String := "CAPSTONE_LIB"

def libraryNames : List String := ["libcapstone.so", "libcapstone.so.2"]

/-- What the process finds around it: the value of the variable if it is set, the directory of the
executable if it is known. -/
structure Surroundings where
  loader : Loader
  libraryPath : Option String
  executableDir : Option String

/-- The path of a name in a directory. A directory that ends with a slash needs no other. -/
def pathIn (dir name : String) : String :=
  if dir.isEmpty || dir.endsWith "/" then dir ++ name else dir ++ "/" ++ name

namespace Surroundings

/-- The places searched: the variable's, the executable's directory, the loader's own. -/
def searchPaths (w : Surroundings) : List String :=
  w.libraryPath.toList ++
    (w.executableDir.toList.flatMap fun d => libraryNames.map (pathIn d)) ++ libraryNames

end Surroundings

/-- What is known about the library of the process. -/
inductive Cell where
  | empty
  | loaded (path : String)
  | failed (reason : String)
  deriving DecidableEq, Repr

namespace Cell

variable {B : Backend}

def result : Cell → Except Error Unit
  | .failed reason => .error (.libraryLoad reason)
  | _ => .ok ()

/-- The cell that an outcome is written into: the path of the library, or why there is none. -/
def ofResult : Except Error String → Cell
  | .ok path => .loaded path
  | .error e => .failed e.message

def tryLoad (l : Loader) (path : String) : Dialogue B (Except Error String) := do
  Dialogue.emit (.load path)
  match l.load path with
  | .ok () => return .ok path
  | .error e => return .error (.libraryLoad e.message)

/-- Try one path after another until one loads. `tried` holds the failures so far. -/
def search (l : Loader) (tried : List String) : List String → Dialogue B (Except Error String)
  | [] => do
    Dialogue.log .warn ("capstone library not found (" ++ toString tried.length ++
      " locations tried)")
    return .error (.libraryLoad (String.intercalate "; " tried))
  | path :: paths => do
    match ← tryLoad l path with
    | .ok found =>
      Dialogue.log .debug ("loaded capstone from " ++ found)
      return .ok found
    | .error e =>
      Dialogue.log .trace ("capstone not at " ++ path ++ ": " ++ e.message)
      search l (tried ++ [e.message]) paths

/-- Make sure the cell is written, by a search if need be. -/
def init (w : Surroundings) : Cell → Dialogue B Cell
  | .empty => do return ofResult (← search w.loader [] w.searchPaths)
  | written => return written

/-- Make sure the cell is written, by loading a path if need be. -/
def initFrom (w : Surroundings) (path : String) : Cell → Dialogue B Cell
  | .empty => do
    Dialogue.log .debug ("loading capstone from " ++ path)
    return ofResult (← tryLoad w.loader path)
  | written => do
    Dialogue.log .debug ("capstone already initialised, ignoring " ++ path)
    return written

end Cell

end Disassembly
