import Disassembly.Library.Cell
import Disassembly.Session.Desk

/-!
# The host of a library

A host is a process: it has one library, resolved once, and a desk of open
engines. Operations that start from nothing go through the library first;
operations on an open engine do not look at it again. `Host.step` carries one
out, `Host.run` one after another.
-/

namespace Disassembly

namespace Op

/-- Whether the operation starts from the library rather than from something open or kept. -/
def startsFromLibrary : Op → Bool
  | .act _ _ => false
  | .inquire _ _ _ => false
  | _ => true

end Op

/-- An operation, or the load of the library from a path, whose version is then asked for. -/
inductive HostOp where
  | initFrom (path : String)
  | op (o : Op)

/-- The library of the process, and its open engines. -/
structure Host where
  cell : Cell := .empty
  desk : Desk := {}

namespace Host

variable {B : Backend}

/-- Carry an operation out if there is a library. -/
def withLibrary (p : Host) (o : Op) : Dialogue B (Reply × Host) := do
  match p.cell.result with
  | .error e => return (.failed e, p)
  | .ok () =>
    let (reply, desk) ← p.desk.step o
    return (reply, { p with desk := desk })

def step (w : Surroundings) (p : Host) : HostOp → Dialogue B (Reply × Host)
  | .initFrom path => do
    let cell ← p.cell.initFrom w path
    withLibrary { p with cell := cell } .version
  | .op o => do
    if o.startsFromLibrary then
      let cell ← p.cell.init w
      withLibrary { p with cell := cell } o
    else
      let (reply, desk) ← p.desk.step o
      return (reply, { p with desk := desk })

def run (w : Surroundings) (p : Host) (s : B.State) :
    List HostOp → List (Outcome B.State (Reply × Host))
  | [] => []
  | o :: os =>
    let out := p.step w o s
    out :: out.value.2.run w out.state os

end Host

end Disassembly
