import Disassembly.Native.Dialogue

/-!
# Versions and capabilities

The layout of native records is fixed by the version of the engine, so every
way to a handle goes through `checkVersion` first. `describeBuild` sums up an
engine in one word: its flavour, the architectures it has, and its version.
-/

namespace Disassembly

namespace Version

/-- The version whose record layouts this library reads. -/
def expected : Version := ⟨2, 1, 513⟩

def text (v : Version) : String :=
  toString v.major.toInt ++ "." ++ toString v.minor.toInt

def shown (v : Version) : String :=
  "(" ++ toString v.major.toInt ++ ", " ++ toString v.minor.toInt ++ ", " ++
    toString v.combined.toInt ++ ")"

/-- Whether records of an engine of this version can be read; the combined number has no say. -/
def matchesExpected (v : Version) : Bool :=
  v.major == expected.major && v.minor == expected.minor

end Version

/-- What an engine can be asked for: one architecture, all of them, and whether it was built without
text and register names. -/
inductive Capability where
  | arch (a : Arch)
  | allArchs
  | diet
  deriving DecidableEq, Repr

namespace Capability

def raw : Capability → Int32
  | .arch a => a.raw.toInt32
  | .allArchs => 0xFFFF
  | .diet => 0x10000

end Capability

namespace Dialogue

variable {B : Backend}

def supports (c : Capability) : Dialogue B Bool :=
  ask (.support c.raw)

/-- The architectures the engine has, of those given. -/
def supportedOf : List Arch → Dialogue B (List Arch)
  | [] => return []
  | a :: as => do
    let has ← supports (.arch a)
    let rest ← supportedOf as
    return if has then a :: rest else rest

/-- The engine in one word: flavour, architectures in alphabetical order, its version and the
expected one. -/
def describeBuild : Dialogue B String := do
  let diet ← supports .diet
  let archs ← supportedOf Arch.all
  let version ← ask .version
  let names := (archs.map Arch.name).mergeSort (fun a b => decide (a ≤ b))
  return "rust-" ++ (if diet then "diet" else "standard") ++ String.join (names.map ("-" ++ ·)) ++
    "-c" ++ version.text ++ "-b" ++ Version.expected.text

end Dialogue

/-- Fail unless the engine has the expected version. -/
def checkVersion {B : Backend} : Attempt B Unit := do
  let v ← Attempt.ask .version
  if v.matchesExpected then
    return ()
  else
    Attempt.log .warn ("capstone engine " ++ v.text ++ " does not match binding " ++
      Version.expected.text)
    Attempt.refuse .versionMismatch

end Disassembly
