import Disassembly.CommandLine.Address
import Disassembly.Mode

/-!
# Arguments

An argument list is first taken apart into `Item`s, which needs only the
spelling of options, and then collected from left to right, where values are
read and repetitions refused. `parseArguments` gives the arguments, or what is
asked for in their place.

Which options there are, how they are spelt, how their values are read, the
defaults and what mode flags come to together are the program's own. How an
argument list is taken apart and collected stands for the library `clap` (4.5),
and follows its conventions:

* An option's value is attached (`-n5`, `-n=5`, `--count=5`) or the next item,
  if that is a plain one. What begins with `-` and is longer is never plain.
* Short flags can share a dash; the rest of such a cluster after an option is
  its value. Behind `--` everything is plain.
* An option is given once, unless it is counted (`-v`) or collects its values
  (`-m`). Where `-V` or `-h` is reached, nothing later is looked at.
* An unknown option, a value that is missing or cannot be read, and a plain item
  too many are refused, and in the end a required item that was not given.

Of a refusal only the occasion is the library's; `UsageError.message` has shorter
words for it.
-/

namespace Disassembly.CommandLine

/-! ### The program's options -/

/-- Mode flags as the command line has them. -/
inductive ModeFlag where
  | little
  | big
  | thumb
  | micro
  | n64
  | bits16
  | bits32
  | bits64
  deriving DecidableEq, Repr

namespace ModeFlag

def all : List ModeFlag := [.little, .big, .thumb, .micro, .n64, .bits16, .bits32, .bits64]

def name : ModeFlag → String
  | .little => "little"
  | .big => "big"
  | .thumb => "thumb"
  | .micro => "micro"
  | .n64 => "n64"
  | .bits16 => "16"
  | .bits32 => "32"
  | .bits64 => "64"

def mode : ModeFlag → Mode
  | .little => .littleEndian
  | .big => .bigEndian
  | .thumb => .thumb
  | .micro => .micro
  | .n64 => .n64
  | .bits16 => .width16
  | .bits32 => .width32
  | .bits64 => .width64

end ModeFlag

/-- The mode that flags ask for together; X86 without a width is taken for 32-bit. -/
def combineModes (a : Arch) (flags : List ModeFlag) : Mode :=
  let mode := flags.foldl (fun m f => m ||| f.mode) Mode.littleEndian
  if a = .x86 ∧ !Mode.widths.any mode.contains then mode ||| .width32 else mode

/-- Options without a value. -/
inductive Flag where
  | detail
  | info
  | verbose
  | version
  | help
  deriving DecidableEq, Repr

/-- Options with a value. -/
inductive Setter where
  | mode
  | address
  | count
  | dialect
  | lib
  deriving DecidableEq, Repr

inductive Switch where
  | flag (f : Flag)
  | setter (s : Setter)
  deriving DecidableEq, Repr

namespace Switch

/-- The long spellings, without their dashes. -/
def long : List (String × Switch) :=
  [("detail", .flag .detail), ("info", .flag .info), ("verbose", .flag .verbose),
   ("version", .flag .version), ("help", .flag .help), ("mode", .setter .mode),
   ("address", .setter .address), ("count", .setter .count), ("syntax", .setter .dialect),
   ("lib", .setter .lib)]

/-- The short spellings, without their dash. -/
def short : List (Char × Switch) :=
  [('d', .flag .detail), ('v', .flag .verbose), ('V', .flag .version), ('h', .flag .help),
   ('m', .setter .mode), ('a', .setter .address), ('n', .setter .count), ('s', .setter .dialect)]

end Switch

/-- The dialects by their spelling. -/
def dialectNames : List (String × Dialect) :=
  [("default", .default), ("intel", .intel), ("att", .att), ("noregname", .noRegName)]

/-! ### Taking an argument list apart, as the library does -/

/-- A part of an argument list: among them the mark behind which everything is plain, and what is
no option of the program, or a flag with a value. -/
inductive Item where
  | plain (text : String)
  | flag (f : Flag)
  | setter (s : Setter) (attached : Option String)
  | endOfOptions
  | unknown (text : String)
  deriving DecidableEq, Repr

namespace Item

/-- The items of a cluster of short options. -/
def ofCluster : List Char → List Item
  | [] => []
  | c :: cs =>
    match Switch.short.lookup c with
    | some (.flag f) => .flag f :: ofCluster cs
    | some (.setter s) =>
      match cs with
      | [] => [.setter s none]
      | '=' :: value => [.setter s (some (String.ofList value))]
      | value => [.setter s (some (String.ofList value))]
    | none => [.unknown (String.ofList (c :: cs))]

/-- The item of a long option: its name, and what follows the first equals sign. -/
def ofLong (text : List Char) : Item :=
  let name := String.ofList (text.takeWhile (· ≠ '='))
  match Switch.long.lookup name, text.dropWhile (· ≠ '=') with
  | some (.flag f), [] => .flag f
  | some (.setter s), [] => .setter s none
  | some (.setter s), _ :: value => .setter s (some (String.ofList value))
  | _, _ => .unknown (String.ofList text)

/-- The items of one argument before the end of options. -/
def ofArgument (arg : String) : List Item :=
  match arg.toList with
  | ['-'] => [.plain arg]
  | '-' :: '-' :: name => [ofLong name]
  | '-' :: cluster => ofCluster cluster
  | _ => [.plain arg]

/-- The items of an argument list. -/
def ofArguments : List String → List Item
  | [] => []
  | arg :: args =>
    if arg = "--" then .endOfOptions :: args.map .plain
    else ofArgument arg ++ ofArguments args

end Item

/-! ### Collecting, as the library does -/

/-- Why an argument list is refused. -/
inductive UsageError where
  | unknown (text : String)
  | missingValue (s : Setter)
  | badValue (text : String)
  | repeated
  | tooMany (text : String)
  | missingArgument
  deriving DecidableEq, Repr

def UsageError.message : UsageError → String
  | .unknown text => "unexpected argument " ++ text
  | .missingValue _ => "an option lacks its value"
  | .badValue text => "invalid value " ++ text
  | .repeated => "an option is given twice"
  | .tooMany text => "unexpected argument " ++ text
  | .missingArgument => "an architecture and machine code are required"

/-- What has been collected of the arguments. -/
structure Draft where
  arch : Option Arch := none
  code : Option String := none
  flags : List ModeFlag := []
  address : Option UInt64 := none
  count : Option Nat := none
  dialect : Option Dialect := none
  detail : Bool := false
  lib : Option String := none
  info : Bool := false
  verbosity : Nat := 0
  deriving DecidableEq, Repr

/-- What the program is asked to do: describe the engine, or disassemble. -/
inductive Task where
  | info
  | disassemble (arch : Arch) (code : String)
  deriving DecidableEq, Repr

/-- A complete set of arguments. -/
structure Arguments where
  task : Task
  flags : List ModeFlag
  address : UInt64
  count : Nat
  dialect : Option Dialect
  detail : Bool
  lib : Option String
  verbosity : Nat
  deriving DecidableEq, Repr

/-- What an argument list asks for. -/
inductive Request where
  | run (a : Arguments)
  | version
  | help
  deriving DecidableEq, Repr

namespace Draft

/-- A value that must be readable. -/
def value {α : Type} (text : String) (read : Option α) : Except UsageError α :=
  match read with
  | some a => .ok a
  | none => .error (.badValue text)

/-- A field that must still be free. -/
def once {α : Type} (field : Option α) : Except UsageError Unit :=
  if field.isSome then .error .repeated else .ok ()

/-- Take a plain item for the architecture, then for the machine code. -/
def takePlain (d : Draft) (text : String) : Except UsageError Draft :=
  match d.arch, d.code with
  | none, _ => do
    let a ← value text (Arch.all.find? fun a => a.name == text)
    return { d with arch := some a }
  | some _, none => .ok { d with code := some text }
  | some _, some _ => .error (.tooMany text)

/-- Take an option's value. -/
def takeValue (d : Draft) (s : Setter) (text : String) : Except UsageError Draft :=
  match s with
  | .mode => do
    let f ← value text (ModeFlag.all.find? fun f => f.name == text)
    return { d with flags := d.flags ++ [f] }
  | .address => do
    once d.address
    return { d with address := some (← value text (readAddress text)) }
  | .count => do
    once d.count
    return { d with count := some (← value text (Numeral.readUnsigned 10 text.toList)).toNat }
  | .dialect => do
    once d.dialect
    return { d with dialect := some (← value text (dialectNames.lookup text)) }
  | .lib => do
    once d.lib
    if text.isEmpty then throw (.badValue text)
    return { d with lib := some text }

/-- The arguments, once everything is collected. The default address is 0x1000. -/
def finish (d : Draft) : Except UsageError Arguments := do
  let task ← match d.info, d.arch, d.code with
    | true, _, _ => .ok .info
    | false, some a, some c => .ok (.disassemble a c)
    | false, _, _ => .error .missingArgument
  return {
    task := task
    flags := d.flags
    address := d.address.getD 0x1000
    count := d.count.getD 0
    dialect := d.dialect
    detail := d.detail
    lib := d.lib
    verbosity := d.verbosity }

/-- Collect items from left to right. -/
def collect (d : Draft) : List Item → Except UsageError Request
  | [] => do return .run (← d.finish)
  | .plain text :: r => do (← d.takePlain text).collect r
  | .flag .detail :: r => if d.detail then .error .repeated else { d with detail := true }.collect r
  | .flag .info :: r => if d.info then .error .repeated else { d with info := true }.collect r
  | .flag .verbose :: r => { d with verbosity := d.verbosity + 1 }.collect r
  | .flag .version :: _ => .ok .version
  | .flag .help :: _ => .ok .help
  | .setter s (some text) :: r => do (← d.takeValue s text).collect r
  | .setter s none :: .plain text :: r => do (← d.takeValue s text).collect r
  | .setter s none :: _ => .error (.missingValue s)
  | .endOfOptions :: r => d.collect r
  | .unknown text :: _ => .error (.unknown text)

end Draft

/-- What an argument list asks for, or why it is refused. -/
def parseArguments (args : List String) : Except UsageError Request :=
  Draft.collect {} (Item.ofArguments args)

end Disassembly.CommandLine
