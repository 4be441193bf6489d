import Disassembly.Native.Call
import Disassembly.Native.Messages

/-!
# Scripted engines

A scripted engine answers from lists: each call takes the next entry of its
list, and an exhausted list gives a fixed answer. It checks nothing, not even
its handles, so that every combination of answers can be produced.

* `Script` holds the lists, with the answers of an unremarkable engine as
  defaults; `Script.answer` takes from them.
* `Script.Change` replaces one of them.
* `Script.backend` is the engine.
-/

namespace Disassembly

/-- What a decode call hands out: a count under a null pointer, or an array, whose length is not
counted if it is `withheld`. -/
inductive ScriptedDecode where
  | null (count : Nat)
  | insns (entries : List NativeInsn) (withheld : Bool)

/-- The answers still to be given, and how many handles and arrays there have been. -/
structure Script where
  major : Int32 := 2
  minor : Int32 := 1
  combined : Option Int32 := none
  supported : List Int32 := [0, 1, 2, 3, 4, 0xFFFF]
  -- Where they differ from the usual ones; none is a null pointer.
  messages : List (Status × Option (List UInt8)) := []
  regNames : List (UInt32 × List UInt8) := []
  insnNames : List (UInt32 × List UInt8) := []
  openings : List Status := []
  closings : List Status := []
  options : List Status := []
  errnos : List Status := []
  decodes : List ScriptedDecode := []
  opened : Nat := 0
  arrays : Nat := 0

namespace Script

def version (s : Script) : Version :=
  ⟨s.major, s.minor, s.combined.getD (s.major * 256 + s.minor)⟩

/-- The next status of a list, zero when it is exhausted. -/
def next (statuses : List Status) : Status :=
  statuses.headD 0

/-- The next decode, and the script after it. -/
def decode (s : Script) : Decoded × Script :=
  let after := { s with decodes := s.decodes.tail }
  match s.decodes.headD (.insns [] false) with
  | .null n => (⟨n, none⟩, after)
  | .insns [] _ => (⟨0, none⟩, after)
  | .insns entries withheld =>
    (⟨if withheld then 0 else entries.length, some ⟨s.arrays + 1, entries⟩⟩,
      { after with arrays := s.arrays + 1 })

/-- The answer to a call, and the script after it. -/
def answer (s : Script) : (c : Call) → c.Answer × Script
  | .version => (s.version, s)
  | .support q => (s.supported.contains q, s)
  | .openEngine _ _ =>
    let after := { s with openings := s.openings.tail }
    if next s.openings = 0 then ((0, ⟨s.opened + 1⟩), { after with opened := s.opened + 1 })
    else ((next s.openings, ⟨0⟩), after)
  | .close _ => (next s.closings, { s with closings := s.closings.tail })
  | .option _ _ => (next s.options, { s with options := s.options.tail })
  | .errno _ => (next s.errnos, { s with errnos := s.errnos.tail })
  | .disasm _ _ _ _ => s.decode
  | .free _ _ => ((), s)
  | .regName _ id => (s.regNames.lookup id, s)
  | .insnName _ id => (s.insnNames.lookup id, s)
  | .strerror status => ((s.messages.lookup status).getD (nativeMessage status), s)

/-- New answers for one kind of call. -/
inductive Change where
  | version (major minor : Int32)
  | combined (n : Int32)
  | supported (queries : List Int32)
  | messages (l : List (Status × Option (List UInt8)))
  | regNames (l : List (UInt32 × List UInt8))
  | insnNames (l : List (UInt32 × List UInt8))
  | openings (l : List Status)
  | closings (l : List Status)
  | options (l : List Status)
  | errnos (l : List Status)
  | decodes (l : List ScriptedDecode)

def change (s : Script) : Change → Script
  | .version major minor => { s with major := major, minor := minor }
  | .combined n => { s with combined := some n }
  | .supported l => { s with supported := l }
  | .messages l => { s with messages := l }
  | .regNames l => { s with regNames := l }
  | .insnNames l => { s with insnNames := l }
  | .openings l => { s with openings := l }
  | .closings l => { s with closings := l }
  | .options l => { s with options := l }
  | .errnos l => { s with errnos := l }
  | .decodes l => { s with decodes := l }

def backend : Backend where
  State := Script
  answer := answer
  Change := Change
  change := change

end Script

end Disassembly
