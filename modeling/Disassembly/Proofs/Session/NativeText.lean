import Disassembly.Proofs.Session.Statuses
import Disassembly.Proofs.Text.Pieces

/-!
# Text that comes from the engine

The engine hands out texts as fields and behind pointers, ended by a zero byte or by the end of the
field.  Nothing says that they are well-formed, and the zero byte can stand in the middle of a
character.

* `front` — the bytes that count, and `FrontRead` — what is read from a field, in terms of them;
* `Engine.value_regName`, `Engine.value_insnName` — texts behind pointers are read as fields are;
* `native_text` — all of it, for every field and every engine.
-/

namespace Disassembly

variable {B : Backend} {field : List UInt8} {cs : List Char}

/-! ### The bytes that count -/

/-- The bytes of a field before its first zero byte, all of them if there is none. -/
def front (field : List UInt8) : List UInt8 :=
  field.takeWhile (· ≠ 0)

theorem zero_not_mem_front (field : List UInt8) : 0 ∉ front field := by
  intro hzero
  have h := List.mem_takeWhile_imp hzero
  simp at h

theorem front_eq_self (h : 0 ∉ field) : front field = field := by
  refine List.takeWhile_eq_self_iff.mpr fun b hb => decide_eq_true ?_
  rintro rfl
  exact h hb

theorem fieldText_eq (field : List UInt8) :
    fieldText field = String.ofList (Utf8.decode (front field)) := rfl

theorem fieldText_front (field : List UInt8) : fieldText (front field) = fieldText field := by
  rw [fieldText_eq, front_eq_self (zero_not_mem_front field), fieldText_eq]

/-- No field reads as a text with the zero character. -/
theorem ne_zero_of_mem_fieldText (field : List UInt8) :
    ∀ c ∈ (fieldText field).toList, c.val.toNat ≠ 0 := by
  rw [fieldText_eq, String.toList_ofList]
  exact Utf8.ne_zero_of_mem_decode (zero_not_mem_front field)

/-- Behind a text that is spelt, a field is read as if it began there. -/
theorem fieldText_of_front {rest : List UInt8} (h : front field = Utf8.encode cs ++ rest) :
    fieldText field = String.ofList cs ++ fieldText rest := by
  have hrest : front rest = rest := front_eq_self fun hzero => by
    have hfront := zero_not_mem_front field
    rw [h] at hfront
    exact hfront (List.mem_append_right _ hzero)
  rw [fieldText_eq, h, Utf8.decode_encode_append, String.ofList_append, fieldText_eq, hrest]

/-! ### What is read from a field -/

/-- What is read from a field, in terms of the bytes that count. -/
structure FrontRead (field : List UInt8) : Prop where
  determined : fieldText field = fieldText (front field)
  zeroFree : '\x00' ∉ (fieldText field).toList
  /-- A text that is spelt is read, and spells the same bytes. -/
  spelt : ∀ cs, front field = Utf8.encode cs →
    fieldText field = String.ofList cs ∧ textBytes (fieldText field) = front field
  /-- What stands behind a text does not disturb it, and is read as if it stood alone. -/
  resumed : ∀ cs rest, front field = Utf8.encode cs ++ rest →
    fieldText field = String.ofList cs ++ fieldText rest
  /-- A character that is cut off behind a text is one replacement character. -/
  cutOff : ∀ cs t x, front field = Utf8.encode cs ++ t → t ≠ [] →
    t <+: String.utf8EncodeChar x → t ≠ String.utf8EncodeChar x →
      fieldText field = String.ofList (cs ++ [Utf8.replacement])
  /-- There is one cut into spellings and broken starts, and each piece reads as one character. -/
  cut : ∃ ps, Utf8.Cut (front field) ps ∧ (∀ qs, Utf8.Cut (front field) qs → qs = ps) ∧
    fieldText field = String.ofList (ps.map Utf8.Piece.char)
  again : fieldText (textBytes (fieldText field)) = fieldText field

theorem frontRead (field : List UInt8) : FrontRead field where
  determined := (fieldText_front field).symm
  zeroFree hzero := ne_zero_of_mem_fieldText field _ hzero rfl
  spelt cs h := by
    have htext : fieldText field = String.ofList cs := by
      rw [fieldText_eq, h, Utf8.decode_encode]
    refine ⟨htext, ?_⟩
    rw [htext, textBytes_eq, String.toList_ofList, h]
  resumed _ _ h := fieldText_of_front h
  cutOff cs t x h hne hcut hpart := by
    rw [fieldText_eq, h, Utf8.decode_cutOff hne hcut hpart]
  cut := ⟨Utf8.pieces (front field), Utf8.cut_pieces _, fun _ => Utf8.cut_iff.mp, rfl⟩
  again := fieldText_textBytes (ne_zero_of_mem_fieldText field)

/-! ### Texts behind pointers -/

namespace Engine

variable {e : Engine}

theorem value_regName (he : e.diet = false) (id : UInt32) (s : B.State) :
    ((e.regName id : Attempt B (Option String)).run s).value =
      .ok ((B.answer s (.regName e.handle id)).1.map fieldText) := by
  rw [regName, ensureNotDiet_eq he]
  rfl

theorem value_insnName (he : e.diet = false) (id : UInt32) (s : B.State) :
    ((e.insnName id : Attempt B (Option String)).run s).value =
      .ok ((B.answer s (.insnName e.handle id)).1.map fieldText) := by
  rw [insnName, ensureNotDiet_eq he]
  rfl

end Engine

theorem Dialogue.value_message {s : B.State} {status : Status} {bytes : List UInt8}
    (h : (B.answer s (.strerror status)).1 = some bytes) :
    (Dialogue.message status s).value = fieldText bytes := by
  rw [Dialogue.run_message]
  exact congrArg (wording status) h

/-- **What the engine says is read faithfully up to the first zero byte**: as `FrontRead` says of
every field, and behind pointers as in fields. -/
theorem native_text (B : Backend) :
    (∀ field, FrontRead field) ∧
      ∀ s : B.State,
        (∀ e : Engine, e.diet = false → ∀ id,
          ((e.regName id : Attempt B (Option String)).run s).value =
              .ok ((B.answer s (.regName e.handle id)).1.map fieldText) ∧
            ((e.insnName id : Attempt B (Option String)).run s).value =
              .ok ((B.answer s (.insnName e.handle id)).1.map fieldText)) ∧
          ∀ status bytes, (B.answer s (.strerror status)).1 = some bytes →
            (Dialogue.message status s).value = fieldText bytes :=
  ⟨frontRead, fun s =>
    ⟨fun _ he id => ⟨Engine.value_regName he id s, Engine.value_insnName he id s⟩,
      fun _ _ h => Dialogue.value_message h⟩⟩

/-- A zero byte stands in the middle of the second character. -/
def severed : List UInt8 :=
  [0x6C, 0xC3, 0x00, 0xA9]

/-- A character that a zero byte cuts in two is one replacement character, wherever it stands. -/
theorem native_text_severed :
    let s : Script.backend.State := ({
      regNames := [(7, severed)], insnNames := [(7, severed)], messages := [(9, some severed)] } :
        Script)
    let e : Engine := ⟨⟨1⟩, .x86, false, .width64, none, false⟩
    ((e.regName 7 : Attempt Script.backend (Option String)).run s).value = .ok (some "l\uFFFD") ∧
      ((e.insnName 7 : Attempt Script.backend (Option String)).run s).value =
        .ok (some "l\uFFFD") ∧
      (Dialogue.message 9 s).value = "l\uFFFD" := by
  intro s e
  obtain ⟨hread, hpointed⟩ := native_text Script.backend
  have htext : fieldText severed = "l\uFFFD" :=
    (hread severed).cutOff ['l'] [0xC3] 'é' (by decide) (by decide) (by decide) (by decide)
  obtain ⟨hnames, hmessages⟩ := hpointed s
  obtain ⟨hreg, hinsn⟩ := hnames e rfl 7
  refine ⟨hreg.trans ?_, hinsn.trans ?_, (hmessages 9 severed rfl).trans htext⟩
  · exact congrArg (fun text => Except.ok (some text)) htext
  · exact congrArg (fun text => Except.ok (some text)) htext

end Disassembly
