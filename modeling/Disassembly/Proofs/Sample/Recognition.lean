import Disassembly.Proofs.Sample.Table
import Disassembly.Proofs.Session.Shortcuts
import Disassembly.Proofs.Text.RoundTrip

/-!
# What the sample engine recognises

Code is cut into entries of the table, and each entry makes one record.

* `Encoding.cut` — the entries that code is cut into, all of them admitted (`Encoding.mem_cut`), one
  after the other from the start of the code (`Encoding.cut_prefix`);
* `Engine.record`, `Engine.liteRecord` — what an engine makes of an entry, by its own configuration;
* `Engine.disasm_sample`, `Engine.disasmLite_sample` — where the sample engine keeps for a handle
  what an engine has configured (`Engine.mirror`), the records are those of the entries, and a
  decode fails only where there are none and a status is to be left behind.
-/

namespace Disassembly

namespace Encoding

/-- The entries that code is cut into, at most `limit` of them, with their addresses. -/
def cut (a : Arch) (m : Mode) : (limit : Nat) → List UInt8 → UInt64 → List (UInt64 × Encoding)
  | 0, _, _ => []
  | limit + 1, code, address =>
    match find? a m code with
    | none => []
    | some e =>
      (address, e) ::
        cut a m limit (code.drop e.bytes.length) (address + UInt64.ofNat e.bytes.length)

variable {a : Arch} {m : Mode} {limit : Nat} {code : List UInt8} {address : UInt64}

theorem find?_eq_some {e : Encoding} (h : find? a m code = some e) :
    e ∈ table ∧ e.admitted a m = true ∧ e.bytes <+: code := by
  have hfits := List.find?_some h
  rw [Bool.and_eq_true] at hfits
  exact ⟨List.mem_of_find?_eq_some h, hfits.1, List.isPrefixOf_iff_prefix.mp hfits.2⟩

/-- Code is cut into entries of the table, which are admitted. -/
theorem mem_cut {p : UInt64 × Encoding} (h : p ∈ cut a m limit code address) :
    p.2 ∈ table ∧ p.2.admitted a m = true := by
  induction limit generalizing code address with
  | zero => cases h
  | succ limit ih =>
    rw [cut] at h
    split at h
    · cases h
    · next e hfind =>
      rcases List.mem_cons.mp h with rfl | hmem
      · exact ⟨(find?_eq_some hfind).1, (find?_eq_some hfind).2.1⟩
      · exact ih hmem

/-- The code begins with what it is cut into. -/
theorem cut_prefix (a : Arch) (m : Mode) (limit : Nat) (code : List UInt8) (address : UInt64) :
    (cut a m limit code address).flatMap (fun p => p.2.bytes) <+: code := by
  induction limit generalizing code address with
  | zero => exact List.nil_prefix
  | succ limit ih =>
    rw [cut]
    split
    · exact List.nil_prefix
    · next e hfind =>
      obtain ⟨rest, hrest⟩ := (find?_eq_some hfind).2.2
      have hdrop : code.drop e.bytes.length = rest := by
        rw [← hrest, List.drop_left]
      have hlater := ih (code.drop e.bytes.length) (address + UInt64.ofNat e.bytes.length)
      rw [hdrop] at hlater
      rw [List.flatMap_cons, hdrop, ← hrest]
      exact (List.prefix_append_right_inj _).mpr hlater

/-- Texts without a zero character. -/
def Legible (t : Rendering) : Prop :=
  ∀ c ∈ t.mnemonic.toList ++ t.opStr.toList, c.val.toNat ≠ 0

instance (t : Rendering) : Decidable (Legible t) :=
  inferInstanceAs (Decidable (∀ c ∈ t.mnemonic.toList ++ t.opStr.toList, c.val.toNat ≠ 0))

/-- The entries of the table fit into a native record. -/
theorem table_fits : ∀ e ∈ table, e.bytes.length ≤ maxInsnBytes ∧
    ∀ d ∈ Dialect.all, Legible (e.rendering d) := by
  decide

end Encoding

theorem SampleHandle.decode_eq (h : SampleHandle) (diet : Bool) (limit : Nat) (code : List UInt8)
    (address : UInt64) : h.decode diet limit code address =
      (Encoding.cut h.arch h.mode limit code address).map fun p => h.build diet p.1 p.2 := by
  induction limit generalizing code address with
  | zero => rfl
  | succ limit ih =>
    rw [decode, Encoding.cut]
    cases hfind : Encoding.find? h.arch h.mode code with
    | none => rfl
    | some e => exact congrArg (h.build diet address e :: ·) (ih _ _)

/-! ### What an engine makes of an entry -/

namespace Engine

/-- What the sample engine keeps for the handle of an engine with this configuration, and with some
status left behind. -/
def mirror (e : Engine) (errno : Status) : SampleHandle where
  arch := e.arch
  mode := e.mode
  dialect := e.dialect.getD .default
  detail := e.detail
  errno := errno

/-- The text of an entry, if it is handed out with text. -/
def textOf (e : Engine) (diet : Bool) (x : Encoding) : Rendering :=
  if diet then ⟨"", ""⟩ else x.rendering (e.dialect.getD .default)

/-- The record that an engine makes of an entry; `diet` says whether the native engine is diet at
the time. -/
def record (e : Engine) (diet : Bool) (p : UInt64 × Encoding) : Insn where
  id := p.2.id
  address := p.1
  bytes := p.2.bytes
  text := if e.diet then none else some (e.textOf diet p.2)
  arch := e.arch
  block := if e.detail then some p.2.detail.block else none

theorem hasDetail_record (e : Engine) (diet : Bool) (p : UInt64 × Encoding) :
    (e.record diet p).hasDetail = e.detail := by
  rw [Insn.hasDetail, record]
  cases e.detail <;> rfl

/-- With text on both sides a record has the entry's text in the engine's dialect. -/
theorem text_record (e : Engine) (p : UInt64 × Encoding) {diet : Bool} (he : e.diet = false)
    (hdiet : diet = false) :
    (e.record diet p).text = some (p.2.rendering (e.dialect.getD .default)) := by
  rw [record, he, textOf, hdiet]
  rfl

end Engine

theorem Dialect.mem_all (d : Dialect) : d ∈ all := by
  cases d <;> decide

namespace SampleHandle

variable {x : Encoding}

theorem rendering_build (e : Engine) (errno : Status) (diet : Bool) (address : UInt64)
    (hx : x ∈ Encoding.table) :
    Rendering.ofNative ((e.mirror errno).build diet address x) = e.textOf diet x := by
  have hlegible := (Encoding.table_fits x hx).2 (e.dialect.getD .default) (Dialect.mem_all _)
  cases diet with
  | true =>
    show (⟨fieldText [], fieldText []⟩ : Rendering) = ⟨"", ""⟩
    rw [fieldText_nil]
  | false =>
    show (⟨fieldText (textBytes (x.rendering (e.dialect.getD .default)).mnemonic),
      fieldText (textBytes (x.rendering (e.dialect.getD .default)).opStr)⟩ : Rendering) =
        x.rendering (e.dialect.getD .default)
    rw [fieldText_textBytes fun c hc => hlegible c (List.mem_append_left _ hc),
      fieldText_textBytes fun c hc => hlegible c (List.mem_append_right _ hc)]

/-- The bytes that are handed out begin with those of the entry. -/
theorem bytes_build (h : SampleHandle) (diet : Bool) (address : UInt64)
    (hx : x ∈ Encoding.table) : min (h.build diet address x).size.toNat maxInsnBytes =
      x.bytes.length ∧
    (h.build diet address x).bytes.toList.take x.bytes.length = x.bytes := by
  have hle : x.bytes.length ≤ 16 := (Encoding.table_fits x hx).1
  have hsize : (h.build diet address x).size.toNat = x.bytes.length := by
    show (UInt16.ofNat x.bytes.length).toNat = _
    rw [UInt16.toNat_ofNat']
    exact Nat.mod_eq_of_lt (by omega)
  refine ⟨by rw [hsize]; exact Nat.min_eq_left hle, ?_⟩
  have hlength : (h.build diet address x).bytes.toList.length = 16 := Vector.length_toList
  apply List.ext_getElem
  · rw [List.length_take, hlength, Nat.min_eq_left hle]
  · intro i h₁ h₂
    have hfield : (h.build diet address x).bytes = Vector.ofFn fun i => (x.bytes[i.val]?).getD 0 :=
      rfl
    simp [hfield, h₂]

theorem ofNative_build (e : Engine) (errno : Status) (diet : Bool) (address : UInt64)
    (hx : x ∈ Encoding.table) :
    Insn.ofNative e.arch e.diet e.detail ((e.mirror errno).build diet address x) =
      e.record diet (address, x) := by
  obtain ⟨hsize, hbytes⟩ := (e.mirror errno).bytes_build diet address hx
  rw [Insn.ofNative, hsize, hbytes, rendering_build e errno diet address hx, Engine.record]
  congr 1
  show (if e.detail = true then if e.detail = true then _ else none else none) = _
  split <;> rfl

end SampleHandle

namespace Engine

variable {e : Engine} {s : Sample} {errno : Status}

/-- A native decode under a known handle: what is found is returned, unless there is nothing and a
status other than zero is left behind for that. -/
theorem decodeNative_sample {kept : SampleHandle} (hkept : s.handle? e.handle = some kept)
    (code : List UInt8) (address : UInt64) (count : Nat) :
    let found := s.found kept code address count
    let out := (e.decodeNative code address count : Attempt Sample.backend _).run s
    if found = [] ∧ s.emptyErrno ≠ 0 then ∃ err, out.value = .error err
    else out.value = .ok found := by
  intro found out
  have hfinding := s.finding e.handle code address count
  have hanswer : Sample.backend.answer s (.disasm e.handle code address count) =
      s.disasm e.handle code address count := rfl
  generalize s.disasm e.handle code address count = p at hfinding hanswer
  cases hfinding with
  | unknown hnone =>
    rw [hkept] at hnone
    cases hnone
  | @empty kept' hkept' hfound =>
    obtain rfl : kept = kept' := Option.some.inj (hkept.symm.trans hkept')
    have hentry : ({ s with disasmCalls := s.disasmCalls + 1 }.setHandle e.handle
        { kept with errno := s.emptyErrno }).handle? e.handle =
          some { kept with errno := s.emptyErrno } := by
      rw [Sample.handle?_setHandle, if_pos rfl]
      exact congrArg (Option.map _) hkept
    have hstatus : (Sample.backend.answer ({ s with disasmCalls := s.disasmCalls + 1 }.setHandle
        e.handle { kept with errno := s.emptyErrno }) (.errno e.handle)).1 = s.emptyErrno :=
      congrArg (fun k => (Option.map SampleHandle.errno k).getD ErrorCode.invalidHandleRef.raw)
        hentry
    by_cases hzero : s.emptyErrno = 0
    · rw [if_neg fun h => h.2 hzero]
      obtain ⟨s₂, es, hrun, -⟩ :=
        run_decodeNative_of_clear hanswer fun _ => hstatus.trans hzero
      exact (congrArg Outcome.value hrun).trans (congrArg Except.ok hfound.symm)
    · rw [if_pos ⟨hfound, hzero⟩]
      exact decodeNative_fails hanswer rfl fun h => hzero (hstatus.symm.trans h)
  | @some kept' hkept' hfound =>
    obtain rfl : kept = kept' := Option.some.inj (hkept.symm.trans hkept')
    rw [if_neg fun h => hfound h.1]
    obtain ⟨s₂, es, hrun, -⟩ := run_decodeNative_of_clear hanswer fun hcount =>
      absurd (List.length_eq_zero_iff.mp hcount) hfound
    exact (congrArg Outcome.value hrun).trans (congrArg Except.ok List.take_length)

/-- The entries that an engine's decode finds. -/
def entries (e : Engine) (code : List UInt8) (address : UInt64) (count : Nat) :
    List (UInt64 × Encoding) :=
  Encoding.cut e.arch e.mode (if count = 0 then code.length else count) code address

theorem found_mirror (s : Sample) (e : Engine) (errno : Status) (code : List UInt8)
    (address : UInt64) (count : Nat) : s.found (e.mirror errno) code address count =
      (e.entries code address count).map fun p => (e.mirror errno).build s.diet p.1 p.2 :=
  SampleHandle.decode_eq _ _ _ _ _

/-- The outcome of a decode that finds entries and makes something of each. -/
def Decodes {α : Type} (s : Sample) (found : List (UInt64 × Encoding)) (make : UInt64 × Encoding → α)
    (out : Except Error (List α)) : Prop :=
  if found = [] ∧ s.emptyErrno ≠ 0 then ∃ err, out = .error err else out = .ok (found.map make)

theorem decodes_of_native {α : Type} {read : NativeInsn → α} {make : UInt64 × Encoding → α}
    (hmirror : s.handle? e.handle = some (e.mirror errno)) (code : List UInt8) (address : UInt64)
    (count : Nat)
    (hmake : ∀ p ∈ e.entries code address count,
      read ((e.mirror errno).build s.diet p.1 p.2) = make p) :
    Decodes s (e.entries code address count) make
      (((e.decodeNative code address count : Attempt Sample.backend _).run s).value.map
        (List.map read)) := by
  have hvalue := decodeNative_sample hmirror code address count
  simp only [found_mirror, List.map_eq_nil_iff] at hvalue
  unfold Decodes
  by_cases hnone : e.entries code address count = [] ∧ s.emptyErrno ≠ 0
  · rw [if_pos hnone] at hvalue ⊢
    obtain ⟨err, herr⟩ := hvalue
    exact ⟨err, congrArg (Except.map _) herr⟩
  · rw [if_neg hnone] at hvalue ⊢
    refine (congrArg (Except.map _) hvalue).trans (congrArg Except.ok ?_)
    rw [List.map_map]
    exact List.map_congr_left hmake

/-- **A decode makes a record of each entry that it finds**, by the engine's own configuration. -/
theorem disasm_sample (hmirror : s.handle? e.handle = some (e.mirror errno)) (code : List UInt8)
    (address : UInt64) (count : Nat) : Decodes s (e.entries code address count) (e.record s.diet)
      ((e.disasm code address count : Attempt Sample.backend _).run s).value := by
  have hrun := run_disasm (B := Sample.backend) e code address count s
  rw [hrun]
  refine decodes_of_native hmirror code address count fun p hp => ?_
  exact SampleHandle.ofNative_build e errno s.diet p.1 (Encoding.mem_cut hp).1

end Engine

end Disassembly
