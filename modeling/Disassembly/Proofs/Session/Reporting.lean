import Disassembly.Proofs.Session.Gates

/-!
# Every status is reported

An operation owes the engine certain calls: the opening, the option or the closing that it was
called for, and the question for the last status after a decode that counted nothing.  Where the
library does not refuse it by itself, it makes these calls and asks for nothing else about handles
and arrays; the statuses that the engine answers with decide what comes of it.

* `Backend.Made` — the calls of an outcome are those that are owed, with the engine's own answers:
  one call (`Once`), a decode with what follows it (`Engine.Decoding`), or an errand with an engine
  of its own (`Ventured`);
* `Engine.made_openWith`, `Engine.made_configure`, `made_disasmQuick` and their like — so it is for
  each operation;
* `TruthfulDecode`, `TruthfulErrand` — what the statuses of a decode come to, alone and between an
  opening and a closing;
* `Script.statuses_reported` — all operations, and no status of theirs is lost.
-/

namespace Disassembly

variable {B : Backend} {α : Type}

/-! ### Calls that are owed -/

/-- An outcome has the calls about handles and arrays that are owed and no other, and every call in
it has the answer that the engine gives, from the state `s` on. -/
structure Backend.Made (B : Backend) (s : B.State) (owed : List Event → Prop)
    (out : Outcome B.State α) : Prop where
  asked : owed (dealings out.events)
  answered : B.Replays s out.events out.state

/-- One call and no other. -/
def Once (c : Call) (es : List Event) : Prop :=
  ∃ answer, es = [.call c answer]

/-- The calls of an errand with an engine of its own that was not refused: the engine is asked for,
and if it opens it is used, and closed whatever came of its use. -/
inductive Ventured (arch : Arch) (mode : Mode) (use : Handle → List Event → Prop) :
    List Event → Prop where
  | failed (status : Status) (h : Handle) (hstatus : status ≠ 0) :
    Ventured arch mode use [.call (.openEngine arch mode) (status, h)]
  | served {h : Handle} {es : List Event} (huse : use h es) (status : Status) :
    Ventured arch mode use
      (.call (.openEngine arch mode) (0, h) :: (es ++ [.call (.close h) status]))

theorem mem_dealings {e : Event} {es : List Event} (h : e ∈ es) (he : e.deals = true) :
    e ∈ dealings es :=
  List.mem_filter.mpr ⟨h, he⟩

/-- An errand that asks for its engine was not refused. -/
theorem Errand.ventured {arch : Arch} {mode : Mode} {use : Handle → List Event → Prop}
    {es : List Event} (h : Errand arch mode use es) {answer : Status × Handle}
    (hasked : .call (.openEngine arch mode) answer ∈ es) : Ventured arch mode use es := by
  cases h with
  | unopened hopen =>
    cases hopen with
    | refused err => cases hasked
    | failed err status h hstatus => exact .failed status h hstatus
  | served huse status => exact .served huse status

namespace Engine

theorem made_openWith {arch : Arch} {mode : Mode} {s : B.State}
    (hversion : (B.answer s .version).1.matchesExpected = true)
    (hmode : mode.supportedBy arch = true) :
    B.Made s (Once (.openEngine arch mode)) ((openWith arch mode : Attempt B Engine).run s) where
  asked := by
    have hspec := openWith_spec (B := B) arch mode s
    have hgate := (openWith_admission (B := B) arch mode s).gate
    obtain ⟨answer, hasked⟩ := hgate.passed (Version.matchesExpected_iff.mp hversion) rfl
      (Mode.takes_of_supportedBy hmode)
    have hdealt := mem_dealings hasked rfl
    generalize ((openWith arch mode : Attempt B Engine).run s).value = r at hspec
    generalize dealings ((openWith arch mode : Attempt B Engine).run s).events = es
      at hspec hdealt ⊢
    cases hspec with
    | refused err => cases hdealt
    | failed err status h hstatus => exact ⟨_, rfl⟩
    | opened h diet => exact ⟨_, rfl⟩
  answered := faithful_openWith arch mode s

theorem made_close (e : Engine) (s : B.State) :
    B.Made s (Once (.close e.handle)) ((e.close : Attempt B Unit).run s) where
  asked := ⟨_, e.dealings_close s⟩
  answered := e.faithful_close s

theorem made_configure {e : Engine} {x : Setting} (hfits : x.fits e.arch = true) (s : B.State) :
    B.Made s (Once (.option e.handle x)) ((e.configure x : Attempt B Engine).run s) where
  asked := by
    have hspec := e.configure_spec x s
    rw [if_pos hfits] at hspec
    exact ⟨_, hspec.1⟩
  answered := by
    cases x with
    | dialect t => exact e.faithful_setDialect t s
    | detail on => exact e.faithful_setDetail on s
    | mode m => exact e.faithful_setMode m s

theorem made_disasm (e : Engine) (code : List UInt8) (address : UInt64) (count : Nat)
    (s : B.State) : B.Made s (Decoding e.handle code address count)
      ((e.disasm code address count : Attempt B (List Insn)).run s) where
  asked := e.disasm_spec code address count s
  answered := e.faithful_disasm code address count s

theorem made_disasmLite {e : Engine} (hdiet : e.diet = false) (code : List UInt8)
    (address : UInt64) (count : Nat) (s : B.State) : B.Made s (Decoding e.handle code address count)
      ((e.disasmLite code address count : Attempt B (List LiteInsn)).run s) where
  asked := by
    have hspec := e.disasmLite_spec code address count s
    rw [hdiet] at hspec
    exact hspec
  answered := e.faithful_disasmLite code address count s

end Engine

theorem made_disasmQuick {arch : Arch} {mode : Mode} {s : B.State}
    (hversion : (B.answer s .version).1.matchesExpected = true)
    (hmode : mode.supportedBy arch = true) (code : List UInt8) (address : UInt64) (count : Nat) :
    B.Made s (Ventured arch mode (Engine.Decoding · code address count))
      ((disasmQuick arch mode code address count : Attempt B (List Insn)).run s) where
  asked := by
    have hgate := gate_withEngine arch mode
      (fun e : Engine => (e.disasm code address count : Attempt B (List Insn))) s
    obtain ⟨answer, hasked⟩ := hgate.passed (Version.matchesExpected_iff.mp hversion) rfl
      (Mode.takes_of_supportedBy hmode)
    exact (disasmQuick_spec arch mode code address count s).ventured (mem_dealings hasked rfl)
  answered := faithful_disasmQuick arch mode code address count s

theorem made_disasmLiteQuick (hB : B.FixedVersion) (hD : B.FixedDiet) {arch : Arch} {mode : Mode}
    {s : B.State} (hversion : (B.answer s .version).1.matchesExpected = true)
    (hmode : mode.supportedBy arch = true) (hdiet : B.diet s = false) (code : List UInt8)
    (address : UInt64) (count : Nat) :
    B.Made s (Ventured arch mode (Engine.Decoding · code address count))
      ((disasmLiteQuick arch mode code address count : Attempt B (List LiteInsn)).run s) where
  asked := by
    have hgate := gate_disasmLiteQuick hB hD arch mode code address count s
    obtain ⟨answer, hasked⟩ := hgate.passed (Version.matchesExpected_iff.mp hversion) hdiet
      (Mode.takes_of_supportedBy hmode)
    exact (disasmLiteQuick_spec hD arch mode code address count s).ventured
      (mem_dealings hasked rfl)
  answered := faithful_disasmLiteQuick arch mode code address count s

/-! ### Decodes and errands -/

/-- A truthful decode: one that counted nothing, with all statuses zero, is an empty success. -/
structure TruthfulDecode {σ : Type} (words : Status → String)
    (out : Outcome σ (Except Error (List α))) : Prop extends Truthful words out where
  empty : ∀ d ∈ out.events.filterMap Event.decoded?, d.count = 0 →
    firstFailure out.events = none → out.value = .ok []

theorem Yields.truthfulDecode {σ : Type} {words : Status → String} {read : NativeInsn → α}
    {out : Outcome σ (Except Error (List α))} (h : Yields read out) (ht : Truthful words out) :
    TruthfulDecode words out := by
  refine ⟨ht, ?_⟩
  intro d hd hcount hfirst
  obtain ⟨l, hl⟩ := ht.ok hfirst
  rw [hl, h.empty hd hcount hl]

/-- A decode that is truthful once some other question was answered. -/
theorem TruthfulDecode.after {γ : Type} {words : Status → String} {x : Attempt B γ}
    {f : γ → Attempt B (List α)} {s s₁ : B.State} {a : γ} {e : Event}
    (hx : x.run s = ⟨.ok a, s₁, [e]⟩) (hstatus : e.status? = none) (hexplains : e.explains? = none)
    (hdecoded : e.decoded? = none) (hf : TruthfulDecode words ((f a).run s₁)) :
    TruthfulDecode words ((x >>= f).run s) := by
  have hrun : (x >>= f).run s =
      ⟨((f a).run s₁).value, ((f a).run s₁).state, e :: ((f a).run s₁).events⟩ :=
    Attempt.run_after hx
  have hstatuses : statusesOf (e :: ((f a).run s₁).events) = statusesOf ((f a).run s₁).events :=
    List.filterMap_cons_none hstatus
  rw [hrun]
  refine ⟨⟨?_, ?_, ?_⟩, ?_⟩
  · rw [firstFailure, hstatuses]
    exact hf.ok
  · rw [firstFailure, hstatuses]
    exact hf.error
  · rw [List.filterMap_cons_none hexplains]
    exact hf.known
  · rw [List.filterMap_cons_none hdecoded, firstFailure, hstatuses]
    exact hf.empty

theorem truthfulDecode_withEngine {words : Status → String} {arch : Arch} {mode : Mode}
    {use : Engine → Attempt B (List α)} {s : B.State}
    (ht : Truthful words ((withEngine arch mode use).run s))
    (huse : ∀ e s₁, ((Engine.openWith arch mode : Attempt B Engine).run s).value = .ok e →
      ∃ read, Yields read ((use e).run s₁)) :
    TruthfulDecode words ((withEngine arch mode use).run s) := by
  rcases hopen : (Engine.openWith arch mode : Attempt B Engine).run s with ⟨value, s₁, es⟩
  rw [hopen] at huse
  cases value with
  | ok e =>
    obtain ⟨read, hyields⟩ := huse e s₁ rfl
    exact (yields_withEngine hopen hyields).truthfulDecode ht
  | error err =>
    refine ⟨ht, fun d _ _ hfirst => ?_⟩
    obtain ⟨l, hl⟩ := ht.ok hfirst
    rw [withEngine, Attempt.run_bind, hopen] at hl
    cases hl

/-- A truthful decode with an engine of its own: the engine is closed if it was opened, and a
failing decode is reported whatever closing came to. -/
structure TruthfulErrand {σ : Type} (words : Status → String)
    (out : Outcome σ (Except Error (List α))) : Prop extends TruthfulDecode words out where
  closes : ∀ h ∈ out.events.filterMap Event.opens?, h ∈ out.events.filterMap Event.closes?
  decodeFirst : ∀ h status, .call (.errno h) status ∈ out.events → status ≠ 0 →
    ∃ err, out.value = .error err ∧ Reported words status err

theorem Errand.truthful {σ : Type} {words : Status → String}
    {out : Outcome σ (Except Error (List α))} {arch : Arch} {mode : Mode} {code : List UInt8}
    {address : UInt64} {count : Nat}
    (hes : Errand arch mode (Engine.Decoding · code address count) (dealings out.events))
    (ht : TruthfulDecode words out) : TruthfulErrand words out := by
  have hopens := filterMap_dealings (fun _ he => (handles_of_not_deals he).1) out.events
  have hcloses := filterMap_dealings (fun _ he => (handles_of_not_deals he).2.1) out.events
  have hfailure : firstFailure (dealings out.events) = firstFailure out.events := by
    rw [firstFailure, statusesOf_dealings, firstFailure]
  refine ⟨ht, ?_, ?_⟩
  · rw [← hopens, ← hcloses]
    generalize dealings out.events = es at hes
    cases hes with
    | unopened hopen =>
      cases hopen with
      | refused err => simp
      | failed err status k hstatus => simp [Event.opens?, hstatus]
    | @served h es huse status =>
      have hnone : es.filterMap Event.opens? = [] :=
        List.filterMap_eq_nil_iff.mpr fun e he => (huse.uses e he).1
      simp [Event.opens?, Event.closes?, hnone]
  · intro h status hmem hstatus
    refine ht.error status ?_
    have hdealt : .call (.errno h) status ∈ dealings out.events := List.mem_filter.mpr ⟨hmem, rfl⟩
    rw [← hfailure]
    generalize dealings out.events = es at hes hdealt
    cases hes with
    | unopened hopen => cases hopen <;> simp at hdealt
    | @served k es huse closing =>
      have hused : .call (.errno h) status ∈ es := by simpa using hdealt
      cases huse with
      | mk d hrelease =>
        cases hrelease with
        | empty status' hcount =>
          have hsame : h = k ∧ status = status' := by simpa using hused
          obtain ⟨rfl, rfl⟩ := hsame
          simp [firstFailure, statusesOf, Event.status?, hstatus]
        | null hcount harray => simp at hused
        | freed a hcount harray => simp at hused

/-- The one-shot decode reports truthfully. -/
theorem truthful_disasmQuick (hB : B.FixedWords) {arch : Arch} {mode : Mode} {s : B.State}
    (hversion : (B.answer s .version).1.matchesExpected = true)
    (hmode : mode.supportedBy arch = true) (code : List UInt8) (address : UInt64) (count : Nat) :
    TruthfulErrand (B.words s)
      ((disasmQuick arch mode code address count : Attempt B (List Insn)).run s) := by
  refine Errand.truthful (disasmQuick_spec arch mode code address count s) ?_
  refine truthfulDecode_withEngine ?_ ?_
  · refine truthful_withEngine hB hversion hmode ?_ ?_
    · intro e
      exact e.faithful_disasm code address count
    · intro e s₁ _
      exact e.truthful_disasm hB code address count s₁
  · intro e s₁ _
    exact ⟨_, e.yields_disasm code address count s₁⟩

/-- So does the one to place and text, if the engine is not diet. -/
theorem truthful_disasmLiteQuick (hB : B.FixedWords) (hD : B.FixedDiet) {arch : Arch} {mode : Mode}
    {s : B.State} (hversion : (B.answer s .version).1.matchesExpected = true)
    (hversion' : let s₁ := (B.answer s .version).2
      let s₂ := (B.answer s₁ (.support Capability.diet.raw)).2
      (B.answer s₂ .version).1.matchesExpected = true)
    (hmode : mode.supportedBy arch = true) (hdiet : B.diet s = false) (code : List UInt8)
    (address : UInt64) (count : Nat) :
    TruthfulErrand (B.words s)
      ((disasmLiteQuick arch mode code address count : Attempt B (List LiteInsn)).run s) := by
  refine Errand.truthful (disasmLiteQuick_spec hD arch mode code address count s) ?_
  refine TruthfulDecode.after (run_checkVersion hversion) rfl rfl rfl ?_
  generalize hs₁ : (B.answer s .version).2 = s₁ at hversion'
  have hdiet₁ : (B.answer s₁ (.support Capability.diet.raw)).1 = false := by
    rw [← hs₁]
    exact (hD s .version).trans hdiet
  refine TruthfulDecode.after (Attempt.run_supports hdiet₁) rfl rfl rfl ?_
  have hwords : B.words (B.answer s₁ (.support Capability.diet.raw)).2 = B.words s := by
    rw [hB, ← hs₁, hB]
  have hdiet₂ : B.diet (B.answer s₁ (.support Capability.diet.raw)).2 = false :=
    (hD s₁ _).trans hdiet₁
  rw [← hwords]
  refine truthfulDecode_withEngine ?_ ?_
  · refine truthful_withEngine hB hversion' hmode ?_ ?_
    · intro e
      exact e.faithful_disasmLite code address count
    · intro e s₃ he
      have hsame := (Engine.diet_openWith hD he).trans hdiet₂
      exact Engine.truthful_disasmLite hB hsame code address count s₃
  · intro e s₃ he
    have hsame := (Engine.diet_openWith hD he).trans hdiet₂
    exact ⟨_, Engine.yields_disasmLite hsame code address count s₃⟩

/-! ### All operations -/

/-- **No status is lost or misreported.**  Each operation that the library itself does not refuse,
for the engine's version, the mode or a diet engine, makes the calls that it owes and no other about
handles and arrays: its opening, its closing or its option once, the question for the last status
exactly after a decode that counted nothing, and between the opening and the closing of an errand
just its decode.  The engine's answers to these are its statuses: it succeeds if all of them are
zero, and otherwise fails with the first that is not. -/
theorem Script.statuses_reported (s : Script) :
    let words := backend.words s
    let versionFits := s.version.major = 2 ∧ s.version.minor = 1
    (∀ arch mode, versionFits → mode.supportedBy arch = true →
      let out := (Engine.openWith arch mode : Attempt backend Engine).run s
      backend.Made s (Once (.openEngine arch mode)) out ∧ Truthful words out) ∧
    (∀ e : Engine,
      let out := (e.close : Attempt backend Unit).run s
      backend.Made s (Once (.close e.handle)) out ∧ Truthful words out) ∧
    (∀ (e : Engine) dialect,
      let out := (e.setDialect dialect : Attempt backend Engine).run s
      backend.Made s (Once (.option e.handle (.dialect dialect))) out ∧ Truthful words out) ∧
    (∀ (e : Engine) on,
      let out := (e.setDetail on : Attempt backend Engine).run s
      backend.Made s (Once (.option e.handle (.detail on))) out ∧ Truthful words out) ∧
    (∀ (e : Engine) mode, mode.supportedBy e.arch = true →
      let out := (e.setMode mode : Attempt backend Engine).run s
      backend.Made s (Once (.option e.handle (.mode mode))) out ∧ Truthful words out) ∧
    (∀ (e : Engine) code address count,
      let out := (e.disasm code address count : Attempt backend (List Insn)).run s
      backend.Made s (Engine.Decoding e.handle code address count) out ∧
        TruthfulDecode words out) ∧
    (∀ (e : Engine) code address count, e.diet = false →
      let out := (e.disasmLite code address count : Attempt backend (List LiteInsn)).run s
      backend.Made s (Engine.Decoding e.handle code address count) out ∧
        TruthfulDecode words out) ∧
    (∀ arch mode code address count, versionFits → mode.supportedBy arch = true →
      let out := (disasmQuick arch mode code address count : Attempt backend (List Insn)).run s
      backend.Made s (Ventured arch mode (Engine.Decoding · code address count)) out ∧
        TruthfulErrand words out) ∧
    (∀ arch mode code address count, versionFits → mode.supportedBy arch = true →
      0x10000 ∉ s.supported →
      let out := (disasmLiteQuick arch mode code address count :
        Attempt backend (List LiteInsn)).run s
      backend.Made s (Ventured arch mode (Engine.Decoding · code address count)) out ∧
        TruthfulErrand words out) := by
  intro words versionFits
  have hwords := fixedWords_backend
  have hmatches : versionFits → (backend.answer s .version).1.matchesExpected = true :=
    Version.matchesExpected_iff.mpr
  refine ⟨?_, ?_, ?_, ?_, ?_, ?_, ?_, ?_, ?_⟩
  · intro arch mode hversion hmode
    exact ⟨Engine.made_openWith (B := backend) (hmatches hversion) hmode,
      Engine.truthful_openWith hwords (hmatches hversion) hmode⟩
  · intro e
    exact ⟨Engine.made_close (B := backend) e s, e.truthful_close hwords s⟩
  · intro e dialect
    exact ⟨Engine.made_configure (B := backend) (x := .dialect dialect) rfl s,
      Engine.truthful_configure hwords (x := .dialect dialect) rfl s⟩
  · intro e on
    exact ⟨Engine.made_configure (B := backend) (x := .detail on) rfl s,
      Engine.truthful_configure hwords (x := .detail on) rfl s⟩
  · intro e mode hmode
    exact ⟨Engine.made_configure (B := backend) (x := .mode mode) hmode s,
      Engine.truthful_configure hwords (x := .mode mode) hmode s⟩
  · intro e code address count
    exact ⟨Engine.made_disasm (B := backend) e code address count s,
      (Engine.yields_disasm (B := backend) e code address count s).truthfulDecode
        (e.truthful_disasm hwords code address count s)⟩
  · intro e code address count hdiet
    exact ⟨Engine.made_disasmLite (B := backend) hdiet code address count s,
      (Engine.yields_disasmLite (B := backend) hdiet code address count s).truthfulDecode
        (Engine.truthful_disasmLite hwords hdiet code address count s)⟩
  · intro arch mode code address count hversion hmode
    exact ⟨made_disasmQuick (B := backend) (hmatches hversion) hmode code address count,
      truthful_disasmQuick hwords (hmatches hversion) hmode code address count⟩
  · intro arch mode code address count hversion hmode htext
    have hdiet : backend.diet s = false := by
      show s.supported.contains Capability.diet.raw = false
      simpa [Capability.raw] using htext
    exact ⟨made_disasmLiteQuick (B := backend) fixedVersion_backend fixedDiet_backend
        (hmatches hversion) hmode hdiet code address count,
      truthful_disasmLiteQuick hwords fixedDiet_backend (hmatches hversion) (hmatches hversion)
        hmode hdiet code address count⟩

/-- Decodes that count nothing, on an engine which gives an unknown reason and then fails to close:
both errands close it all the same, and report the reason. -/
theorem Script.statuses_reported_failing :
    let s : Script := { errnos := [42], closings := [3] }
    let e : Engine := ⟨⟨1⟩, .x86, false, .width32, some .intel, false⟩
    let errand := Ventured .x86 .width32 (Engine.Decoding · [0x90] 0 1)
    let opened := (Engine.openWith .x86 .width32 : Attempt backend Engine).run s
    let wider := (e.setMode .width64 : Attempt backend Engine).run s
    let decoded := (e.disasmLite [0x90] 0 1 : Attempt backend (List LiteInsn)).run s
    let quick := (disasmQuick .x86 .width32 [0x90] 0 1 : Attempt backend (List Insn)).run s
    let lite := (disasmLiteQuick .x86 .width32 [0x90] 0 1 : Attempt backend (List LiteInsn)).run s
    (s.version.major = 2 ∧ s.version.minor = 1) ∧ Mode.width32.supportedBy .x86 = true ∧
      Mode.width64.supportedBy e.arch = true ∧ e.diet = false ∧ 0x10000 ∉ s.supported ∧
      (backend.Made s (Once (.openEngine .x86 .width32)) opened ∧
        Truthful (backend.words s) opened) ∧
      (backend.Made s (Once (.option e.handle (.mode .width64))) wider ∧
        Truthful (backend.words s) wider) ∧
      (backend.Made s (Engine.Decoding e.handle [0x90] 0 1) decoded ∧
        TruthfulDecode (backend.words s) decoded) ∧
      (backend.Made s errand quick ∧ statusesOf quick.events = [0, 42, 3] ∧
        quick.value = .error (.unknownStatus 42)) ∧
      (backend.Made s errand lite ∧ statusesOf lite.events = [0, 42, 3] ∧
        lite.value = .error (.unknownStatus 42)) := by
  have hversion : (2 : Int32) = 2 ∧ (1 : Int32) = 1 := ⟨rfl, rfl⟩
  have hmode : Mode.width32.supportedBy .x86 = true := rfl
  have hwider : Mode.width64.supportedBy .x86 = true := rfl
  have htext : (0x10000 : Int32) ∉ [0, 1, 2, 3, 4, 0xFFFF] := by decide
  have hquickStatuses : statusesOf ((disasmQuick .x86 .width32 [0x90] 0 1 :
      Attempt backend (List Insn)).run { errnos := [42], closings := [3] }).events =
        [0, 42, 3] := rfl
  have hliteStatuses : statusesOf ((disasmLiteQuick .x86 .width32 [0x90] 0 1 :
      Attempt backend (List LiteInsn)).run { errnos := [42], closings := [3] }).events =
        [0, 42, 3] := rfl
  intro s e errand opened wider decoded quick lite
  have hunknown : ¬ ((1 : Status) ≤ 42 ∧ (42 : Status) ≤ 10) := by decide
  obtain ⟨hopen, -, -, -, hset, -, hdecode, hquick, hlite⟩ := statuses_reported s
  obtain ⟨hquick, hquickTruthful⟩ := hquick .x86 .width32 [0x90] 0 1 hversion hmode
  obtain ⟨hlite, hliteTruthful⟩ := hlite .x86 .width32 [0x90] 0 1 hversion hmode htext
  have hquickFirst : firstFailure quick.events = some 42 := by
    rw [firstFailure, hquickStatuses]
    rfl
  have hliteFirst : firstFailure lite.events = some 42 := by
    rw [firstFailure, hliteStatuses]
    rfl
  exact ⟨hversion, hmode, hwider, rfl, htext, hopen .x86 .width32 hversion hmode,
    hset e .width64 hwider, hdecode e [0x90] 0 1 rfl,
    ⟨hquick, hquickStatuses, hquickTruthful.value_of_unknown hquickFirst hunknown⟩,
    ⟨hlite, hliteStatuses, hliteTruthful.value_of_unknown hliteFirst hunknown⟩⟩

end Disassembly
