import Disassembly.Native.Script
import Disassembly.Session.Desk

/-!
# What each operation deals in

Of the calls of an operation those count here that are about a handle or an array: questions about
the engine as a whole, log records and printed lines are left out, answers are kept.

* `dealings` — these calls among events;
* `dealings_check`, `dealings_refuse` — statuses and refusals deal in nothing;
* `Engine.openWith_spec`, `Engine.dealings_close`, `Engine.decodeNative_spec` and their like — the
  dealings of each operation on an engine, in order and in full;
* `withEngine_spec` — opening, one use, closing, whatever became of the use.

All of this holds for any engine in any state.
-/

namespace Disassembly

variable {B : Backend} {α β : Type}

/-- Whether an event is a call about a handle or an array. -/
@[simp]
def Event.deals : Event → Bool
  | .call .version _ => false
  | .call (.support _) _ => false
  | .call (.strerror _) _ => false
  | .call _ _ => true
  | _ => false

/-- The calls among events that are about a handle or an array, with their answers. -/
def dealings (es : List Event) : List Event :=
  es.filter Event.deals

@[simp]
theorem dealings_nil : dealings [] = [] := rfl

@[simp]
theorem dealings_append (es es' : List Event) :
    dealings (es ++ es') = dealings es ++ dealings es' :=
  List.filter_append es es'

@[simp]
theorem dealings_cons (e : Event) (es : List Event) :
    dealings (e :: es) = if e.deals then e :: dealings es else dealings es :=
  List.filter_cons

/-! ### Running attempts -/

namespace Attempt

@[simp]
theorem run_bind (x : Attempt B α) (f : α → Attempt B β) (s : B.State) :
    (x >>= f).run s =
      match (x.run s).value with
      | .ok a =>
        ⟨((f a).run (x.run s).state).value, ((f a).run (x.run s).state).state,
          (x.run s).events ++ ((f a).run (x.run s).state).events⟩
      | .error e => ⟨.error e, (x.run s).state, (x.run s).events⟩ := by
  rw [ExceptT.run_bind, Dialogue.run_bind]
  cases (x.run s).value with
  | ok a => rfl
  | error e => simp

@[simp]
theorem run_of (x : Dialogue B α) (s : B.State) :
    (of x).run s = ⟨.ok (x s).value, (x s).state, (x s).events⟩ := by
  change (⟨.ok (x s).value, (x s).state, (x s).events ++ []⟩ : Outcome B.State (Except Error α)) = _
  rw [List.append_nil]

@[simp]
theorem ask_eq (c : Call) : (ask c : Attempt B c.Answer) = of (Dialogue.ask c) := rfl

@[simp]
theorem run_log (level : Level) (m : String) (s : B.State) :
    (log level m : Attempt B Unit).run s = ⟨.ok (), s, [.log level m]⟩ := rfl

@[simp]
theorem run_pure (a : α) (s : B.State) : (Pure.pure a : Attempt B α).run s = ⟨.ok a, s, []⟩ := rfl

@[simp]
theorem run_throw (e : Error) (s : B.State) :
    (throw e : Attempt B α).run s = ⟨.error e, s, []⟩ := rfl

@[simp]
theorem run_ofExcept (r : Except Error α) (s : B.State) :
    (ofExcept r : Attempt B α).run s = ⟨r, s, []⟩ := by
  cases r with
  | ok a => rfl
  | error e => rfl

end Attempt

@[simp]
theorem Dialogue.run_map (f : α → β) (x : Dialogue B α) (s : B.State) :
    (f <$> x) s = ⟨f (x s).value, (x s).state, (x s).events⟩ := by
  change (⟨f (x s).value, (x s).state, (x s).events ++ []⟩ : Outcome B.State β) = _
  rw [List.append_nil]

@[simp]
theorem Dialogue.run_ask (c : Call) (s : B.State) :
    (Dialogue.ask c : Dialogue B c.Answer) s =
      ⟨(B.answer s c).1, (B.answer s c).2, [.call c (B.answer s c).1]⟩ := rfl

@[simp]
theorem Dialogue.run_log (level : Level) (m : String) (s : B.State) :
    (Dialogue.log level m : Dialogue B Unit) s = ⟨(), s, [.log level m]⟩ := rfl

/-! ### Statuses and refusals -/

@[simp]
theorem dealings_message (status : Status) (s : B.State) :
    dealings (Dialogue.message status s).events = [] := by
  unfold Dialogue.message
  rw [Dialogue.run_bind]
  cases (Dialogue.ask (.strerror status) s : Outcome B.State _).value <;> rfl

namespace Attempt

@[simp]
theorem dealings_refuse (code : ErrorCode) (s : B.State) :
    dealings ((refuse code : Attempt B α).run s).events = [] := by
  simp [refuse]

/-- A refusal fails with its code. -/
theorem refuse_fails (code : ErrorCode) (s : B.State) :
    ∃ m, ((refuse code : Attempt B α).run s).value = .error (.engine code m) := by
  simp [refuse]

@[simp]
theorem dealings_check (status : Status) (s : B.State) :
    dealings ((check status : Attempt B Unit).run s).events = [] := by
  unfold check
  split
  · rfl
  · exact dealings_refuse _ s
  · rfl

/-- Only status zero lets one go on. -/
theorem check_zero (s : B.State) : ((check 0 : Attempt B Unit).run s).value = .ok () := rfl

theorem check_fails {status : Status} (h : status ≠ 0) (s : B.State) :
    ∃ e, ((check status : Attempt B Unit).run s).value = .error e := by
  unfold check
  split
  · next hok => exact absurd (ErrorCode.raw_of_ofRaw? hok).symm h
  · next code _ _ =>
    obtain ⟨m, hm⟩ := refuse_fails (α := Unit) code s
    exact ⟨_, hm⟩
  · exact ⟨_, rfl⟩

end Attempt

@[simp]
theorem dealings_checkVersion (s : B.State) :
    dealings ((checkVersion : Attempt B Unit).run s).events = [] := by
  simp only [checkVersion, Attempt.run_bind, Attempt.ask_eq, Attempt.run_of, Dialogue.run_ask]
  split <;> simp

/-- Only the expected version lets one go on. -/
theorem checkVersion_ok {s : B.State} {u : Unit}
    (h : ((checkVersion : Attempt B Unit).run s).value = .ok u) :
    (B.answer s .version).1.matchesExpected = true ∧
      ((checkVersion : Attempt B Unit).run s).state = (B.answer s .version).2 := by
  simp only [checkVersion, Attempt.run_bind, Attempt.ask_eq, Attempt.run_of, Dialogue.run_ask]
    at h ⊢
  split at h
  · next hmatches => exact ⟨hmatches, by rw [if_pos hmatches]; rfl⟩
  · obtain ⟨m, hm⟩ := Attempt.refuse_fails (B := B) (α := Unit) .versionMismatch
      (B.answer s .version).2
    simp [hm] at h

/-- Whether the engine says that it is diet. -/
def Backend.diet (B : Backend) (s : B.State) : Bool :=
  (B.answer s (.support Capability.diet.raw)).1

/-- No call changes whether the engine says that it is diet. -/
def Backend.FixedDiet (B : Backend) : Prop :=
  ∀ s c, B.diet (B.answer s c).2 = B.diet s

/-- Questions about the engine as a whole leave it as it was. -/
def Backend.Still (B : Backend) : Prop :=
  ∀ (s : B.State) (c : Call) (a : c.Answer), (Event.call c a).deals = false → (B.answer s c).2 = s

theorem Script.still_backend : Script.backend.Still := by
  intro s c a hdeals
  cases c <;> first | rfl | cases hdeals

theorem Script.supported_answer (s : Script) (c : Call) :
    (s.answer c).2.supported = s.supported := by
  cases c with
  | openEngine arch mode =>
    rw [answer]
    split <;> rfl
  | disasm h code address count =>
    rw [answer, decode]
    split <;> rfl
  | _ => rfl

theorem Script.fixedDiet_backend : Script.backend.FixedDiet := fun s c =>
  congrArg (fun l : List Int32 => l.contains Capability.diet.raw) (Script.supported_answer s c)

/-! ### Operations on one engine -/

/-- Whether an architecture takes a setting; only modes can be out of place. -/
def Setting.fits (a : Arch) : Setting → Bool
  | .mode m => m.supportedBy a
  | _ => true

namespace Engine

/-- What opening an engine comes to, and its dealings. -/
inductive Opening (arch : Arch) (mode : Mode) : Except Error Engine → List Event → Prop where
  | refused (err : Error) : Opening arch mode (.error err) []
  | failed (err : Error) (status : Status) (h : Handle) (hstatus : status ≠ 0) :
    Opening arch mode (.error err) [.call (.openEngine arch mode) (status, h)]
  | opened (h : Handle) (diet : Bool) :
    Opening arch mode (.ok ⟨h, arch, diet, mode, arch.defaultDialect, false⟩)
      [.call (.openEngine arch mode) (0, h)]

/-- What follows a decode: the engine's status where nothing was counted, else the release of the
array that was handed out. -/
inductive Release (h : Handle) (d : Decoded) : List Event → Prop where
  | empty (status : Status) (hcount : d.count = 0) : Release h d [.call (.errno h) status]
  | null (hcount : d.count ≠ 0) (harray : d.array = none) : Release h d []
  | freed (a : NativeArray) (hcount : d.count ≠ 0) (harray : d.array = some a) :
    Release h d [.call (.free a.number d.count) ()]

/-- A decode and what follows it. -/
inductive Decoding (h : Handle) (code : List UInt8) (address : UInt64) (count : Nat) :
    List Event → Prop where
  | mk (d : Decoded) {es : List Event} (hrelease : Release h d es) :
    Decoding h code address count (.call (.disasm h code address count) d :: es)

theorem openWith_spec (arch : Arch) (mode : Mode) (s : B.State) :
    Opening arch mode ((openWith arch mode : Attempt B Engine).run s).value
      (dealings ((openWith arch mode : Attempt B Engine).run s).events) := by
  rw [openWith, Attempt.run_bind]
  cases ((checkVersion : Attempt B Unit).run s).value with
  | error err => simpa using Opening.refused err
  | ok _ =>
    by_cases hmode : mode.supportedBy arch = true
    · simp only [hmode, if_true, Attempt.run_bind, Attempt.ask_eq, Attempt.run_of, Dialogue.run_ask]
      generalize ((checkVersion : Attempt B Unit).run s).state = s₁
      rcases hanswer : B.answer s₁ (.openEngine arch mode) with ⟨⟨status, handle⟩, s₂⟩
      by_cases hstatus : status = 0
      · subst hstatus
        simpa [Attempt.check_zero, Dialogue.supports] using Opening.opened handle _
      · obtain ⟨err, herr⟩ := Attempt.check_fails hstatus s₂
        simpa [herr] using Opening.failed err status handle hstatus
    · obtain ⟨m, hm⟩ := Attempt.refuse_fails (B := B) (α := Engine) .unsupportedMode
        ((checkVersion : Attempt B Unit).run s).state
      simpa [hmode, hm] using Opening.refused _

/-- An engine is diet if the native one was when it was opened. -/
theorem diet_openWith (hB : B.FixedDiet) {arch : Arch} {mode : Mode} {s : B.State} {e : Engine}
    (h : ((openWith arch mode : Attempt B Engine).run s).value = .ok e) : e.diet = B.diet s := by
  rw [openWith, Attempt.run_bind] at h
  cases hversion : ((checkVersion : Attempt B Unit).run s).value with
  | error err =>
    rw [hversion] at h
    cases h
  | ok u =>
    rw [hversion] at h
    obtain ⟨-, hstate⟩ := checkVersion_ok hversion
    rw [hstate] at h
    by_cases hmode : mode.supportedBy arch = true
    · simp only [hmode, if_true, Attempt.run_bind, Attempt.ask_eq, Attempt.run_of,
        Dialogue.run_ask] at h
      have hopen := hB (B.answer s .version).2 (.openEngine arch mode)
      rcases hanswer : B.answer (B.answer s .version).2 (.openEngine arch mode) with
        ⟨⟨status, handle⟩, s₂⟩
      rw [hanswer] at h hopen
      by_cases hstatus : status = 0
      · subst hstatus
        cases h
        exact hopen.trans (hB s .version)
      · obtain ⟨err, herr⟩ := Attempt.check_fails hstatus s₂
        simp [herr] at h
    · obtain ⟨m, hm⟩ := Attempt.refuse_fails (B := B) (α := Engine) .unsupportedMode
        (B.answer s .version).2
      simp [hmode, hm] at h

theorem dealings_close (e : Engine) (s : B.State) :
    dealings ((e.close : Attempt B Unit).run s).events =
      [.call (.close e.handle) (B.answer s (.close e.handle)).1] := by
  simp [close_eq]

theorem dealings_drop (e : Engine) (s : B.State) :
    dealings ((e.drop : Dialogue B Unit) s).events =
      [.call (.close e.handle) (B.answer s (.close e.handle)).1] := by
  rw [drop_eq, Dialogue.run_bind]
  cases ((e.close : Attempt B Unit).run s).value with
  | ok _ => simp [dealings_close]
  | error err => simp [dealings_close]

/-- The three setters by the setting they ask for. -/
def configure (e : Engine) : Setting → Attempt B Engine
  | .dialect x => e.setDialect x
  | .detail on => e.setDetail on
  | .mode m => e.setMode m

/-- The configuration after a setting was accepted. -/
def accept (e : Engine) : Setting → Engine
  | .dialect x => { e with dialect := some x }
  | .detail on => { e with detail := on }
  | .mode m => { e with mode := m }

/-- What the three setters have in common: the option, a log record, the new configuration. -/
theorem commit_spec (e : Engine) (x : Setting) (text : String) (s : B.State) :
    let out := ((do
      e.option x
      Attempt.log .debug text
      return e.accept x : Attempt B Engine)).run s
    let status := (B.answer s (.option e.handle x)).1
    dealings out.events = [.call (.option e.handle x) status] ∧
      if status = 0 then out.value = .ok (e.accept x) else ∃ err, out.value = .error err := by
  rcases hanswer : B.answer s (.option e.handle x) with ⟨status, s₁⟩
  by_cases hstatus : status = 0
  · subst hstatus
    simp [option, hanswer, Attempt.check_zero, Except.map]
  · obtain ⟨err, herr⟩ := Attempt.check_fails hstatus s₁
    simp [option, hanswer, herr, hstatus]

/-- **A setter commits its setting if the engine accepts it, and nothing otherwise**; a mode that
the architecture does not take never reaches the engine. -/
theorem configure_spec (e : Engine) (x : Setting) (s : B.State) :
    let out := (e.configure x : Attempt B Engine).run s
    let status := (B.answer s (.option e.handle x)).1
    if x.fits e.arch then
      dealings out.events = [.call (.option e.handle x) status] ∧
        if status = 0 then out.value = .ok (e.accept x) else ∃ err, out.value = .error err
    else dealings out.events = [] ∧ ∃ err, out.value = .error err := by
  cases x with
  | dialect t => exact e.commit_spec (.dialect t) _ s
  | detail on => exact e.commit_spec (.detail on) _ s
  | mode m =>
    by_cases hmode : m.supportedBy e.arch = true
    · simp only [configure, setMode, Setting.fits, hmode, if_true]
      exact e.commit_spec (.mode m) _ s
    · obtain ⟨msg, hmsg⟩ := Attempt.refuse_fails (B := B) (α := Engine) .unsupportedOption s
      simp [configure, setMode, Setting.fits, hmode, hmsg]

theorem dealings_errno (e : Engine) (s : B.State) :
    dealings ((e.errno : Attempt B ErrorCode).run s).events =
      [.call (.errno e.handle) (B.answer s (.errno e.handle)).1] := by
  simp only [errno, Attempt.run_bind, Attempt.ask_eq, Attempt.run_of, Dialogue.run_ask]
  split <;> simp

/-- An engine that is not diet is let through. -/
theorem ensureNotDiet_eq {e : Engine} (h : e.diet = false) :
    (e.ensureNotDiet : Attempt B Unit) = pure () := by
  rw [ensureNotDiet, h]
  rfl

/-- A diet engine is refused without a word to it. -/
theorem ensureNotDiet_spec (e : Engine) (s : B.State) :
    dealings ((e.ensureNotDiet : Attempt B Unit).run s).events = [] ∧
      if e.diet then ∃ err, ((e.ensureNotDiet : Attempt B Unit).run s).value = .error err
      else (e.ensureNotDiet : Attempt B Unit).run s = ⟨.ok (), s, []⟩ := by
  unfold ensureNotDiet
  split
  · obtain ⟨m, hm⟩ := Attempt.refuse_fails (B := B) (α := Unit) .dietUnsupported s
    exact ⟨by simp, _, hm⟩
  · exact ⟨rfl, rfl⟩

/-- What a diet engine is refused is not begun, and anything else runs as it would. -/
theorem dealings_ensured (e : Engine) (x : Attempt B α) (s : B.State) :
    dealings (((e.ensureNotDiet : Attempt B Unit) >>= fun _ => x).run s).events =
      if e.diet then [] else dealings (x.run s).events := by
  obtain ⟨hnone, hvalue⟩ := e.ensureNotDiet_spec s
  rw [Attempt.run_bind]
  by_cases hdiet : e.diet = true
  · rw [if_pos hdiet] at hvalue ⊢
    obtain ⟨err, herr⟩ := hvalue
    rw [herr]
    exact hnone
  · rw [if_neg hdiet] at hvalue ⊢
    rw [hvalue]
    simp

theorem dealings_regName (e : Engine) (id : UInt32) (s : B.State) :
    dealings ((e.regName id : Attempt B (Option String)).run s).events =
      if e.diet then [] else
        [.call (.regName e.handle id) (B.answer s (.regName e.handle id)).1] := by
  rw [regName, dealings_ensured]
  simp

theorem dealings_insnName (e : Engine) (id : UInt32) (s : B.State) :
    dealings ((e.insnName id : Attempt B (Option String)).run s).events =
      if e.diet then [] else
        [.call (.insnName e.handle id) (B.answer s (.insnName e.handle id)).1] := by
  rw [insnName, dealings_ensured]
  simp

/-- **One native decode**: the engine is asked once, and what it hands out is released. -/
theorem decodeNative_spec (e : Engine) (code : List UInt8) (address : UInt64) (count : Nat)
    (s : B.State) : Decoding e.handle code address count (dealings
      ((e.decodeNative code address count : Attempt B (List NativeInsn)).run s).events) := by
  simp only [decodeNative, Attempt.run_bind, Attempt.ask_eq, Attempt.run_of, Dialogue.run_ask,
    Attempt.run_log]
  rcases B.answer s (.disasm e.handle code address count) with ⟨d, s₁⟩
  by_cases hcount : d.count = 0
  · simp only [hcount, if_true, Attempt.run_bind, Attempt.run_of, Dialogue.run_ask]
    rcases B.answer s₁ (.errno e.handle) with ⟨status, s₂⟩
    have hempty := Release.empty (h := e.handle) status hcount
    cases ((Attempt.check status : Attempt B Unit).run s₂).value with
    | ok _ => simpa using Decoding.mk d hempty
    | error err => simpa using Decoding.mk d hempty
  · rw [if_neg hcount]
    cases harray : d.array with
    | none => simpa using Decoding.mk d (.null hcount harray)
    | some a => simpa using Decoding.mk d (.freed a hcount harray)

theorem disasm_spec (e : Engine) (code : List UInt8) (address : UInt64) (count : Nat)
    (s : B.State) : Decoding e.handle code address count
      (dealings ((e.disasm code address count : Attempt B (List Insn)).run s).events) := by
  have hspec := e.decodeNative_spec code address count s
  simpa [disasm] using hspec

theorem disasmLite_spec (e : Engine) (code : List UInt8) (address : UInt64) (count : Nat)
    (s : B.State) :
    if e.diet then
      dealings ((e.disasmLite code address count : Attempt B (List LiteInsn)).run s).events = []
    else Decoding e.handle code address count
      (dealings ((e.disasmLite code address count : Attempt B (List LiteInsn)).run s).events) := by
  have hspec := e.decodeNative_spec code address count s
  rw [disasmLite, dealings_ensured]
  split
  · rfl
  · simpa using hspec

end Engine

/-! ### Engines for one use -/

/-- The dealings of an errand with an engine of its own: `P` says what its use comes to. -/
inductive Errand (arch : Arch) (mode : Mode) (P : Handle → List Event → Prop) :
    List Event → Prop where
  | unopened {err : Error} {es : List Event} (hopen : Engine.Opening arch mode (.error err) es) :
    Errand arch mode P es
  | served {h : Handle} {es : List Event} (huse : P h es) (status : Status) :
    Errand arch mode P (.call (.openEngine arch mode) (0, h) :: (es ++ [.call (.close h) status]))

/-- **An engine for one use is closed**, whatever became of the use. -/
theorem withEngine_spec {arch : Arch} {mode : Mode} {use : Engine → Attempt B α}
    {P : Handle → List Event → Prop} {s : B.State}
    (huse : ∀ e s₁, ((Engine.openWith arch mode : Attempt B Engine).run s).value = .ok e →
      P e.handle (dealings ((use e).run s₁).events)) :
    Errand arch mode P (dealings ((withEngine arch mode use).run s).events) := by
  have hopen := Engine.openWith_spec (B := B) arch mode s
  rw [withEngine, Attempt.run_bind]
  cases hvalue : ((Engine.openWith arch mode : Attempt B Engine).run s).value with
  | error err =>
    rw [hvalue] at hopen
    exact .unopened hopen
  | ok e =>
    have hserved := huse e ((Engine.openWith arch mode : Attempt B Engine).run s).state hvalue
    rw [hvalue] at hopen
    generalize hs₁ : ((Engine.openWith arch mode : Attempt B Engine).run s).state = s₁ at hserved
    -- Neither what the use came to nor what closing came to adds to the dealings.
    have hdealings : dealings ((do
          let used ← Attempt.of (use e).run
          let closed ← Attempt.of e.close.run
          let result ← ofExcept used
          ofExcept closed
          return result : Attempt B α).run s₁).events =
        dealings ((use e).run s₁).events ++
          [.call (.close e.handle) (B.answer ((use e).run s₁).state (.close e.handle)).1] := by
      cases hused : ((use e).run s₁).value with
      | error err => simp [hused, Engine.dealings_close]
      | ok a =>
        cases hclosed : ((e.close : Attempt B Unit).run ((use e).run s₁).state).value with
        | error err => simp [hused, hclosed, Engine.dealings_close]
        | ok _ => simp [hused, hclosed, Engine.dealings_close]
    simp only [dealings_append, hdealings]
    generalize dealings ((Engine.openWith arch mode : Attempt B Engine).run s).events = es at hopen
    cases hopen
    exact .served hserved _

theorem disasmQuick_spec (arch : Arch) (mode : Mode) (code : List UInt8) (address : UInt64)
    (count : Nat) (s : B.State) :
    Errand arch mode (Engine.Decoding · code address count) (dealings
      ((disasmQuick arch mode code address count : Attempt B (List Insn)).run s).events) :=
  withEngine_spec fun e s₁ _ => e.disasm_spec code address count s₁

theorem disasmLiteQuick_spec (hB : B.FixedDiet) (arch : Arch) (mode : Mode) (code : List UInt8)
    (address : UInt64) (count : Nat) (s : B.State) :
    Errand arch mode (Engine.Decoding · code address count)
      (dealings ((disasmLiteQuick arch mode code address count :
        Attempt B (List LiteInsn)).run s).events) := by
  rw [disasmLiteQuick, Attempt.run_bind]
  cases hversion : ((checkVersion : Attempt B Unit).run s).value with
  | error err => simpa using Errand.unopened (.refused err)
  | ok u =>
    generalize ((checkVersion : Attempt B Unit).run s).state = s₁
    rw [Attempt.run_bind, Attempt.run_of, Dialogue.supports, Dialogue.run_ask]
    cases hdiet : (B.answer s₁ (.support Capability.diet.raw)).1 with
    | true =>
      obtain ⟨m, hm⟩ := Attempt.refuse_fails (B := B) (α := PUnit) .dietUnsupported
        (B.answer s₁ (.support Capability.diet.raw)).2
      simpa [hm] using Errand.unopened (.refused (.engine .dietUnsupported m))
    | false =>
      have hquick : Errand arch mode (Engine.Decoding · code address count)
          (dealings ((withEngine arch mode fun e => e.disasmLite code address count :
            Attempt B (List LiteInsn)).run
              (B.answer s₁ (.support Capability.diet.raw)).2).events) := by
        refine withEngine_spec fun e s₂ he => ?_
        have hlite := e.disasmLite_spec code address count s₂
        have hsame := (Engine.diet_openWith hB he).trans (hB s₁ (.support Capability.diet.raw))
        rw [hsame, Backend.diet, hdiet] at hlite
        exact hlite
      simpa using hquick

end Disassembly
