import Disassembly.Proofs.CommandLine.Printing

/-!
# How the program attends to its engine

The program opens at most one engine, and closes it on every way out.

* `Attendance` — the settings of an engine, one after another, each only after the last was
  accepted, and what follows them;
* `Showing` — one decode, and the names that are asked for while its instructions are printed;
* `Closed` — a failure to close counts only if nothing failed before;
* `Conduct` — all that a run of the program can deal in, and what it comes to;
* `conduct_of_run` — there is nothing else.
-/

namespace Disassembly.CommandLine

variable {B : Backend}

/-! ### Parts of the program -/

/-- The settings that arguments ask for, each with what is said if it is rejected. -/
def Arguments.settings (a : Arguments) : List (String × Setting) :=
  (a.dialect.map fun d => ("Syntax rejected", .dialect d)).toList ++
    if a.detail then [("Detail rejected", .detail true)] else []

def applying (e : Engine) : List (String × Setting) → Stage B Engine
  | [] => return e
  | p :: ps => do
    let e ← Stage.during p.1 (e.configure p.2)
    applying e ps

/-- Decode with an engine as it is set up, and present what that gives. -/
def showing (style : Style) (a : Arguments) (code : List UInt8) (e : Engine) : Stage B Unit := do
  presenting style a code e (← Stage.during "Disassembly failed" (e.disasm code a.address a.count))

/-- An open engine is set up, then used. -/
theorem useEngine_eq (style : Style) (a : Arguments) (code : List UInt8) (e : Engine) :
    (useEngine style a code e : Stage B Unit) =
      applying e a.settings >>= showing style a code := by
  have hpresent : ∀ (e : Engine) (insns : List Insn), (do
      if insns.isEmpty then
        Stage.print (placeholder style)
      printInsns style e a.detail insns
      let decoded := insns.foldl (fun n i => n + i.size) 0
      if decoded < code.length then
        Stage.of (Dialogue.log .info (toString (code.length - decoded) ++
          " trailing bytes not decoded")) : Stage B Unit) = presenting style a code e insns := by
    intro e insns
    rw [presenting, printing]
    cases insns.isEmpty <;> simp
  unfold useEngine Arguments.settings showing
  simp only [← hpresent, placeholder]
  cases a.dialect <;> cases a.detail <;> simp [applying, Engine.configure]

/-! ### Settings -/

/-- The dealings of setting up an engine and using it, and what comes of it: each setting is asked
for only after those before it were accepted, and `P` says what its use comes to. -/
inductive Attendance (h : Handle) (P : List Event → Except Failure Unit → Prop) :
    List (String × Setting) → List Event → Except Failure Unit → Prop where
  | rejected {what : String} {x : Setting} {settings : List (String × Setting)} {status : Status}
    (hstatus : status ≠ 0) (m : String) :
    Attendance h P ((what, x) :: settings) [.call (.option h x) status] (.error ⟨what, some m⟩)
  | accepted {what : String} {x : Setting} {settings : List (String × Setting)} {es : List Event}
    {r : Except Failure Unit} (hrest : Attendance h P settings es r) :
    Attendance h P ((what, x) :: settings) (.call (.option h x) (0 : Status) :: es) r
  | ready {es : List Event} {r : Except Failure Unit} (hes : P es r) : Attendance h P [] es r

def accepting (e : Engine) (settings : List (String × Setting)) : Engine :=
  settings.foldl (fun e p => e.accept p.2) e

theorem accepting_eq (e : Engine) (settings : List (String × Setting)) :
    (accepting e settings).handle = e.handle ∧ (accepting e settings).diet = e.diet ∧
      (accepting e settings).arch = e.arch := by
  induction settings generalizing e with
  | nil => exact ⟨rfl, rfl, rfl⟩
  | cons p settings ih =>
    obtain ⟨hhandle, hdiet, harch⟩ := ih (e.accept p.2)
    have haccept : (e.accept p.2).handle = e.handle ∧ (e.accept p.2).diet = e.diet ∧
        (e.accept p.2).arch = e.arch := by
      cases p.2 <;> exact ⟨rfl, rfl, rfl⟩
    exact ⟨hhandle.trans haccept.1, hdiet.trans haccept.2.1, harch.trans haccept.2.2⟩

/-- The settings of arguments turn detail on if they ask for it. -/
theorem detail_accepting (a : Arguments) {e : Engine} (he : e.detail = false) :
    (accepting e a.settings).detail = a.detail := by
  unfold accepting Arguments.settings
  cases a.dialect <;> cases a.detail <;> simp [Engine.accept, he]

/-- The settings of arguments fit every architecture. -/
theorem fits_settings {a : Arguments} {p : String × Setting} (hp : p ∈ a.settings) (arch : Arch) :
    p.2.fits arch = true := by
  rcases List.mem_append.mp hp with hmem | hmem
  · obtain ⟨d, -, rfl⟩ := Option.map_eq_some_iff.mp (Option.mem_toList.mp hmem)
    rfl
  · split at hmem
    · rw [List.mem_singleton.mp hmem]
      rfl
    · cases hmem

/-- **Setting up an engine and using it.** -/
theorem attendance_of_applying {P : List Event → Except Failure Unit → Prop} {e : Engine}
    {settings : List (String × Setting)} (hfits : ∀ p ∈ settings, p.2.fits e.arch = true)
    {use : Engine → Stage B Unit} (huse : ∀ s, P
      (dealings ((use (accepting e settings)).run s).events)
      ((use (accepting e settings)).run s).value) (s : B.State) :
    let out := (applying e settings >>= use).run s
    Attendance e.handle P settings (dealings out.events) out.value := by
  intro out
  induction settings generalizing e s with
  | nil => exact .ready (huse s)
  | cons p settings ih =>
    obtain ⟨what, x⟩ := p
    obtain ⟨hx, hrest⟩ := List.forall_mem_cons.mp hfits
    have hspec := e.configure_spec x s
    rw [if_pos hx] at hspec
    obtain ⟨hdealings, hvalue⟩ := hspec
    have hout : out = (Stage.during what (e.configure x) >>= fun e' =>
        (applying e' settings >>= use)).run s :=
      congrArg (fun y : Stage B Unit => y.run s) (bind_assoc _ _ _)
    rw [hout, Stage.run_bind, Stage.run_during]
    by_cases hstatus : (B.answer s (.option e.handle x)).1 = 0
    · rw [if_pos hstatus] at hvalue
      have hsame := accepting_eq e [(what, x)]
      rw [hvalue]
      simp only [Except.mapError, dealings_append, hdealings, hstatus]
      have hih := ih (e := e.accept x) (fun q hq => hsame.2.2.symm ▸ hrest q hq)
        huse ((e.configure x : Attempt B Engine).run s).state
      rw [show (e.accept x).handle = e.handle from hsame.1] at hih
      exact .accepted hih
    · rw [if_neg hstatus] at hvalue
      obtain ⟨err, herr⟩ := hvalue
      rw [herr]
      simp only [Except.mapError, hdealings]
      exact .rejected hstatus err.message

/-! ### Decoding and printing -/

/-- The dealings of a decode with an engine that is set up, and what comes of it. -/
inductive Showing (h : Handle) (a : Arguments) (code : List UInt8) (diet : Bool) :
    List Event → Except Failure Unit → Prop where
  /-- Nothing was counted, and the status of the handle says that this is a failure. -/
  | undecoded {d : Decoded} {status : Status} (hcount : d.count = 0) (hstatus : status ≠ 0)
    (m : String) : Showing h a code diet
      [.call (.disasm h code a.address a.count) d, .call (.errno h) status]
      (.error ⟨"Disassembly failed", some m⟩)
  /-- The array is released before a name is asked for, and names are asked for detail only. What
  can fail then is that an instruction has none. -/
  | decoded {d : Decoded} {es names : List Event} {r : Except Failure Unit}
    (hrelease : Engine.Release h d es) (hempty : ∀ status, .call (.errno h) status ∈ es → status = 0)
    (hnames : ∀ x ∈ names, a.detail = true ∧ diet = false ∧
      ∃ id name, x = .call (.regName h id) name)
    (hresult : r = .ok () ↔
      (a.detail = true → diet = false → ∀ n ∈ d.entries, n.detail.isSome)) :
    Showing h a code diet (.call (.disasm h code a.address a.count) d :: (es ++ names)) r

/-- A decode as a whole: its dealings, and the instructions or the failure that it comes to. -/
theorem disasm_outcome (hB : B.FixedWords) (e : Engine) (code : List UInt8) (address : UInt64)
    (count : Nat) (s : B.State) :
    let out := (e.disasm code address count : Attempt B (List Insn)).run s
    ∃ d es, dealings out.events = .call (.disasm e.handle code address count) d :: es ∧
      ((∃ status err, d.count = 0 ∧ status ≠ 0 ∧ es = [.call (.errno e.handle) status] ∧
          out.value = .error err) ∨
        Engine.Release e.handle d es ∧ (∀ status, .call (.errno e.handle) status ∈ es → status = 0) ∧
          out.value = .ok (d.entries.map (Insn.ofNative e.arch e.diet e.detail))) := by
  intro out
  have hdecoding := e.disasm_spec code address count s
  obtain ⟨d', hone, hentries⟩ := e.yields_disasm code address count s
  obtain ⟨hok, herror, -⟩ := e.truthful_disasm hB code address count s
  rw [← filterMap_dealings (fun _ he => (Event.plain_of_not_deals he).decoded?)] at hone
  rw [firstFailure, ← statusesOf_dealings] at hok herror
  change Engine.Decoding e.handle code address count (dealings out.events) at hdecoding
  change (dealings out.events).filterMap Event.decoded? = [d'] at hone
  generalize hes : dealings out.events = es at hdecoding hone hok herror
  cases hdecoding with
  | @mk d es hrelease =>
    have hsame : d = d' := (List.cons.inj hone).1
    have hvalue : (∃ l, out.value = .ok l) →
        out.value = .ok (d.entries.map (Insn.ofNative e.arch e.diet e.detail)) := by
      rintro ⟨l, hl⟩
      rw [hl, hentries l hl, hsame]
    refine ⟨d, es, rfl, ?_⟩
    cases hrelease with
    | empty status hcount =>
      by_cases hstatus : status = 0
      · have hvalue := hvalue (hok (by simp [statusesOf, Event.status?, hstatus]))
        refine Or.inr ⟨.empty status hcount, fun status' h => ?_, hvalue⟩
        cases List.mem_singleton.mp h
        exact hstatus
      · obtain ⟨err, herr, -⟩ := herror status (by simp [statusesOf, Event.status?, hstatus])
        exact Or.inl ⟨status, err, hcount, hstatus, rfl, herr⟩
    | null hcount harray =>
      exact Or.inr ⟨.null hcount harray, fun _ h => absurd h List.not_mem_nil, hvalue (hok rfl)⟩
    | freed a hcount harray =>
      refine Or.inr ⟨.freed a hcount harray, fun status h => ?_, hvalue (hok rfl)⟩
      cases List.mem_singleton.mp h

/-- **Decoding and printing.** -/
theorem showing_spec (hB : B.Constant) (style : Style) (a : Arguments) (code : List UInt8)
    {e : Engine} (he : e.detail = a.detail) (s : B.State) :
    let out := (showing style a code e : Stage B Unit).run s
    Showing e.handle a code e.diet (dealings out.events) out.value := by
  intro out
  obtain ⟨d, es, hdealings, houtcome⟩ := disasm_outcome hB.words e code a.address a.count s
  have hout : out = (Stage.during "Disassembly failed" (e.disasm code a.address a.count) >>=
      presenting style a code e).run s := rfl
  rw [hout, Stage.run_bind, Stage.run_during]
  rcases houtcome with ⟨status, err, hcount, hstatus, rfl, hvalue⟩ | ⟨hrelease, hempty, hvalue⟩
  · rw [hvalue]
    simp only [Except.mapError, hdealings]
    exact .undecoded hcount hstatus err.message
  · rw [hvalue]
    simp only [Except.mapError, dealings_append, hdealings]
    obtain ⟨hresult, -, -, -, hnames⟩ := presenting_spec hB style a code e
      (d.entries.map (Insn.ofNative e.arch e.diet e.detail))
      ((e.disasm code a.address a.count : Attempt B (List Insn)).run s).state
    refine .decoded hrelease hempty hnames ?_
    rw [hresult, mapError_ok_iff, he]
    exact sheet_ok_iff _ _ _ _ _ _

/-! ### Closing -/

/-- What comes of an engine that was used and closed: a failure to close counts only if its use did
not fail. -/
inductive Closed : Except Failure Unit → Status → Except Failure Unit → Prop where
  | failed (f : Failure) (status : Status) : Closed (.error f) status (.error f)
  | clean : Closed (.ok ()) 0 (.ok ())
  | unclosed {status : Status} (hstatus : status ≠ 0) (m : String) :
    Closed (.ok ()) status (.error ⟨"Failed to close engine", some m⟩)

/-- Nothing hides that a use failed. -/
theorem Closed.eq_of_error {f : Failure} {status : Status} {result : Except Failure Unit}
    (h : Closed (.error f) status result) : result = .error f := by
  cases h
  rfl

/-- **An engine is closed once, whatever came of its use**, and nothing is printed or logged for
information after that. -/
theorem closing_spec (hB : B.FixedWords) (e : Engine) (use : Stage B Unit) (s : B.State) :
    let out := (closing e use).run s
    let used := use.run s
    let status := (B.answer used.state (.close e.handle)).1
    dealings out.events = dealings used.events ++ [.call (.close e.handle) status] ∧
      linesOf out.events = linesOf used.events ∧ infosOf out.events = infosOf used.events ∧
      Closed used.value status out.value := by
  intro out used status
  have hused : use.run s = used := rfl
  have hstatus : (B.answer used.state (.close e.handle)).1 = status := rfl
  obtain ⟨value, s₁, es⟩ := used
  have hused' : (Stage.of use.run).run s = ⟨.ok value, s₁, es⟩ := by
    rw [Stage.run_of, hused]
  have hout : out = (closing e use).run s := rfl
  rw [hout, closing, Stage.run_after hused', dealings_behind, linesOf_behind, infosOf_behind]
  cases value with
  | error f =>
    obtain ⟨hlines, hinfos⟩ := silent_nil (e.quiet_drop (B := B) s₁)
    rw [Stage.run_bind, Stage.run_of]
    simp only [Stage.run_throw, List.append_nil, e.dealings_drop, hlines, hinfos]
    exact ⟨rfl, trivial, trivial, .failed f _⟩
  | ok u =>
    obtain ⟨hlines, hinfos⟩ := silent_nil (e.quiet_close (B := B) s₁)
    obtain ⟨hok, herror, -⟩ := e.truthful_close hB s₁
    rw [firstFailure, ← statusesOf_dealings, e.dealings_close, hstatus] at hok herror
    simp only [Stage.run_during, e.dealings_close, hlines, hinfos, List.append_nil]
    refine ⟨rfl, trivial, trivial, ?_⟩
    by_cases hzero : status = 0
    · obtain ⟨u', hvalue⟩ := hok (by simp [statusesOf, Event.status?, hzero])
      rw [hvalue, hzero]
      exact .clean
    · obtain ⟨err, hvalue, -⟩ := herror status (by simp [statusesOf, Event.status?, hzero])
      rw [hvalue]
      exact .unclosed hzero err.message

/-! ### The program -/

/-- What the program needs to open an engine, and what it opens it for: a library, machine code that
can be read, the expected version, and a mode that the architecture takes. -/
structure Admitted (w : Surroundings) (v : Version) (a : Arguments) (arch : Arch) (mode : Mode)
    (code : List UInt8) : Prop where
  library : ∃ path ∈ a.candidates w, w.loader.load path = .ok ()
  task : ∃ text, a.task = .disassemble arch text ∧ readCode text = .ok code
  mode_eq : mode = combineModes arch a.flags
  version : v.major = 2 ∧ v.minor = 1
  takes : Mode.Takes arch mode

/-- All that a run of the program can come to, and its dealings. -/
inductive Conduct (w : Surroundings) (v : Version) (diet : Bool) (a : Arguments) :
    Except Failure Unit → List Event → Prop where
  | described (hlibrary : ∃ path ∈ a.candidates w, w.loader.load path = .ok ())
    (htask : a.task = .info) : Conduct w v diet a (.ok ()) []
  | refused (hno : ∀ arch mode code, ¬ Admitted w v a arch mode code)
    (htask : a.task = .info → ∀ path ∈ a.candidates w, w.loader.load path ≠ .ok ()) (f : Failure) :
    Conduct w v diet a (.error f) []
  | unopened {arch : Arch} {mode : Mode} {code : List UInt8}
    (hadmitted : Admitted w v a arch mode code) {status : Status} (hstatus : status ≠ 0)
    (h : Handle) (f : Failure) :
    Conduct w v diet a (.error f) [.call (.openEngine arch mode) (status, h)]
  | attended {arch : Arch} {mode : Mode} {code : List UInt8}
    (hadmitted : Admitted w v a arch mode code) {h : Handle} {es : List Event}
    {r result : Except Failure Unit} {status : Status}
    (hes : Attendance h (Showing h a code diet) a.settings es r) (hclosed : Closed r status result) :
    Conduct w v diet a result
      (.call (.openEngine arch mode) (0, h) :: (es ++ [.call (.close h) status]))

/-- **Using an open engine.** -/
theorem attendance_of_useEngine (hB : B.Constant) (style : Style) (a : Arguments)
    (code : List UInt8) {e : Engine} (he : e.detail = false) (s : B.State) :
    let out := (useEngine style a code e : Stage B Unit).run s
    Attendance e.handle (Showing e.handle a code e.diet) a.settings (dealings out.events)
      out.value := by
  intro out
  obtain ⟨hhandle, hdiet, -⟩ := accepting_eq e a.settings
  have hout : out = (applying e a.settings >>= showing style a code).run s :=
    congrArg (fun x : Stage B Unit => x.run s) (useEngine_eq style a code e)
  rw [hout]
  refine attendance_of_applying (fun p hp => fits_settings hp e.arch) (fun s₁ => ?_) s
  have hshowing := showing_spec hB style a code (detail_accepting a he) s₁
  rw [hhandle, hdiet] at hshowing
  exact hshowing

/-- What the program does once it has a library. -/
def serving (style : Style) (a : Arguments) : Stage B Unit :=
  match a.task with
  | .info => do Stage.print (← Stage.of Dialogue.describeBuild)
  | .disassemble arch text => disassemble style a arch text

/-- The messages with which the program begins. -/
def greeting (v : Version) (a : Arguments) : List String :=
  if 0 < a.verbosity then ["capstone " ++ v.shown ++ " loaded"] else []

/-- Ask for the version and log it, if the program is to be verbose. -/
def greet (verbosity : Nat) : Dialogue B Unit :=
  if 0 < verbosity then do
    let version ← Dialogue.ask .version
    Dialogue.log .info ("capstone " ++ version.shown ++ " loaded")
  else return ()

/-- **The program looks for its library, greets the engine, and serves.** -/
theorem run_eq (w : Surroundings) (style : Style) (a : Arguments) (s : B.State) :
    let found := (a.library w : Dialogue B Cell) s
    (run w style a : Stage B Unit).run s =
      match found.value.result with
      | .ok () =>
        let greeted := (greet a.verbosity : Dialogue B Unit) found.state
        ((serving style a : Stage B Unit).run greeted.state).behind (found.events ++ greeted.events)
      | .error err =>
        ⟨.error ⟨"Failed to load the capstone library", some err.message⟩, found.state,
          found.events⟩ := by
  intro found
  have hcell : (Stage.of (a.library w) : Stage B Cell).run s =
      ⟨.ok found.value, found.state, found.events⟩ := Stage.run_of _ _
  have hloaded : (Stage.during "Failed to load the capstone library" (ofExcept found.value.result) :
      Stage B Unit).run found.state = ⟨found.value.result.mapError fun e =>
        ⟨"Failed to load the capstone library", some e.message⟩, found.state, []⟩ := by
    rw [Stage.run_during, Attempt.run_ofExcept]
  have hgreeting : (if 0 < a.verbosity then
        Stage.of (Dialogue.ask .version) >>= fun v =>
          Stage.of (Dialogue.log .info ("capstone " ++ v.shown ++ " loaded")) >>= fun _ =>
            serving style a
      else serving style a : Stage B Unit).run found.state =
        let greeted := (greet a.verbosity : Dialogue B Unit) found.state
        ((serving style a : Stage B Unit).run greeted.state).behind greeted.events := by
    unfold greet
    by_cases hverbose : 0 < a.verbosity
    · simp only [if_pos hverbose]
      rw [Stage.run_after (Stage.run_of _ _), Stage.run_after (Stage.run_of _ _),
        Outcome.behind_behind]
      rfl
    · simp only [if_neg hverbose]
      rfl
  have hrun : (run w style a : Stage B Unit).run s =
      (Stage.of (a.library w) >>= fun cell =>
        Stage.during "Failed to load the capstone library" (ofExcept cell.result) >>= fun _ =>
          (if 0 < a.verbosity then
            Stage.of (Dialogue.ask .version) >>= fun v =>
              Stage.of (Dialogue.log .info ("capstone " ++ v.shown ++ " loaded")) >>= fun _ =>
                serving style a
          else serving style a) : Stage B Unit).run s := rfl
  rw [hrun, Stage.run_after hcell]
  generalize found.value.result = r at hloaded
  cases r with
  | error err =>
    rw [Stage.run_failed hloaded]
    show (⟨_, _, found.events ++ []⟩ : Outcome B.State (Except Failure Unit)) = _
    rw [List.append_nil]
  | ok u => rw [Stage.run_after hloaded, hgreeting, Outcome.behind_behind, Outcome.behind_behind,
      List.append_nil]

/-- The greeting is all that is logged by it, and leaves an engine as it was that can be asked for its
version without a trace. -/
theorem greet_spec (hB : B.Still) (a : Arguments) (s : B.State) :
    ∃ es, (greet a.verbosity : Dialogue B Unit) s = ⟨(), s, es⟩ ∧
      dealings es = [] ∧ linesOf es = [] ∧ infosOf es = greeting (B.answer s .version).1 a := by
  unfold greet greeting
  by_cases hverbose : 0 < a.verbosity
  · simp only [if_pos hverbose]
    rw [Dialogue.run_bind, Dialogue.run_ask, hB s .version (B.answer s .version).1 rfl]
    exact ⟨_, rfl, rfl, rfl, rfl⟩
  · simp only [if_neg hverbose]
    exact ⟨[], rfl, rfl, rfl, rfl⟩

/-- **The program needs a library**, and nothing is asked about a handle before there is one. -/
theorem run_split (hB : B.Constant) (w : Surroundings) (style : Style) (a : Arguments)
    (s : B.State) :
    ((∀ path ∈ a.candidates w, w.loader.load path ≠ .ok ()) ∧ ∃ f es,
        (run w style a : Stage B Unit).run s = ⟨.error f, s, es⟩ ∧ dealings es = []) ∨
      (∃ path ∈ a.candidates w, w.loader.load path = .ok ()) ∧ ∃ es,
        (run w style a : Stage B Unit).run s = ((serving style a : Stage B Unit).run s).behind es ∧
        dealings es = [] ∧ linesOf es = [] ∧ infosOf es = greeting (B.answer s .version).1 a := by
  obtain ⟨c, es, hlibrary, hresult, hdealings, hsilent⟩ := a.run_library (B := B) w s
  obtain ⟨es', hgreet, hdealings', hlines', hinfos'⟩ := greet_spec hB.still a s
  have hrun := run_eq w style a s
  rw [hlibrary] at hrun
  cases hvalue : c.result with
  | error err =>
    simp only [hvalue] at hrun
    refine Or.inl ⟨fun path hpath hload => ?_, _, es, hrun, hdealings⟩
    have hok := hresult.mpr ⟨path, hpath, hload⟩
    rw [hvalue] at hok
    cases hok
  | ok u =>
    simp only [hvalue, hgreet] at hrun
    obtain ⟨hlines, hinfos⟩ := silent_nil hsilent
    refine Or.inr ⟨hresult.mp hvalue, es ++ es', hrun, ?_, ?_, ?_⟩
    · rw [dealings_append, hdealings, hdealings']
      rfl
    · rw [linesOf_append, hlines, hlines']
      rfl
    · rw [infosOf_append, hinfos, hinfos']
      rfl

theorem run_readInput {text : String} {code : List UInt8} (hread : readCode text = .ok code)
    (s : B.State) : (readInput text : Stage B (List UInt8)).run s = ⟨.ok code, s, []⟩ := by
  rw [readInput, hread]
  rfl

/-- Machine code that cannot be read ends the program. -/
theorem run_readInput_of_error {text : String} {err : CodeError} (hread : readCode text = .error err)
    (s : B.State) : ∃ f, (readInput text : Stage B (List UInt8)).run s = ⟨.error f, s, []⟩ := by
  rw [readInput, hread]
  cases err with
  | empty => exact ⟨_, rfl⟩
  | undecoded e => exact ⟨_, rfl⟩

def opening (a : Arguments) (arch : Arch) : Stage B Engine :=
  Stage.during ("Failed to open " ++ arch.name ++ " engine (mode " ++
    (combineModes arch a.flags).text ++ ")") (Engine.openWith arch (combineModes arch a.flags))

/-- Machine code that can be read goes to an engine that is opened for it, and closed after it. -/
theorem run_disassemble (style : Style) (a : Arguments) (arch : Arch) {text : String}
    {code : List UInt8} (hread : readCode text = .ok code) (s : B.State) :
    (disassemble style a arch text : Stage B Unit).run s =
      (opening a arch >>= fun e => closing e (useEngine style a code e)).run s :=
  Stage.run_after (run_readInput hread s)

/-- An engine that was opened is used and closed. -/
theorem conduct_of_closing (hB : B.Constant) {w : Surroundings} {v : Version} (style : Style)
    {a : Arguments} {arch : Arch} {mode : Mode} {code : List UInt8}
    (hadmitted : Admitted w v a arch mode code) {e : Engine} (he : e.detail = false) (s : B.State) :
    let out := (closing e (useEngine style a code e) : Stage B Unit).run s
    Conduct w v e.diet a out.value
      (.call (.openEngine arch mode) ((0 : Status), e.handle) :: dealings out.events) := by
  intro out
  obtain ⟨hdealings, -, -, hclosed⟩ :=
    closing_spec hB.words e (useEngine style a code e : Stage B Unit) s
  rw [hdealings]
  exact .attended hadmitted (attendance_of_useEngine hB style a code he s) hclosed

/-- What is missing where machine code is refused: the code cannot be read, the version is another
than the expected one, or the architecture does not take the mode. -/
theorem Conduct.refused_of_task {w : Surroundings} {v : Version} {diet : Bool} {a : Arguments}
    {arch : Arch} {text : String} (htask : a.task = .disassemble arch text)
    (hno : ∀ code, readCode text = .ok code → v.matchesExpected = true →
      (combineModes arch a.flags).supportedBy arch = true → False) (f : Failure) :
    Conduct w v diet a (.error f) [] := by
  refine .refused (fun arch' mode code hadmitted => ?_) (fun hinfo => ?_) f
  · obtain ⟨text', htask', hread⟩ := hadmitted.task
    rw [htask] at htask'
    cases htask'
    have hmode := hadmitted.takes.supportedBy
    rw [hadmitted.mode_eq] at hmode
    exact hno code hread (Version.matchesExpected_iff.mpr hadmitted.version) hmode
  · rw [htask] at hinfo
    cases hinfo

/-- **Disassembling**, once there is a library. -/
theorem conduct_of_disassemble (hB : B.Constant) {w : Surroundings} (style : Style)
    {a : Arguments} {arch : Arch} {text : String}
    (hlibrary : ∃ path ∈ a.candidates w, w.loader.load path = .ok ())
    (htask : a.task = .disassemble arch text) (s : B.State) :
    let out := (disassemble style a arch text : Stage B Unit).run s
    Conduct w (B.answer s .version).1 (B.diet s) a out.value (dealings out.events) := by
  intro out
  cases hread : readCode text with
  | error err =>
    obtain ⟨f, hinput⟩ := run_readInput_of_error hread s
    have hout : out = ⟨.error f, s, []⟩ := Stage.run_failed hinput
    rw [hout]
    refine .refused_of_task htask (fun code hcode => ?_) f
    rw [hread] at hcode
    cases hcode
  | ok code =>
    have hadmission := Engine.openWith_admission (B := B) arch (combineModes arch a.flags) s
    have hdiet : ∀ e, ((Engine.openWith arch (combineModes arch a.flags) :
        Attempt B Engine).run s).value = .ok e → e.diet = B.diet s :=
      fun e => Engine.diet_openWith hB.diet
    have hopening : (opening a arch : Stage B Engine).run s = _ := Stage.run_during _ _ s
    have hout : out = _ := run_disassemble style a arch hread s
    rw [hout]
    generalize (Engine.openWith arch (combineModes arch a.flags) : Attempt B Engine).run s = o
      at hadmission hdiet hopening
    obtain ⟨value, s₁, es⟩ := o
    have hadmitted : (B.answer s .version).1.matchesExpected = true →
        (combineModes arch a.flags).supportedBy arch = true →
          Admitted w (B.answer s .version).1 a arch (combineModes arch a.flags) code :=
      fun hv hmode => ⟨hlibrary, ⟨text, htask, hread⟩, rfl, Version.matchesExpected_iff.mp hv,
        Mode.takes_of_supportedBy hmode⟩
    generalize (B.answer s .version).1 = v at hadmission hadmitted ⊢
    cases hadmission with
    | @mismatch m es hv hes =>
      have hnone : dealings (.call .version v :: es) = [] := hes
      rw [Stage.run_failed hopening, hnone]
      refine .refused_of_task htask (fun code' _ hexpected => ?_) _
      rw [hv] at hexpected
      cases hexpected
    | @unfit m es hv hmode hes =>
      have hnone : dealings (.call .version v :: es) = [] := hes
      rw [Stage.run_failed hopening, hnone]
      refine .refused_of_task htask (fun code' _ _ htakes => ?_) _
      rw [hmode] at htakes
      cases htakes
    | @failed err status h es hv hmode hstatus hes =>
      have hone : dealings (.call .version v :: .call (.openEngine arch
          (combineModes arch a.flags)) (status, h) :: es) =
            [.call (.openEngine arch (combineModes arch a.flags)) (status, h)] := by
        simp [hes]
      rw [Stage.run_failed hopening, hone]
      exact .unopened (hadmitted hv hmode) hstatus h _
    | @opened h diet es hv hmode hes =>
      have hone : dealings (.call .version v :: .call (.openEngine arch
          (combineModes arch a.flags)) (0, h) :: .call (.support 0x10000) diet :: es) =
            [.call (.openEngine arch (combineModes arch a.flags)) (0, h)] := by
        simp [hes]
      rw [Stage.run_after hopening, dealings_behind, hone, ← hdiet _ rfl]
      exact conduct_of_closing hB style (hadmitted hv hmode) rfl s₁

/-- **The conduct of the program**, whatever it is asked for and whatever the engine does. -/
theorem conduct_of_run (hB : B.Constant) (w : Surroundings) (style : Style) (a : Arguments)
    (s : B.State) :
    let out := (run w style a : Stage B Unit).run s
    Conduct w (B.answer s .version).1 (B.diet s) a out.value (dealings out.events) := by
  intro out
  have hout : out = (run w style a : Stage B Unit).run s := rfl
  rcases run_split hB w style a s with ⟨hnone, f, es, hrun, hdealings⟩ |
    ⟨hlibrary, es, hrun, hdealings, -, -⟩
  · rw [hout, hrun, hdealings]
    refine .refused (fun arch mode code hadmitted => ?_) (fun _ => hnone) f
    obtain ⟨path, hpath, hload⟩ := hadmitted.library
    exact hnone path hpath hload
  · rw [hout, hrun, dealings_behind, hdealings, List.nil_append]
    show Conduct _ _ _ _ ((serving style a : Stage B Unit).run s).value _
    unfold serving
    cases htask : a.task with
    | info =>
      have hidle := Dialogue.idle_describeBuild (B := B) s
      have hdescribe : (Stage.of Dialogue.describeBuild : Stage B String).run s =
          ⟨.ok _, _, _⟩ := Stage.run_of _ _
      simp only []
      rw [Stage.run_after hdescribe, dealings_behind, hidle]
      exact .described hlibrary htask
    | disassemble arch text => exact conduct_of_disassemble hB style hlibrary htask s

/-! ### What the conduct says -/

/-- Every status among events is zero, and detail that was asked for was there. -/
structure Smooth (detail diet : Bool) (es : List Event) : Prop where
  statuses : ∀ status ∈ statusesOf es, status = 0
  details : detail = true → diet = false → ∀ d ∈ es.filterMap Event.decoded?,
    ∀ n ∈ d.entries, n.detail.isSome

theorem smooth_append {detail diet : Bool} {es es' : List Event} :
    Smooth detail diet (es ++ es') ↔ Smooth detail diet es ∧ Smooth detail diet es' := by
  constructor
  · rintro ⟨hstatuses, hdetails⟩
    rw [statusesOf_append, List.forall_mem_append] at hstatuses
    simp only [List.filterMap_append, List.forall_mem_append] at hdetails
    exact ⟨⟨hstatuses.1, fun h h' => (hdetails h h').1⟩, ⟨hstatuses.2, fun h h' => (hdetails h h').2⟩⟩
  · rintro ⟨⟨hstatuses, hdetails⟩, ⟨hstatuses', hdetails'⟩⟩
    refine ⟨?_, fun h h' => ?_⟩
    · rw [statusesOf_append]
      exact List.forall_mem_append.mpr ⟨hstatuses, hstatuses'⟩
    · rw [List.filterMap_append]
      exact List.forall_mem_append.mpr ⟨hdetails h h', hdetails' h h'⟩

/-- Events that decode nothing are smooth if they bring back no other status than zero. -/
theorem smooth_of_forall {detail diet : Bool} {es : List Event}
    (h : ∀ e ∈ es, e.decoded? = none ∧ ∀ status, e.status? = some status → status = 0) :
    Smooth detail diet es := by
  refine ⟨fun status hmem => ?_, fun _ _ d hd => ?_⟩
  · obtain ⟨e, he, hstatus⟩ := List.mem_filterMap.mp hmem
    exact (h e he).2 status hstatus
  · obtain ⟨e, he, hdecoded⟩ := List.mem_filterMap.mp hd
    rw [(h e he).1] at hdecoded
    cases hdecoded

variable {h : Handle} {a : Arguments} {code : List UInt8} {diet : Bool} {es : List Event}
  {r : Except Failure Unit}

/-- Decoding and printing succeed exactly if they are smooth. -/
theorem Showing.ok_iff (hes : Showing h a code diet es r) :
    r = .ok () ↔ Smooth a.detail diet es := by
  cases hes with
  | @undecoded d status hcount hstatus m =>
    refine ⟨fun heq => (nomatch heq), fun hsmooth => ?_⟩
    exact absurd (hsmooth.statuses status List.mem_cons_self) hstatus
  | @decoded d es names r hrelease hempty hnames hresult =>
    have hreleased : Smooth a.detail diet es := by
      refine smooth_of_forall fun e he => ?_
      cases hrelease with
      | empty status hcount =>
        rw [List.mem_singleton.mp he]
        refine ⟨rfl, fun status' hstatus => ?_⟩
        rw [← Option.some.inj hstatus]
        exact hempty status List.mem_cons_self
      | null hcount harray => cases he
      | freed a hcount harray =>
        rw [List.mem_singleton.mp he]
        exact ⟨rfl, fun status hstatus => nomatch hstatus⟩
    have hasked : Smooth a.detail diet names := by
      refine smooth_of_forall fun e he => ?_
      obtain ⟨-, -, id, name, rfl⟩ := hnames e he
      exact ⟨rfl, fun status hstatus => nomatch hstatus⟩
    have hrest := smooth_append.mpr ⟨hreleased, hasked⟩
    rw [hresult]
    constructor
    · intro hdetails
      refine ⟨hrest.statuses, fun hdetail hdiet => ?_⟩
      exact List.forall_mem_cons.mpr ⟨hdetails hdetail hdiet, hrest.details hdetail hdiet⟩
    · exact fun hsmooth hdetail hdiet => hsmooth.details hdetail hdiet d List.mem_cons_self

/-- So do all settings and what follows them. -/
theorem Attendance.ok_iff {settings : List (String × Setting)}
    (hes : Attendance h (Showing h a code diet) settings es r) :
    r = .ok () ↔ Smooth a.detail diet es := by
  induction hes with
  | @rejected what x settings status hstatus m =>
    refine ⟨fun heq => (nomatch heq), fun hsmooth => ?_⟩
    exact absurd (hsmooth.statuses status List.mem_cons_self) hstatus
  | @accepted what x settings es r hrest ih =>
    have haccepted : Smooth a.detail diet [.call (.option h x) (0 : Status)] :=
      smooth_of_forall (List.forall_mem_singleton.mpr
        ⟨rfl, fun status hstatus => (Option.some.inj hstatus).symm⟩)
    rw [ih, show ∀ e, e :: es = [e] ++ es from fun e => rfl, smooth_append]
    exact ⟨fun hsmooth => ⟨haccepted, hsmooth⟩, And.right⟩
  | ready hes => exact hes.ok_iff

/-- A use that is closed is a success if it was one and the closing went well. -/
theorem Closed.ok_iff {result : Except Failure Unit} {status : Status}
    (hclosed : Closed r status result) : result = .ok () ↔ r = .ok () ∧ status = 0 := by
  cases hclosed with
  | failed f status => simp
  | clean => simp
  | unclosed hstatus m => simp [hstatus]

variable {w : Surroundings} {v : Version} {result : Except Failure Unit}

/-- **The program succeeds** exactly if it has only to describe the engine, or if it was let through to
an engine and everything went smoothly from there on. -/
theorem Conduct.ok_iff (hes : Conduct w v diet a result es) : result = .ok () ↔
    (∃ path ∈ a.candidates w, w.loader.load path = .ok ()) ∧
      (a.task = .info ∨
        (∃ arch mode code, Admitted w v a arch mode code) ∧ Smooth a.detail diet es) := by
  cases hes with
  | described hlibrary htask => exact ⟨fun _ => ⟨hlibrary, Or.inl htask⟩, fun _ => rfl⟩
  | refused hno htask f =>
    refine ⟨fun heq => (nomatch heq), ?_⟩
    rintro ⟨⟨path, hpath, hload⟩, hinfo | ⟨⟨arch, mode, code, hadmitted⟩, -⟩⟩
    · exact absurd hload (htask hinfo path hpath)
    · exact absurd hadmitted (hno arch mode code)
  | @unopened arch mode code hadmitted status hstatus k f =>
    refine ⟨fun heq => (nomatch heq), ?_⟩
    rintro ⟨-, hinfo | ⟨-, hsmooth⟩⟩
    · obtain ⟨text, htask, -⟩ := hadmitted.task
      rw [hinfo] at htask
      cases htask
    · exact absurd (hsmooth.statuses status List.mem_cons_self) hstatus
  | @attended arch mode code hadmitted k es r result status hes hclosed =>
    have hinfo : a.task ≠ .info := by
      obtain ⟨text, htask, -⟩ := hadmitted.task
      rw [htask]
      exact fun heq => nomatch heq
    have hopened : Smooth a.detail diet [.call (.openEngine arch mode) ((0 : Status), k)] :=
      smooth_of_forall (List.forall_mem_singleton.mpr
        ⟨rfl, fun status hstatus => (Option.some.inj hstatus).symm⟩)
    have hclose : Smooth a.detail diet [.call (.close k) status] ↔ status = 0 := by
      refine ⟨fun hsmooth => hsmooth.statuses status List.mem_cons_self, fun hzero => ?_⟩
      exact smooth_of_forall (List.forall_mem_singleton.mpr
        ⟨rfl, fun status' hstatus => (Option.some.inj hstatus).symm.trans hzero⟩)
    rw [hclosed.ok_iff, hes.ok_iff, show ∀ e, e :: (es ++ [.call (.close k) status]) =
      [e] ++ (es ++ [.call (.close k) status]) from fun e => rfl, smooth_append, smooth_append, hclose]
    exact ⟨fun h => ⟨hadmitted.library, Or.inr ⟨⟨arch, mode, code, hadmitted⟩, hopened, h⟩⟩,
      fun h => (h.2.resolve_left hinfo).2.2⟩

theorem Showing.noOpenings (hes : Showing h a code diet es r) : NoOpenings es := by
  cases hes with
  | undecoded hcount hstatus m =>
    exact List.forall_mem_cons.mpr ⟨rfl, List.forall_mem_singleton.mpr rfl⟩
  | @decoded d es names r hrelease hempty hnames hresult =>
    have hdecoding : Engine.Decoding h code a.address a.count (_ :: es) := .mk d hrelease
    obtain ⟨hdecode, hreleased⟩ := List.forall_mem_cons.mp hdecoding.noOpenings
    refine List.forall_mem_cons.mpr
      ⟨hdecode, List.forall_mem_append.mpr ⟨hreleased, fun e he => ?_⟩⟩
    obtain ⟨-, -, id, name, rfl⟩ := hnames e he
    rfl

theorem Attendance.noOpenings {settings : List (String × Setting)}
    (hes : Attendance h (Showing h a code diet) settings es r) : NoOpenings es := by
  induction hes with
  | rejected hstatus m => exact List.forall_mem_singleton.mpr rfl
  | accepted hrest ih => exact List.forall_mem_cons.mpr ⟨rfl, ih⟩
  | ready hes => exact hes.noOpenings

/-- **The program asks for at most one engine.** -/
theorem Conduct.asks_once (hes : Conduct w v diet a result es) :
    (es.filterMap Event.asksOpen?).length ≤ 1 := by
  cases hes with
  | described hlibrary htask => exact Nat.zero_le 1
  | refused hno htask f => exact Nat.zero_le 1
  | unopened hadmitted hstatus k f => exact Nat.le_refl 1
  | @attended arch mode code hadmitted k es r result status hes hclosed =>
    have hnone : (es ++ [Event.call (.close k) status]).filterMap Event.asksOpen? = [] :=
      List.filterMap_eq_nil_iff.mpr
        (List.forall_mem_append.mpr ⟨hes.noOpenings, List.forall_mem_singleton.mpr rfl⟩)
    have hone : ((arch, mode) ::
        (es ++ [Event.call (.close k) status]).filterMap Event.asksOpen?).length ≤ 1 := by
      rw [hnone]
      exact Nat.le_refl 1
    exact hone

/-- **The program attends to its engine.**  An argument list that is refused, or that asks for help or
for the version, leads to nothing else.  Any other is carried out as `Conduct` says: without a library,
with machine code that cannot be read, with another version than the expected one, or with a mode that
the architecture does not take, nothing is asked about a handle, and neither is it to describe the
engine.  Otherwise one engine is asked for.  If it opens it is given the settings that are asked for,
each after the last was accepted, it decodes once, what it hands out is released before it is asked for
names, and it is asked for names only for detail, and only if it is not diet; and whatever fails on the
way, the last call is the one that closes it.  The program succeeds exactly if no status was other than
zero and no detail that was asked for was missing; a failure to close is reported only where nothing
failed before. -/
theorem engine_attended (w : Surroundings) (style : Style) (args : List String) (s : Script) :
    match execute (B := Script.backend) w style args s with
    | .refused e => parseArguments args = .error e
    | .version => parseArguments args = .ok .version
    | .help => parseArguments args = .ok .help
    | .ran verbosity result events =>
      ∃ a, parseArguments args = .ok (.run a) ∧ verbosity = a.verbosity ∧
        Conduct w s.version (Script.backend.diet s) a result (dealings events) ∧
        (events.filterMap Event.asksOpen?).length ≤ 1 ∧
        (result = .ok () ↔ (∃ path ∈ a.candidates w, w.loader.load path = .ok ()) ∧
          (a.task = .info ∨ (∃ arch mode code, Admitted w s.version a arch mode code) ∧
            Smooth a.detail (Script.backend.diet s) (dealings events))) := by
  unfold execute
  cases parseArguments args with
  | error e => rfl
  | ok request =>
    cases request with
    | version => rfl
    | help => rfl
    | run a =>
      have hconduct := conduct_of_run Script.constant_backend w style a s
      refine ⟨a, rfl, rfl, hconduct, ?_, hconduct.ok_iff⟩
      rw [← filterMap_dealings (fun _ he => Event.asksOpen?_of_not_deals he)]
      exact hconduct.asks_once

end Disassembly.CommandLine
