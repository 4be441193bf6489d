import Disassembly.Proofs.CommandLine.Attendance
import Disassembly.Proofs.Session.Shortcuts

/-!
# What asking for detail adds

An engine that opens, takes its settings and decodes is followed through the whole program, once with
detail and once without.

* `Backend.Accepts` — an engine accepts settings one after another;
* `run_of_accepts` — what the program prints is the sheet of the decoded instructions, and what comes
  of it is what comes of the sheet and of closing the engine;
* `Script.Obliging`, `run_of_obliging` — the same for a script that does not get in the way;
* `parseArguments_detail` — an argument list that does not ask for detail can do so, and asks for the
  same otherwise;
* `sheet_plain`, `sheet_complete`, `sheet_stops` — the sheets of the same records without detail, with
  detail, and up to the first record that has none.
-/

namespace Disassembly

variable {B : Backend}

/-! ### An engine that does as it is told -/

/-- An engine accepts settings one after another, which takes it from one state to another. -/
inductive Backend.Accepts (B : Backend) (h : Handle) :
    List (String × Setting) → B.State → B.State → Prop where
  | done (s : B.State) : B.Accepts h [] s s
  | next {what : String} {x : Setting} {settings : List (String × Setting)} {s s' : B.State}
    (hstatus : (B.answer s (.option h x)).1 = (0 : Status))
    (hrest : B.Accepts h settings (B.answer s (.option h x)).2 s') :
    B.Accepts h ((what, x) :: settings) s s'

namespace Engine

variable {s : B.State}

theorem run_openWith (hB : B.Still) {arch : Arch} {mode : Mode} {h : Handle}
    (hversion : (B.answer s .version).1.matchesExpected = true)
    (hmode : mode.supportedBy arch = true)
    (hopen : (B.answer s (.openEngine arch mode)).1 = ((0 : Status), h)) :
    let s₁ := (B.answer s (.openEngine arch mode)).2
    ∃ es, (openWith arch mode : Attempt B Engine).run s =
      ⟨.ok ⟨h, arch, B.diet s₁, mode, arch.defaultDialect, false⟩, s₁, es⟩ := by
  intro s₁
  have hasked : B.answer s (.openEngine arch mode) = (((0 : Status), h), s₁) := Prod.ext hopen rfl
  have hdiet : B.answer s₁ (.support Capability.diet.raw) = (B.diet s₁, s₁) :=
    Prod.ext rfl (hB s₁ _ (B.answer s₁ (.support Capability.diet.raw)).1 rfl)
  rw [openWith, Attempt.run_bind, run_checkVersion hversion, if_pos hmode,
    hB s .version (B.answer s .version).1 rfl]
  simp only [Attempt.run_bind, Attempt.ask_eq, Attempt.run_of, Dialogue.run_ask, hasked,
    Attempt.run_check_zero, Dialogue.supports, hdiet, Attempt.run_log, Attempt.run_pure]
  exact ⟨_, rfl⟩

theorem run_configure {e : Engine} {x : Setting} (hfits : x.fits e.arch = true)
    (hstatus : (B.answer s (.option e.handle x)).1 = (0 : Status)) :
    ∃ es, (e.configure x : Attempt B Engine).run s =
      ⟨.ok (e.accept x), (B.answer s (.option e.handle x)).2, es⟩ := by
  have hcommit : ∀ text : String, ∃ es, (do
      e.option x
      Attempt.log .debug text
      return e.accept x : Attempt B Engine).run s =
        ⟨.ok (e.accept x), (B.answer s (.option e.handle x)).2, es⟩ := by
    intro text
    simp [option, hstatus, Attempt.run_check_zero, Except.map]
  cases x with
  | dialect t => exact hcommit _
  | detail on => exact hcommit _
  | mode m =>
    have hmode : m.supportedBy e.arch = true := hfits
    simp only [configure, setMode, hmode, if_true]
    exact hcommit _

/-- An engine that decodes, or says that there is nothing to decode. -/
theorem run_disasm_of_clear {e : Engine} {code : List UInt8} {address : UInt64} {count : Nat}
    {d : Decoded} {s₁ : B.State} (hd : B.answer s (.disasm e.handle code address count) = (d, s₁))
    (hclear : d.count = 0 → (B.answer s₁ (.errno e.handle)).1 = (0 : Status)) :
    ∃ s₂ es, (e.disasm code address count : Attempt B (List Insn)).run s =
        ⟨.ok (d.entries.map (Insn.ofNative e.arch e.diet e.detail)), s₂, es⟩ ∧
      B.Settles e.handle s₁ s₂ := by
  obtain ⟨s₂, es, hrun, hsettles⟩ := run_decodeNative_of_clear hd hclear
  refine ⟨s₂, es, ?_, hsettles⟩
  rw [run_disasm, hrun]
  rfl

end Engine

namespace CommandLine

/-- Settings that an engine accepts are made, and nothing is printed. -/
theorem run_applying {e : Engine} {settings : List (String × Setting)} {s s' : B.State}
    (hfits : ∀ p ∈ settings, p.2.fits e.arch = true) (haccepts : B.Accepts e.handle settings s s') :
    ∃ es, (applying e settings : Stage B Engine).run s = ⟨.ok (accepting e settings), s', es⟩ ∧
      linesOf es = [] ∧ infosOf es = [] := by
  induction settings generalizing e s with
  | nil =>
    cases haccepts
    exact ⟨[], rfl, rfl, rfl⟩
  | cons p settings ih =>
    obtain ⟨what, x⟩ := p
    obtain ⟨hx, hrest⟩ := List.forall_mem_cons.mp hfits
    cases haccepts with
    | next hstatus haccepts =>
      obtain ⟨hhandle, -, harch⟩ := accepting_eq e [(what, x)]
      obtain ⟨es, hrun⟩ := Engine.run_configure hx hstatus
      obtain ⟨hlines, hinfos⟩ := silent_nil (e.quiet_configure (B := B) x s)
      rw [hrun] at hlines hinfos
      have haccepts' : B.Accepts (e.accept x).handle settings
          (B.answer s (.option e.handle x)).2 s' := by
        rw [show (e.accept x).handle = e.handle from hhandle]
        exact haccepts
      obtain ⟨es', hrun', hlines', hinfos'⟩ :=
        ih (fun q hq => harch.symm ▸ hrest q hq) haccepts'
      have hduring : (Stage.during what (e.configure x) : Stage B Engine).run s =
          ⟨.ok (e.accept x), (B.answer s (.option e.handle x)).2, es⟩ := by
        rw [Stage.run_during, hrun]
        rfl
      refine ⟨es ++ es', ?_, ?_, ?_⟩
      · rw [applying, Stage.run_after hduring, hrun']
        rfl
      · rw [linesOf_append, hlines, hlines']
        rfl
      · rw [infosOf_append, hinfos, hinfos']
        rfl

/-- **Using an engine** that takes its settings and decodes prints the sheet of the instructions. -/
theorem useEngine_of_accepts (hB : B.Constant) (style : Style) {a : Arguments} {code : List UInt8}
    {e : Engine} (he : e.detail = false) {d : Decoded} {s s₁ s₂ : B.State}
    (haccepts : B.Accepts e.handle a.settings s s₁)
    (hd : B.answer s₁ (.disasm e.handle code a.address a.count) = (d, s₂))
    (hclear : d.count = 0 → (B.answer s₂ (.errno e.handle)).1 = (0 : Status)) :
    let out := (useEngine style a code e : Stage B Unit).run s
    let insns := d.entries.map (Insn.ofNative e.arch e.diet a.detail)
    let lines := sheet style (B.nameOf out.state e.handle) a.detail e.diet insns
    B.Settles e.handle s₂ out.state ∧ linesOf out.events = lines.1 ∧
      infosOf out.events = (if lines.2.isOk then trailing code insns else []) ∧
      out.value = lines.2.mapError fun c =>
        ⟨(Error.engine c (B.phrase out.state c)).message, none⟩ := by
  intro out insns
  obtain ⟨hhandle, hdiet, harch⟩ := accepting_eq e a.settings
  have hdetail := detail_accepting a he
  generalize hset : accepting e a.settings = e' at hhandle hdiet harch hdetail
  obtain ⟨es, hrun, hlines, hinfos⟩ :=
    run_applying (fun p hp => fits_settings hp e.arch) haccepts
  rw [hset] at hrun
  rw [← hhandle] at hd hclear
  obtain ⟨s₃, es', hdisasm, hsettles⟩ := Engine.run_disasm_of_clear hd hclear
  obtain ⟨hlines', hinfos'⟩ :=
    silent_nil (e'.quiet_disasm (B := B) code a.address a.count s₁)
  rw [hdisasm] at hlines' hinfos'
  rw [harch, hdiet, hdetail] at hdisasm
  have hdecoded : (Stage.during "Disassembly failed" (e'.disasm code a.address a.count) :
      Stage B (List Insn)).run s₁ = ⟨.ok insns, s₃, es'⟩ := by
    rw [Stage.run_during, hdisasm]
    rfl
  obtain ⟨hvalue, hstate, hprinted, hlogged, -⟩ :=
    presenting_spec hB style a code e' insns s₃
  have hout : out =
      (((presenting style a code e' insns : Stage B Unit).run s₃).behind es').behind es := by
    have heq : out = (applying e a.settings >>= showing style a code).run s :=
      congrArg (fun x : Stage B Unit => x.run s) (useEngine_eq style a code e)
    rw [heq, Stage.run_after hrun, showing, Stage.run_after hdecoded]
  have hend : out.state = s₃ := by
    rw [hout]
    exact hstate
  rw [hhandle, hdiet] at hvalue hprinted hlogged
  rw [hhandle] at hsettles
  rw [hend]
  refine ⟨hsettles, ?_, ?_, ?_⟩
  · rw [hout, linesOf_behind, linesOf_behind, hlines, hlines', hprinted]
    rfl
  · rw [hout, infosOf_behind, infosOf_behind, hinfos, hinfos', hlogged]
    rfl
  · rw [hout]
    exact hvalue

/-- **What the program shows.**  If the engine opens, takes its settings and decodes, the program
prints the sheet of the decoded instructions, and it comes to what the sheet comes to, with the engine
closed after it. -/
theorem run_of_accepts (hB : B.Constant) {w : Surroundings} (style : Style) {a : Arguments}
    {arch : Arch} {mode : Mode} {code : List UInt8} {h : Handle} {d : Decoded} {s s₁ s₂ : B.State}
    (hadmitted : Admitted w (B.answer s .version).1 a arch mode code)
    (hopen : (B.answer s (.openEngine arch mode)).1 = ((0 : Status), h))
    (haccepts : B.Accepts h a.settings (B.answer s (.openEngine arch mode)).2 s₁)
    (hd : B.answer s₁ (.disasm h code a.address a.count) = (d, s₂))
    (hclear : d.count = 0 → (B.answer s₂ (.errno h)).1 = (0 : Status)) :
    let out := (run w style a : Stage B Unit).run s
    let insns := d.entries.map (Insn.ofNative arch (B.diet s) a.detail)
    ∃ s₃, B.Settles h s₂ s₃ ∧
      let lines := sheet style (B.nameOf s₃ h) a.detail (B.diet s) insns
      linesOf out.events = lines.1 ∧
        infosOf out.events = greeting (B.answer s .version).1 a ++
          (if lines.2.isOk then trailing code insns else []) ∧
        Closed (lines.2.mapError fun c => ⟨(Error.engine c (B.phrase s₃ c)).message, none⟩)
          (B.answer s₃ (.close h)).1 out.value := by
  intro out insns
  obtain ⟨text, htask, hread⟩ := hadmitted.task
  obtain rfl := hadmitted.mode_eq
  have hout : out = (run w style a : Stage B Unit).run s := rfl
  rcases run_split hB w style a s with ⟨hnone, -⟩ | ⟨-, es₀, hsplit, -, hlines₀, hinfos₀⟩
  · obtain ⟨path, hpath, hload⟩ := hadmitted.library
    exact absurd hload (hnone path hpath)
  -- the engine, as it is opened
  obtain ⟨es₁, hopened⟩ := Engine.run_openWith hB.still
    (Version.matchesExpected_iff.mpr hadmitted.version) hadmitted.takes.supportedBy hopen
  obtain ⟨hlines₁, hinfos₁⟩ :=
    silent_nil (Engine.quiet_openWith (B := B) arch (combineModes arch a.flags) s)
  rw [hopened] at hlines₁ hinfos₁
  rw [hB.diet s] at hopened
  generalize he : (⟨h, arch, B.diet s, combineModes arch a.flags, arch.defaultDialect, false⟩ :
    Engine) = e at hopened
  have hhandle : e.handle = h := by rw [← he]
  have harch : e.arch = arch := by rw [← he]
  have hdiet : e.diet = B.diet s := by rw [← he]
  generalize hs₀ : (B.answer s (.openEngine arch (combineModes arch a.flags))).2 = s₀
    at hopened haccepts
  -- its use, and its end
  rw [← hhandle] at haccepts hd hclear
  obtain ⟨hsettles, hlines, hinfos, hvalue⟩ :=
    useEngine_of_accepts hB style (by rw [← he]) haccepts hd hclear
  obtain ⟨-, hlines₂, hinfos₂, hclosed⟩ :=
    closing_spec hB.words e (useEngine style a code e : Stage B Unit) s₀
  have hserving : (serving style a : Stage B Unit).run s =
      ((closing e (useEngine style a code e) : Stage B Unit).run s₀).behind es₁ := by
    have hopening : (opening a arch : Stage B Engine).run s = ⟨.ok e, s₀, es₁⟩ := by
      rw [opening, Stage.run_during, hopened]
      rfl
    rw [serving, htask]
    exact (run_disassemble style a arch hread s).trans (Stage.run_after hopening)
  generalize ((useEngine style a code e : Stage B Unit).run s₀).state = s₃
    at hsettles hlines hinfos hvalue hclosed
  rw [hhandle] at hsettles hclosed
  rw [hhandle, harch, hdiet] at hlines hinfos hvalue
  rw [hvalue] at hclosed
  refine ⟨s₃, hsettles, ?_, ?_, ?_⟩
  · rw [hout, hsplit, hserving, linesOf_behind, linesOf_behind, hlines₀, hlines₁, hlines₂, hlines]
    rfl
  · rw [hout, hsplit, hserving, infosOf_behind, infosOf_behind, hinfos₀, hinfos₁, hinfos₂, hinfos]
    rfl
  · rw [hout, hsplit, hserving]
    exact hclosed

end CommandLine

/-! ### Scripted engines that oblige -/

namespace Script

/-- The script lets an engine open, take a number of settings, and decode. -/
structure Obliging (s : Script) (n : Nat) : Prop where
  opens : next s.openings = 0
  accepts : ∀ status ∈ s.options.take n, status = 0
  decodes : s.decode.1.count = 0 → next s.errnos = 0

theorem Obliging.le {s : Script} {m n : Nat} (hs : s.Obliging n) (hmn : m ≤ n) : s.Obliging m :=
  ⟨hs.opens, fun status hstatus => hs.accepts status (List.take_subset_take_left _ hmn hstatus),
    hs.decodes⟩

/-- Settings are accepted if the statuses that the script has for them say so. -/
theorem accepts_of_take (h : Handle) (settings : List (String × Setting)) (s : Script)
    (hs : ∀ status ∈ s.options.take settings.length, status = 0) :
    Script.backend.Accepts h settings s { s with options := s.options.drop settings.length } := by
  induction settings generalizing s with
  | nil => exact .done (B := Script.backend) s
  | cons p settings ih =>
    have hfirst : next s.options = 0 ∧
        ∀ status ∈ s.options.tail.take settings.length, status = 0 := by
      cases hoptions : s.options with
      | nil => exact ⟨rfl, fun status h => by simp at h⟩
      | cons status options =>
        rw [hoptions, List.length_cons, List.take_succ_cons, List.forall_mem_cons] at hs
        exact hs
    have hrest := ih { s with options := s.options.tail } hfirst.2
    rw [List.length_cons, ← List.drop_tail]
    exact .next (B := Script.backend) hfirst.1 hrest

/-- What a script hands out next hangs on nothing but its decodes and the arrays handed out. -/
theorem decode_congr {s s' : Script} (hdecodes : s'.decodes = s.decodes)
    (harrays : s'.arrays = s.arrays) : s'.decode.1 = s.decode.1 := by
  unfold decode
  rw [hdecodes, harrays]
  split <;> rfl

/-- A decode leaves the other answers of a script as they are. -/
theorem lasting_decode (s : Script) : s.decode.2.regNames = s.regNames ∧
    s.decode.2.messages = s.messages ∧ s.decode.2.closings = s.closings ∧
      s.decode.2.errnos = s.errnos := by
  unfold decode
  split <;> exact ⟨rfl, rfl, rfl, rfl⟩

end Script

namespace CommandLine

/-- **What the program shows with a script that obliges.** -/
theorem run_of_obliging {w : Surroundings} (style : Style) {a : Arguments} {arch : Arch}
    {mode : Mode} {code : List UInt8} {s : Script}
    (hadmitted : Admitted w s.version a arch mode code) (hs : s.Obliging a.settings.length)
    {insns : List Insn} {lines : List String} {r : Except ErrorCode Unit}
    (hinsns : s.decode.1.entries.map (Insn.ofNative arch (Script.backend.diet s) a.detail) = insns)
    (hsheet : sheet style (fun id => (s.regNames.lookup id).map fieldText) a.detail
      (Script.backend.diet s) insns = (lines, r)) :
    let out := (run w style a : Stage Script.backend Unit).run s
    linesOf out.events = lines ∧
      infosOf out.events = greeting s.version a ++ (if r.isOk then trailing code insns else []) ∧
      Closed (r.mapError fun c => ⟨(Error.engine c (Script.backend.phrase s c)).message, none⟩)
        (Script.next s.closings) out.value := by
  -- the script after the engine was opened, and after its settings
  let s₀ : Script := { s with openings := s.openings.tail, opened := s.opened + 1 }
  let s₁ : Script := { s₀ with options := s.options.drop a.settings.length }
  have hanswer : s.answer (.openEngine arch mode) = (((0 : Status), ⟨s.opened + 1⟩), s₀) :=
    if_pos hs.opens
  have hdecode : s₁.decode.1 = s.decode.1 := Script.decode_congr rfl rfl
  obtain ⟨hnames, hmessages, hclosings, herrnos⟩ := s₁.lasting_decode
  have hclear : s.decode.1.count = 0 → Script.next s₁.decode.2.errnos = 0 := by
    rw [herrnos]
    exact hs.decodes
  have haccepts : Script.backend.Accepts ⟨s.opened + 1⟩ a.settings
      (s.answer (.openEngine arch mode)).2 s₁ := by
    rw [hanswer]
    exact Script.accepts_of_take _ _ s₀ hs.accepts
  have hd : Script.backend.answer s₁ (.disasm ⟨s.opened + 1⟩ code a.address a.count) =
      (s.decode.1, s₁.decode.2) := Prod.ext hdecode rfl
  obtain ⟨s₃, hsettles, hlines, hinfos, hclosed⟩ := run_of_accepts (B := Script.backend) (s := s)
    Script.constant_backend style hadmitted (congrArg Prod.fst hanswer) haccepts hd hclear
  have hlast : Script.regNames s₃ = s.regNames ∧ Script.messages s₃ = s.messages ∧
      Script.closings s₃ = s.closings := by
    rcases hsettles with rfl | rfl | ⟨n, k, rfl⟩ <;> exact ⟨hnames, hmessages, hclosings⟩
  have hname : Script.backend.nameOf s₃ ⟨s.opened + 1⟩ =
      fun id => (s.regNames.lookup id).map fieldText :=
    funext fun id => congrArg (fun l => (List.lookup id l).map fieldText) hlast.1
  have hphrase : Script.backend.phrase s₃ = Script.backend.phrase s :=
    funext fun c => congrArg (fun l => wording c.raw
      ((List.lookup c.raw l).getD (nativeMessage c.raw))) hlast.2.1
  have hclosing : (Script.backend.answer s₃ (.close ⟨s.opened + 1⟩)).1 = Script.next s.closings :=
    congrArg Script.next hlast.2.2
  change linesOf _ = (sheet style _ a.detail _ (s.decode.1.entries.map
    (Insn.ofNative arch (Script.backend.diet s) a.detail))).1 at hlines
  rw [hinsns, hname, hsheet] at hlines hinfos
  rw [hinsns, hname, hsheet, hphrase, hclosing] at hclosed
  exact ⟨hlines, hinfos, hclosed⟩

/-! ### Argument lists with detail and without -/

namespace Draft

def detailed (d : Draft) : Draft :=
  { d with detail := true }

/-- A draft with other marks, which are that it asks for detail and how verbose it is. -/
def marked (mark : Bool × Nat → Bool × Nat) (d : Draft) : Draft :=
  { d with
    detail := (mark (d.detail, d.verbosity)).1
    verbosity := (mark (d.detail, d.verbosity)).2 }

/-- Marks make no difference to plain items. -/
theorem takePlain_marked (mark : Bool × Nat → Bool × Nat) (d : Draft) (text : String) :
    (d.marked mark).takePlain text = (d.takePlain text).map (marked mark) := by
  rcases d with ⟨arch, code⟩
  cases arch with
  | none =>
    simp only [takePlain, marked]
    cases Arch.all.find? fun a => a.name == text <;> rfl
  | some a => cases code <;> rfl

/-- Nor to the values of options. -/
theorem takeValue_marked (mark : Bool × Nat → Bool × Nat) (d : Draft) (x : Setter) (text : String) :
    (d.marked mark).takeValue x text = (d.takeValue x text).map (marked mark) := by
  rcases d with ⟨arch, code, flags, address, count, dialect, detail, lib⟩
  cases x with
  | mode =>
    simp only [takeValue, marked]
    cases ModeFlag.all.find? fun f => f.name == text <;> rfl
  | address =>
    simp only [takeValue, marked]
    cases address <;> cases readAddress text <;> rfl
  | count =>
    simp only [takeValue, marked]
    cases count <;> cases Numeral.readUnsigned 10 text.toList <;> rfl
  | dialect =>
    simp only [takeValue, marked]
    cases dialect <;> cases dialectNames.lookup text <;> rfl
  | lib =>
    simp only [takeValue, marked]
    cases lib <;> cases text.isEmpty <;> rfl

/-- An option without a value ends the collection. -/
theorem collect_missing (d : Draft) {x : Setter} {items : List Item}
    (hno : ∀ text rest, items ≠ .plain text :: rest) :
    d.collect (.setter x none :: items) = .error (.missingValue x) := by
  cases items with
  | nil => rfl
  | cons item rest =>
    cases item with
    | plain text => exact absurd rfl (hno text rest)
    | _ => rfl

/-- A collection of arguments that asks for detail, next to another that need not, but comes to the
same otherwise. -/
structure AddsDetail (other this : Except UsageError Request) : Prop where
  detail : ∀ a, this = .ok (.run a) → a.detail = true
  rest : ∀ a, other = .ok (.run a) → a.detail = false → this = .ok (.run { a with detail := true })

/-- Where nothing is to be run there is nothing to compare. -/
theorem AddsDetail.of_no_run {other this : Except UsageError Request}
    (hother : ∀ a, other ≠ .ok (.run a)) (hthis : ∀ a, this ≠ .ok (.run a)) :
    AddsDetail other this :=
  ⟨fun a h => absurd h (hthis a), fun a h => absurd h (hother a)⟩

theorem AddsDetail.of_error (e e' : UsageError) : AddsDetail (.error e) (.error e') :=
  .of_no_run (fun _ h => nomatch h) fun _ h => nomatch h

/-- Items behind one that is taken alike. -/
theorem AddsDetail.bind {x y : Except UsageError Draft} {f : Draft → Except UsageError Request}
    (hxy : y = x.map detailed) (hf : ∀ d, AddsDetail (f d) (f d.detailed)) :
    AddsDetail (x >>= f) (y >>= f) := by
  subst hxy
  cases x with
  | error e => exact .of_error e e
  | ok d => exact hf d

/-- **Asking for detail ahead of other items** makes a difference to the detail alone. -/
theorem collect_detailed (d : Draft) (items : List Item) :
    AddsDetail (d.collect items) (d.detailed.collect items) := by
  induction d, items using collect.induct with
  | case1 d =>
    rcases d with ⟨arch, code, flags, address, count, dialect, detail, lib, info⟩
    constructor <;>
      cases info <;> cases arch <;> cases code <;> simp [collect, finish, detailed]
  | case2 d text r ih =>
    rw [collect, collect]
    exact .bind (takePlain_marked (fun p => (true, p.2)) d text) ih
  | case3 d r hd =>
    rw [collect, collect, if_pos hd]
    exact .of_error _ _
  | case4 d r hd ih =>
    -- the items ask for detail themselves, which cannot be done again
    rw [collect, collect, if_neg hd]
    have hrepeated : d.detailed.detail = true := rfl
    rw [if_pos hrepeated]
    exact ⟨fun _ h => (nomatch h), fun a h ha => absurd (ih.detail a h) (by simp [ha])⟩
  | case5 d r hd =>
    rw [collect, collect, if_pos hd, if_pos (show d.detailed.info = true from hd)]
    exact .of_error _ _
  | case6 d r hd ih =>
    rw [collect, collect, if_neg hd, if_neg (show ¬ d.detailed.info = true from hd)]
    exact ih
  | case7 d r ih => exact ih
  | case8 d r | case9 d r =>
    rw [collect, collect]
    exact .of_no_run (fun _ h => nomatch h) fun _ h => nomatch h
  | case10 d x text r ih | case11 d x text r ih =>
    rw [collect, collect]
    exact .bind (takeValue_marked (fun p => (true, p.2)) d x text) ih
  | case12 d x r hno =>
    rw [collect_missing d hno, collect_missing d.detailed hno]
    exact .of_error _ _
  | case13 d r ih => exact ih
  | case14 d text r =>
    rw [collect, collect]
    exact .of_error _ _

end Draft

/-- **Every argument list can ask for detail**, unless it does already. -/
theorem parseArguments_detail {args : List String} {a : Arguments}
    (h : parseArguments args = .ok (.run a)) (ha : a.detail = false) :
    parseArguments ("--detail" :: args) = .ok (.run { a with detail := true }) :=
  (Draft.collect_detailed {} (Item.ofArguments args)).rest a h ha

/-! ### With detail and without -/

/-- What stands below the line of an instruction: on a diet engine a line that says so, otherwise the
lines of the instruction's own detail. -/
def blockOf (style : Style) (name : UInt32 → Option String) (diet : Bool) (i : Insn) : List String :=
  if diet then [margin ++ style.dimmed "(diet engine: no detail)"]
  else
    match i.detail with
    | .ok d => detailLines style name d
    | .error _ => []

section

variable {style : Style} {name : UInt32 → Option String} {arch : Arch} {diet : Bool} {n : NativeInsn}

/-- A record that was decoded with detail on has a block if the engine is diet or gave it detail. -/
theorem blockLines_of_detail (hn : diet = true ∨ n.detail.isSome = true) :
    let i := Insn.ofNative arch diet true n
    blockLines style name diet i = .ok (blockOf style name diet i) := by
  intro i
  unfold blockLines blockOf
  cases diet with
  | true => rfl
  | false =>
    obtain ⟨b, hb⟩ := Option.isSome_iff_exists.mp (hn.resolve_left Bool.false_ne_true)
    have hdetail : i.detail = .ok (Detail.decode arch b) := by
      simp [i, Insn.ofNative, Insn.detail, hb]
    rw [hdetail]
    rfl

theorem blockLines_of_missing (hn : n.detail = none) :
    blockLines style name false (Insn.ofNative arch false true n) = .error .detailNotRequested := by
  simp [blockLines, Insn.ofNative, Insn.detail, hn, Except.map]

/-- The line of a record does not show whether detail was on. -/
theorem fullLine_ofNative (arch : Arch) (diet detail : Bool) (n : NativeInsn) :
    (Insn.ofNative arch diet detail n).fullLine = (Insn.ofNative arch diet false n).fullLine := rfl

/-- Nor does what records leave of the code. -/
theorem trailing_ofNative (code : List UInt8) (arch : Arch) (diet detail : Bool)
    (records : List NativeInsn) : trailing code (records.map (Insn.ofNative arch diet detail)) =
      trailing code (records.map (Insn.ofNative arch diet false)) := by
  simp only [trailing, List.map_map]
  rfl

/-- What stands in front of the lines of records: nothing, or the placeholder if there are none. -/
def preamble (style : Style) (records : List NativeInsn) : List String :=
  if records.isEmpty then [placeholder style] else []

/-- The sheet of records without detail. -/
theorem sheet_plain (records : List NativeInsn) :
    sheet style name false diet (records.map (Insn.ofNative arch diet false)) =
      (preamble style records ++ records.map fun n => (Insn.ofNative arch diet false n).fullLine,
        .ok ()) := by
  simp [sheet, preamble, Function.comp_def]

/-- The sheet of records that all have a block. -/
theorem sheet_complete {records : List NativeInsn}
    (h : diet = true ∨ ∀ n ∈ records, n.detail.isSome = true) :
    sheet style name true diet (records.map (Insn.ofNative arch diet true)) =
      (preamble style records ++ records.flatMap fun n =>
        (Insn.ofNative arch diet false n).fullLine ::
          blockOf style name diet (Insn.ofNative arch diet true n), .ok ()) := by
  have hblocks : ∀ i ∈ records.map (Insn.ofNative arch diet true),
      blockLines style name diet i = .ok (blockOf style name diet i) :=
    List.forall_mem_map.mpr fun n hn => blockLines_of_detail (h.imp_right fun hall => hall n hn)
  simp [sheet, preamble, printout_complete hblocks, List.flatMap_map, fullLine_ofNative arch diet true]

/-- The sheet of records up to the first without detail. -/
theorem sheet_stops (hdiet : diet = false) {before after : List NativeInsn}
    (hbefore : ∀ m ∈ before, m.detail.isSome = true) (hn : n.detail = none) :
    sheet style name true diet ((before ++ n :: after).map (Insn.ofNative arch diet true)) =
      (before.flatMap (fun m => (Insn.ofNative arch diet false m).fullLine ::
        blockOf style name diet (Insn.ofNative arch diet true m)) ++
          [(Insn.ofNative arch diet false n).fullLine], .error .detailNotRequested) := by
  subst hdiet
  have hblocks : ∀ i ∈ before.map (Insn.ofNative arch false true),
      blockLines style name false i = .ok (blockOf style name false i) :=
    List.forall_mem_map.mpr fun m hm => blockLines_of_detail (Or.inr (hbefore m hm))
  simp [sheet, printout_stops hblocks (blockLines_of_missing hn), List.flatMap_map,
    fullLine_ofNative arch false true]

end

/-- **Asking for detail only inserts lines.**  Take two argument lists that differ in nothing but in
asking for detail, and an engine that opens, takes its settings and decodes.  Without detail the program
prints one line for each record, or the placeholder where there are none, and logs how much of the code
they leave.  With detail it prints the same lines and logs the same, with a block below each line, if the
engine is diet or gives every record its detail.  Otherwise it ends behind the line of the first record
without detail, with the refusal of that detail, and does not log what is left. -/
theorem detail_inserted {w : Surroundings} (style : Style) {plain full : List String}
    {a : Arguments} {arch : Arch} {mode : Mode} {code : List UInt8} {s : Script}
    (hplain : parseArguments plain = .ok (.run { a with detail := false }))
    (hfull : parseArguments full = .ok (.run { a with detail := true }))
    (hadmitted : Admitted w s.version a arch mode code)
    (hs : s.Obliging ({ a with detail := true } : Arguments).settings.length) :
    let diet := Script.backend.diet s
    let records := s.decode.1.entries
    let line := fun n => (Insn.ofNative arch diet false n).fullLine
    let name := fun id => (s.regNames.lookup id).map fieldText
    let block := fun n => blockOf style name diet (Insn.ofNative arch diet true n)
    ∃ result result' events events',
      execute (B := Script.backend) w style plain s = .ran a.verbosity result events ∧
      execute (B := Script.backend) w style full s = .ran a.verbosity result' events' ∧
      (linesOf events = preamble style records ++ records.map line ∧
        infosOf events = greeting s.version a ++
          trailing code (records.map (Insn.ofNative arch diet false)) ∧
        Closed (.ok ()) (Script.next s.closings) result) ∧
      ((diet = true ∨ ∀ n ∈ records, n.detail.isSome = true) →
        linesOf events' = preamble style records ++ records.flatMap (fun n => line n :: block n) ∧
          infosOf events' = infosOf events ∧
          Closed (.ok ()) (Script.next s.closings) result') ∧
      ∀ before n after, records = before ++ n :: after → diet = false →
        (∀ m ∈ before, m.detail.isSome = true) → n.detail = none →
          linesOf events' = before.flatMap (fun m => line m :: block m) ++ [line n] ∧
            infosOf events' = greeting s.version a ∧
            result' = .error ⟨(Error.engine .detailNotRequested
              (Script.backend.phrase s .detailNotRequested)).message, none⟩ := by
  intro diet records line name block
  have hadmitted' : ∀ detail, Admitted w s.version { a with detail := detail } arch mode code :=
    fun _ => ⟨hadmitted.library, hadmitted.task, hadmitted.mode_eq, hadmitted.version,
      hadmitted.takes⟩
  have hfewer : ({ a with detail := false } : Arguments).settings.length ≤
      ({ a with detail := true } : Arguments).settings.length := by
    simp [Arguments.settings]
  let out := (run w style { a with detail := false } : Stage Script.backend Unit).run s
  let out' := (run w style { a with detail := true } : Stage Script.backend Unit).run s
  have hshown := run_of_obliging style (hadmitted' false) (hs.le hfewer) rfl (sheet_plain records)
  refine ⟨out.value, out'.value, out.events, out'.events, ?_, ?_, hshown, fun hall => ?_, ?_⟩
  · unfold execute
    rw [hplain]
  · unfold execute
    rw [hfull]
  · obtain ⟨hlines, hinfos, hclosed⟩ :=
      run_of_obliging style (hadmitted' true) hs rfl (sheet_complete hall)
    refine ⟨hlines, ?_, hclosed⟩
    rw [hinfos, hshown.2.1, trailing_ofNative]
    rfl
  · intro before n after hrecords hdiet hbefore hn
    obtain ⟨hlines, hinfos, hclosed⟩ := run_of_obliging style (hadmitted' true) hs
      (congrArg (List.map _) hrecords) (sheet_stops hdiet hbefore hn)
    exact ⟨hlines, hinfos.trans (List.append_nil _), hclosed.eq_of_error⟩

/-- Two records, the second without detail: the block of the first is put between their lines. -/
theorem detail_inserted_nops :
    let nop : Option Block → NativeInsn := fun b =>
      ⟨1, 16, 1, .replicate 16 0x90, [110, 111, 112], [], b⟩
    let s : Script := { decodes := [.insns [nop (some (.ofBytes [])), nop none] false] }
    let w : Surroundings := ⟨fun _ => .opened fun _ => none, none, none⟩
    let a : Arguments := ⟨.disassemble .x86 "9090", [], 0x1000, 0, none, false, none, 0⟩
    let line := (Insn.ofNative .x86 false false (nop none)).fullLine
    let block := blockOf ⟨false⟩ (fun _ => none) false
      (Insn.ofNative .x86 false true (nop (some (.ofBytes []))))
    parseArguments ["x86", "9090"] = .ok (.run a) ∧
      parseArguments ["--detail", "x86", "9090"] = .ok (.run { a with detail := true }) ∧
      Admitted w s.version a .x86 (combineModes .x86 []) [0x90, 0x90] ∧ s.Obliging 1 ∧
      ∃ result result' events events',
        execute (B := Script.backend) w ⟨false⟩ ["x86", "9090"] s = .ran 0 result events ∧
        execute (B := Script.backend) w ⟨false⟩ ["--detail", "x86", "9090"] s =
          .ran 0 result' events' ∧
        linesOf events = [line, line] ∧ linesOf events' = line :: block ++ [line] := by
  intro nop s w a line block
  have hplain : parseArguments ["x86", "9090"] = .ok (.run a) := rfl
  have hfull : parseArguments ["--detail", "x86", "9090"] = .ok (.run { a with detail := true }) :=
    parseArguments_detail hplain rfl
  have hread : readCode "9090" = .ok [0x90, 0x90] := by decide +kernel
  have hadmitted : Admitted w s.version a .x86 (combineModes .x86 []) [0x90, 0x90] :=
    ⟨⟨_, List.mem_cons_self, rfl⟩, ⟨"9090", rfl, hread⟩, rfl, ⟨rfl, rfl⟩,
      Mode.takes_of_supportedBy rfl⟩
  have hs : s.Obliging 1 := ⟨rfl, fun _ h => (nomatch h), fun _ => rfl⟩
  have hdetail : ∀ m ∈ [nop (some (.ofBytes []))], m.detail.isSome = true :=
    List.forall_mem_singleton.mpr rfl
  obtain ⟨result, result', events, events', hrun, hrun', ⟨hlines, -⟩, -, hstops⟩ :=
    detail_inserted ⟨false⟩ hplain hfull hadmitted hs
  obtain ⟨hlines', -⟩ := hstops [nop (some (.ofBytes []))] (nop none) [] rfl rfl hdetail rfl
  rw [List.flatMap_singleton] at hlines'
  exact ⟨hplain, hfull, hadmitted, hs, result, result', events, events', hrun, hrun', hlines,
    hlines'⟩

end CommandLine

end Disassembly
