import Disassembly.Proofs.CommandLine.Insertion
import Disassembly.Proofs.Session.Indistinct

/-!
# Verbosity

Being verbose is to write more of the log.  It does not change what is done, but for one question: the
version of the engine is asked for where it is to be logged.

* `Stage.Same` — a stage comes to the same from states that no question tells apart;
* `same_serving` — so does all that the program does with a library;
* `run_fixed` — the result of a run, what it prints and what it asks are fixed whatever its verbosity
  is, but for the question that is asked first;
* `Draft.collect_voiced` — an argument list asks for the same without its verbose flags, which are
  counted;
* `verbosity_observes` — two runs that differ in these flags alone.
-/

namespace Disassembly.CommandLine

variable {B : Backend} {α β : Type}

/-! ### Stages from states that no question tells apart -/

namespace Stage

/-- Run from states that no question tells apart, a stage comes to the same. -/
def Same (x : Stage B α) : Prop :=
  Dialogue.Same B.Indistinct Eq x.run

theorem same_pure (a : α) : Same (Pure.pure a : Stage B α) :=
  Dialogue.same_pure _

theorem same_throw (f : Failure) : Same (throw f : Stage B α) :=
  Dialogue.same_pure _

theorem Same.bind {x : Stage B α} {f : α → Stage B β} (hx : Same x) (hf : ∀ a, Same (f a)) :
    Same (x >>= f) := by
  unfold Same
  rw [ExceptT.run_bind]
  refine Dialogue.Same.bind hx fun r => ?_
  cases r with
  | ok a => exact hf a
  | error e => exact Dialogue.same_pure _

theorem same_of {x : Dialogue B α} (hx : Dialogue.Same B.Indistinct Eq x) : Same (of x) :=
  Dialogue.Same.bind hx fun _ => Dialogue.same_pure _

theorem same_print (text : String) : Same (print text : Stage B Unit) :=
  same_of fun _ _ hs => ⟨rfl, hs, .cons rfl .nil⟩

theorem same_attempt {x : Attempt B α} (hx : Attempt.Same B.Indistinct Eq x) :
    Same (attempt x) := by
  refine (same_of hx).bind fun r => ?_
  cases r with
  | ok a => exact same_pure a
  | error e => exact same_throw _

theorem same_during (what : String) {x : Attempt B α} (hx : Attempt.Same B.Indistinct Eq x) :
    Same (during what x) := by
  refine (same_of hx).bind fun r => ?_
  cases r with
  | ok a => exact same_pure a
  | error e => exact same_throw _

end Stage

open Stage

theorem same_registerNames (e : Engine) (ids : List UInt32) :
    Stage.Same (registerNames e ids : Stage B (List String)) := by
  induction ids with
  | nil => exact same_pure _
  | cons id ids ih =>
    exact (same_attempt (e.same_regName id)).bind fun _ => ih.bind fun _ => same_pure _

theorem same_valueText (e : Engine) (x : OperandValue) :
    Stage.Same (valueText e x : Stage B String) := by
  cases x with
  | reg r =>
    refine (same_of (e.same_regName r)).bind fun name => ?_
    split <;> exact same_pure _
  | _ => exact same_pure _

theorem same_printList (heading text : String) (isEmpty : Bool) :
    Stage.Same (printList heading text isEmpty : Stage B Unit) := by
  cases isEmpty with
  | true => exact same_pure _
  | false => exact same_print _

theorem same_printOperands (style : Style) (e : Engine) (os : List Operand) (i : Nat) :
    Stage.Same (printOperands style e i os : Stage B Unit) := by
  induction os generalizing i with
  | nil => exact same_pure _
  | cons o os ih =>
    exact (same_valueText e o.value).bind fun _ => (same_print _).bind fun _ => ih (i + 1)

theorem same_printDetail (style : Style) (e : Engine) (i : Insn) :
    Stage.Same (printDetail style e i : Stage B Unit) := by
  unfold printDetail
  split
  · exact same_print _
  · refine (same_attempt (Record.same_readDetail _)).bind fun p => ?_
    refine (same_registerNames e _).bind fun read => (same_registerNames e _).bind fun written => ?_
    refine (same_printList _ _ _).bind fun _ => (same_printList _ _ _).bind fun _ =>
      (same_printList _ _ _).bind fun _ => (same_printOperands style e _ 0).bind fun _ => ?_
    split
    · exact same_print _
    · exact same_pure _

theorem same_printInsns (style : Style) (e : Engine) (detail : Bool) (insns : List Insn) :
    Stage.Same (printInsns style e detail insns : Stage B Unit) := by
  induction insns with
  | nil => exact same_pure _
  | cons i insns ih =>
    refine (same_print _).bind fun _ => ?_
    cases detail with
    | true => exact (same_printDetail style e i).bind fun _ => ih
    | false => exact ih

theorem same_presenting (style : Style) (a : Arguments) (code : List UInt8) (e : Engine)
    (insns : List Insn) : Stage.Same (presenting style a code e insns : Stage B Unit) := by
  refine .bind ?_ fun _ => ?_
  · unfold printing
    split
    · exact (same_print _).bind fun _ => same_printInsns style e a.detail insns
    · exact same_printInsns style e a.detail insns
  · dsimp only
    split
    · exact same_of (Dialogue.same_log rfl)
    · exact same_pure _

theorem same_applying (e : Engine) (settings : List (String × Setting)) :
    Stage.Same (applying e settings : Stage B Engine) := by
  induction settings generalizing e with
  | nil => exact same_pure _
  | cons p settings ih => exact (same_during p.1 (e.same_configure p.2)).bind fun e => ih e

theorem same_useEngine (style : Style) (a : Arguments) (code : List UInt8) (e : Engine) :
    Stage.Same (useEngine style a code e : Stage B Unit) := by
  rw [useEngine_eq]
  exact (same_applying e a.settings).bind fun e =>
    (same_during _ (e.same_disasm code a.address a.count)).bind fun insns =>
      same_presenting style a code e insns

theorem same_closing (e : Engine) {use : Stage B Unit} (huse : Stage.Same use) :
    Stage.Same (closing e use) := by
  refine (same_of huse).bind fun r => ?_
  cases r with
  | ok u => exact same_during _ (e.same_close B.veiled_indistinct)
  | error f => exact (same_of (e.same_drop B.veiled_indistinct)).bind fun _ => same_throw f

theorem same_readInput (text : String) :
    Stage.Same (readInput text : Stage B (List UInt8)) := by
  unfold readInput
  split
  · exact same_pure _
  · exact same_throw _
  · exact same_throw _

/-- **What the program does with a library** comes to the same from states that no question tells
apart. -/
theorem same_serving (style : Style) (a : Arguments) :
    Stage.Same (serving style a : Stage B Unit) := by
  unfold serving
  split
  · exact (same_of (Dialogue.same_describeBuild B.veiled_indistinct)).bind fun _ => same_print _
  · refine (same_readInput _).bind fun code => ?_
    exact (same_during _ (Engine.same_openWith _ _)).bind fun e =>
      same_closing e (same_useEngine style a code e)

/-! ### The run, whatever its verbosity -/

/-- The calls that are made for the log alone. -/
def askedFirst (verbosity : Nat) : List Call :=
  if 0 < verbosity then [.version] else []

/-- Greeting an engine prints nothing, and asks for its version at most. -/
theorem asks_greet (verbosity : Nat) (s : B.State) :
    let out := (greet verbosity : Dialogue B Unit) s
    callsOf out.events = askedFirst verbosity ∧ linesOf out.events = [] ∧
      (out.state = s ∨ out.state = (B.answer s .version).2) := by
  unfold greet askedFirst
  by_cases hverbose : 0 < verbosity
  · simp only [if_pos hverbose]
    exact ⟨rfl, rfl, Or.inr rfl⟩
  · simp only [if_neg hverbose]
    exact ⟨rfl, rfl, Or.inl rfl⟩

/-- Greeted or not, an engine whose version leaves no trace is the same to whoever asks it. -/
theorem indistinct_greet {s : B.State} (hversion : B.Indistinct (B.answer s .version).2 s)
    (verbosity : Nat) : B.Indistinct ((greet verbosity : Dialogue B Unit) s).state s := by
  obtain ⟨-, -, hstate | hstate⟩ := asks_greet verbosity s
  · rw [hstate]
    exact .refl s
  · rw [hstate]
    exact hversion

/-- Nothing is asked on the way to a library. -/
theorem Arguments.callsOf_library (a : Arguments) (w : Surroundings) (s : B.State) :
    callsOf ((a.library w : Dialogue B Cell) s).events = [] := by
  unfold library
  cases a.lib with
  | some path =>
    simp only [Cell.initFrom, Dialogue.run_bind, Cell.run_tryLoad]
    rfl
  | none =>
    obtain ⟨tried, r, -, hspec⟩ := Cell.search_spec (B := B) w.loader w.searchPaths
    obtain ⟨-, -, -, hcalls⟩ := hspec [] s
    simp only [Cell.init, Dialogue.run_bind, Dialogue.run_pure, List.append_nil]
    exact hcalls

/-- **A run whatever its verbosity**: it ends without a library, or it greets the engine and serves. -/
theorem run_voiced (w : Surroundings) (style : Style) (a : Arguments) (s : B.State) :
    ∃ es, callsOf es = [] ∧ linesOf es = [] ∧
      (((∀ path ∈ a.candidates w, w.loader.load path ≠ .ok ()) ∧ ∃ f, ∀ n,
          (run w style { a with verbosity := n } : Stage B Unit).run s = ⟨.error f, s, es⟩) ∨
        (∃ path ∈ a.candidates w, w.loader.load path = .ok ()) ∧ ∀ n,
          let greeted := (greet n : Dialogue B Unit) s
          (run w style { a with verbosity := n } : Stage B Unit).run s =
            ((serving style a : Stage B Unit).run greeted.state).behind (es ++ greeted.events)) := by
  obtain ⟨c, es, hlibrary, hresult, -, hsilent⟩ := a.run_library (B := B) w s
  have hcalls := a.callsOf_library w s
  have hrun := fun n => run_eq w style { a with verbosity := n } s
  have hsame : ∀ n, (({ a with verbosity := n } : Arguments).library w : Dialogue B Cell) s =
      ⟨c, s, es⟩ := fun _ => hlibrary
  rw [hlibrary] at hcalls
  simp only [hsame] at hrun
  refine ⟨es, hcalls, (silent_nil hsilent).1, ?_⟩
  cases hvalue : c.result with
  | error err =>
    simp only [hvalue] at hrun
    refine Or.inl ⟨fun path hpath hload => ?_, _, hrun⟩
    have hok := hresult.mpr ⟨path, hpath, hload⟩
    rw [hvalue] at hok
    cases hok
  | ok u =>
    simp only [hvalue] at hrun
    exact Or.inr ⟨hresult.mp hvalue, hrun⟩

/-- **What a run comes to, whatever its verbosity.**  Its result, what it prints and what it asks are
fixed, but for the question that a verbose run asks first. -/
theorem run_fixed (w : Surroundings) (style : Style) (a : Arguments) {s : B.State}
    (hversion : B.Indistinct (B.answer s .version).2 s) :
    ∃ result lines calls, ∀ n,
      let out := (run w style { a with verbosity := n } : Stage B Unit).run s
      out.value = result ∧ linesOf out.events = lines ∧
        ((∃ path ∈ a.candidates w, w.loader.load path = .ok ()) →
          callsOf out.events = askedFirst n ++ calls) ∧
        ((∀ path ∈ a.candidates w, w.loader.load path ≠ .ok ()) → callsOf out.events = []) := by
  obtain ⟨es, hcalls, hlines, hrun⟩ := run_voiced w style a s
  rcases hrun with ⟨hnone, f, hrun⟩ | ⟨hlibrary, hrun⟩
  · refine ⟨.error f, [], [], fun n => ?_⟩
    simp only [hrun]
    refine ⟨trivial, hlines, ?_, fun _ => hcalls⟩
    rintro ⟨path, hpath, hload⟩
    exact absurd hload (hnone path hpath)
  · -- every run serves from a state that is the same as the first to whoever asks it
    let served := (serving style a : Stage B Unit).run s
    refine ⟨served.value, linesOf served.events, callsOf served.events, fun n => ?_⟩
    obtain ⟨hasked, hgreeted, -⟩ := asks_greet n s
    obtain ⟨hvalue, -, hevents⟩ := (same_serving style a).eq (indistinct_greet hversion n)
    simp only [hrun, linesOf_behind, linesOf_append, callsOf_behind, callsOf_append, hlines, hcalls,
      hasked, hgreeted, hevents, List.nil_append]
    refine ⟨hvalue, rfl, fun _ => rfl, fun hnone => ?_⟩
    obtain ⟨path, hpath, hload⟩ := hlibrary
    exact absurd hload (hnone path hpath)

/-! ### Argument lists with verbose flags and without -/

/-- Items without the verbose flags among them. -/
def Item.muted (items : List Item) : List Item :=
  items.filter (· ≠ .flag .verbose)

theorem Item.muted_cons {x : Item} (hx : x ≠ .flag .verbose) (items : List Item) :
    muted (x :: items) = x :: muted items :=
  List.filter_cons_of_pos (decide_eq_true hx)

/-- How often an argument list asks to be verbose. -/
def loudness (args : List String) : Nat :=
  (Item.ofArguments args).count (.flag .verbose)

/-- A request with another verbosity. -/
def Request.voiced (n : Nat) : Request → Request
  | .run a => .run { a with verbosity := n }
  | request => request

namespace Draft

/-- A draft with another verbosity. -/
def voiced (n : Nat) (d : Draft) : Draft :=
  { d with verbosity := n }

/-- A collection of arguments that comes to what another comes to, with a verbosity. -/
def Voices (n : Nat) (other this : Except UsageError Request) : Prop :=
  ∀ r, this = .ok r → ∃ r', other = .ok r' ∧ r = r'.voiced n

theorem voices_error (n : Nat) (other : Except UsageError Request) (e : UsageError) :
    Voices n other (.error e) :=
  fun _ h => nomatch h

/-- Items behind one that is taken in the same way whatever the verbosity is. -/
theorem Voices.bind {k : Nat} {d : Draft} (take : Draft → Except UsageError Draft)
    (htake : ∀ n, take (d.voiced n) = (take d).map (voiced n))
    {f g : Draft → Except UsageError Request}
    (hf : ∀ d, Voices (d.verbosity + k) (g (d.voiced 0)) (f d)) :
    Voices (d.verbosity + k) (take (d.voiced 0) >>= g) (take d >>= f) := by
  -- a draft with the verbosity that it has is the draft itself, so taking an item keeps it
  have hkept : take d = (take d).map (voiced d.verbosity) := htake d.verbosity
  rw [htake 0]
  cases htaken : take d with
  | error e => exact voices_error _ _ e
  | ok d' =>
    rw [htaken] at hkept
    have hsame : d' = d'.voiced d.verbosity := Except.ok.inj hkept
    have hverbosity : d'.verbosity = d.verbosity := by
      rw [hsame]
      rfl
    rw [← hverbosity]
    exact hf d'

/-- An item that is no verbose flag is there with these flags and without. -/
theorem Voices.cons {d : Draft} {x : Item} {items : List Item} (hx : x ≠ .flag .verbose)
    (h : Voices (d.verbosity + items.count (.flag .verbose))
      ((d.voiced 0).collect (x :: Item.muted items)) (d.collect (x :: items))) :
    Voices (d.verbosity + (x :: items).count (.flag .verbose))
      ((d.voiced 0).collect (Item.muted (x :: items))) (d.collect (x :: items)) := by
  rw [Item.muted_cons hx, List.count_cons_of_ne hx]
  exact h

/-- **The verbose flags among items** count, and make no other difference. -/
theorem collect_voiced (d : Draft) (items : List Item) :
    Voices (d.verbosity + items.count (.flag .verbose)) ((d.voiced 0).collect (Item.muted items))
      (d.collect items) := by
  induction d, items using collect.induct with
  | case1 d =>
    rcases d with ⟨arch, code, flags, address, count, dialect, detail, lib, info, verbosity⟩
    intro r h
    cases info <;> cases arch <;> cases code <;>
      simp_all [collect, finish, voiced, Item.muted, Request.voiced]
  | case2 d text r ih =>
    refine .cons (by simp) ?_
    rw [collect, collect]
    exact .bind (·.takePlain text) (fun n => takePlain_marked (fun p => (p.1, n)) d text) ih
  | case3 d r hd | case5 d r hd =>
    rw [collect.eq_def d]
    simp only [if_pos hd]
    exact voices_error _ _ _
  | case4 d r hd ih =>
    refine .cons (by simp) ?_
    rw [collect, collect, if_neg hd, if_neg (show ¬ (d.voiced 0).detail = true from hd)]
    exact ih
  | case6 d r hd ih =>
    refine .cons (by simp) ?_
    rw [collect, collect, if_neg hd, if_neg (show ¬ (d.voiced 0).info = true from hd)]
    exact ih
  | case7 d r ih =>
    rw [List.count_cons_self, Nat.add_comm (List.count _ _), ← Nat.add_assoc]
    exact ih
  | case8 d r | case9 d r =>
    refine .cons (by simp) fun request h => ?_
    rw [collect] at h
    cases h
    exact ⟨_, rfl, rfl⟩
  | case10 d x text r ih =>
    refine .cons (by simp) ?_
    rw [collect, collect]
    exact .bind (·.takeValue x text) (fun n => takeValue_marked (fun p => (p.1, n)) d x text) ih
  | case11 d x text r ih =>
    refine .cons (by simp) ?_
    rw [Item.muted_cons (by simp), List.count_cons_of_ne (by simp), collect, collect]
    exact .bind (·.takeValue x text) (fun n => takeValue_marked (fun p => (p.1, n)) d x text) ih
  | case12 d x r hno =>
    rw [collect_missing d hno]
    exact voices_error _ _ _
  | case13 d r ih =>
    refine .cons (by simp) ?_
    rw [collect, collect]
    exact ih
  | case14 d text r =>
    rw [collect.eq_def d]
    exact voices_error _ _ _

end Draft

/-- Two argument lists that are taken, and differ in their verbose flags alone, ask for the same, each
with its own verbosity. -/
theorem parseArguments_voiced {args args' : List String}
    (hsame : Item.muted (Item.ofArguments args') = Item.muted (Item.ofArguments args))
    {r r' : Request} (hr : parseArguments args = .ok r) (hr' : parseArguments args' = .ok r') :
    ∃ request : Request,
      r = request.voiced (loudness args) ∧ r' = request.voiced (loudness args') := by
  obtain ⟨request, hrequest, hvoiced⟩ := Draft.collect_voiced {} (Item.ofArguments args) r hr
  obtain ⟨request', hrequest', hvoiced'⟩ := Draft.collect_voiced {} (Item.ofArguments args') r' hr'
  rw [hsame, hrequest] at hrequest'
  obtain rfl : request = request' := Except.ok.inj hrequest'
  simp only [Nat.zero_add] at hvoiced hvoiced'
  exact ⟨request, hvoiced, hvoiced'⟩

/-! ### Two runs -/

/-- **Verbosity only observes.**  Take two argument lists that are taken and differ in nothing but
how often, and where, they ask to be verbose, and an engine on which it leaves no trace to be asked for
its version.  Both runs give the version of the program, or both its help, or both do what they are
asked for: then they print the same lines and come to the same result, be it a success or a failure
with its message and its cause; and where a library loads they make the same calls in the same order,
behind one for the version in a run that is verbose.  Where none loads they make none. -/
theorem verbosity_observes (w : Surroundings) (style : Style) {args args' : List String}
    (hsame : Item.muted (Item.ofArguments args') = Item.muted (Item.ofArguments args))
    (htaken : ∃ r, parseArguments args = .ok r) (htaken' : ∃ r, parseArguments args' = .ok r)
    {s : B.State} (hversion : B.Indistinct (B.answer s .version).2 s) :
    let n := loudness args
    let n' := loudness args'
    (execute w style args s = .version ∧ execute w style args' s = .version) ∨
      (execute w style args s = .help ∧ execute w style args' s = .help) ∨
      ∃ (a : Arguments) (result : Except Failure Unit) (events events' : List Event),
        parseArguments args = .ok (.run { a with verbosity := n }) ∧
        parseArguments args' = .ok (.run { a with verbosity := n' }) ∧
        execute w style args s = .ran n result events ∧
        execute w style args' s = .ran n' result events' ∧
        linesOf events' = linesOf events ∧
        ((∃ path ∈ a.candidates w, w.loader.load path = .ok ()) → ∃ calls,
          callsOf events = askedFirst n ++ calls ∧ callsOf events' = askedFirst n' ++ calls) ∧
        ((∀ path ∈ a.candidates w, w.loader.load path ≠ .ok ()) →
          callsOf events = [] ∧ callsOf events' = []) := by
  intro n n'
  obtain ⟨r, hr⟩ := htaken
  obtain ⟨r', hr'⟩ := htaken'
  obtain ⟨request, rfl, rfl⟩ := parseArguments_voiced hsame hr hr'
  unfold execute
  cases request with
  | version => simp [hr, hr', Request.voiced]
  | help => simp [hr, hr', Request.voiced]
  | run a =>
    simp only [hr, hr', Request.voiced]
    refine Or.inr (Or.inr ⟨a, ?_⟩)
    obtain ⟨result, lines, calls, hrun⟩ := run_fixed w style a hversion
    obtain ⟨hvalue, hlines, hcalls, hnone⟩ := hrun n
    obtain ⟨hvalue', hlines', hcalls', hnone'⟩ := hrun n'
    refine ⟨result, _, _, rfl, rfl, congrArg (Execution.ran n · _) hvalue,
      congrArg (Execution.ran n' · _) hvalue', hlines'.trans hlines.symm, ?_, ?_⟩
    · exact fun hlibrary => ⟨calls, hcalls hlibrary, hcalls' hlibrary⟩
    · exact fun hload => ⟨hnone hload, hnone' hload⟩

/-- Twice verbose, and not at all: the version is asked for once more. -/
theorem verbosity_observes_nop :
    let nop : NativeInsn := ⟨1, 16, 1, .replicate 16 0x90, [110, 111, 112], [], none⟩
    let s : Script := { decodes := [.insns [nop] false] }
    let w : Surroundings := ⟨fun _ => .opened fun _ => none, none, none⟩
    ∃ result events events' calls,
      execute (B := Script.backend) w ⟨false⟩ ["x86", "90"] s = .ran 0 result events ∧
      execute (B := Script.backend) w ⟨false⟩ ["-vv", "x86", "90"] s = .ran 2 result events' ∧
      linesOf events' = linesOf events ∧ callsOf events = calls ∧
      callsOf events' = .version :: calls := by
  intro nop s w
  have hplain : parseArguments ["x86", "90"] =
    .ok (.run ⟨.disassemble .x86 "90", [], 0x1000, 0, none, false, none, 0⟩) := rfl
  have hverbose : parseArguments ["-vv", "x86", "90"] =
    .ok (.run ⟨.disassemble .x86 "90", [], 0x1000, 0, none, false, none, 2⟩) := rfl
  have hversion : Script.backend.Indistinct (Script.backend.answer s .version).2 s :=
    Backend.Indistinct.refl (B := Script.backend) s
  have hsame : Item.muted (Item.ofArguments ["-vv", "x86", "90"]) =
    Item.muted (Item.ofArguments ["x86", "90"]) := rfl
  rcases verbosity_observes w ⟨false⟩ hsame ⟨_, hplain⟩ ⟨_, hverbose⟩ hversion with
    ⟨hno, -⟩ | ⟨hno, -⟩ | ⟨a, result, events, events', ha, -, hrun, hrun', hlines, hcalls, -⟩
  · simp [execute, hplain] at hno
  · simp [execute, hplain] at hno
  · have hlib : a.lib = none := by
      rw [hplain] at ha
      exact (congrArg Arguments.lib (Request.run.inj (Except.ok.inj ha))).symm
    have hlibrary : ∃ path ∈ a.candidates w, w.loader.load path = .ok () := by
      unfold Arguments.candidates
      rw [hlib]
      exact ⟨_, List.mem_cons_self, rfl⟩
    obtain ⟨calls, hasked, hasked'⟩ := hcalls hlibrary
    exact ⟨result, events, events', calls, hrun, hrun', hlines, hasked, hasked'⟩

end Disassembly.CommandLine
