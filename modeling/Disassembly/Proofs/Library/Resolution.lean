import Disassembly.Library.Host
import Disassembly.Proofs.Session.Emissions

/-!
# The library of a process is resolved once

The first operation that needs a library looks for one, and all later ones are served by what it
found, be it a library or the reason why there is none.

* `Loader.Loading` — the three outcomes of loading a path, with `Loader.load_spec`: there is no
  other;
* `Cell.Search` — a search stops at the first path that loads, or collects the failures of all;
* `Surroundings.Resolves` — the paths that a first operation tries, and what it leaves in the cell;
* `Host.Served` — an operation is served by what the cell holds;
* `Host.step_asks`, `Host.step_of_written`, `Host.step_of_not_asks` — what one operation does to
  the cell;
* `Host.reach_step_spec` — so that in a whole run one operation resolves the library, and no other
  tries a path.
-/

namespace Disassembly

variable {B : Backend}

/-! ### Loading one path -/

namespace EntryPoint

theorem mem_all (e : EntryPoint) : e ∈ all := by
  cases e <;> decide

end EntryPoint

namespace LoadError

/-- What a failure to load is about: the path, or the symbol that was looked for. -/
def subject : LoadError → String
  | .unopened path _ => path
  | .missing e _ => e.symbol

/-- What the system loader had to say. -/
def complaint : LoadError → String
  | .unopened _ complaint => complaint
  | .missing _ complaint => complaint

/-- The failure in the words under which it is remembered. -/
def reason (err : LoadError) : String :=
  (Error.libraryLoad err.message).message

/-- A failure names what it is about, and ends with the loader's words for it. -/
theorem reason_names (err : LoadError) :
    ∃ a, err.reason = a ++ err.subject ++ ": " ++ err.complaint := by
  cases err with
  | unopened path complaint =>
    refine ⟨"capstone library unavailable: ", ?_⟩
    show "capstone library unavailable: " ++ (path ++ ": " ++ complaint) = _
    simp only [subject, LoadError.complaint, String.append_assoc]
  | missing e complaint =>
    refine ⟨"capstone library unavailable: " ++ "missing symbol ", ?_⟩
    show "capstone library unavailable: " ++
      ("missing symbol " ++ e.symbol ++ ": " ++ complaint) = _
    simp only [subject, LoadError.complaint, String.append_assoc]

end LoadError

namespace Loader

/-- What loading a path can come to. -/
inductive Loading (l : Loader) (path : String) : Except LoadError Unit → Prop where
  | complete {complaint? : EntryPoint → Option String} (hopen : l path = .opened complaint?)
    (hall : ∀ e, complaint? e = none) : Loading l path (.ok ())
  | unopened {complaint : String} (hopen : l path = .unopened complaint) :
    Loading l path (.error (.unopened path complaint))
  /-- The first symbol that is not there, in the order in which they are resolved. -/
  | missing {complaint? : EntryPoint → Option String} {before after : List EntryPoint}
    {e : EntryPoint} {complaint : String} (hopen : l path = .opened complaint?)
    (horder : EntryPoint.all = before ++ e :: after) (hbefore : ∀ e' ∈ before, complaint? e' = none)
    (he : complaint? e = some complaint) : Loading l path (.error (.missing e complaint))

theorem load_spec (l : Loader) (path : String) : Loading l path (l.load path) := by
  rw [load]
  cases hopen : l path with
  | unopened complaint => exact .unopened hopen
  | opened complaint? =>
    simp only []
    cases hfind : EntryPoint.all.findSome? fun e => (complaint? e).map (LoadError.missing e) with
    | none =>
      refine .complete hopen fun e => ?_
      exact Option.map_eq_none_iff.mp (List.findSome?_eq_none_iff.mp hfind e (EntryPoint.mem_all e))
    | some err =>
      obtain ⟨before, e, after, horder, he, hbefore⟩ := List.findSome?_eq_some_iff.mp hfind
      obtain ⟨complaint, hcomplaint, rfl⟩ := Option.map_eq_some_iff.mp he
      refine .missing hopen horder (fun e' he' => ?_) hcomplaint
      exact Option.map_eq_none_iff.mp (hbefore e' he')

/-- A library loads if it opens and has all thirteen symbols. -/
theorem load_ok_iff (l : Loader) (path : String) :
    l.load path = .ok () ↔
      ∃ complaint?, l path = .opened complaint? ∧ ∀ e, complaint? e = none := by
  constructor
  · intro hload
    have hspec := l.load_spec path
    rw [hload] at hspec
    cases hspec with
    | complete hopen hall => exact ⟨_, hopen, hall⟩
  · rintro ⟨complaint?, hopen, hall⟩
    have hnone : (EntryPoint.all.findSome? fun e =>
        (complaint? e).map (LoadError.missing e)) = none :=
      List.findSome?_eq_none_iff.mpr fun e _ => Option.map_eq_none_iff.mpr (hall e)
    rw [load, hopen]
    simp only [hnone]

end Loader

/-! ### Searching -/

namespace Cell

/-- What a search of paths comes to, and the paths it tries: all up to the first that loads, or all
of them, with the failure of each. -/
inductive Search (l : Loader) (paths : List String) :
    List String → Except (List LoadError) String → Prop where
  | found {before after : List String} {path : String} (hpaths : paths = before ++ path :: after)
    (hbefore : ∀ p ∈ before, ∃ err, l.load p = .error err) (hload : l.load path = .ok ()) :
    Search l paths (before ++ [path]) (.ok path)
  | nowhere {errs : List LoadError}
    (herrs : List.Forall₂ (fun p err => l.load p = .error err) paths errs) :
    Search l paths paths (.error errs)

/-- A path that does not load is passed over. -/
theorem Search.cons {l : Loader} {path : String} {paths tried : List String} {err : LoadError}
    {r : Except (List LoadError) String} (herr : l.load path = .error err)
    (h : Search l paths tried r) :
    Search l (path :: paths) (path :: tried) (r.mapError (err :: ·)) := by
  cases h with
  | found hpaths hbefore hload =>
    rw [← List.cons_append]
    refine .found (congrArg (path :: ·) hpaths) (fun p hp => ?_) hload
    rcases List.mem_cons.mp hp with rfl | hmem
    · exact ⟨err, herr⟩
    · exact hbefore p hmem
  | nowhere herrs => exact .nowhere (.cons herr herrs)

/-- The reason that is kept of a search in which every path failed: each failure in turn. -/
def reasons (errs : List LoadError) : String :=
  String.intercalate "; " (errs.map LoadError.reason)

/-- Trying a path leaves one attempt behind and asks the engine nothing. -/
theorem run_tryLoad (l : Loader) (path : String) (s : B.State) :
    (tryLoad l path : Dialogue B (Except Error String)) s =
      ⟨match l.load path with
        | .ok () => .ok path
        | .error err => .error (.libraryLoad err.message), s, [.load path]⟩ := by
  rw [tryLoad, Dialogue.run_bind]
  cases l.load path with
  | ok _ => rfl
  | error err => rfl

/-- **A search** tries one path after another until one loads. -/
theorem search_spec (l : Loader) (paths : List String) :
    ∃ tried r, Search l paths tried r ∧ ∀ (failures : List String) (s : B.State),
      let out := (search l failures paths : Dialogue B (Except Error String)) s
      out.value = r.mapError (fun errs =>
          .libraryLoad (String.intercalate "; " (failures ++ errs.map LoadError.reason))) ∧
        out.state = s ∧ loadsOf out.events = tried ∧ callsOf out.events = [] := by
  induction paths with
  | nil =>
    refine ⟨[], .error [], .nowhere .nil, fun failures s => ⟨?_, rfl, rfl, rfl⟩⟩
    show Except.error (Error.libraryLoad (String.intercalate "; " failures)) = _
    simp [Except.mapError]
  | cons path paths ih =>
    cases hload : l.load path with
    | ok u =>
      have hfound : Search l (path :: paths) ([] ++ [path]) (.ok path) :=
        .found rfl (fun _ h => nomatch h) hload
      refine ⟨[path], .ok path, hfound, fun failures s => ?_⟩
      simp only [search, Dialogue.run_bind, run_tryLoad, hload]
      exact ⟨rfl, rfl, rfl, rfl⟩
    | error err =>
      obtain ⟨tried, r, hsearch, hrun⟩ := ih
      refine ⟨path :: tried, _, hsearch.cons hload, fun failures s => ?_⟩
      obtain ⟨hvalue, hstate, hloads, hcalls⟩ := hrun (failures ++ [err.reason]) s
      simp only [search, Dialogue.run_bind, run_tryLoad, hload]
      refine ⟨?_, hstate, congrArg (path :: ·) hloads, hcalls⟩
      refine hvalue.trans ?_
      cases r with
      | ok found => rfl
      | error errs => simp [Except.mapError]

end Cell

/-! ### The first operation that needs a library -/

namespace HostOp

/-- Whether the operation needs the library of the process. -/
def asks : HostOp → Bool
  | .initFrom _ => true
  | .op o => o.startsFromLibrary

/-- What is asked of the library once there is one. -/
def use : HostOp → Op
  | .initFrom _ => .version
  | .op o => o

end HostOp

namespace Surroundings

/-- The search list: the variable's path, the two names next to the executable, the bare names. -/
theorem searchPaths_eq (w : Surroundings) :
    w.searchPaths = w.libraryPath.toList ++
      (w.executableDir.elim [] fun dir =>
        [pathIn dir "libcapstone.so", pathIn dir "libcapstone.so.2"]) ++
      ["libcapstone.so", "libcapstone.so.2"] := by
  rw [searchPaths]
  cases w.executableDir with
  | none => rfl
  | some dir => rfl

/-- The paths that are tried if an operation is the first to need a library, and what the process
knows of its library from then on. -/
inductive Resolves (w : Surroundings) : HostOp → List String → Cell → Prop where
  | explicit {path : String} (hload : w.loader.load path = .ok ()) :
    Resolves w (.initFrom path) [path] (.loaded path)
  | refused {path : String} {err : LoadError} (hload : w.loader.load path = .error err) :
    Resolves w (.initFrom path) [path] (.failed err.reason)
  | found {o : Op} {before after : List String} {path : String}
    (hpaths : w.searchPaths = before ++ path :: after)
    (hbefore : ∀ p ∈ before, ∃ err, w.loader.load p = .error err)
    (hload : w.loader.load path = .ok ()) : Resolves w (.op o) (before ++ [path]) (.loaded path)
  | nowhere {o : Op} {errs : List LoadError}
    (herrs : List.Forall₂ (fun p err => w.loader.load p = .error err) w.searchPaths errs) :
    Resolves w (.op o) w.searchPaths
      (.failed (Error.libraryLoad (Cell.reasons errs)).message)

variable {w : Surroundings} {o : HostOp} {tried : List String} {c : Cell}

theorem Resolves.written (h : w.Resolves o tried c) : c ≠ .empty := by
  cases h <;> exact fun heq => nomatch heq

end Surroundings

/-! ### One operation of a host -/

namespace Host

/-- An operation is served by what a cell holds: carried out if that is a library, and refused with
the reason it gives otherwise, when nothing else happens. -/
def Served (d : Desk) (s : B.State) (o : Op) (out : Outcome B.State (Reply × Host)) : Cell → Prop
  | .empty => False
  | .loaded _ =>
    out.value.1 = (d.step o s).value.1 ∧ out.value.2.desk = (d.step o s).value.2 ∧
      out.state = (d.step o s).state ∧ callsOf out.events = callsOf (d.step o s).events
  | .failed reason =>
    out.value.1 = .failed (.libraryLoad reason) ∧ out.value.2.desk = d ∧ out.state = s ∧
      callsOf out.events = []

variable {w : Surroundings} {p : Host} {c : Cell}

/-- If an operation comes down to using the library in a cell, after events that are no calls, it is
served by that cell, and only those events try a path. -/
theorem served_of_step {d : Desk} {s : B.State} {o : HostOp} {es : List Event} (hc : c ≠ .empty)
    (hcalls : callsOf es = [])
    (hstep : p.step w o s =
      let out := (withLibrary ⟨c, d⟩ o.use : Dialogue B (Reply × Host)) s
      ⟨out.value, out.state, es ++ out.events⟩) :
    let out := p.step w o s
    out.value.2.cell = c ∧ loadsOf out.events = loadsOf es ∧ Served d s o.use out c := by
  have hcallsOf : ∀ es', callsOf (es ++ es') = callsOf es' := by
    intro es'
    rw [callsOf, List.filterMap_append]
    exact congrArg (· ++ _) hcalls
  have hloadsOf : ∀ es', loadsOf es' = [] → loadsOf (es ++ es') = loadsOf es := by
    intro es' hnone
    rw [loadsOf, List.filterMap_append]
    exact (congrArg (_ ++ ·) hnone).trans (List.append_nil _)
  rw [hstep]
  cases c with
  | empty => exact absurd rfl hc
  | loaded path =>
    have hout : (withLibrary ⟨.loaded path, d⟩ o.use : Dialogue B (Reply × Host)) s =
        ⟨((d.step o.use s).value.1, ⟨.loaded path, (d.step o.use s).value.2⟩),
          (d.step o.use s).state, (d.step o.use s).events ++ []⟩ := rfl
    rw [hout, List.append_nil]
    exact ⟨rfl, hloadsOf _ (d.loads_step o.use s), rfl, rfl, rfl, hcallsOf _⟩
  | failed reason => exact ⟨rfl, hloadsOf [] rfl, rfl, rfl, rfl, hcallsOf []⟩

/-- An operation that needs no library leaves the cell alone. -/
theorem step_of_not_asks {o : HostOp} (ho : o.asks = false) (s : B.State) :
    let out := p.step w o s
    out.value.2.cell = p.cell ∧ loadsOf out.events = [] := by
  cases o with
  | initFrom path => cases ho
  | op o =>
    have hstarts : o.startsFromLibrary = false := ho
    have hloads := p.desk.loads_step o s
    simp only [step, hstarts]
    refine ⟨rfl, ?_⟩
    simpa using hloads

/-- Once the cell is written, an operation is served by it and tries no path. -/
theorem step_of_written {o : HostOp} (hp : p.cell ≠ .empty) (s : B.State) :
    let out := p.step w o s
    out.value.2.cell = p.cell ∧ loadsOf out.events = [] ∧
      (o.asks = true → Served p.desk s o.use out p.cell) := by
  by_cases ho : o.asks = true
  · have hwritten : ∃ es : List Event, callsOf es = [] ∧ loadsOf es = [] ∧
        p.step w o s =
          let out := (withLibrary p o.use : Dialogue B (Reply × Host)) s
          ⟨out.value, out.state, es ++ out.events⟩ := by
      obtain ⟨c, d⟩ := p
      cases o with
      | initFrom path =>
        refine ⟨[.log .debug ("capstone already initialised, ignoring " ++ path)], rfl, rfl, ?_⟩
        cases c with
        | empty => exact absurd rfl hp
        | loaded _ => rfl
        | failed _ => rfl
      | op o =>
        refine ⟨[], rfl, rfl, ?_⟩
        have hstarts : o.startsFromLibrary = true := ho
        simp only [step, hstarts, if_true]
        cases c with
        | empty => exact absurd rfl hp
        | loaded _ => rfl
        | failed _ => rfl
    obtain ⟨es, hcalls, hloads, hstep⟩ := hwritten
    obtain ⟨hcell, hsame, hserved⟩ := served_of_step hp hcalls hstep
    exact ⟨hcell, hsame.trans hloads, fun _ => hserved⟩
  · obtain ⟨hcell, hloads⟩ := step_of_not_asks (p := p) (w := w) (eq_false_of_ne_true ho) s
    exact ⟨hcell, hloads, fun h => absurd h ho⟩

/-- **The first operation that needs a library resolves it**, whatever the engine does, and is
served by what it found. -/
theorem step_asks (B : Backend) (w : Surroundings) {o : HostOp} (ho : o.asks = true) :
    ∃ tried c, w.Resolves o tried c ∧ ∀ (d : Desk) (s : B.State),
      let out := Host.step w ⟨.empty, d⟩ o s
      out.value.2.cell = c ∧ loadsOf out.events = tried ∧ Served d s o.use out c := by
  cases o with
  | initFrom path =>
    have hstep : ∀ (d : Desk) (s : B.State), Host.step w ⟨.empty, d⟩ (.initFrom path) s =
        (let c := Cell.ofResult (match w.loader.load path with
          | .ok () => .ok path
          | .error err => .error (.libraryLoad err.message))
        let out := (withLibrary ⟨c, d⟩ .version : Dialogue B (Reply × Host)) s
        ⟨out.value, out.state,
          [.log .debug ("loading capstone from " ++ path), .load path] ++ out.events⟩) := by
      intro d s
      simp only [step, Cell.initFrom, Dialogue.run_bind, Cell.run_tryLoad]
      rfl
    cases hload : w.loader.load path with
    | ok u =>
      simp only [hload] at hstep
      have hresolves : w.Resolves (.initFrom path) [path] (.loaded path) := .explicit hload
      exact ⟨_, _, hresolves, fun d s => served_of_step hresolves.written rfl (hstep d s)⟩
    | error err =>
      simp only [hload] at hstep
      have hresolves : w.Resolves (.initFrom path) [path] (.failed err.reason) := .refused hload
      exact ⟨_, _, hresolves, fun d s => served_of_step hresolves.written rfl (hstep d s)⟩
  | op o =>
    have hstarts : o.startsFromLibrary = true := ho
    obtain ⟨tried, r, hsearch, hrun⟩ := Cell.search_spec (B := B) w.loader w.searchPaths
    have hstep : ∀ (d : Desk) (s : B.State), Host.step w ⟨.empty, d⟩ (.op o) s =
        (let found := (Cell.search w.loader [] w.searchPaths : Dialogue B _) s
        let out := (withLibrary ⟨.ofResult found.value, d⟩ o : Dialogue B _) found.state
        ⟨out.value, out.state, found.events ++ out.events⟩) := by
      intro d s
      simp only [step, hstarts, if_true, Cell.init, Dialogue.run_bind, Dialogue.run_pure,
        List.append_nil]
    have hresolves : ∃ c, w.Resolves (.op o) tried c ∧ ∀ s : B.State,
        Cell.ofResult ((Cell.search w.loader [] w.searchPaths : Dialogue B _) s).value = c := by
      cases hsearch with
      | found hpaths hbefore hload =>
        refine ⟨_, .found hpaths hbefore hload, fun s => ?_⟩
        rw [(hrun [] s).1]
        rfl
      | nowhere herrs =>
        refine ⟨_, .nowhere herrs, fun s => ?_⟩
        rw [(hrun [] s).1]
        rfl
    obtain ⟨c, hresolves, hfound⟩ := hresolves
    refine ⟨tried, c, hresolves, fun d s => ?_⟩
    obtain ⟨-, hstate, hloads, hcalls⟩ := hrun [] s
    have hserved := hstep d s
    simp only [hfound, hstate] at hserved
    obtain ⟨hcell, hsame, hserved⟩ := served_of_step (o := .op o) hresolves.written hcalls hserved
    exact ⟨hcell, hsame.trans hloads, hserved⟩

/-! ### Runs of a host -/

/-- Where operations lead: the host and the native engine after them. -/
def reach (w : Surroundings) (p : Host) (s : B.State) : List HostOp → Host × B.State
  | [] => (p, s)
  | o :: os => (p.step w o s).value.2.reach w (p.step w o s).state os

/-- The outcomes of a run are those of its operations, each where the ones before it lead. -/
theorem getElem?_run (w : Surroundings) (p : Host) (s : B.State) (before : List HostOp)
    (o : HostOp) (after : List HostOp) :
    (p.run w s (before ++ o :: after))[before.length]? =
      some ((p.reach w s before).1.step w o (p.reach w s before).2) := by
  induction before generalizing p s with
  | nil => rfl
  | cons x before ih =>
    rw [List.cons_append, run, List.length_cons, List.getElem?_cons_succ]
    exact ih _ _

/-- What has been written into the cell stays there. -/
theorem cell_reach_of_written (hp : p.cell ≠ .empty) (s : B.State) (os : List HostOp) :
    (p.reach w s os).1.cell = p.cell := by
  induction os generalizing p s with
  | nil => rfl
  | cons o os ih =>
    obtain ⟨hcell, -⟩ := step_of_written (w := w) (o := o) hp s
    have hsame : (p.step w o s).value.2.cell ≠ .empty := by rwa [hcell]
    rw [reach, ih hsame, hcell]

/-- The operations of a run that starts with an empty cell, once it is known what the first one
that needs a library comes to, if there is one. -/
theorem reach_step_spec {tried : List String} (hc : c ≠ .empty)
    {os before after : List HostOp} {o : HostOp} (hos : os = before ++ o :: after)
    (hfirst : ∀ o₁, os.find? HostOp.asks = some o₁ → ∀ (d : Desk) (s : B.State),
      let out := Host.step w ⟨.empty, d⟩ o₁ s
      out.value.2.cell = c ∧ loadsOf out.events = tried ∧ Served d s o₁.use out c)
    (hp : p.cell = .empty) (s : B.State) :
    let q := (p.reach w s before).1
    let s' := (p.reach w s before).2
    let out := q.step w o s'
    out.value.2.cell = (if (before ++ [o]).any HostOp.asks then c else .empty) ∧
      loadsOf out.events = (if !before.any HostOp.asks && o.asks then tried else []) ∧
      (o.asks = true → Served q.desk s' o.use out c) := by
  induction before generalizing p s os with
  | nil =>
    obtain ⟨cell, d⟩ := p
    obtain rfl : cell = .empty := hp
    subst hos
    simp only [reach, List.nil_append, List.any_cons, List.any_nil, Bool.or_false, Bool.not_false,
      Bool.true_and]
    by_cases ho : o.asks = true
    · obtain ⟨hcell, hloads, hserved⟩ := hfirst o (by simp [ho]) d s
      rw [if_pos ho, if_pos ho]
      exact ⟨hcell, hloads, fun _ => hserved⟩
    · obtain ⟨hcell, hloads⟩ := step_of_not_asks (p := ⟨.empty, d⟩) (w := w)
        (eq_false_of_ne_true ho) s
      rw [if_neg ho, if_neg ho]
      exact ⟨hcell, hloads, fun h => absurd h ho⟩
  | cons x before ih =>
    obtain ⟨cell, d⟩ := p
    obtain rfl : cell = .empty := hp
    subst hos
    by_cases hx : x.asks = true
    · -- The cell is written by the first operation, and `o` comes later.
      obtain ⟨hcell, -⟩ := hfirst x (by simp [hx]) d s
      have hwritten : (Host.step w ⟨.empty, d⟩ x s).value.2.cell ≠ .empty := by rwa [hcell]
      have hreach : ((reach w ⟨.empty, d⟩ s (x :: before)).1).cell = c :=
        (cell_reach_of_written hwritten _ before).trans hcell
      obtain ⟨hlast, hnone, hlater⟩ := step_of_written (w := w) (o := o)
        (by rwa [hreach] : (reach w ⟨.empty, d⟩ s (x :: before)).1.cell ≠ .empty)
        (reach w ⟨.empty, d⟩ s (x :: before)).2
      rw [hreach] at hlast hlater
      simp only [List.cons_append, List.any_cons, hx, Bool.true_or]
      exact ⟨hlast, hnone, hlater⟩
    · have hxfalse : x.asks = false := eq_false_of_ne_true hx
      obtain ⟨hcell, -⟩ := step_of_not_asks (p := ⟨.empty, d⟩) (w := w) hxfalse s
      have hlater := ih rfl
        (fun o₁ ho₁ => hfirst o₁ (by simpa [List.find?_cons, hxfalse] using ho₁)) hcell
        (Host.step w ⟨.empty, d⟩ x s).state
      simp only [reach, List.cons_append, List.any_cons, hxfalse, Bool.false_or]
      exact hlater

/-- **The library of a process is resolved once, by the first caller.**  Loading a path succeeds if
it opens and has all symbols, and fails with the path or the first missing symbol.  In a run of a
process that starts without a library, paths are tried by the first operation that needs one and by
no other: the given path alone, or the search list up to the first path that loads.  That operation
and all later ones are served by what it found, the same library or the same reason why there is
none. -/
theorem library_resolved_once (B : Backend) (w : Surroundings) (s : B.State) (os : List HostOp) :
    (∀ path, w.loader.Loading path (w.loader.load path)) ∧
      (∀ path, w.loader.load path = .ok () ↔
        ∃ complaint?, w.loader path = .opened complaint? ∧ ∀ e, complaint? e = none) ∧
      (∀ err : LoadError, ∃ a, err.reason = a ++ err.subject ++ ": " ++ err.complaint) ∧
      w.searchPaths = w.libraryPath.toList ++
        (w.executableDir.elim [] fun dir =>
          [pathIn dir "libcapstone.so", pathIn dir "libcapstone.so.2"]) ++
        ["libcapstone.so", "libcapstone.so.2"] ∧
      ∃ tried c, (∀ o, os.find? HostOp.asks = some o → w.Resolves o tried c) ∧
        ∀ before o after, os = before ++ o :: after →
          let p := (reach w {} s before).1
          let s' := (reach w {} s before).2
          let out := p.step w o s'
          (run w {} s os)[before.length]? = some out ∧
            out.value.2.cell = (if (before ++ [o]).any HostOp.asks then c else .empty) ∧
            loadsOf out.events = (if !before.any HostOp.asks && o.asks then tried else []) ∧
            (o.asks = true → Served p.desk s' o.use out c) := by
  refine ⟨w.loader.load_spec, w.loader.load_ok_iff, LoadError.reason_names, w.searchPaths_eq, ?_⟩
  have hresolved : ∃ tried c, c ≠ .empty ∧
      (∀ o, os.find? HostOp.asks = some o → w.Resolves o tried c) ∧
      ∀ o, os.find? HostOp.asks = some o → ∀ (d : Desk) (s : B.State),
        let out := Host.step w ⟨.empty, d⟩ o s
        out.value.2.cell = c ∧ loadsOf out.events = tried ∧ Served d s o.use out c := by
    cases hfind : os.find? HostOp.asks with
    | none => exact ⟨[], .loaded "", (fun h => nomatch h), (fun _ h => nomatch h),
        fun _ h => nomatch h⟩
    | some o₁ =>
      obtain ⟨tried, c, hresolves, hfirst⟩ := step_asks B w (List.find?_some hfind)
      exact ⟨tried, c, hresolves.written, fun o ho => Option.some.inj ho ▸ hresolves,
        fun o ho => Option.some.inj ho ▸ hfirst⟩
  obtain ⟨tried, c, hc, hresolves, hfirst⟩ := hresolved
  refine ⟨tried, c, hresolves, fun before o after hos => ⟨?_, ?_⟩⟩
  · rw [hos]
    exact getElem?_run w {} s before o after
  · exact reach_step_spec hc hos hfirst rfl s

/-- A process whose variable names a library without symbols finds the next one, once. -/
example :
    let loader : Loader := fun path =>
      .opened fun _ => if path = "libcapstone.so" then none else some "undefined symbol"
    let w : Surroundings := ⟨loader, some "/old.so", none⟩
    (run (B := Script.backend) w {} {} [.op .version, .initFrom "/other.so", .op .version]).map
        (fun out => (loadsOf out.events, out.value.2.cell)) =
      [(["/old.so", "libcapstone.so"], .loaded "libcapstone.so"),
        ([], .loaded "libcapstone.so"), ([], .loaded "libcapstone.so")] := by
  decide

end Host

end Disassembly
