import Disassembly.Proofs.Sample.Recognition

/-!
# Two configurations in step

An engine remembers how it is configured, and so does the sample engine for the engine's handle.
They change in different places, and never differ.

* `Event.leaves?` — the status that an event leaves behind for a handle;
* `Sample.mirror_of_replays` — events that neither give up a handle nor set an option of it leave its
  entry as the engine is configured, with the last status left behind;
* `Desk.Course.fate` — an engine after an operation was there before and was left alone, accepted one
  setting, or has just been opened;
* `Sample.Mirrored` — the invariant of a run, which `Sample.mirrored_reach` carries through it.
-/

namespace Disassembly

/-! ### What is left behind -/

namespace Event

/-- The status that an event leaves behind for a handle, where empty decodes leave a certain one. -/
def leaves? (h : Handle) (empty : Status) : Event → Option Status
  | .call (.openEngine _ _) answer => if answer = (0, h) then some 0 else none
  | .call (.option k _) status => if k = h ∧ status ≠ 0 then some 6 else none
  | .call (.disasm k _ _ _) x => if k = h then some (if x.count = 0 then empty else 0) else none
  | _ => none

theorem leaves?_of_not_deals {e : Event} (he : e.deals = false) (h : Handle) (empty : Status) :
    e.leaves? h empty = none := by
  cases e with
  | call c a => cases c <;> first | rfl | cases he
  | _ => rfl

/-- An event that neither gives a handle up nor sets an option of it. -/
def Spares (h : Handle) (e : Event) : Prop :=
  e.closes? ≠ some h ∧ ∀ x, e ≠ .call (.option h x) (0 : Status)

/-- An event about another handle, or about none. -/
theorem spares_of_mentions {h : Handle} {e : Event} (hne : e.mentions? ≠ some h) : e.Spares h := by
  refine ⟨fun hcloses => hne (mentions?_of_closes? hcloses), fun x hx => hne ?_⟩
  rw [hx]
  rfl

end Event

/-! ### One entry -/

namespace Engine

/-- What the sample engine keeps for a new handle is what a new engine has configured. -/
theorem mirror_fresh (h : Handle) (arch : Arch) (diet : Bool) (mode : Mode) :
    mirror ⟨h, arch, diet, mode, arch.defaultDialect, false⟩ 0 = .fresh arch mode := rfl

/-- Configuring the entry and configuring the engine come to the same. -/
theorem mirror_configure (e : Engine) (x : Setting) (errno : Status) :
    (e.mirror errno).configure x = (e.accept x).mirror errno := by
  cases x <;> rfl

/-- An event that spares the handle changes the status at most. -/
theorem mirror_hear (e : Engine) (errno empty : Status) {ev : Event}
    (hopens : ev.opens? ≠ some e.handle) (hspares : ev.Spares e.handle) :
    (e.mirror errno).hear e.handle empty ev =
      e.mirror ((ev.leaves? e.handle empty).getD errno) := by
  cases ev with
  | call c a =>
    cases c with
    | openEngine arch mode =>
      have hne : a ≠ (0, e.handle) := by
        rintro rfl
        exact hopens rfl
      rw [Event.leaves?, if_neg hne]
      rfl
    | option k x =>
      by_cases hk : k = e.handle
      · have hstatus : a ≠ (0 : Status) := by
          rintro rfl
          exact hspares.2 x (by rw [hk])
        rw [SampleHandle.hear, Event.leaves?, if_pos hk, if_neg hstatus, if_pos ⟨hk, hstatus⟩]
        rfl
      · rw [SampleHandle.hear, Event.leaves?, if_neg hk, if_neg fun h => hk h.1]
        rfl
    | disasm k code address count =>
      rw [SampleHandle.hear, Event.leaves?]
      by_cases hk : k = e.handle
      · rw [if_pos hk, if_pos hk]
        rfl
      · rw [if_neg hk, if_neg hk]
        rfl
    | _ => rfl
  | _ => rfl

end Engine

namespace Sample

variable {s s' : Sample} {es : List Event}

/-- **An entry keeps in step** with an engine whose handle is spared. -/
theorem mirror_of_replays {e : Engine} {errno : Status} (hs : s.Proper)
    (h : backend.Replays s es s') (hmirror : s.handle? e.handle = some (e.mirror errno))
    (hspares : ∀ ev ∈ es, ev.Spares e.handle) :
    s'.handle? e.handle = some (e.mirror
      ((es.filterMap (Event.leaves? e.handle s.emptyErrno)).getLast?.getD errno)) := by
  induction es generalizing s errno with
  | nil =>
    have hstate : s' = s := h
    rw [hstate]
    exact hmirror
  | cons ev es ih =>
    obtain ⟨hspared, hrest⟩ := List.forall_mem_cons.mp hspares
    cases ev with
    | call c a =>
      obtain ⟨rfl, hes⟩ := h
      have hopens : (Event.call c (s.answer c).1).opens? ≠ some e.handle := by
        intro hnew
        have hissued := hs.issued _ (mem_keys_of_handle? hmirror)
        rcases s.opens?_answer c with ⟨hnone, -⟩ | ⟨hsome, -⟩
        · rw [hnone] at hnew
          cases hnew
        · rw [hsome] at hnew
          rw [← Option.some.inj hnew] at hissued
          exact Nat.lt_irrefl _ hissued
      have hentry := handle?_answer hmirror c hspared.1
      rw [e.mirror_hear errno s.emptyErrno hopens hspared] at hentry
      have hempty := (manner_eq_iff.mp (s.manner_answer c)).2.2.2.1
      have hlater := ih (hs.answer c) hes hentry hrest
      rw [hempty] at hlater
      refine hlater.trans ?_
      show some (e.mirror _) = some (e.mirror ((List.filterMap _
        (Event.call c (s.answer c).1 :: es)).getLast?.getD errno))
      cases hleaves : (Event.call c (s.answer c).1).leaves? e.handle s.emptyErrno with
      | none => rw [List.filterMap_cons_none hleaves, Option.getD_none]
      | some status =>
        rw [List.filterMap_cons_some hleaves, Option.getD_some, List.getLast?_cons,
          Option.getD_some]
    | _ => exact ih hs h hmirror hrest

end Sample

/-! ### What becomes of an engine -/

namespace Desk

/-- What an engine in a slot after events was before them. -/
inductive Fate (d : Desk) (slot : Nat) : List Event → Engine → Prop where
  | kept {e : Engine} {es : List Event} (he : (slot, e) ∈ d.engines)
    (hes : ∀ ev ∈ es, ev.Spares e.handle) : Fate d slot es e
  | accepted {e : Engine} {x : Setting} (he : (slot, e) ∈ d.engines) :
    Fate d slot [.call (.option e.handle x) (0 : Status)] (e.accept x)
  | opened {h : Handle} {arch : Arch} {diet : Bool} {mode : Mode} {es : List Event}
    (hes : ∀ ev ∈ es, ev.Spares h) (hleaves : ∀ ev ∈ es, ∀ empty, ev.leaves? h empty = none) :
    Fate d slot (.call (.openEngine arch mode) (0, h) :: es)
      ⟨h, arch, diet, mode, arch.defaultDialect, false⟩

end Desk

theorem Engine.Opening.spares {arch : Arch} {mode : Mode} {r : Except Error Engine}
    {es : List Event} (hes : Engine.Opening arch mode r es) (h : Handle) :
    ∀ ev ∈ es, ev.Spares h := by
  have hspared : ∀ answer, (Event.call (.openEngine arch mode) answer).Spares h :=
    fun answer => Event.spares_of_mentions (Option.some_ne_none h).symm
  cases hes with
  | refused err => exact fun ev hev => (nomatch hev)
  | failed err status k hstatus => exact List.forall_mem_singleton.mpr (hspared _)
  | opened k diet => exact List.forall_mem_singleton.mpr (hspared _)

theorem Engine.Decoding.spares {k : Handle} {code : List UInt8} {address : UInt64} {count : Nat}
    {es : List Event} (hes : Engine.Decoding k code address count es) (h : Handle) :
    ∀ ev ∈ es, ev.Spares h := by
  cases hes with
  | mk x hrelease =>
    refine List.forall_mem_cons.mpr ⟨by simp [Event.Spares, Event.closes?], ?_⟩
    cases hrelease <;> simp [Event.Spares, Event.closes?]

theorem Action.spares_of_question {a : Action} {k : Handle} {c : Call} (ha : a.question? k = some c)
    (answer : c.Answer) (h : Handle) : (Event.call c answer).Spares h := by
  cases a <;> cases ha <;> simp [Event.Spares, Event.closes?]

namespace Desk

variable {d d' : Desk} {opened slot : Nat} {e : Engine} {es : List Event}

/-- An engine in another slot has another handle. -/
theorem Sound.handle_ne (hd : d.Sound opened) {k : Nat} {old : Engine} (he : (slot, e) ∈ d.engines)
    (hold : (k, old) ∈ d.engines) (hne : slot ≠ k) : old.handle ≠ e.handle :=
  fun heq => hne (hd.distinct (slot, e) he (k, old) hold heq.symm)

/-- A new handle is none that an engine has. -/
theorem Sound.handle_ne_of_lt (hd : d.Sound opened) (he : (slot, e) ∈ d.engines) {h : Handle}
    (hnew : opened < h.value) : h ≠ e.handle := by
  rintro rfl
  have := hd.issued (slot, e) he
  dsimp only at this
  omega

theorem spares_close {h k : Handle} (hne : k ≠ h) (status : Status) :
    (Event.call (.close k) status).Spares h :=
  Event.spares_of_mentions fun heq => hne (Option.some.inj heq)

/-- **What becomes of an engine**: it is left alone, accepts a setting, or has just been opened. -/
theorem Course.fate {o : Op} (hd : d.Sound opened)
    (hnew : ∀ k ∈ es.filterMap Event.opens?, opened < k.value) (hcourse : d.Course o es d')
    (he : (slot, e) ∈ d'.engines) : d.Fate slot es e := by
  have hnil : (slot, e) ∈ d.engines → d.Fate slot [] e :=
    fun hmem => .kept hmem fun ev hev => (nomatch hev)
  cases hcourse with
  | unopened hopen => exact .kept he (hopen.spares _)
  | @opened k arch mode e₁ es hopen hold =>
    rcases (mem_put hd.tidy).mp he with heq | ⟨hmem, -⟩
    · cases heq
      cases hopen
      exact .opened (fun ev hev => (nomatch hev)) fun ev hev => (nomatch hev)
    · exact .kept hmem (hopen.spares _)
  | @replaced k arch mode e₁ old es hopen hold status =>
    have holdmem := mem_of_engine? hold
    rcases (mem_put hd.tidy).mp he with heq | ⟨hmem, hne⟩
    · cases heq
      cases hopen with
      | opened h diet =>
        have hlt : opened < h.value := hnew h (by simp [Event.opens?])
        have hne := hd.handle_ne_of_lt holdmem hlt
        exact .opened (List.forall_mem_singleton.mpr (spares_close hne.symm status))
          (List.forall_mem_singleton.mpr fun empty => rfl)
    · refine .kept hmem (List.forall_mem_append.mpr ⟨hopen.spares _, ?_⟩)
      exact List.forall_mem_singleton.mpr (spares_close (hd.handle_ne hmem holdmem hne) status)
  | noEngine hno => exact hnil he
  | closed hclosed ha status =>
    obtain ⟨hmem, hne⟩ := mem_remove.mp he
    refine .kept hmem (List.forall_mem_singleton.mpr (spares_close ?_ status))
    exact hd.handle_ne hmem (mem_of_engine? hclosed) hne
  | @accepted k a e₁ x hhad ha hfits =>
    rcases (mem_put hd.tidy).mp he with heq | ⟨hmem, hne⟩
    · cases heq
      exact .accepted (mem_of_engine? hhad)
    · refine .kept hmem (List.forall_mem_singleton.mpr (Event.spares_of_mentions fun heq => ?_))
      exact hd.handle_ne hmem (mem_of_engine? hhad) hne (Option.some.inj heq)
  | @rejected k a e₁ x hhad ha hfits status hstatus =>
    exact .kept he (by simp [Event.Spares, Event.closes?, hstatus])
  | unfit hhad ha hfits => exact hnil he
  | asked hhad ha hdiet answer =>
    exact .kept he (List.forall_mem_singleton.mpr (Action.spares_of_question ha answer _))
  | decoded hhad ha hdiet hes hsame => exact .kept (hsame ▸ he) (hes.spares _)
  | diet hhad ha hdiet => exact hnil he
  | shown hhad => exact hnil he
  | @errand o arch mode code address count es d' ho hes hsame =>
    rw [hsame] at he
    cases hes with
    | unopened hopen => exact .kept he (hopen.spares _)
    | @served h es huse status =>
      have hlt : opened < h.value := hnew h (by simp [Event.opens?])
      refine .kept he (List.forall_mem_cons.mpr ⟨?_, List.forall_mem_append.mpr
        ⟨huse.spares _, List.forall_mem_singleton.mpr (spares_close ?_ status)⟩⟩)
      · simp [Event.Spares, Event.closes?]
      · exact hd.handle_ne_of_lt he hlt
  | idle ho hsame => exact hnil (hsame ▸ he)

end Desk

/-! ### Whole runs -/

/-- The statuses that were left behind for a handle over a journal, each by how the engine behaved
at the time. -/
def statusesLeft (h : Handle) (j : List (Move Sample.backend × Report Sample.backend)) :
    List Status :=
  j.flatMap fun p => p.2.events.filterMap (Event.leaves? h (Sample.emptyErrno p.2.state))

namespace Sample

/-- The invariant of a run in which certain statuses have been left behind for each handle: what the
engine keeps for the handle of each engine of the desk is what that has configured, with the last
of these statuses. -/
structure Mirrored (s : Sample) (d : Desk) (left : Handle → List Status) : Prop where
  proper : s.Proper
  sound : d.Sound s.lastHandle
  mirror : ∀ slot e, (slot, e) ∈ d.engines → ∃ errno,
    s.handle? e.handle = some (e.mirror errno) ∧ (left e.handle).getLast? = some errno

theorem mirrored_fresh : Mirrored {} {} fun _ => [] :=
  ⟨proper_fresh, Desk.sound_empty _, fun _ _ h => (nomatch h)⟩

variable {s : Sample} {d : Desk} {left : Handle → List Status}

/-- **An operation keeps the two configurations in step.** -/
theorem Mirrored.step (h : Mirrored s d left) (o : Op) :
    let r := d.move (B := backend) s (.op o)
    Mirrored r.state r.desk fun k =>
      left k ++ r.events.filterMap (Event.leaves? k (Sample.emptyErrno r.state)) := by
  intro r
  obtain ⟨hproper, hsound, hmirror⟩ := h
  have hcourse : d.Course o (dealings r.events) r.desk := d.step_course fixedDiet_backend o s
  have hreplays : backend.Replays s (dealings r.events) r.state :=
    (d.faithful_step mute_backend o s).dealings still_backend
  have hempty : Sample.emptyErrno r.state = s.emptyErrno :=
    (manner_eq_iff.mp (manner_of_replays hreplays)).2.2.2.1
  have hleft : ∀ k, r.events.filterMap (Event.leaves? k s.emptyErrno) =
      (dealings r.events).filterMap (Event.leaves? k s.emptyErrno) := fun k =>
    (filterMap_dealings (fun ev hev => Event.leaves?_of_not_deals hev k _) _).symm
  obtain ⟨hle, hnew⟩ := opened_bounds hreplays
  refine ⟨hproper.replays hreplays, (hcourse.accounts hsound hle hnew).sound, ?_⟩
  intro slot e he
  have hfate := hcourse.fate hsound (fun k hk => (hnew k hk).1) he
  simp only [hempty, hleft, List.getLast?_append]
  generalize dealings r.events = es at hfate hreplays hnew
  cases hfate with
  | kept hmem hes =>
    obtain ⟨errno, hentry, hlast⟩ := hmirror slot e hmem
    refine ⟨_, mirror_of_replays hproper hreplays hentry hes, ?_⟩
    rw [hlast]
    cases (es.filterMap (Event.leaves? e.handle s.emptyErrno)).getLast? <;> rfl
  | @accepted e x hmem =>
    obtain ⟨errno, hentry, hlast⟩ := hmirror slot e hmem
    obtain ⟨hstatus, hstate⟩ := hreplays
    have hset : (s.answer (.option e.handle x)).2.handle? e.handle =
        some ((e.accept x).mirror errno) := by
      have hheard := handle?_answer hentry (.option e.handle x) (Option.some_ne_none _).symm
      have hzero : (s.answer (.option e.handle x)).1 = 0 := hstatus.symm
      rw [hzero, SampleHandle.hear, if_pos rfl, if_pos rfl, e.mirror_configure] at hheard
      exact hheard
    refine ⟨errno, ?_, ?_⟩
    · rw [e.accept_handle x]
      exact hstate ▸ hset
    · rw [e.accept_handle x, hlast]
      simp [Event.leaves?]
  | @opened k arch diet mode es hes hleaves =>
    obtain ⟨hanswer, hreplays⟩ := hreplays
    have hk : (s.openEngine arch mode).1.2 = k := congrArg Prod.snd hanswer.symm
    have hentry := handle?_openEngine hproper arch mode
    rw [hk, ← Engine.mirror_fresh k arch diet mode] at hentry
    have hnone : ∀ empty, es.filterMap (Event.leaves? k empty) = [] := fun empty =>
      List.filterMap_eq_nil_iff.mpr fun ev hev => hleaves ev hev empty
    have hmirror := mirror_of_replays (e := ⟨k, arch, diet, mode, arch.defaultDialect, false⟩)
      (hproper.answer (.openEngine arch mode)) hreplays hentry hes
    refine ⟨0, ?_, ?_⟩
    · rw [hnone] at hmirror
      exact hmirror
    · have hzero : Event.leaves? k s.emptyErrno (.call (.openEngine arch mode) (0, k)) = some 0 :=
        if_pos rfl
      rw [List.filterMap_cons_some hzero, hnone]
      rfl

/-- Changing how the engine behaves leaves its handles alone. -/
theorem handles_changes (s : Sample) (l : List Change) :
    (l.foldl change s).handles = s.handles ∧ (l.foldl change s).lastHandle = s.lastHandle := by
  induction l generalizing s with
  | nil => exact ⟨rfl, rfl⟩
  | cons c l ih =>
    obtain ⟨hhandles, hlast⟩ := ih (s.change c)
    rw [List.foldl_cons, hhandles, hlast]
    cases c <;> exact ⟨rfl, rfl⟩

theorem Mirrored.change (h : Mirrored s d left) (l : List Change) :
    Mirrored (l.foldl Sample.change s) d left := by
  obtain ⟨hproper, hsound, hmirror⟩ := h
  obtain ⟨hhandles, hlast⟩ := s.handles_changes l
  refine ⟨hproper.congr (by rw [hhandles]) hlast, hlast ▸ hsound, ?_⟩
  intro slot e he
  obtain ⟨errno, hentry, hleft⟩ := hmirror slot e he
  refine ⟨errno, ?_, hleft⟩
  rw [handle?, hhandles]
  exact hentry

/-- A move more. -/
theorem Mirrored.move (h : Mirrored s d left) (m : Move backend) :
    let r := d.move (B := backend) s m
    Mirrored r.state r.desk fun k => left k ++ statusesLeft k [(m, r)] := by
  intro r
  have hone : ∀ k, statusesLeft k [(m, r)] =
      r.events.filterMap (Event.leaves? k (Sample.emptyErrno r.state)) :=
    fun k => List.flatMap_singleton _ _
  simp only [hone]
  cases m with
  | op o => exact h.step o
  | change l =>
    have hevents : r.events = [] := rfl
    simp only [hevents, List.filterMap_nil, List.append_nil]
    exact h.change l

/-- **Wherever moves lead, the two configurations are in step.** -/
theorem mirrored_reach (ms : List (Move backend)) :
    Mirrored (Desk.reach {} ({} : Sample) ms).2 (Desk.reach {} ({} : Sample) ms).1
      fun h => statusesLeft h (Desk.journal {} ({} : Sample) ms) := by
  induction ms using List.reverseRecOn with
  | nil => exact mirrored_fresh
  | append_singleton ms m ih =>
    have hreach := Desk.reach_append (B := backend) {} ({} : Sample) ms [m]
    have hjournal := Desk.journal_append (B := backend) {} ({} : Sample) ms [m]
    have hleft : ∀ h, statusesLeft h (Desk.journal {} ({} : Sample) (ms ++ [m])) =
        statusesLeft h (Desk.journal {} ({} : Sample) ms) ++
          statusesLeft h ((Desk.reach {} ({} : Sample) ms).1.journal
            (Desk.reach {} ({} : Sample) ms).2 [m]) := by
      intro h
      rw [hjournal, statusesLeft, List.flatMap_append]
      rfl
    rw [hreach]
    simp only [hleft]
    exact ih.move m

end Sample

/-! ### Engines for one use -/

section

variable {B : Backend} {α : Type} {s : B.State} {arch : Arch} {mode : Mode}

end

namespace Sample

variable {s : Sample}

/-- A rejected option leaves its status behind, and a later empty decode is none the worse for
it. -/
example :
    let s : Sample := (Desk.reach (B := backend) {} ({} : Sample)
      [.op (.openEngine 0 .x86 .width32), .change [.rejectOptions true],
        .op (.act 0 (.setDetail true))]).2
    s.handles = [(0x101, ⟨.x86, .width32, .intel, false, 6⟩)] ∧
      ((Engine.disasm ⟨⟨0x101⟩, .x86, false, .width32, some .intel, false⟩ [] 0 0 :
        Attempt backend _).run s).value = .ok [] := ⟨rfl, rfl⟩

end Sample

end Disassembly
