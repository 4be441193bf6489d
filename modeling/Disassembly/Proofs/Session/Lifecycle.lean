import Disassembly.Proofs.Session.Course
import Disassembly.Proofs.Session.Replay
import Mathlib.Data.List.Induction
import Mathlib.Data.Set.Insert

/-!
# The life of a handle

A handle is opened, used and closed.  `Event.alive` follows the open handles through events, and
events are `Orderly` if no call mentions a handle that is not open.

* `Orderly.account` — if orderly events open no handle twice, a handle is open after them exactly
  if it was opened and not closed, and none is closed twice;
* `Desk.Sound` — the invariant of a run: the open handles are those of the desk, one a slot;
* `Desk.Course.accounts` — every operation keeps it, and `Desk.transcript_orderly` carries it
  through a run to the end, where no handle is open any more.
-/

namespace Disassembly

/-! ### Open handles -/

namespace Event

/-- The handle that a call closes. -/
def closes? : Event → Option Handle
  | .call (.close h) _ => some h
  | _ => none

/-- The handle that a call mentions. -/
def mentions? (e : Event) : Option Handle :=
  e.call?.bind Call.handle?

/-- The open handles after an event. -/
def alive (e : Event) (L : Set Handle) : Set Handle :=
  {h | (h ∈ L ∨ e.opens? = some h) ∧ e.closes? ≠ some h}

theorem mem_alive {e : Event} {L : Set Handle} {h : Handle} :
    h ∈ e.alive L ↔ (h ∈ L ∨ e.opens? = some h) ∧ e.closes? ≠ some h := Iff.rfl

end Event

/-- The open handles after events. -/
def aliveAfter (L : Set Handle) (es : List Event) : Set Handle :=
  es.foldl (fun L e => e.alive L) L

/-- No event mentions a handle that is not open. -/
def Orderly (L : Set Handle) : List Event → Prop
  | [] => True
  | e :: es => (∀ h ∈ e.mentions?, h ∈ L) ∧ Orderly (e.alive L) es

theorem aliveAfter_append (L : Set Handle) (es es' : List Event) :
    aliveAfter L (es ++ es') = aliveAfter (aliveAfter L es) es' :=
  List.foldl_append

theorem orderly_append {L : Set Handle} {es es' : List Event} :
    Orderly L (es ++ es') ↔ Orderly L es ∧ Orderly (aliveAfter L es) es' := by
  induction es generalizing L with
  | nil => simp [Orderly, aliveAfter]
  | cons e es ih =>
    rw [List.cons_append, Orderly, Orderly, ih, and_assoc]
    rfl

/-- An event that opens and closes nothing leaves the same handles open. -/
theorem alive_of_none {e : Event} (hopens : e.opens? = none) (hcloses : e.closes? = none)
    (L : Set Handle) : e.alive L = L := by
  ext h
  simp [Event.mem_alive, hopens, hcloses]

/-- An event that is no dealing opens, closes and mentions nothing. -/
theorem handles_of_not_deals {e : Event} (h : e.deals = false) :
    e.opens? = none ∧ e.closes? = none ∧ e.mentions? = none := by
  cases e with
  | call c a => cases c <;> first | exact ⟨rfl, rfl, rfl⟩ | cases h
  | _ => exact ⟨rfl, rfl, rfl⟩

/-- Only dealings matter. -/
theorem orderly_dealings {L : Set Handle} {es : List Event} :
    (Orderly L (dealings es) ↔ Orderly L es) ∧ aliveAfter L (dealings es) = aliveAfter L es := by
  induction es generalizing L with
  | nil => exact ⟨Iff.rfl, rfl⟩
  | cons e es ih =>
    rw [dealings_cons]
    cases hdeals : e.deals with
    | true => exact ⟨and_congr_right fun _ => ih.1, ih.2⟩
    | false =>
      obtain ⟨hopens, hcloses, hmentions⟩ := handles_of_not_deals hdeals
      have hkeep := alive_of_none hopens hcloses L
      refine ⟨ih.1.trans ?_, ih.2.trans ?_⟩
      · rw [Orderly, hkeep, hmentions]
        simp
      · rw [aliveAfter, aliveAfter, List.foldl_cons, hkeep]

theorem closes?_of_opens? {e : Event} {h : Handle} (he : e.opens? = some h) : e.closes? = none := by
  cases e with
  | call c a => cases c <;> simp_all [Event.opens?, Event.closes?]
  | _ => rfl

theorem mentions?_of_closes? {e : Event} {h : Handle} (he : e.closes? = some h) :
    e.mentions? = some h := by
  cases e with
  | call c a => cases c <;> simp_all [Event.closes?, Event.mentions?, Event.call?, Call.handle?]
  | _ => cases he

/-- **The account of orderly events**: opened handles that were not closed are open, no handle is
closed twice, and none that was not opened. -/
theorem Orderly.account {es : List Event} (ho : Orderly ∅ es)
    (hn : (es.filterMap Event.opens?).Nodup) :
    (∀ h, h ∈ aliveAfter ∅ es ↔ h ∈ es.filterMap Event.opens? ∧ h ∉ es.filterMap Event.closes?) ∧
      (es.filterMap Event.closes?).Nodup ∧
      ∀ h ∈ es.filterMap Event.closes?, h ∈ es.filterMap Event.opens? := by
  induction es using List.reverseRecOn with
  | nil => simp [aliveAfter]
  | append_singleton es e ih =>
    obtain ⟨hes, hmentions, -⟩ := orderly_append.mp ho
    rw [List.filterMap_append] at hn
    obtain ⟨halive, hcloses, hopened⟩ := ih hes (List.Nodup.of_append_left hn)
    have hafter : aliveAfter ∅ (es ++ [e]) = e.alive (aliveAfter ∅ es) := by
      rw [aliveAfter_append]
      rfl
    have hboth : ∀ f : Event → Option Handle,
        (es ++ [e]).filterMap f = es.filterMap f ++ (f e).toList := by
      intro f
      cases hf : f e <;> simp [hf]
    rw [hafter, hboth, hboth]
    cases hopens : e.opens? with
    | some k =>
      have hnew : k ∉ es.filterMap Event.opens? := by
        intro hk
        exact (List.nodup_append.mp hn).2.2 k hk k (by simp [hopens]) rfl
      have hnever : k ∉ es.filterMap Event.closes? := fun hk => hnew (hopened k hk)
      have hkeeps := closes?_of_opens? hopens
      rw [hkeeps]
      refine ⟨?_, by simpa using hcloses, ?_⟩
      · intro h
        rw [Event.mem_alive, halive, hopens, hkeeps]
        by_cases heq : h = k
        · subst heq
          simp [hnever]
        · simp [heq, Ne.symm heq]
      · intro h hh
        exact List.mem_append_left _ (hopened h (by simpa using hh))
    | none =>
      cases hclose : e.closes? with
      | none =>
        refine ⟨?_, by simpa using hcloses, ?_⟩
        · intro h
          rw [Event.mem_alive, halive, hopens, hclose]
          simp
        · intro h hh
          exact List.mem_append_left _ (hopened h (by simpa using hh))
      | some k =>
        obtain ⟨hk, hnever⟩ := (halive k).mp (hmentions k (mentions?_of_closes? hclose))
        refine ⟨?_, ?_, ?_⟩
        · intro h
          rw [Event.mem_alive, halive, hopens, hclose]
          by_cases heq : h = k
          · subst heq
            simp
          · simp [heq, Ne.symm heq]
        · exact List.Nodup.append hcloses (by simp) (by simpa using hnever)
        · intro h hh
          rcases List.mem_append.mp hh with hmem | hmem
          · exact List.mem_append_left _ (hopened h hmem)
          · rw [show h = k by simpa using hmem]
            exact List.mem_append_left _ hk

/-! ### The handles of a desk -/

namespace Desk

/-- The handles that the engines of a desk hold. -/
def handles (d : Desk) : Set Handle :=
  {h | ∃ p ∈ d.engines, p.2.handle = h}

/-- The invariant of a run in which `opened` handles have been opened: slots are in order, no two
hold one handle, and all handles are among those that were opened. -/
structure Sound (d : Desk) (opened : Nat) : Prop where
  tidy : d.Tidy
  distinct : ∀ p ∈ d.engines, ∀ q ∈ d.engines, p.2.handle = q.2.handle → p.1 = q.1
  issued : ∀ p ∈ d.engines, p.2.handle.value ≤ opened

theorem sound_empty (opened : Nat) : Sound {} opened :=
  ⟨tidy_empty, fun _ hp => (nomatch hp), fun _ hp => (nomatch hp)⟩

variable {d d' : Desk} {slot opened opened' : Nat} {e : Engine}

theorem mem_handles_of_engine? (he : d.engine? slot = some e) : e.handle ∈ d.handles :=
  ⟨(slot, e), mem_of_engine? he, rfl⟩

theorem handles_congr (h : d'.engines = d.engines) : d'.handles = d.handles := by
  unfold handles
  rw [h]

theorem Sound.congr (hd : d.Sound opened) (h : d'.engines = d.engines) (hle : opened ≤ opened') :
    d'.Sound opened' := by
  obtain ⟨htidy, hdistinct, hissued⟩ := hd
  refine ⟨?_, ?_, ?_⟩
  · rw [Tidy, h]
    exact htidy
  · rw [h]
    exact hdistinct
  · rw [h]
    exact fun p hp => Nat.le_trans (hissued p hp) hle

theorem Sound.not_mem_handles (hd : d.Sound opened) {h : Handle} (hnew : opened < h.value) :
    h ∉ d.handles := by
  rintro ⟨p, hp, rfl⟩
  have := hd.issued p hp
  omega

theorem mem_handles_put (hd : d.Tidy) {h : Handle} :
    h ∈ (d.put slot e).handles ↔ e.handle = h ∨ ∃ p ∈ d.engines, p.1 ≠ slot ∧ p.2.handle = h := by
  constructor
  · rintro ⟨p, hp, rfl⟩
    rcases (mem_put hd).mp hp with rfl | ⟨hmem, hne⟩
    · exact Or.inl rfl
    · exact Or.inr ⟨p, hmem, hne, rfl⟩
  · rintro (rfl | ⟨p, hp, hne, rfl⟩)
    · exact ⟨(slot, e), (mem_put hd).mpr (Or.inl rfl), rfl⟩
    · exact ⟨p, (mem_put hd).mpr (Or.inr ⟨hp, hne⟩), rfl⟩

/-- A slot may be filled with an engine whose handle no other slot holds. -/
theorem Sound.put (hd : d.Sound opened) (hle : opened ≤ opened')
    (hother : ∀ p ∈ d.engines, p.2.handle = e.handle → p.1 = slot)
    (hissued : e.handle.value ≤ opened') : (d.put slot e).Sound opened' := by
  refine ⟨hd.tidy.put, ?_, ?_⟩
  · intro p hp q hq heq
    rcases (mem_put hd.tidy).mp hp with rfl | ⟨hp, hpne⟩ <;>
      rcases (mem_put hd.tidy).mp hq with rfl | ⟨hq, hqne⟩
    · rfl
    · exact absurd (hother q hq heq.symm) hqne
    · exact absurd (hother p hp heq) hpne
    · exact hd.distinct p hp q hq heq
  · intro p hp
    rcases (mem_put hd.tidy).mp hp with rfl | ⟨hp, -⟩
    · exact hissued
    · exact Nat.le_trans (hd.issued p hp) hle

theorem Sound.remove (hd : d.Sound opened) (hle : opened ≤ opened') :
    (d.remove slot).Sound opened' :=
  ⟨hd.tidy.remove,
    fun p hp q hq => hd.distinct p (mem_remove.mp hp).1 q (mem_remove.mp hq).1,
    fun p hp => Nat.le_trans (hd.issued p (mem_remove.mp hp).1) hle⟩

/-- Of the engines of a desk only the one in a slot has its handle. -/
theorem Sound.mem_handles_iff (hd : d.Sound opened) (he : d.engine? slot = some e) {h : Handle} :
    h ∈ d.handles ∧ h ≠ e.handle ↔ ∃ p ∈ d.engines, p.1 ≠ slot ∧ p.2.handle = h := by
  constructor
  · rintro ⟨⟨p, hp, rfl⟩, hne⟩
    refine ⟨p, hp, fun hslot => hne ?_, rfl⟩
    rw [hd.tidy.eq_of_slot_eq hp (mem_of_engine? he) hslot]
  · rintro ⟨p, hp, hne, rfl⟩
    refine ⟨⟨p, hp, rfl⟩, fun heq => hne ?_⟩
    exact hd.distinct p hp (slot, e) (mem_of_engine? he) heq

theorem Sound.handles_remove (hd : d.Sound opened) (he : d.engine? slot = some e) :
    (d.remove slot).handles = {h | h ∈ d.handles ∧ h ≠ e.handle} := by
  ext h
  refine Iff.trans ?_ (hd.mem_handles_iff he).symm
  constructor
  · rintro ⟨p, hp, rfl⟩
    exact ⟨p, (mem_remove.mp hp).1, (mem_remove.mp hp).2, rfl⟩
  · rintro ⟨p, hp, hne, rfl⟩
    exact ⟨p, mem_remove.mpr ⟨hp, hne⟩, rfl⟩

end Desk

/-! ### What an operation does to the open handles -/

/-- An event that, if it is a call about a handle, uses this one. -/
def Event.Uses (h : Handle) (e : Event) : Prop :=
  e.opens? = none ∧ e.closes? = none ∧ ∀ k ∈ e.mentions?, k = h

/-- Using an open handle is in order, and leaves the same handles open. -/
theorem orderly_of_uses {L : Set Handle} {h : Handle} (hL : h ∈ L) {es : List Event}
    (hes : ∀ e ∈ es, e.Uses h) : Orderly L es ∧ aliveAfter L es = L := by
  induction es with
  | nil => exact ⟨trivial, rfl⟩
  | cons e es ih =>
    obtain ⟨hopens, hcloses, hmentions⟩ := hes e List.mem_cons_self
    have hkeep := alive_of_none hopens hcloses L
    obtain ⟨horderly, halive⟩ := ih fun e' he' => hes e' (List.mem_cons_of_mem e he')
    refine ⟨⟨fun k hk => hmentions k hk ▸ hL, ?_⟩, ?_⟩
    · rw [hkeep]
      exact horderly
    · rw [aliveAfter, List.foldl_cons, hkeep]
      exact halive

theorem Engine.Release.uses {h : Handle} {x : Decoded} {es : List Event}
    (hes : Engine.Release h x es) : ∀ e ∈ es, e.Uses h := by
  intro e he
  cases hes with
  | empty status hcount =>
    rw [List.mem_singleton.mp he]
    exact ⟨rfl, rfl, fun k hk => (Option.some.inj hk).symm⟩
  | null hcount harray => cases he
  | freed a hcount harray =>
    rw [List.mem_singleton.mp he]
    exact ⟨rfl, rfl, fun k hk => nomatch hk⟩

theorem Engine.Decoding.uses {h : Handle} {code : List UInt8} {address : UInt64} {count : Nat}
    {es : List Event} (hes : Engine.Decoding h code address count es) : ∀ e ∈ es, e.Uses h := by
  cases hes with
  | mk x hrelease =>
    intro e he
    rcases List.mem_cons.mp he with rfl | hmem
    · exact ⟨rfl, rfl, fun k hk => (Option.some.inj hk).symm⟩
    · exact hrelease.uses e hmem

theorem Engine.Decoding.not_open {h : Handle} {code : List UInt8} {address : UInt64} {count : Nat}
    {es : List Event} (hes : Engine.Decoding h code address count es) {arch : Arch} {mode : Mode}
    (answer : Status × Handle) : .call (.openEngine arch mode) answer ∉ es := by
  cases hes with
  | mk x hrelease => cases hrelease <;> simp

theorem Action.uses_of_question {a : Action} {h : Handle} {c : Call} (ha : a.question? h = some c)
    (answer : c.Answer) : (Event.call c answer).Uses h := by
  cases a <;> cases ha <;> exact ⟨rfl, rfl, fun k hk => (Option.some.inj hk).symm⟩

theorem Engine.accept_handle (e : Engine) (x : Setting) : (e.accept x).handle = e.handle := by
  cases x <;> rfl

/-- Closing an open handle leaves the others open. -/
theorem orderly_close {L : Set Handle} {h : Handle} (hL : h ∈ L) (status : Status) :
    Orderly L [.call (.close h) status] ∧
      aliveAfter L [.call (.close h) status] = {k | k ∈ L ∧ k ≠ h} := by
  refine ⟨⟨fun k hk => Option.some.inj hk ▸ hL, trivial⟩, ?_⟩
  ext k
  change k ∈ (Event.call (.close h) status).alive L ↔ k ∈ L ∧ k ≠ h
  simp [Event.mem_alive, Event.opens?, Event.closes?, eq_comm]

/-- Opening adds the handle that is given, if opening succeeds. -/
theorem Engine.Opening.orderly {L : Set Handle} {arch : Arch} {mode : Mode}
    {r : Except Error Engine} {es : List Event} (hes : Engine.Opening arch mode r es) :
    Orderly L es ∧ aliveAfter L es = {k | k ∈ L ∨ ∃ e, r = .ok e ∧ k = e.handle} := by
  cases hes with
  | refused err =>
    refine ⟨trivial, ?_⟩
    ext k
    simp [aliveAfter]
  | failed err status h hstatus =>
    refine ⟨⟨fun k hk => absurd hk (Option.not_mem_none k), trivial⟩, ?_⟩
    ext k
    simp [aliveAfter, Event.mem_alive, Event.opens?, Event.closes?, hstatus]
  | opened h diet =>
    refine ⟨⟨fun k hk => absurd hk (Option.not_mem_none k), trivial⟩, ?_⟩
    ext k
    simp [aliveAfter, Event.mem_alive, Event.opens?, Event.closes?, eq_comm]

theorem Engine.Opening.orderly_error {L : Set Handle} {arch : Arch} {mode : Mode} {err : Error}
    {es : List Event} (hes : Engine.Opening arch mode (.error err) es) :
    Orderly L es ∧ aliveAfter L es = L := by
  obtain ⟨horderly, halive⟩ := hes.orderly (L := L)
  refine ⟨horderly, halive.trans ?_⟩
  ext k
  simp

theorem Engine.Opening.opens {arch : Arch} {mode : Mode} {e : Engine} {es : List Event}
    (hes : Engine.Opening arch mode (.ok e) es) : e.handle ∈ es.filterMap Event.opens? := by
  cases hes with
  | opened h diet => simp [Event.opens?]

theorem Engine.Opening.alone_of_failed {arch arch' : Arch} {mode mode' : Mode}
    {r : Except Error Engine} {es : List Event} (hes : Engine.Opening arch mode r es)
    {status : Status} {h : Handle} (hstatus : status ≠ 0)
    (hmem : .call (.openEngine arch' mode') (status, h) ∈ es) :
    es = [.call (.openEngine arch' mode') (status, h)] := by
  cases hes with
  | refused err => cases hmem
  | failed err status' h' hstatus' => rw [List.mem_singleton.mp hmem]
  | opened h' diet => simp [hstatus] at hmem

/-- An errand leaves the handles as they were, if its own is a new one. -/
theorem Errand.orderly {L : Set Handle} {arch : Arch} {mode : Mode}
    {P : Handle → List Event → Prop} {es : List Event} (hes : Errand arch mode P es)
    (hP : ∀ h es, P h es → ∀ e ∈ es, e.Uses h) (hnew : ∀ k ∈ es.filterMap Event.opens?, k ∉ L) :
    Orderly L es ∧ aliveAfter L es = L := by
  cases hes with
  | unopened hopen => exact hopen.orderly_error
  | @served h es huse status =>
    have hopening : Engine.Opening arch mode _ _ := .opened h false
    obtain ⟨hopens, hwith⟩ := hopening.orderly (L := L)
    have hopen : h ∈ aliveAfter L [.call (.openEngine arch mode) (0, h)] := by
      rw [hwith]
      exact Or.inr ⟨_, rfl, rfl⟩
    obtain ⟨huses, hsame⟩ := orderly_of_uses hopen (hP h es huse)
    obtain ⟨hcloses, hwithout⟩ := orderly_close hopen status
    rw [← hsame] at hcloses
    rw [← List.singleton_append]
    refine ⟨orderly_append.mpr ⟨hopens, orderly_append.mpr ⟨huses, hcloses⟩⟩, ?_⟩
    rw [aliveAfter_append, aliveAfter_append, hsame, hwithout, hwith]
    have hh : h ∉ L := hnew h (by simp [Event.opens?])
    ext k
    constructor
    · rintro ⟨hk | ⟨e, he, rfl⟩, hne⟩
      · exact hk
      · cases he
        exact absurd rfl hne
    · exact fun hk => ⟨Or.inl hk, fun heq => hh (heq ▸ hk)⟩

namespace Desk

variable {d d' : Desk} {opened opened' : Nat}

/-- Events account for a change of the desk: they mention open handles only, and leave open those
of the second desk, which is sound. -/
structure Accounts (d : Desk) (es : List Event) (d' : Desk) (opened' : Nat) : Prop where
  orderly : Orderly d.handles es
  alive : aliveAfter d.handles es = d'.handles
  sound : d'.Sound opened'

/-- Events that leave the open handles alone go with a desk that has the same engines. -/
theorem Accounts.of_same {es : List Event} (hd : d.Sound opened) (hle : opened ≤ opened')
    (hes : Orderly d.handles es ∧ aliveAfter d.handles es = d.handles)
    (hsame : d'.engines = d.engines) : d.Accounts es d' opened' :=
  ⟨hes.1, hes.2.trans (handles_congr hsame).symm, hd.congr hsame hle⟩

/-- A new engine in a slot that was empty. -/
theorem Accounts.of_opened {slot : Nat} {arch : Arch} {mode : Mode} {e : Engine} {es : List Event}
    (hd : d.Sound opened) (hle : opened ≤ opened') (hopen : Engine.Opening arch mode (.ok e) es)
    (hold : d.engine? slot = none) (hnew : opened < e.handle.value ∧ e.handle.value ≤ opened') :
    d.Accounts es (d.put slot e) opened' := by
  obtain ⟨horderly, halive⟩ := hopen.orderly (L := d.handles)
  refine ⟨horderly, ?_, hd.put hle ?_ hnew.2⟩
  · rw [halive]
    ext k
    rw [mem_handles_put hd.tidy]
    constructor
    · rintro (⟨p, hp, rfl⟩ | ⟨e', he', rfl⟩)
      · exact Or.inr ⟨p, hp, slot_ne_of_engine? hold hp, rfl⟩
      · exact Or.inl (congrArg Engine.handle (Except.ok.inj he'))
    · rintro (rfl | ⟨p, hp, -, rfl⟩)
      · exact Or.inr ⟨e, rfl, rfl⟩
      · exact Or.inl ⟨p, hp, rfl⟩
  · intro p hp heq
    exact absurd ⟨p, hp, heq⟩ (hd.not_mem_handles hnew.1)

/-- A new engine in place of an old one, which is closed. -/
theorem Accounts.of_replaced {slot : Nat} {arch : Arch} {mode : Mode} {e old : Engine}
    {es : List Event} (hd : d.Sound opened) (hle : opened ≤ opened')
    (hopen : Engine.Opening arch mode (.ok e) es) (hold : d.engine? slot = some old)
    (hnew : opened < e.handle.value ∧ e.handle.value ≤ opened') (status : Status) :
    d.Accounts (es ++ [.call (.close old.handle) status]) (d.put slot e) opened' := by
  have hfresh := hd.not_mem_handles hnew.1
  obtain ⟨horderly, halive⟩ := hopen.orderly (L := d.handles)
  have hopened : old.handle ∈ aliveAfter d.handles es := by
    rw [halive]
    exact Or.inl (mem_handles_of_engine? hold)
  obtain ⟨hclose, hclosed⟩ := orderly_close hopened status
  refine ⟨orderly_append.mpr ⟨horderly, hclose⟩, ?_, hd.put hle ?_ hnew.2⟩
  · rw [aliveAfter_append, hclosed, halive]
    ext k
    rw [mem_handles_put hd.tidy, ← hd.mem_handles_iff hold]
    constructor
    · rintro ⟨hk | ⟨e', he', rfl⟩, hne⟩
      · exact Or.inr ⟨hk, hne⟩
      · exact Or.inl (congrArg Engine.handle (Except.ok.inj he'))
    · rintro (rfl | ⟨hk, hne⟩)
      · refine ⟨Or.inr ⟨e, rfl, rfl⟩, fun heq => hfresh ?_⟩
        rw [heq]
        exact mem_handles_of_engine? hold
      · exact ⟨Or.inl hk, hne⟩
  · intro p hp heq
    exact absurd ⟨p, hp, heq⟩ hfresh

/-- An engine is configured and keeps its handle. -/
theorem Accounts.of_configured {slot : Nat} {e e' : Engine} {es : List Event}
    (hd : d.Sound opened) (hle : opened ≤ opened') (he : d.engine? slot = some e)
    (hhandle : e'.handle = e.handle) (hes : ∀ x ∈ es, x.Uses e.handle) :
    d.Accounts es (d.put slot e') opened' := by
  obtain ⟨horderly, halive⟩ := orderly_of_uses (mem_handles_of_engine? he) hes
  refine ⟨horderly, ?_, hd.put hle ?_ ?_⟩
  · rw [halive]
    ext k
    rw [mem_handles_put hd.tidy, ← hd.mem_handles_iff he, hhandle]
    constructor
    · intro hk
      by_cases heq : k = e.handle
      · exact Or.inl heq.symm
      · exact Or.inr ⟨hk, heq⟩
    · rintro (rfl | ⟨hk, -⟩)
      · exact mem_handles_of_engine? he
      · exact hk
  · intro p hp heq
    exact hd.distinct p hp (slot, e) (mem_of_engine? he) (heq.trans hhandle)
  · rw [hhandle]
    exact Nat.le_trans (hd.issued (slot, e) (mem_of_engine? he)) hle

theorem Accounts.of_closed {slot : Nat} {e : Engine} (hd : d.Sound opened) (hle : opened ≤ opened')
    (he : d.engine? slot = some e) (status : Status) :
    d.Accounts [.call (.close e.handle) status] (d.remove slot) opened' := by
  obtain ⟨horderly, halive⟩ := orderly_close (mem_handles_of_engine? he) status
  exact ⟨horderly, halive.trans (hd.handles_remove he).symm, hd.remove hle⟩

/-- **Every operation accounts for the handles of the desk**, if those it opens are new. -/
theorem Course.accounts {o : Op} {es : List Event} (hd : d.Sound opened) (hle : opened ≤ opened')
    (hnew : ∀ k ∈ es.filterMap Event.opens?, opened < k.value ∧ k.value ≤ opened')
    (hcourse : d.Course o es d') : d.Accounts es d' opened' := by
  have hnothing : Orderly d.handles [] ∧ aliveAfter d.handles [] = d.handles := ⟨trivial, rfl⟩
  cases hcourse with
  | unopened hopen => exact .of_same hd hle hopen.orderly_error rfl
  | opened hopen hold => exact .of_opened hd hle hopen hold (hnew _ hopen.opens)
  | replaced hopen hold status =>
    refine .of_replaced hd hle hopen hold (hnew _ ?_) status
    rw [List.filterMap_append]
    exact List.mem_append_left _ hopen.opens
  | noEngine he => exact .of_same hd hle hnothing rfl
  | closed he ha status => exact .of_closed hd hle he status
  | @accepted slot a e x he ha hfits =>
    refine .of_configured hd hle he (e.accept_handle x) fun c hc => ?_
    rw [List.mem_singleton.mp hc]
    exact ⟨rfl, rfl, fun k hk => (Option.some.inj hk).symm⟩
  | @rejected slot a e x he ha hfits status hstatus =>
    refine .of_same hd hle (orderly_of_uses (mem_handles_of_engine? he) fun c hc => ?_) rfl
    rw [List.mem_singleton.mp hc]
    exact ⟨rfl, rfl, fun k hk => (Option.some.inj hk).symm⟩
  | unfit he ha hfits => exact .of_same hd hle hnothing rfl
  | @asked slot a e c he ha hdiet answer =>
    refine .of_same hd hle (orderly_of_uses (mem_handles_of_engine? he) fun c' hc => ?_) rfl
    rw [List.mem_singleton.mp hc]
    exact Action.uses_of_question ha answer
  | decoded he ha hdiet hes hsame =>
    exact .of_same hd hle (orderly_of_uses (mem_handles_of_engine? he) hes.uses) hsame
  | diet he ha hdiet => exact .of_same hd hle hnothing rfl
  | shown he => exact .of_same hd hle hnothing rfl
  | errand ho hes hsame =>
    refine .of_same hd hle (hes.orderly (fun h es hP => hP.uses) fun k hk => ?_) hsame
    exact hd.not_mem_handles (hnew k hk).1
  | idle ho hsame => exact .of_same hd hle hnothing hsame

/-! ### Whole runs -/

/-- The handles that events open are those that a scripted engine numbers. -/
theorem opened_bounds {s s' : Script} {es : List Event} (hes : Script.backend.Replays s es s') :
    s.opened ≤ s'.opened ∧
      ∀ k ∈ es.filterMap Event.opens?, s.opened < k.value ∧ k.value ≤ s'.opened := by
  obtain ⟨hle, hrange⟩ := Script.opened_of_replays hes
  refine ⟨hle, ?_⟩
  intro k hk
  have hvalue : k.value ∈ es.filterMap fun e => e.opens?.map Handle.value := by
    obtain ⟨e, he, hopens⟩ := List.mem_filterMap.mp hk
    exact List.mem_filterMap.mpr ⟨e, he, by rw [hopens]; rfl⟩
  rw [hrange, List.mem_range'_1] at hvalue
  omega

theorem move_accounts {s : Script} (hd : d.Sound s.opened) (m : Move Script.backend) :
    d.Accounts (d.move s m).events (d.move s m).desk (d.move s m).state.opened := by
  cases m with
  | op o =>
    have hcourse := d.step_course Script.fixedDiet_backend o s
    obtain ⟨hle, hnew⟩ := opened_bounds (d.faithful_step Script.mute_backend o s)
    have haccounts := hcourse.accounts hd hle fun k hk => by
      obtain ⟨e, he, hopens⟩ := List.mem_filterMap.mp hk
      exact hnew k (List.mem_filterMap.mpr ⟨e, (List.mem_filter.mp he).1, hopens⟩)
    exact ⟨orderly_dealings.1.mp haccounts.orderly, orderly_dealings.2.symm.trans haccounts.alive,
      haccounts.sound⟩
  | change l =>
    have hsame := (Script.counts_changes s l).1
    exact .of_same hd (Nat.le_of_eq hsame.symm) ⟨trivial, rfl⟩ rfl

/-- Dropping engines that hold different handles leaves none of the handles open. -/
theorem dropAll_orderly {B : Backend} {l : List (Nat × Engine)}
    (hl : (l.map fun p => p.2.handle).Nodup) (s : B.State) :
    let es := (dropAll l s : Outcome B.State Unit).events
    let L : Set Handle := {h | ∃ p ∈ l, p.2.handle = h}
    Orderly L es ∧ aliveAfter L es = ∅ := by
  induction l generalizing s with
  | nil => exact ⟨trivial, by ext h; simp [dropAll, aliveAfter]⟩
  | cons p l ih =>
    obtain ⟨hp, hrest⟩ := List.nodup_cons.mp hl
    obtain ⟨horderly, halive⟩ := ih hrest (p.2.drop s : Outcome B.State Unit).state
    have hdrop := p.2.dealings_drop s
    have hopen : p.2.handle ∈ {h | ∃ q ∈ p :: l, q.2.handle = h} := ⟨p, List.mem_cons_self, rfl⟩
    obtain ⟨hclose, hclosed⟩ := orderly_close hopen (B.answer s (.close p.2.handle)).1
    rw [← hdrop] at hclose hclosed
    have hleft : {k | k ∈ {h | ∃ q ∈ p :: l, q.2.handle = h} ∧ k ≠ p.2.handle} =
        {h | ∃ q ∈ l, q.2.handle = h} := by
      ext k
      constructor
      · rintro ⟨⟨q, hq, rfl⟩, hne⟩
        rcases List.mem_cons.mp hq with rfl | hmem
        · exact absurd rfl hne
        · exact ⟨q, hmem, rfl⟩
      · rintro ⟨q, hq, rfl⟩
        exact ⟨⟨q, List.mem_cons_of_mem p hq, rfl⟩, fun heq => hp (List.mem_map.mpr ⟨q, hq, heq⟩)⟩
    rw [orderly_dealings.2, hleft] at hclosed
    simp only [dropAll, Dialogue.run_bind, orderly_append, aliveAfter_append, hclosed]
    exact ⟨⟨orderly_dealings.1.mp hclose, horderly⟩, halive⟩

theorem Sound.nodup (hd : d.Sound opened) : (d.engines.map fun p => p.2.handle).Nodup := by
  have hslots : (d.engines.map Prod.fst).Nodup := hd.tidy.imp Nat.ne_of_lt
  refine List.Nodup.map_on (fun p hp q hq heq => ?_) (List.Nodup.of_map Prod.fst hslots)
  exact hd.tidy.eq_of_slot_eq hp hq (hd.distinct p hp q hq heq)

/-- A run keeps to the open handles, and in the end none is open. -/
theorem transcript_orderly {s : Script} (hd : d.Sound s.opened) (ms : List (Move Script.backend)) :
    Orderly d.handles (d.transcript s ms) ∧ aliveAfter d.handles (d.transcript s ms) = ∅ := by
  induction ms generalizing d s with
  | nil => exact dropAll_orderly (B := Script.backend) hd.nodup s
  | cons m ms ih =>
    obtain ⟨hmove, halive, hsound⟩ := move_accounts hd m
    obtain ⟨horderly, hnone⟩ := ih hsound
    have hsplit : d.transcript s (m :: ms) =
        (d.move s m).events ++ (d.move s m).desk.transcript (d.move s m).state ms := rfl
    rw [hsplit, orderly_append, aliveAfter_append, halive]
    exact ⟨⟨hmove, horderly⟩, hnone⟩

/-- An opening that fails is all that its operation deals in. -/
theorem Course.alone_of_failed_open {o : Op} {es : List Event} (hcourse : d.Course o es d')
    {arch : Arch} {mode : Mode} {status : Status} {h : Handle} (hstatus : status ≠ 0)
    (hmem : .call (.openEngine arch mode) (status, h) ∈ es) :
    es = [.call (.openEngine arch mode) (status, h)] := by
  cases hcourse with
  | unopened hopen => exact hopen.alone_of_failed hstatus hmem
  | opened hopen hold => exact hopen.alone_of_failed hstatus hmem
  | replaced hopen hold closing =>
    rcases List.mem_append.mp hmem with hmem | hmem
    · cases hopen
      simp [hstatus] at hmem
    · simp at hmem
  | @asked slot a e c he ha hdiet answer =>
    cases a <;> cases ha <;> simp at hmem
  | decoded he ha hdiet hes hsame => exact absurd hmem (hes.not_open _)
  | errand ho hes hsame =>
    cases hes with
    | unopened hopen => exact hopen.alone_of_failed hstatus hmem
    | served huse closing =>
      rcases List.mem_cons.mp hmem with heq | hmem
      · simp [hstatus] at heq
      · rcases List.mem_append.mp hmem with hmem | hmem
        · exact absurd hmem (huse.not_open _)
        · simp at hmem
  | _ => simp at hmem

theorem no_handle_of_failed_open {s : Script.backend.State} (m : Move Script.backend) {arch : Arch}
    {mode : Mode} {status : Status} {h : Handle} (hstatus : status ≠ 0)
    (hmem : .call (.openEngine arch mode) (status, h) ∈ (d.move s m).events) :
    ∀ c ∈ callsOf (d.move s m).events, c.handle? = none := by
  cases m with
  | change l => cases hmem
  | op o =>
    have hcourse := d.step_course Script.fixedDiet_backend o s
    have halone : dealings (d.move s (.op o)).events =
        [.call (.openEngine arch mode) (status, h)] :=
      hcourse.alone_of_failed_open hstatus (List.mem_filter.mpr ⟨hmem, rfl⟩)
    intro c hc
    obtain ⟨e, he, hcall⟩ := List.mem_filterMap.mp hc
    have hmentions : e.mentions? = c.handle? := by rw [Event.mentions?, hcall]; rfl
    rw [← hmentions]
    cases hdeals : e.deals with
    | false => exact (handles_of_not_deals hdeals).2.2
    | true =>
      have hdealt : e ∈ dealings (d.move s (.op o)).events := List.mem_filter.mpr ⟨he, hdeals⟩
      rw [halone] at hdealt
      rw [List.mem_singleton.mp hdealt]
      rfl

end Desk

theorem mem_opens {es : List Event} {h : Handle} : h ∈ es.filterMap Event.opens? ↔
    ∃ arch mode, .call (.openEngine arch mode) (0, h) ∈ es := by
  constructor
  · intro hmem
    obtain ⟨e, he, hopens⟩ := List.mem_filterMap.mp hmem
    unfold Event.opens? at hopens
    split at hopens
    · next arch mode answer =>
      split at hopens
      · next hok =>
        obtain ⟨status, k⟩ := answer
        cases hopens
        cases hok
        exact ⟨arch, mode, he⟩
      · cases hopens
    · cases hopens
  · rintro ⟨arch, mode, he⟩
    exact List.mem_filterMap.mpr ⟨_, he, rfl⟩

theorem mem_closes {es : List Event} {h : Handle} : h ∈ es.filterMap Event.closes? ↔
    ∃ status, .call (.close h) status ∈ es := by
  constructor
  · intro hmem
    obtain ⟨e, he, hcloses⟩ := List.mem_filterMap.mp hmem
    unfold Event.closes? at hcloses
    split at hcloses
    · next k status =>
      cases hcloses
      exact ⟨status, he⟩
    · cases hcloses
  · rintro ⟨status, he⟩
    exact List.mem_filterMap.mpr ⟨_, he, rfl⟩

theorem count_close (es : List Event) (h : Handle) :
    (callsOf es).count (.close h) = (es.filterMap Event.closes?).count h := by
  rw [callsOf, List.count_filterMap, List.count_filterMap]
  refine List.countP_congr fun e _ => ?_
  cases e with
  | call c a => cases c <;> simp [Event.call?, Event.closes?]
  | _ => simp [Event.call?, Event.closes?]

/-- A handle is mentioned between its opening and its closing. -/
theorem Orderly.of_mentions {pre post : List Event} {e : Event} {h : Handle}
    (ho : Orderly ∅ (pre ++ e :: post)) (hn : ((pre ++ e :: post).filterMap Event.opens?).Nodup)
    (hmentions : e.mentions? = some h) :
    h ∈ pre.filterMap Event.opens? ∧ h ∉ pre.filterMap Event.closes? := by
  obtain ⟨hpre, hopen, -⟩ := orderly_append.mp ho
  rw [List.filterMap_append] at hn
  exact ((hpre.account (List.Nodup.of_append_left hn)).1 h).mp (hopen h hmentions)

/-- The events of a session are in order, leave no handle open and open none twice. -/
theorem Session.events_orderly (s : Script) (ms : List (Move Script.backend)) :
    Orderly ∅ (play s ms).events ∧ aliveAfter ∅ (play s ms).events = ∅ ∧
      ((play s ms).events.filterMap Event.opens?).Nodup := by
  obtain ⟨horderly, hnone⟩ := Desk.transcript_orderly (Desk.sound_empty s.opened) ms
  obtain ⟨s', hnumbers⟩ := Desk.numbers_transcript Script.opened_of_replays
    (fun s l => (Script.counts_changes s l).1) {} s ms
  have hempty : Desk.handles {} = ∅ := by
    ext h
    simp [Desk.handles]
  rw [hempty] at horderly hnone
  have hnodup := hnumbers.nodup
  rw [← List.map_filterMap] at hnodup
  have hevents : (play s ms).events = Desk.transcript {} s ms := events_play s ms
  rw [hevents]
  exact ⟨horderly, hnone, List.Nodup.of_map Handle.value hnodup⟩

/-- **The life of every handle.**  A call mentions a handle only after the opening that gave it,
and not after it was closed; a handle that was opened is closed once; and where an opening fails,
the operation makes no call about any handle. -/
theorem Session.handle_lifecycle (s : Script) (ms : List (Move Script.backend)) :
    (∀ pre c a post h, (play s ms).events = pre ++ .call c a :: post → c.handle? = some h →
      (∃ arch mode, .call (.openEngine arch mode) (0, h) ∈ pre) ∧
        ∀ status, .call (.close h) status ∉ pre) ∧
    (∀ arch mode h, .call (.openEngine arch mode) (0, h) ∈ (play s ms).events →
      (callsOf (play s ms).events).count (.close h) = 1) ∧
    (∀ r ∈ (play s ms).reports, ∀ arch mode status h,
      .call (.openEngine arch mode) (status, h) ∈ r.events → status ≠ 0 →
        ∀ c ∈ callsOf r.events, c.handle? = none) := by
  obtain ⟨horderly, hnone, hnodup⟩ := events_orderly s ms
  refine ⟨?_, ?_, ?_⟩
  · intro pre c a post h hsplit hhandle
    rw [hsplit] at horderly hnodup
    obtain ⟨hopened, hnever⟩ := horderly.of_mentions hnodup hhandle
    exact ⟨mem_opens.mp hopened, fun status hmem => hnever (mem_closes.mpr ⟨status, hmem⟩)⟩
  · intro arch mode h hopen
    obtain ⟨halive, honce, -⟩ := horderly.account hnodup
    have hopened := mem_opens.mpr ⟨arch, mode, hopen⟩
    have hclosed : h ∈ (play s ms).events.filterMap Event.closes? := by
      by_contra hnever
      have hleft := (halive h).mpr ⟨hopened, hnever⟩
      rw [hnone] at hleft
      exact hleft
    rw [count_close]
    exact List.count_eq_one_of_mem honce hclosed
  · intro r hr arch mode status h hmem hstatus
    obtain ⟨d, s', m, rfl⟩ := Desk.exists_move_of_mem_run (reports_play s ms ▸ hr)
    exact Desk.no_handle_of_failed_open m hstatus hmem

end Disassembly
