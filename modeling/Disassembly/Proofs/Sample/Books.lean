import Disassembly.Proofs.Sample.Mirror
import Disassembly.Proofs.Session.Arrays

/-!
# The books of the sample engine

The sample engine counts what is asked of it, and the counts are in balance.

* `Desk.Course.counts` — an operation opens as many handles as it closes, but for those that engines
  of the desk keep or held before;
* `Solvent` — nothing is freed that has not been handed out; events that decode once are solvent
  and leave nothing outstanding (`DecodesOnce.solvent`);
* `Sample.counted_of_replays`, `Sample.size_of_replays` — the counts of the sample engine are those of
  the events;
* `Sample.Balanced` — the invariant of a run, which `Sample.balanced_reach` carries through it.
-/

namespace Disassembly

/-! ### Slots and handles -/

/-- Leaving out a key that is there once makes a list shorter by one. -/
theorem length_filter_key {ν : Type} {k : Nat} {l : List (Nat × ν)} (hl : (l.map Prod.fst).Nodup)
    (hk : k ∈ l.map Prod.fst) : (l.filter fun p => p.1 ≠ k).length + 1 = l.length := by
  induction l with
  | nil => cases hk
  | cons p l ih =>
    obtain ⟨hp, hrest⟩ := List.nodup_cons.mp hl
    by_cases heq : p.1 = k
    · have hsame : l.filter (fun q => q.1 ≠ k) = l := by
        refine List.filter_eq_self.mpr fun q hq => ?_
        have hne : q.1 ≠ k := fun hqk => hp (heq.trans hqk.symm ▸ List.mem_map_of_mem hq)
        simpa using hne
      rw [List.filter_cons_of_neg (by simp [heq]), hsame, List.length_cons]
    · have hmem : k ∈ l.map Prod.fst := (List.mem_cons.mp hk).resolve_left (Ne.symm heq)
      rw [List.filter_cons_of_pos (by simp [heq]), List.length_cons, ih hrest hmem,
        List.length_cons]

namespace Desk

variable {d d' : Desk} {slot : Nat} {e old : Engine} {es : List Event}

theorem filter_insert (slot : Nat) (e : Engine) (l : List (Nat × Engine)) :
    (insert slot e l).filter (fun p => p.1 ≠ slot) = l.filter fun p => p.1 ≠ slot := by
  induction l with
  | nil => simp [insert]
  | cons p l ih =>
    rw [insert]
    split
    · simp
    · split
      · next heq => simp [← heq]
      · next hne => rw [List.filter_cons, ih, List.filter_cons]

theorem Tidy.nodup (hd : d.Tidy) : (d.engines.map Prod.fst).Nodup :=
  hd.imp Nat.ne_of_lt

theorem length_remove (hd : d.Tidy) (he : d.engine? slot = some e) :
    (d.remove slot).engines.length + 1 = d.engines.length :=
  length_filter_key hd.nodup (List.mem_map_of_mem (mem_of_engine? he))

theorem length_put (hd : d.Tidy) :
    (d.put slot e).engines.length = (d.remove slot).engines.length + 1 := by
  have hmem : (slot, e) ∈ (d.put slot e).engines := (mem_put hd).mpr (Or.inl rfl)
  have hlength := length_filter_key hd.put.nodup (List.mem_map_of_mem hmem)
  have hsame := filter_insert slot e d.engines
  rw [← hlength]
  exact congrArg (fun l => l.length + 1) hsame

theorem length_put_of_none (hd : d.Tidy) (hold : d.engine? slot = none) :
    (d.put slot e).engines.length = d.engines.length + 1 := by
  have hsame : (d.remove slot).engines = d.engines :=
    List.filter_eq_self.mpr fun p hp => by simpa using slot_ne_of_engine? hold hp
  rw [length_put hd, hsame]

theorem length_put_of_some (hd : d.Tidy) (hold : d.engine? slot = some old) :
    (d.put slot e).engines.length = d.engines.length := by
  rw [length_put hd, length_remove hd hold]

end Desk

/-- Using a handle neither opens nor closes one. -/
theorem uses_counts {h : Handle} {es : List Event} (hes : ∀ e ∈ es, e.Uses h) :
    es.filterMap Event.opens? = [] ∧ es.filterMap Event.closes? = [] :=
  ⟨List.filterMap_eq_nil_iff.mpr fun e he => (hes e he).1,
    List.filterMap_eq_nil_iff.mpr fun e he => (hes e he).2.1⟩

theorem Engine.Opening.counts {arch : Arch} {mode : Mode} {r : Except Error Engine}
    {es : List Event} (hes : Engine.Opening arch mode r es) :
    (es.filterMap Event.opens?).length = (if r.isOk then 1 else 0) ∧
      es.filterMap Event.closes? = [] := by
  cases hes with
  | refused err => exact ⟨rfl, rfl⟩
  | failed err status h hstatus =>
    simp [Event.opens?, Event.closes?, hstatus, Except.isOk, Except.toBool]
  | opened h diet => simp [Event.opens?, Event.closes?, Except.isOk, Except.toBool]

namespace Desk

variable {d d' : Desk} {es : List Event}

/-- **An operation opens what it closes**, but for what the desk held before and holds now. -/
theorem Course.counts {o : Op} (hd : d.Tidy) (hcourse : d.Course o es d') :
    (es.filterMap Event.opens?).length + d.engines.length =
      (es.filterMap Event.closes?).length + d'.engines.length := by
  have huses : ∀ {h : Handle} {es : List Event}, (∀ e ∈ es, e.Uses h) →
      (es.filterMap Event.opens?).length + d.engines.length =
        (es.filterMap Event.closes?).length + d.engines.length := by
    intro h es hes
    obtain ⟨hopens, hcloses⟩ := uses_counts hes
    rw [hopens, hcloses]
  cases hcourse with
  | unopened hopen =>
    obtain ⟨hopens, hcloses⟩ := hopen.counts
    rw [hopens, hcloses]
    rfl
  | opened hopen hold =>
    obtain ⟨hopens, hcloses⟩ := hopen.counts
    rw [hopens, hcloses, length_put_of_none hd hold, Nat.add_comm]
    exact (Nat.zero_add _).symm
  | replaced hopen hold status =>
    obtain ⟨hopens, hcloses⟩ := hopen.counts
    rw [List.filterMap_append, List.length_append, hopens, List.filterMap_append, hcloses,
      length_put_of_some hd hold]
    rfl
  | noEngine he => rfl
  | closed he ha status =>
    have hlength := length_remove hd he
    show 0 + d.engines.length = 1 + (d.remove _).engines.length
    omega
  | accepted he ha hfits =>
    rw [length_put_of_some hd he]
    rfl
  | rejected he ha hfits hstatus => rfl
  | unfit he ha hfits => rfl
  | asked he ha hdiet answer =>
    exact huses (List.forall_mem_singleton.mpr (Action.uses_of_question ha answer))
  | decoded he ha hdiet hes hsame =>
    rw [hsame]
    exact huses hes.uses
  | diet he ha hdiet => rfl
  | shown he => rfl
  | errand ho hes hsame =>
    rw [hsame]
    cases hes with
    | unopened hopen =>
      obtain ⟨hopens, hcloses⟩ := hopen.counts
      rw [hopens, hcloses]
      rfl
    | @served h es huse status =>
      obtain ⟨hopens, hcloses⟩ := uses_counts huse.uses
      simp only [List.filterMap_cons, List.filterMap_append, hopens, hcloses]
      rfl
  | idle ho hsame =>
    rw [hsame]
    rfl

end Desk

namespace Desk

/-- Clearing a desk opens nothing, and closes the handles of its engines in order. -/
theorem counts_dropAll {B : Backend} (l : List (Nat × Engine)) (s : B.State) :
    let es := (dropAll l s : Outcome B.State Unit).events
    es.filterMap Event.opens? = [] ∧
      es.filterMap Event.closes? = l.map fun p => p.2.handle := by
  induction l generalizing s with
  | nil => exact ⟨rfl, rfl⟩
  | cons p l ih =>
    obtain ⟨hopens, hcloses⟩ := ih (p.2.drop s : Outcome B.State Unit).state
    have hdrop := p.2.dealings_drop s
    have hone : (p.2.drop s : Outcome B.State Unit).events.filterMap Event.opens? = [] ∧
        (p.2.drop s : Outcome B.State Unit).events.filterMap Event.closes? = [p.2.handle] := by
      rw [← filterMap_dealings (fun _ he => (handles_of_not_deals he).1),
        ← filterMap_dealings (fun _ he => (handles_of_not_deals he).2.1), hdrop]
      exact ⟨rfl, rfl⟩
    simp only [dropAll, Dialogue.run_bind, List.filterMap_append, hone.1, hone.2, hopens, hcloses]
    exact ⟨rfl, rfl⟩

end Desk

/-! ### What is outstanding -/

namespace Event

/-- The instructions outstanding after an event. -/
def balance (n : Nat) : Event → Nat
  | .call (.disasm _ _ _ _) x => n + x.count
  | .call (.free _ count) _ => n - count
  | _ => n

/-- Whether an event is a decode that returned something. -/
def yields : Event → Bool
  | .call (.disasm _ _ _ _) x => x.count != 0
  | _ => false

theorem balance_of_decoded?_none {e : Event} (h : e.decoded? = none) (n : Nat) :
    e.balance n = n - (e.frees?.toList.map Prod.snd).sum := by
  cases e with
  | call c a => cases c <;> first | rfl | cases h
  | _ => rfl

end Event

/-- Nothing is freed that is not outstanding, if at first a certain number is. -/
def Solvent : Nat → List Event → Prop
  | _, [] => True
  | n, e :: es => (∀ p ∈ e.frees?, p.2 ≤ n) ∧ Solvent (e.balance n) es

theorem solvent_append {n : Nat} {es es' : List Event} :
    Solvent n (es ++ es') ↔ Solvent n es ∧ Solvent (es.foldl Event.balance n) es' := by
  induction es generalizing n with
  | nil => simp [Solvent]
  | cons e es ih => rw [List.cons_append, Solvent, Solvent, ih, and_assoc, List.foldl_cons]

/-- Events that decode nothing are solvent if they free no more than is outstanding. -/
theorem solvent_of_no_decode {es : List Event} (hes : ∀ e ∈ es, e.decoded? = none) {n : Nat}
    (hn : ((es.filterMap Event.frees?).map Prod.snd).sum ≤ n) :
    Solvent n es ∧ es.foldl Event.balance n = n - ((es.filterMap Event.frees?).map Prod.snd).sum := by
  induction es generalizing n with
  | nil => exact ⟨trivial, rfl⟩
  | cons e es ih =>
    obtain ⟨he, hrest⟩ := List.forall_mem_cons.mp hes
    have hbalance := Event.balance_of_decoded?_none he n
    rw [Solvent, List.foldl_cons]
    cases hfrees : e.frees? with
    | none =>
      rw [List.filterMap_cons_none hfrees] at hn ⊢
      have hsame : e.balance n = n := by
        rw [hbalance, hfrees]
        rfl
      rw [hsame]
      exact ⟨⟨fun p hp => (nomatch hp), (ih hrest hn).1⟩, (ih hrest hn).2⟩
    | some p =>
      rw [List.filterMap_cons_some hfrees, List.map_cons, List.sum_cons] at hn ⊢
      have hfreed : e.balance n = n - p.2 := by
        rw [hbalance, hfrees]
        simp
      obtain ⟨hsolvent, hfold⟩ := ih hrest (n := n - p.2) (by omega)
      rw [hfreed]
      refine ⟨⟨fun q hq => ?_, hsolvent⟩, by omega⟩
      rw [← Option.some.inj hq]
      omega

/-- An array goes with every count that is not zero. -/
def Honest (es : List Event) : Prop :=
  ∀ e ∈ es, ∀ x, e.decoded? = some x → x.count ≠ 0 → x.array.isSome

/-- **Events that decode once** free what was handed out, and leave as much outstanding as there
was. -/
theorem DecodesOnce.solvent {es : List Event} (h : DecodesOnce es) (hhonest : Honest es) (n : Nat) :
    Solvent n es ∧ es.foldl Event.balance n = n := by
  obtain ⟨before, h, code, address, count, x, between, after, rfl, hplain, hdecoded, -, -,
    hfrees⟩ := h
  obtain ⟨hbefore, hafter⟩ := List.forall_mem_append.mp hplain
  have hquiet : ∀ {es : List Event}, (∀ e ∈ es, e.Plain) → ∀ n,
      Solvent n es ∧ es.foldl Event.balance n = n := by
    intro es hes n
    have hnone := (plain_nil hes).1
    have hsolvent := solvent_of_no_decode (fun e he => (hes e he).decoded?) (n := n)
      (by rw [hnone]; exact Nat.zero_le n)
    rw [hnone] at hsolvent
    exact hsolvent
  have howed : ((between.filterMap Event.frees?).map Prod.snd).sum = x.count := by
    rw [hfrees, Decoded.owed?]
    by_cases hcount : x.count = 0
    · simp [hcount]
    · have harray := hhonest (.call (.disasm h code address count) x)
        (List.mem_append_right _ List.mem_cons_self) x rfl hcount
      obtain ⟨a, ha⟩ := Option.isSome_iff_exists.mp harray
      simp [hcount, ha]
  obtain ⟨hsolvent, hfold⟩ := solvent_of_no_decode hdecoded (n := n + x.count)
    (by rw [howed]; exact Nat.le_add_left _ _)
  rw [howed, Nat.add_sub_cancel] at hfold
  rw [solvent_append, List.foldl_append, List.foldl_cons, (hquiet hbefore n).2, Solvent,
    Event.balance, solvent_append, List.foldl_append, hfold, (hquiet hafter n).2]
  refine ⟨⟨(hquiet hbefore n).1, fun p hp => ?_, hsolvent, (hquiet hafter n).1⟩, rfl⟩
  cases hp

theorem NoArrays.solvent {es : List Event} (h : NoArrays es) (n : Nat) :
    Solvent n es ∧ es.foldl Event.balance n = n := by
  have hnone : es.filterMap Event.frees? = [] :=
    List.filterMap_eq_nil_iff.mpr fun e he => (h e he).2
  have hsolvent := solvent_of_no_decode (fun e he => (h e he).1) (n := n)
    (by rw [hnone]; exact Nat.zero_le n)
  rw [hnone] at hsolvent
  exact hsolvent

/-! ### What the sample engine counts -/

namespace Sample

/-- The counts of the sample engine follow the events. -/
structure Counted (s : Sample) (es : List Event) (s' : Sample) : Prop where
  opens : s'.opens = s.opens + (es.filterMap Event.opens?).length
  closes : s'.closes = s.closes + (es.filterMap Event.closes?).length
  disasmCalls : s'.disasmCalls = s.disasmCalls + (es.filterMap Event.decoded?).length
  frees : s'.frees = s.frees + (es.filterMap Event.frees?).length
  outstanding : s'.outstanding = es.foldl Event.balance s.outstanding

variable {s s' s'' : Sample} {es es' : List Event}

theorem Counted.append (h : Counted s es s') (h' : Counted s' es' s'') :
    Counted s (es ++ es') s'' := by
  refine ⟨?_, ?_, ?_, ?_, ?_⟩
  · rw [h'.opens, h.opens, List.filterMap_append, List.length_append, Nat.add_assoc]
  · rw [h'.closes, h.closes, List.filterMap_append, List.length_append, Nat.add_assoc]
  · rw [h'.disasmCalls, h.disasmCalls, List.filterMap_append, List.length_append, Nat.add_assoc]
  · rw [h'.frees, h.frees, List.filterMap_append, List.length_append, Nat.add_assoc]
  · rw [h'.outstanding, h.outstanding, List.foldl_append]

theorem counted_answer (s : Sample) (c : Call) :
    Counted s [.call c (s.answer c).1] (s.answer c).2 := by
  cases c with
  | close k =>
    have hclosing := s.closing k
    show Counted s [.call (.close k) (s.close k).1] (s.close k).2
    generalize s.close k = out at hclosing
    cases hclosing <;> exact ⟨rfl, rfl, rfl, rfl, rfl⟩
  | option k x =>
    have htuning := s.tuning k x
    show Counted s [.call (.option k x) (s.option k x).1] (s.option k x).2
    generalize s.option k x = out at htuning
    cases htuning <;> exact ⟨rfl, rfl, rfl, rfl, rfl⟩
  | disasm k code address count =>
    have hfinding := s.finding k code address count
    show Counted s [.call (.disasm k code address count) (s.disasm k code address count).1]
      (s.disasm k code address count).2
    generalize s.disasm k code address count = out at hfinding
    cases hfinding <;> exact ⟨rfl, rfl, rfl, rfl, rfl⟩
  | _ => exact ⟨rfl, rfl, rfl, rfl, rfl⟩

theorem counted_of_replays (h : backend.Replays s es s') : Counted s es s' := by
  induction es generalizing s with
  | nil =>
    have hstate : s' = s := h
    rw [hstate]
    exact ⟨rfl, rfl, rfl, rfl, rfl⟩
  | cons e es ih =>
    cases e with
    | call c a =>
      obtain ⟨rfl, hes⟩ := h
      exact (s.counted_answer c).append (ih hes)
    | _ =>
      obtain ⟨hopens, hcloses, hdecodes, hfrees, houtstanding⟩ := ih h
      exact ⟨hopens, hcloses, hdecodes, hfrees, houtstanding⟩

/-- What the sample engine hands out comes with an array. -/
theorem honest_of_replays (h : backend.Replays s es s') : Honest es := by
  induction es generalizing s with
  | nil => exact fun e he => (nomatch he)
  | cons e es ih =>
    cases e with
    | call c a =>
      obtain ⟨rfl, hes⟩ := h
      refine List.forall_mem_cons.mpr ⟨fun x hx hcount => ?_, ih hes⟩
      cases c with
      | disasm k code address count =>
        have hfinding := s.finding k code address count
        obtain rfl : (s.disasm k code address count).1 = x := Option.some.inj hx
        generalize s.disasm k code address count = out at hfinding hcount
        cases hfinding with
        | unknown hnone => exact absurd rfl hcount
        | empty hkept hfound => exact absurd rfl hcount
        | some hkept hfound => rfl
      | _ => cases hx
    | _ => exact List.forall_mem_cons.mpr ⟨fun x hx => (nomatch hx), ih h⟩

/-- The size of the table follows what events open and, unless told to fail, close. -/
def Sized (s : Sample) (es : List Event) (s' : Sample) : Prop :=
  s'.handles.length + (if s.failClose then 0 else (es.filterMap Event.closes?).length) =
    s.handles.length + (es.filterMap Event.opens?).length

theorem size_answer (hs : s.Proper) (c : Call)
    (hknown : ∀ k, c = .close k → (s.handle? k).isSome) :
    Sized s [.call c (s.answer c).1] (s.answer c).2 := by
  have hquiet : ∀ {s' : Sample} {e : Event}, s'.handles.map Prod.fst = s.handles.map Prod.fst →
      e.opens? = none → e.closes? = none → Sized s [e] s' := by
    intro s' e hkeys hopens hcloses
    have hlength := congrArg List.length hkeys
    rw [List.length_map, List.length_map] at hlength
    rw [Sized, List.filterMap_cons_none hopens, List.filterMap_cons_none hcloses, hlength]
    simp
  cases c with
  | openEngine arch mode =>
    show (s.handles ++ [_]).length + (if s.failClose then 0 else 0) = _
    rw [List.length_append, ite_self]
    rfl
  | close k =>
    obtain ⟨kept, hkept⟩ := Option.isSome_iff_exists.mp (hknown k rfl)
    have hlength := length_filter_key hs.nodup (mem_keys_of_handle? hkept)
    have hclosing := s.closing k
    show Sized s [.call (.close k) (s.close k).1] (s.close k).2
    generalize s.close k = out at hclosing
    unfold Sized
    cases hclosing with
    | failed hfail =>
      rw [hfail]
      rfl
    | unknown hfail hnone =>
      rw [hkept] at hnone
      cases hnone
    | closed hfail hclosed =>
      rw [hfail]
      exact hlength
  | option k x => exact hquiet (s.keys_option k x).1 rfl rfl
  | disasm k code address count => exact hquiet (s.keys_disasm k code address count).1 rfl rfl
  | _ => exact hquiet rfl rfl rfl

theorem Sized.append (h : Sized s es s') (h' : Sized s' es' s'')
    (hsame : s'.failClose = s.failClose) : Sized s (es ++ es') s'' := by
  unfold Sized at h h' ⊢
  rw [hsame] at h'
  rw [List.filterMap_append, List.filterMap_append, List.length_append, List.length_append]
  by_cases hfail : s.failClose = true
  · rw [if_pos hfail] at h h' ⊢
    omega
  · rw [if_neg hfail] at h h' ⊢
    omega

/-- Closings of known handles only make the table smaller. -/
theorem size_of_replays (hs : s.Proper) {L : Set Handle} (hL : s.Knows L) (ho : Orderly L es)
    (h : backend.Replays s es s') : Sized s es s' := by
  induction es generalizing s L with
  | nil =>
    have hstate : s' = s := h
    rw [hstate, Sized]
    simp
  | cons e es ih =>
    obtain ⟨hmentions, hrest⟩ := ho
    cases e with
    | call c a =>
      obtain ⟨rfl, hes⟩ := h
      have hone : Sized s [.call c (s.answer c).1] (s.answer c).2 := by
        refine size_answer hs c fun k hk => hL k (hmentions k ?_)
        rw [hk]
        rfl
      have hsame := (manner_eq_iff.mp (s.manner_answer c)).2.2.2.2.2
      exact hone.append (ih (hs.answer c) (hL.answer hs c) hrest hes) hsame
    | _ =>
      rw [alive_of_none rfl rfl] at hrest
      exact ih hs hL hrest h

/-! ### Whole runs -/

/-- The handles that were to be closed while the sample engine was told to fail at that. -/
def failedClosings (rs : List (Report backend)) : List Handle :=
  rs.flatMap fun r => if Sample.failClose r.state then r.events.filterMap Event.closes? else []

/-- The books are in balance after the reports of a run. -/
structure Balanced (s : Sample) (d : Desk) (rs : List (Report backend)) : Prop where
  outstanding : s.outstanding = 0
  frees : s.frees = (rs.flatMap Report.events).countP Event.yields
  disasmCalls : s.frees ≤ s.disasmCalls
  opens : s.opens = s.closes + d.engines.length
  handles : s.handles.length = d.engines.length + (failedClosings rs).length

/-- Events that begin in a state never name a handle that has no entry, and never free what is not
outstanding. -/
def Guarded (s : Sample) (es : List Event) : Prop :=
  ∀ pre c a post, es = pre ++ .call c a :: post → ∃ s₁ : Sample, backend.Replays s pre s₁ ∧
    (∀ h, c.handle? = some h → (s₁.handle? h).isSome) ∧
    ∀ array count, c = .free array count → count ≤ s₁.outstanding

theorem guarded_of_replays (hs : s.Proper) {L : Set Handle} (hL : s.Knows L) (ho : Orderly L es)
    (hsolvent : Solvent s.outstanding es) (h : backend.Replays s es s') : Guarded s es := by
  rintro pre c a post rfl
  obtain ⟨s₁, hpre, -⟩ := h.split
  refine ⟨s₁, hpre, fun k hk => known_of_orderly hs hL ho hpre hk, ?_⟩
  rintro array count rfl
  obtain ⟨-, hfree, -⟩ := solvent_append.mp hsolvent
  rw [(counted_of_replays hpre).outstanding]
  exact hfree (array, count) rfl

/-- As many arrays are freed as decodes return something, if what is freed is what is owed. -/
theorem length_frees (hhonest : Honest es)
    (hbalanced : es.filterMap Event.frees? = es.filterMap Event.owes?) :
    (es.filterMap Event.frees?).length = es.countP Event.yields := by
  rw [hbalanced, List.length_filterMap_eq_countP]
  refine List.countP_congr fun e he => ?_
  cases e with
  | call c a =>
    cases c with
    | disasm k code address count =>
      show (Decoded.owed? a).isSome = true ↔ (a.count != 0) = true
      rw [Decoded.owed?]
      by_cases hcount : a.count = 0
      · simp [hcount]
      · obtain ⟨array, harray⟩ := Option.isSome_iff_exists.mp (hhonest _ he a rfl hcount)
        simp [hcount, harray]
    | _ => exact Iff.rfl
  | _ => exact Iff.rfl

/-- No more decodes return something than there are decodes. -/
theorem countP_yields_le (es : List Event) :
    es.countP Event.yields ≤ (es.filterMap Event.decoded?).length := by
  rw [List.length_filterMap_eq_countP]
  refine List.countP_mono_left fun e _ he => ?_
  cases e with
  | call c a => cases c <;> first | rfl | cases he
  | _ => cases he

variable {d : Desk} {left : Handle → List Status} {rs : List (Report backend)}

theorem Mirrored.knows (h : Mirrored s d left) : s.Knows d.handles := by
  rintro k ⟨p, hp, rfl⟩
  obtain ⟨errno, hentry, -⟩ := h.mirror p.1 p.2 hp
  rw [hentry]
  rfl

/-- The events of an operation are in order, and are solvent whatever is outstanding. -/
theorem Mirrored.events_step (h : Mirrored s d left) (o : Op) :
    let r := d.move (B := backend) s (.op o)
    Orderly d.handles r.events ∧
      (∀ n, Solvent n r.events ∧ r.events.foldl Event.balance n = n) ∧
      r.events.filterMap Event.frees? = r.events.filterMap Event.owes? := by
  intro r
  have hreplays : backend.Replays s r.events r.state := d.faithful_step mute_backend o s
  have hcourse : d.Course o (dealings r.events) r.desk := d.step_course fixedDiet_backend o s
  obtain ⟨hle, hnew⟩ := opened_bounds (hreplays.dealings still_backend)
  obtain ⟨honce, hnone⟩ := d.step_decodes fixedDiet_backend o s
  refine ⟨orderly_dealings.1.mp (hcourse.accounts h.sound hle hnew).orderly, ?_, ?_⟩
  · intro n
    by_cases hdecodes : o.Decodes d r.events
    · exact (honce hdecodes).solvent (honest_of_replays hreplays) n
    · exact (hnone hdecodes).solvent n
  · by_cases hdecodes : o.Decodes d r.events
    · exact (honce hdecodes).balanced
    · exact (hnone hdecodes).balanced

theorem Mirrored.guarded_step (h : Mirrored s d left) (o : Op) :
    Guarded s (d.move (B := backend) s (.op o)).events := by
  obtain ⟨horderly, hsolvent, -⟩ := h.events_step o
  exact guarded_of_replays h.proper h.knows horderly (hsolvent _).1
    (d.faithful_step mute_backend o s)

/-- **An operation keeps the books in balance.** -/
theorem Balanced.step (hmirror : Mirrored s d left) (h : Balanced s d rs) (o : Op) :
    let r := d.move (B := backend) s (.op o)
    Balanced r.state r.desk (rs ++ [r]) := by
  intro r
  obtain ⟨horderly, hsolvent, hbalanced⟩ := hmirror.events_step o
  have hreplays : backend.Replays s r.events r.state := d.faithful_step mute_backend o s
  have hcounted := counted_of_replays hreplays
  have hsized : Sized s r.events r.state :=
    size_of_replays hmirror.proper hmirror.knows horderly hreplays
  have hfail : Sample.failClose r.state = s.failClose :=
    (manner_eq_iff.mp (manner_of_replays hreplays)).2.2.2.2.2
  have hcounts : (r.events.filterMap Event.opens?).length + d.engines.length =
      (r.events.filterMap Event.closes?).length + r.desk.engines.length := by
    have hcourse : d.Course o (dealings r.events) r.desk := d.step_course fixedDiet_backend o s
    have hdealt := hcourse.counts hmirror.sound.tidy
    rwa [filterMap_dealings (fun _ he => (handles_of_not_deals he).1),
      filterMap_dealings (fun _ he => (handles_of_not_deals he).2.1)] at hdealt
  have hfrees := length_frees (honest_of_replays hreplays) hbalanced
  have hyields := countP_yields_le r.events
  have hfailed : (failedClosings (rs ++ [r])).length = (failedClosings rs).length +
      (if s.failClose then (r.events.filterMap Event.closes?).length else 0) := by
    rw [failedClosings, List.flatMap_append, List.length_append, List.flatMap_singleton, hfail]
    split <;> rfl
  refine ⟨?_, ?_, ?_, ?_, ?_⟩
  · rw [hcounted.outstanding, (hsolvent _).2, h.outstanding]
  · rw [hcounted.frees, h.frees, hfrees, List.flatMap_append, List.countP_append,
      List.flatMap_singleton]
  · have hle := h.disasmCalls
    rw [hcounted.frees, hcounted.disasmCalls, hfrees]
    omega
  · have hopens := h.opens
    rw [hcounted.opens, hcounted.closes]
    omega
  · have hhandles := h.handles
    unfold Sized at hsized
    by_cases hf : s.failClose = true
    · rw [if_pos hf] at hsized hfailed
      omega
    · rw [if_neg hf] at hsized hfailed
      omega

/-- Changing how the engine behaves leaves its counts alone. -/
theorem counted_changes (s : Sample) (l : List Change) : Counted s [] (l.foldl change s) := by
  induction l generalizing s with
  | nil => exact ⟨rfl, rfl, rfl, rfl, rfl⟩
  | cons c l ih =>
    have hone : Counted s [] (s.change c) := by cases c <;> exact ⟨rfl, rfl, rfl, rfl, rfl⟩
    exact hone.append (ih (s.change c))

theorem Balanced.change (h : Balanced s d rs) (l : List Change) :
    Balanced (l.foldl Sample.change s) d (rs ++ [d.move (B := backend) s (.change l)]) := by
  obtain ⟨hopens, hcloses, hdecodes, hfrees, houtstanding⟩ := s.counted_changes l
  have hevents : (rs ++ [d.move (B := backend) s (.change l)]).flatMap Report.events =
      rs.flatMap Report.events := by
    rw [List.flatMap_append, List.flatMap_singleton]
    exact List.append_nil _
  have hfailed : failedClosings (rs ++ [d.move (B := backend) s (.change l)]) =
      failedClosings rs := by
    rw [failedClosings, List.flatMap_append, List.flatMap_singleton]
    exact (congrArg (failedClosings rs ++ ·) (ite_self _)).trans (List.append_nil _)
  refine ⟨houtstanding.trans h.outstanding, ?_, ?_, ?_, ?_⟩
  · rw [hevents]
    exact hfrees.trans h.frees
  · rw [hfrees, hdecodes]
    exact h.disasmCalls
  · rw [hopens, hcloses]
    exact h.opens
  · rw [hfailed, (s.handles_changes l).1]
    exact h.handles

/-- **Wherever moves lead, the books are in balance.** -/
theorem balanced_reach (ms : List (Move backend)) :
    Balanced (Desk.reach {} ({} : Sample) ms).2 (Desk.reach {} ({} : Sample) ms).1
      (Desk.run {} ({} : Sample) ms) := by
  induction ms using List.reverseRecOn with
  | nil => exact ⟨rfl, rfl, Nat.le_refl _, rfl, rfl⟩
  | append_singleton ms m ih =>
    have hreach := Desk.reach_append (B := backend) {} ({} : Sample) ms [m]
    have hrun := Desk.run_append (B := backend) {} ({} : Sample) ms [m]
    rw [hreach, hrun]
    cases m with
    | op o => exact ih.step (mirrored_reach ms) o
    | change l => exact ih.change l

/-- Clearing a desk closes the handles of its engines, and leaves nothing open. -/
theorem Mirrored.clear (h : Mirrored s d left) (hopens : s.opens = s.closes + d.engines.length) :
    let out := (d.clear : Dialogue backend Unit) s
    let s' : Sample := out.state
    Guarded s out.events ∧ s'.opens = s'.closes ∧ s'.outstanding = s.outstanding := by
  intro out s'
  have hreplays : backend.Replays s out.events s' :=
    Desk.faithful_dropAll (B := backend) d.engines s
  have horderly := (Desk.dropAll_orderly (B := backend) h.sound.nodup s).1
  obtain ⟨hsolvent, hfold⟩ :=
    (Desk.noArrays_dropAll (B := backend) d.engines s).solvent s.outstanding
  obtain ⟨hnone, hclosed⟩ := Desk.counts_dropAll (B := backend) d.engines s
  have hcounted := counted_of_replays hreplays
  refine ⟨guarded_of_replays h.proper h.knows horderly hsolvent hreplays, ?_,
    hcounted.outstanding.trans hfold⟩
  rw [hcounted.opens, hcounted.closes, hopens, show out.events.filterMap Event.opens? = [] from hnone,
    show out.events.filterMap Event.closes? = _ from hclosed, List.length_map]
  rfl

/-- **The books of the sample engine are in balance.**  Wherever moves lead, whatever was changed about
the sample engine on the way: nothing is outstanding; as many arrays have been freed as decodes
returned something, which is no more than the decodes there were; as many handles were opened as were
closed and as there are engines; the table has an entry for each engine, and one for each closing
that was told to fail.  In whatever comes next no call names a handle that has no entry when it is
made, and no call frees more than is outstanding.  Clearing the desk closes what is left open. -/
theorem books_balance (ms : List (Move backend)) :
    let d := (Desk.reach {} ({} : Sample) ms).1
    let s : Sample := (Desk.reach {} ({} : Sample) ms).2
    let rs := Desk.run {} ({} : Sample) ms
    let cleared := (d.clear : Dialogue backend Unit) s
    s.outstanding = 0 ∧
    s.frees = (rs.flatMap Report.events).countP Event.yields ∧
    s.frees ≤ s.disasmCalls ∧
    s.opens = s.closes + d.engines.length ∧
    s.handles.length = d.engines.length + (failedClosings rs).length ∧
    (∀ o, Guarded s (d.move (B := backend) s (.op o)).events) ∧
    Guarded s cleared.events ∧
    Sample.opens cleared.state = Sample.closes cleared.state ∧
    Sample.outstanding cleared.state = 0 := by
  intro d s rs cleared
  have hmirror := mirrored_reach ms
  obtain ⟨houtstanding, hfrees, hdecodes, hopens, hhandles⟩ := balanced_reach ms
  obtain ⟨hguarded, hclosed, hsame⟩ := hmirror.clear hopens
  exact ⟨houtstanding, hfrees, hdecodes, hopens, hhandles, hmirror.guarded_step, hguarded, hclosed,
    hsame.trans houtstanding⟩

/-- A handle that could not be closed stays in the table. -/
example :
    let s : Sample := (Desk.reach (B := backend) {} ({} : Sample)
      [.op (.openEngine 0 .x86 .width32), .change [.failClose true], .op (.act 0 .close)]).2
    s.opens = 1 ∧ s.closes = 1 ∧ s.handles.length = 1 := ⟨rfl, rfl, rfl⟩

end Sample

end Disassembly
