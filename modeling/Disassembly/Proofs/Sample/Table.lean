import Disassembly.Proofs.Session.Journal
import Disassembly.Proofs.Session.Lifecycle
import Disassembly.Sample.Engine

/-!
# The handle table of the sample engine

The sample engine keeps an entry for each handle that it has given and not taken back.

* `Backend.Replays.dealings` — questions about the engine as a whole can be left out of a replay,
  as long as they leave the engine as it was (`Backend.Still`);
* `Sample.Proper` — an entry for each key, and no key that has not been given yet;
* `Sample.finding`, `Sample.closing`, `Sample.tuning` — all that a decode, a closing and an option can
  come to, from which the rest follows by cases;
* `Sample.handle?_answer` — what a call leaves of an entry: it is what the entry makes of the call
  (`SampleHandle.hear`), unless the call gives the handle up;
* `Sample.known_of_orderly` — events that keep to open handles keep to entries of the table.
-/

namespace Disassembly

/-! ### Replays of dealings -/

namespace Backend.Replays

variable {B : Backend} {s s' : B.State} {es es' : List Event}

theorem dealings (hB : B.Still) (h : B.Replays s es s') : B.Replays s (dealings es) s' := by
  induction es generalizing s with
  | nil => exact h
  | cons e es ih =>
    rw [dealings_cons]
    cases e with
    | call c a =>
      obtain ⟨ha, hes⟩ := h
      by_cases hdeals : (Event.call c a).deals = true
      · rw [if_pos hdeals]
        exact ⟨ha, ih hes⟩
      · have hsame := hB s c a (Bool.not_eq_true _ ▸ hdeals)
        rw [hsame] at hes
        rw [if_neg hdeals]
        exact ih hes
    | log l m => exact ih (s := s) h
    | line t => exact ih (s := s) h
    | load p => exact ih (s := s) h

theorem split (h : B.Replays s (es ++ es') s') :
    ∃ s₁, B.Replays s es s₁ ∧ B.Replays s₁ es' s' := by
  induction es generalizing s with
  | nil => exact ⟨s, rfl, h⟩
  | cons e es ih =>
    cases e with
    | call c a =>
      obtain ⟨s₁, hes, hes'⟩ := ih h.2
      exact ⟨s₁, ⟨h.1, hes⟩, hes'⟩
    | log l m => exact ih (s := s) h
    | line t => exact ih (s := s) h
    | load p => exact ih (s := s) h

/-- What each call preserves a replay preserves. -/
theorem preserves {P : B.State → Prop} (hP : ∀ s c, P s → P (B.answer s c).2)
    (h : B.Replays s es s') (hs : P s) : P s' := by
  induction es generalizing s with
  | nil =>
    have hstate : s' = s := h
    rw [hstate]
    exact hs
  | cons e es ih =>
    cases e with
    | call c a => exact ih h.2 (hP s c hs)
    | log l m => exact ih (s := s) h hs
    | line t => exact ih (s := s) h hs
    | load p => exact ih (s := s) h hs

end Backend.Replays

/-! ### Entries -/

namespace SampleHandle

/-- What an entry makes of an event, if empty decodes leave a certain status behind. -/
def hear (h : Handle) (empty : Status) (kept : SampleHandle) : Event → SampleHandle
  | .call (.option k x) status =>
    if k = h then
      if status = 0 then kept.configure x
      else { kept with errno := ErrorCode.unsupportedOption.raw }
    else kept
  | .call (.disasm k _ _ _) x =>
    if k = h then { kept with errno := if x.count = 0 then empty else 0 } else kept
  | _ => kept

end SampleHandle

namespace Sample

variable {s s' : Sample} {h k : Handle} {kept : SampleHandle} {es : List Event}

/-- How the engine has been told to behave. -/
def manner (s : Sample) : Bool × Int32 × Int32 × Status × Bool × Bool :=
  (s.diet, s.major, s.minor, s.emptyErrno, s.rejectOptions, s.failClose)

theorem manner_eq_iff : s'.manner = s.manner ↔ s'.diet = s.diet ∧ s'.major = s.major ∧
    s'.minor = s.minor ∧ s'.emptyErrno = s.emptyErrno ∧ s'.rejectOptions = s.rejectOptions ∧
    s'.failClose = s.failClose := by
  simp only [manner, Prod.mk.injEq]

/-- A table in order: no key is there twice, and none that was not given. -/
structure Proper (s : Sample) : Prop where
  nodup : (s.handles.map Prod.fst).Nodup
  issued : ∀ n ∈ s.handles.map Prod.fst, n ≤ s.lastHandle

theorem proper_fresh : Proper {} :=
  ⟨List.nodup_nil, fun _ h => (nomatch h)⟩

theorem Proper.congr (hs : s.Proper) (hhandles : s'.handles.map Prod.fst = s.handles.map Prod.fst)
    (hlast : s'.lastHandle = s.lastHandle) : s'.Proper := by
  obtain ⟨hnodup, hissued⟩ := hs
  refine ⟨?_, ?_⟩
  · rw [hhandles]
    exact hnodup
  · rw [hhandles, hlast]
    exact hissued

theorem keys_setHandle (s : Sample) (k : Handle) (kept : SampleHandle) :
    (s.setHandle k kept).handles.map Prod.fst = s.handles.map Prod.fst := by
  rw [setHandle, List.map_map]
  apply List.map_congr_left
  intro p _
  dsimp only [Function.comp]
  split <;> rfl

theorem mem_keys_of_handle? (hkept : s.handle? h = some kept) :
    h.value ∈ s.handles.map Prod.fst := by
  obtain ⟨l₁, l₂, heq, -⟩ := List.lookup_eq_some_iff.mp hkept
  rw [heq]
  simp

/-- A handle that is still to be given has no entry. -/
theorem Proper.handle?_of_lt (hs : s.Proper) (hlt : s.lastHandle < h.value) : s.handle? h = none := by
  cases hkept : s.handle? h with
  | none => rfl
  | some kept =>
    have := hs.issued _ (mem_keys_of_handle? hkept)
    omega

theorem handle?_setHandle (s : Sample) (k h : Handle) (kept : SampleHandle) :
    (s.setHandle k kept).handle? h =
      if k = h then (s.handle? h).map fun _ => kept else s.handle? h := by
  show (s.handles.map fun p => if p.1 = k.value then (p.1, kept) else p).lookup h.value =
    if k = h then (s.handles.lookup h.value).map fun _ => kept else s.handles.lookup h.value
  have hvalue : h.value = k.value ↔ k = h := by
    obtain ⟨m⟩ := h
    obtain ⟨n⟩ := k
    simp [eq_comm]
  induction s.handles with
  | nil => simp
  | cons p l ih =>
    rw [List.map_cons, lookup_cons_eq, lookup_cons_eq, ih]
    by_cases hp : p.1 = k.value
    · rw [if_pos hp]
      by_cases hkh : k = h
      · rw [if_pos hkh, if_pos hkh]
        split <;> rfl
      · have hne : h.value ≠ p.1 := fun heq => hkh (hvalue.mp (heq.trans hp))
        rw [if_neg hkh, if_neg hkh, if_neg hne, if_neg hne]
    · rw [if_neg hp]
      by_cases hkh : k = h
      · have hne : h.value ≠ p.1 := fun heq => hp (heq.symm.trans (hvalue.mpr hkh))
        rw [if_pos hkh, if_pos hkh, if_neg hne, if_neg hne]
      · rw [if_neg hkh, if_neg hkh]

/-- The instructions that are found under an entry, none being left out for a count of zero. -/
def found (s : Sample) (kept : SampleHandle) (code : List UInt8) (address : UInt64) (count : Nat) :
    List NativeInsn :=
  kept.decode s.diet (if count = 0 then code.length else count) code address

/-- All that a decode can come to. -/
inductive Finding (s : Sample) (k : Handle) (code : List UInt8) (address : UInt64) (count : Nat) :
    Decoded × Sample → Prop where
  | unknown (hnone : s.handle? k = none) :
    Finding s k code address count (⟨0, none⟩, { s with disasmCalls := s.disasmCalls + 1 })
  | empty {kept : SampleHandle} (hkept : s.handle? k = some kept)
    (hfound : s.found kept code address count = []) :
    Finding s k code address count (⟨0, none⟩,
      { s with disasmCalls := s.disasmCalls + 1 }.setHandle k { kept with errno := s.emptyErrno })
  | some {kept : SampleHandle} (hkept : s.handle? k = some kept)
    (hfound : s.found kept code address count ≠ []) :
    Finding s k code address count
      (⟨(s.found kept code address count).length,
        some ⟨s.lastArray + 1, s.found kept code address count⟩⟩,
      { { s with disasmCalls := s.disasmCalls + 1 }.setHandle k { kept with errno := 0 } with
        outstanding := s.outstanding + (s.found kept code address count).length
        lastArray := s.lastArray + 1 })

theorem finding (s : Sample) (k : Handle) (code : List UInt8) (address : UInt64) (count : Nat) :
    Finding s k code address count (s.disasm k code address count) := by
  simp only [disasm]
  split
  · next hnone => exact .unknown hnone
  · next kept hkept =>
    split
    · next hfound => exact .empty hkept hfound
    · next insns hne => exact .some hkept hne

/-- All that closing a handle can come to. -/
inductive Closing (s : Sample) (k : Handle) : Status × Sample → Prop where
  | failed (hfail : s.failClose = true) :
    Closing s k (ErrorCode.invalidHandle.raw, { s with closes := s.closes + 1 })
  | unknown (hfail : s.failClose = false) (hnone : s.handle? k = none) :
    Closing s k (ErrorCode.invalidHandleRef.raw, { s with closes := s.closes + 1 })
  | closed (hfail : s.failClose = false) {kept : SampleHandle} (hkept : s.handle? k = some kept) :
    Closing s k (0, { s with
      closes := s.closes + 1
      handles := s.handles.filter fun p => p.1 ≠ k.value })

theorem closing (s : Sample) (k : Handle) : Closing s k (s.close k) := by
  simp only [close]
  split
  · next hfail => exact .failed hfail
  · next hfail =>
    have hcloses : s.failClose = false := Bool.eq_false_iff.mpr hfail
    split
    · next kept hkept => exact .closed hcloses hkept
    · next hnone => exact .unknown hcloses hnone

/-- All that setting an option can come to. -/
inductive Tuning (s : Sample) (k : Handle) (x : Setting) : Status × Sample → Prop where
  | unknown (hnone : s.handle? k = none) :
    Tuning s k x (ErrorCode.invalidHandleRef.raw, { s with optionCalls := s.optionCalls + 1 })
  | rejected {kept : SampleHandle} (hkept : s.handle? k = some kept) :
    Tuning s k x (ErrorCode.unsupportedOption.raw,
      { s with optionCalls := s.optionCalls + 1 }.setHandle k
        { kept with errno := ErrorCode.unsupportedOption.raw })
  | accepted {kept : SampleHandle} (hkept : s.handle? k = some kept) :
    Tuning s k x (0,
      { s with optionCalls := s.optionCalls + 1 }.setHandle k (kept.configure x))

theorem tuning (s : Sample) (k : Handle) (x : Setting) : Tuning s k x (s.option k x) := by
  simp only [option]
  split
  · next hnone => exact .unknown hnone
  · next kept hkept =>
    split
    · exact .rejected hkept
    · exact .accepted hkept

/-! ### What a call leaves behind -/

theorem mute_backend : backend.Mute :=
  fun _ _ => rfl

theorem still_backend : backend.Still := by
  intro s c a hdeals
  cases c <;> first | rfl | cases hdeals

/-- No call changes how the engine behaves. -/
theorem manner_answer (s : Sample) (c : Call) : (s.answer c).2.manner = s.manner := by
  cases c with
  | close k =>
    have hclosing := s.closing k
    show (s.close k).2.manner = s.manner
    generalize s.close k = out at hclosing
    cases hclosing <;> rfl
  | option k x =>
    have htuning := s.tuning k x
    show (s.option k x).2.manner = s.manner
    generalize s.option k x = out at htuning
    cases htuning <;> rfl
  | disasm k code address count =>
    have hfinding := s.finding k code address count
    show (s.disasm k code address count).2.manner = s.manner
    generalize s.disasm k code address count = out at hfinding
    cases hfinding <;> rfl
  | _ => rfl

theorem manner_of_replays (h : backend.Replays s es s') : s'.manner = s.manner :=
  h.preserves (P := fun s₁ : Sample => s₁.manner = s.manner)
    (fun s₁ c hs₁ => (manner_answer s₁ c).trans hs₁) rfl

theorem fixedDiet_backend : backend.FixedDiet := by
  intro s c
  exact (manner_eq_iff.mp (manner_answer s c)).1

theorem keys_disasm (s : Sample) (k : Handle) (code : List UInt8) (address : UInt64)
    (count : Nat) : let s' := (s.disasm k code address count).2
    s'.handles.map Prod.fst = s.handles.map Prod.fst ∧ s'.lastHandle = s.lastHandle := by
  have hfinding := s.finding k code address count
  generalize s.disasm k code address count = out at hfinding
  cases hfinding with
  | unknown hnone => exact ⟨rfl, rfl⟩
  | empty hkept hfound => exact ⟨keys_setHandle _ k _, rfl⟩
  | some hkept hfound => exact ⟨keys_setHandle _ k _, rfl⟩

theorem keys_option (s : Sample) (k : Handle) (x : Setting) :
    let s' := (s.option k x).2
    s'.handles.map Prod.fst = s.handles.map Prod.fst ∧ s'.lastHandle = s.lastHandle := by
  have htuning := s.tuning k x
  generalize s.option k x = out at htuning
  cases htuning with
  | unknown hnone => exact ⟨rfl, rfl⟩
  | rejected hkept => exact ⟨keys_setHandle _ k _, rfl⟩
  | accepted hkept => exact ⟨keys_setHandle _ k _, rfl⟩

theorem Proper.answer (hs : s.Proper) (c : Call) : (s.answer c).2.Proper := by
  cases c with
  | openEngine arch mode =>
    have hkeys : (s.openEngine arch mode).2.handles.map Prod.fst =
        s.handles.map Prod.fst ++ [s.lastHandle + 1] := by
      simp [Sample.openEngine]
    refine ⟨?_, ?_⟩
    · refine hkeys ▸ List.Nodup.append hs.nodup (List.nodup_singleton _) ?_
      intro n hn hnew
      have := hs.issued n hn
      rw [List.mem_singleton.mp hnew] at this
      omega
    · intro n hn
      rcases List.mem_append.mp (hkeys ▸ hn) with hmem | hmem
      · exact Nat.le_succ_of_le (hs.issued n hmem)
      · rw [List.mem_singleton.mp hmem]
        exact Nat.le_refl _
  | close k =>
    have hclosing := s.closing k
    show (s.close k).2.Proper
    generalize s.close k = out at hclosing
    cases hclosing with
    | failed hfail => exact hs.congr rfl rfl
    | unknown hfail hnone => exact hs.congr rfl rfl
    | closed hfail hkept =>
      have hsublist : (s.handles.filter fun p => p.1 ≠ k.value).map Prod.fst |>.Sublist
          (s.handles.map Prod.fst) := List.filter_sublist.map Prod.fst
      exact ⟨hs.nodup.sublist hsublist, fun n hn => hs.issued n (hsublist.subset hn)⟩
  | option k x =>
    obtain ⟨hkeys, hlast⟩ := s.keys_option k x
    exact hs.congr hkeys hlast
  | disasm k code address count =>
    obtain ⟨hkeys, hlast⟩ := s.keys_disasm k code address count
    exact hs.congr hkeys hlast
  | _ => exact hs.congr rfl rfl

/-- What an entry makes of an event is what is kept of it, if that is kept under the handle of the
event, and under no other. -/
theorem handle?_heard (hkept : s.handle? h = some kept) {k : Handle} {s₁ : Sample}
    {other new : SampleHandle} {e : Event} {empty : Status} (hs₁ : s₁.handle? h = s.handle? h)
    (hother : s.handle? k = some other) (hsame : k = h → other.hear h empty e = new)
    (hspared : k ≠ h → kept.hear h empty e = kept) :
    (s₁.setHandle k new).handle? h = some (kept.hear h empty e) := by
  rw [handle?_setHandle, hs₁, hkept]
  by_cases hkh : k = h
  · subst hkh
    rw [hkept] at hother
    cases hother
    rw [if_pos rfl, hsame rfl]
    rfl
  · rw [if_neg hkh, hspared hkh]

/-- **What a call leaves of an entry**: what the entry makes of it, unless it is given up. -/
theorem handle?_answer (hkept : s.handle? h = some kept) (c : Call)
    (hcloses : (Event.call c (s.answer c).1).closes? ≠ some h) :
    (s.answer c).2.handle? h =
      some (kept.hear h s.emptyErrno (.call c (s.answer c).1)) := by
  have hentry : s.handles.lookup h.value = some kept := hkept
  cases c with
  | openEngine arch mode =>
    show (s.handles ++ _).lookup h.value = _
    rw [List.lookup_append, hentry]
    rfl
  | close k =>
    have hne : h ≠ k := fun heq => hcloses (congrArg some heq.symm)
    have hvalue : h.value ≠ k.value := fun heq => hne (by cases h; cases k; cases heq; rfl)
    have hclosing := s.closing k
    show (s.close k).2.handle? h = some kept
    generalize s.close k = out at hclosing
    cases hclosing with
    | failed hfail => exact hkept
    | unknown hfail hnone => exact hkept
    | closed hfail hclosed =>
      show (s.handles.filter fun p => p.1 ≠ k.value).lookup h.value = _
      rw [lookup_filter_ne, if_neg hvalue, hentry]
  | option k x =>
    have htuning := s.tuning k x
    show (s.option k x).2.handle? h =
      some (kept.hear h s.emptyErrno (.call (.option k x) (s.option k x).1))
    generalize s.option k x = out at htuning
    cases htuning with
    | unknown hnone =>
      have hne : ¬ k = h := fun heq => by
        rw [heq, hkept] at hnone
        cases hnone
      rw [SampleHandle.hear, if_neg hne]
      exact hkept
    | rejected hother =>
      exact handle?_heard hkept rfl hother (fun hkh => by simp [SampleHandle.hear, hkh, ErrorCode.raw])
        fun hkh => if_neg hkh
    | accepted hother =>
      exact handle?_heard hkept rfl hother (fun hkh => by simp [SampleHandle.hear, hkh])
        fun hkh => if_neg hkh
  | disasm k code address count =>
    have hfinding := s.finding k code address count
    show (s.disasm k code address count).2.handle? h =
      some (kept.hear h s.emptyErrno (.call (.disasm k code address count)
        (s.disasm k code address count).1))
    generalize s.disasm k code address count = out at hfinding
    cases hfinding with
    | unknown hnone =>
      have hne : ¬ k = h := fun heq => by
        rw [heq, hkept] at hnone
        cases hnone
      rw [SampleHandle.hear, if_neg hne]
      exact hkept
    | empty hother hfound =>
      exact handle?_heard hkept rfl hother (fun hkh => by simp [SampleHandle.hear, hkh])
        fun hkh => if_neg hkh
    | some hother hfound =>
      exact handle?_heard hkept rfl hother (fun hkh => by simp [SampleHandle.hear, hkh, hfound])
        fun hkh => if_neg hkh
  | _ => exact hkept

/-- A new handle gets a fresh entry. -/
theorem handle?_openEngine (hs : s.Proper) (arch : Arch) (mode : Mode) :
    (s.openEngine arch mode).2.handle? (s.openEngine arch mode).1.2 = some (.fresh arch mode) := by
  have hnone : s.handles.lookup (s.lastHandle + 1) = none :=
    hs.handle?_of_lt (h := ⟨s.lastHandle + 1⟩) (Nat.lt_succ_self _)
  show (s.handles ++ [(s.lastHandle + 1, _)]).lookup (s.lastHandle + 1) = _
  rw [List.lookup_append, hnone, lookup_cons_eq, if_pos rfl]
  rfl

/-- The last handle given counts on with each opening, and every opening succeeds. -/
theorem opens?_answer (s : Sample) (c : Call) :
    ((Event.call c (s.answer c).1).opens? = none ∧ (s.answer c).2.lastHandle = s.lastHandle) ∨
      (Event.call c (s.answer c).1).opens? = some ⟨s.lastHandle + 1⟩ ∧
        (s.answer c).2.lastHandle = s.lastHandle + 1 := by
  cases c with
  | openEngine arch mode => exact Or.inr ⟨rfl, rfl⟩
  | close k =>
    have hclosing := s.closing k
    refine Or.inl ⟨rfl, ?_⟩
    show (s.close k).2.lastHandle = s.lastHandle
    generalize s.close k = out at hclosing
    cases hclosing <;> rfl
  | option k x => exact Or.inl ⟨rfl, (s.keys_option k x).2⟩
  | disasm k code address count =>
    exact Or.inl ⟨rfl, (s.keys_disasm k code address count).2⟩
  | _ => exact Or.inl ⟨rfl, rfl⟩

/-! ### What a replay leaves behind -/

theorem Proper.replays (hs : s.Proper) (h : backend.Replays s es s') : s'.Proper :=
  h.preserves (P := Proper) (fun _ c hs => hs.answer c) hs

/-- The handles that events open are new. -/
theorem opened_bounds (h : backend.Replays s es s') :
    s.lastHandle ≤ s'.lastHandle ∧
      ∀ k ∈ es.filterMap Event.opens?, s.lastHandle < k.value ∧ k.value ≤ s'.lastHandle := by
  induction es generalizing s with
  | nil =>
    have hstate : s' = s := h
    rw [hstate]
    exact ⟨Nat.le_refl _, fun k hk => (nomatch hk)⟩
  | cons e es ih =>
    cases e with
    | call c a =>
      obtain ⟨ha, hes⟩ := h
      have hanswer := s.opens?_answer c
      obtain ⟨hle, hbounds⟩ := ih hes
      have hstate : backend.answer s c = s.answer c := rfl
      rw [hstate] at ha hle hbounds
      rw [ha]
      rcases hanswer with ⟨hnone, hlast⟩ | ⟨hsome, hlast⟩
      · rw [List.filterMap_cons_none hnone]
        rw [hlast] at hle hbounds
        exact ⟨hle, hbounds⟩
      · rw [List.filterMap_cons_some hsome]
        rw [hlast] at hle hbounds
        refine ⟨by omega, List.forall_mem_cons.mpr ⟨⟨Nat.lt_succ_self _, hle⟩, ?_⟩⟩
        intro k hk
        have := hbounds k hk
        omega
    | log l m => exact ih (s := s) h
    | line t => exact ih (s := s) h
    | load p => exact ih (s := s) h

/-- Every handle of a set has an entry. -/
def Knows (s : Sample) (L : Set Handle) : Prop :=
  ∀ h ∈ L, (s.handle? h).isSome

theorem Knows.answer (hs : s.Proper) {L : Set Handle} (hL : s.Knows L) (c : Call) :
    (s.answer c).2.Knows ((Event.call c (s.answer c).1).alive L) := by
  rintro h ⟨hmem, hcloses⟩
  by_cases hopens : (Event.call c (s.answer c).1).opens? = some h
  · cases c with
    | openEngine arch mode =>
      have hh : (s.openEngine arch mode).1.2 = h := Option.some.inj hopens
      show ((s.openEngine arch mode).2.handle? h).isSome
      rw [← hh, handle?_openEngine hs]
      rfl
    | _ => cases hopens
  · obtain ⟨kept, hkept⟩ := Option.isSome_iff_exists.mp (hL h (hmem.resolve_right hopens))
    rw [handle?_answer hkept c hcloses]
    rfl

/-- Where the open handles have entries, those that are open after events have theirs. -/
theorem Knows.replays (hs : s.Proper) {L : Set Handle} (hL : s.Knows L)
    (h : backend.Replays s es s') : s'.Knows (aliveAfter L es) := by
  induction es generalizing s L with
  | nil =>
    have hstate : s' = s := h
    rw [hstate]
    exact hL
  | cons e es ih =>
    rw [aliveAfter, List.foldl_cons]
    cases e with
    | call c a =>
      obtain ⟨rfl, hes⟩ := h
      exact ih (hs.answer c) (hL.answer hs c) hes
    | _ =>
      rw [alive_of_none rfl rfl]
      exact ih hs hL h

/-- **Events that mention open handles only never meet an unknown one**: the handle of each call has
an entry at that call, where the open handles have theirs at the start. -/
theorem known_of_orderly (hs : s.Proper) {L : Set Handle} (hL : s.Knows L) {pre post : List Event}
    {c : Call} {a : c.Answer} (ho : Orderly L (pre ++ .call c a :: post)) {s₁ : Sample}
    (h : backend.Replays s pre s₁) (hk : c.handle? = some k) : (s₁.handle? k).isSome := by
  obtain ⟨-, hmentions, -⟩ := orderly_append.mp ho
  exact hL.replays hs h k (hmentions k hk)

end Sample

end Disassembly
