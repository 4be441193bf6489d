import Disassembly.Proofs.Session.Statuses
import Disassembly.Proofs.Text.Marks
import Mathlib.Data.List.Sort
import Mathlib.Data.String.Basic

/-!
# What the descriptor of an engine says

The descriptor is put together from what the engine says of itself when it is asked.  The dash
stands between all of its parts, in front of each architecture as well as of a negative number, and
`arm` is the beginning of `arm64`; still the answers can be read off it, but for those that it does
not show.

* `Build` — the answers, and `Build.interview`, the questions with them;
* `Dialogue.run_describeBuild` — the descriptor is that of the answers heard, whatever the engine;
* `Build.lists_names` — the architectures in it;
* `Build.descriptor_inj` — what it tells apart;
* `describeBuild_identifies` — all of it.
-/

namespace Disassembly

variable {B : Backend}

/-! ### Names and numbers in a descriptor -/

namespace Arch

theorem name_inj {a b : Arch} (h : a.name = b.name) : a = b := by
  revert h
  cases a <;> cases b <;> decide

theorem mem_all (a : Arch) : a ∈ all := by
  cases a <;> decide

/-- No name of an architecture can be taken for the version, or for two names. -/
theorem dashable_name (a : Arch) : Dashable 'c' a.name.toList := by
  unfold Dashable
  cases a <;> decide

end Arch

namespace Version

/-- Major and minor can be told from each other by the point, which is in no number. -/
theorem text_inj {v w : Version} (h : v.text = w.text) :
    v.major = w.major ∧ v.minor = w.minor := by
  have hmark : ∀ n : Int, '.' ∉ (toString n).toList := not_mem_toString_int rfl (by decide)
  have hchars := congrArg String.toList h
  simp only [text, String.toList_append, List.append_assoc] at hchars
  obtain ⟨hmajor, hminor⟩ := append_cons_inj (hmark _) (hmark _) hchars
  exact ⟨Int32.toInt_inj.mp (toString_int_inj (String.toList_inj.mp hmajor)),
    Int32.toInt_inj.mp (toString_int_inj (String.toList_inj.mp hminor))⟩

end Version

/-! ### What an engine says of itself -/

/-- The answers of an engine to the questions of a description. -/
structure Build where
  diet : Bool
  has : Arch → Bool
  version : Version

namespace Build

/-- A question for an architecture, and its answer. -/
def told (has : Arch → Bool) (a : Arch) : Event :=
  .call (.support (Capability.arch a).raw) (has a)

/-- The questions of a description with the answers of the build, in order. -/
def interview (b : Build) : List Event :=
  .call (.support Capability.diet.raw) b.diet :: Arch.all.map (told b.has) ++
    [.call .version b.version]

/-- The names of the architectures that are part of the build, in alphabetical order. -/
def names (b : Build) : List String :=
  ((Arch.all.filter b.has).map Arch.name).mergeSort fun m n => decide (m ≤ n)

/-- How it was built, in one word. -/
def flavour (diet : Bool) : String :=
  if diet then "diet" else "standard"

/-- The descriptor of a build whose architectures are listed by name. -/
def descriptor (b : Build) (names : List String) : String :=
  "rust-" ++ flavour b.diet ++ String.join (names.map ("-" ++ ·)) ++ "-c" ++ b.version.text ++
    "-b" ++ Version.expected.text

/-- Nothing but the answers is in an interview. -/
theorem interview_inj {b c : Build} (h : b.interview = c.interview) : b = c := by
  obtain ⟨d, has, v⟩ := b
  obtain ⟨d', has', v'⟩ := c
  simp only [interview, told, Arch.all, List.map_cons, List.map_nil, List.cons_append,
    List.nil_append, List.cons.injEq, Event.call.injEq, heq_eq_eq, true_and, and_true] at h
  obtain ⟨rfl, harm, harm64, hmips, hx86, hppc, rfl⟩ := h
  have hhas : has = has' := by
    funext a
    cases a with
    | arm => exact harm
    | arm64 => exact harm64
    | mips => exact hmips
    | x86 => exact hx86
    | ppc => exact hppc
  rw [hhas]

/-- Whether all architectures are there is not asked. -/
theorem allArchs_not_asked (b : Build) :
    Call.support Capability.allArchs.raw ∉ callsOf b.interview := by
  have hcalls : callsOf b.interview = callsOf (interview ⟨false, fun _ => false, ⟨0, 0, 0⟩⟩) := rfl
  rw [hcalls]
  decide

end Build

/-! ### Asking -/

namespace Dialogue

/-- Each architecture is asked for once, and those that are there are kept. -/
theorem run_supportedOf {as : List Arch} (h : as.Nodup) (s : B.State) : ∃ has : Arch → Bool,
    (supportedOf as s).events = as.map (Build.told has) ∧
      (supportedOf as s).value = as.filter has := by
  induction as generalizing s with
  | nil => exact ⟨fun _ => false, rfl, rfl⟩
  | cons a as ih =>
    obtain ⟨hnew, hnodup⟩ := List.nodup_cons.mp h
    have hrun : (supportedOf (a :: as) : Dialogue B (List Arch)) s =
        let p := B.answer s (.support (Capability.arch a).raw)
        let rest := supportedOf as p.2
        ⟨if p.1 then a :: rest.value else rest.value, rest.state,
          .call (.support (Capability.arch a).raw) p.1 :: rest.events⟩ := by
      simp only [supportedOf, supports, run_bind, run_ask, run_pure, List.append_nil,
        List.singleton_append]
      rfl
    rw [hrun]
    obtain ⟨answer, s₁⟩ := B.answer s (.support (Capability.arch a).raw)
    obtain ⟨has, hevents, hvalue⟩ := ih hnodup s₁
    -- The later answers are those of the shorter list, in which this architecture is not.
    have hlater : ∀ b ∈ as, Function.update has a answer b = has b := fun b hb =>
      Function.update_of_ne (ne_of_mem_of_not_mem hb hnew) _ _
    have htold : as.map (Build.told (Function.update has a answer)) = as.map (Build.told has) :=
      List.map_congr_left fun b hb => by rw [Build.told, Build.told, hlater b hb]
    refine ⟨Function.update has a answer, ?_, ?_⟩
    · rw [List.map_cons, htold, ← hevents, Build.told, Function.update_self]
    · rw [List.filter_cons, Function.update_self, List.filter_congr hlater, ← hvalue]

/-- **The descriptor is that of the answers heard.** -/
theorem run_describeBuild (s : B.State) : ∃ b : Build,
    (describeBuild s).events = b.interview ∧
      (describeBuild s).value = b.descriptor b.names := by
  have hdistinct : Arch.all.Nodup := by decide
  obtain ⟨has, hevents, hvalue⟩ :=
    run_supportedOf hdistinct (B.answer s (.support Capability.diet.raw)).2
  refine ⟨⟨(B.answer s (.support Capability.diet.raw)).1, has, (B.answer (supportedOf Arch.all
    (B.answer s (.support Capability.diet.raw)).2).state .version).1⟩, ?_, ?_⟩
  · simp only [describeBuild, supports, run_bind, run_ask, run_pure, List.append_nil, hevents]
    rfl
  · simp only [describeBuild, supports, run_bind, run_ask, run_pure, hvalue]
    rfl

end Dialogue

/-! ### The architectures -/

namespace Build

/-- Names list the architectures that are part of a build: these and no others, each once, in
alphabetical order. -/
structure Lists (b : Build) (names : List String) : Prop where
  ascending : names.Pairwise (· < ·)
  mem_iff : ∀ name, name ∈ names ↔ ∃ a, b.has a = true ∧ a.name = name

theorem lists_names (b : Build) : b.Lists b.names where
  ascending := by
    have hsorted : b.names.Pairwise (· ≤ ·) := List.pairwise_mergeSort' (· ≤ ·) _
    have hdistinct : b.names.Nodup := by
      have hall : Arch.all.Nodup := by decide
      rw [names, (List.mergeSort_perm _ _).nodup_iff]
      exact (hall.filter _).map fun _ _ => Arch.name_inj
    exact (hsorted.and hdistinct).imp fun h => lt_of_le_of_ne h.1 h.2
  mem_iff name := by
    rw [names, List.mem_mergeSort, List.mem_map]
    simp only [List.mem_filter, Arch.mem_all, true_and]

theorem Lists.name_mem_iff {b : Build} {names : List String} (h : b.Lists names) {a : Arch} :
    a.name ∈ names ↔ b.has a = true := by
  rw [h.mem_iff]
  constructor
  · rintro ⟨c, hc, hname⟩
    rwa [← Arch.name_inj hname]
  · exact fun ha => ⟨a, ha, rfl⟩

/-- Each name of a list is that of an architecture. -/
theorem Lists.dashable {b : Build} {names : List String} (h : b.Lists names) :
    ∀ n ∈ names.map String.toList, Dashable 'c' n := by
  intro n hn
  obtain ⟨name, hname, rfl⟩ := List.mem_map.mp hn
  obtain ⟨a, -, rfl⟩ := (h.mem_iff name).mp hname
  exact a.dashable_name

/-! ### The descriptor -/

/-- Builds agree in what a descriptor shows; the combined number of their versions is not shown. -/
structure Same (b c : Build) : Prop where
  diet : b.diet = c.diet
  has : ∀ a, b.has a = c.has a
  major : b.version.major = c.version.major
  minor : b.version.minor = c.version.minor

theorem flavour_append_inj {d d' : Bool} {t t' : String} (h : flavour d ++ t = flavour d' ++ t') :
    d = d' ∧ t = t' := by
  have hchars := congrArg (fun text => text.toList.head?) h
  simp only [String.toList_append] at hchars
  cases d <;> cases d'
  · exact ⟨rfl, (String.append_right_inj _).mp h⟩
  · exact absurd hchars (by simp [flavour])
  · exact absurd hchars (by simp [flavour])
  · exact ⟨rfl, (String.append_right_inj _).mp h⟩

theorem toList_join_dashes (names : List String) :
    (String.join (names.map ("-" ++ ·))).toList = dashed (names.map String.toList) := by
  rw [String.toList_join, dashed, List.flatMap_map, List.flatMap_map]
  exact congrArg (List.flatMap · names) (funext fun n => String.toList_append)

/-- **What a descriptor tells apart**, and nothing else. -/
theorem descriptor_inj {b c : Build} :
    b.descriptor b.names = c.descriptor c.names ↔ b.Same c := by
  constructor
  · intro h
    simp only [descriptor, String.append_assoc] at h
    obtain ⟨hdiet, hrest⟩ := flavour_append_inj ((String.append_right_inj "rust-").mp h)
    have hchars := congrArg String.toList hrest
    simp only [String.toList_append, toList_join_dashes] at hchars
    obtain ⟨hnames, hversion⟩ := dashed_inj (x := 'c') (by decide) b.lists_names.dashable
      c.lists_names.dashable hchars
    have hlist : b.names = c.names :=
      List.map_injective_iff.mpr (fun _ _ => String.toList_inj.mp) hnames
    obtain ⟨hmajor, hminor⟩ :=
      Version.text_inj (String.toList_inj.mp (List.append_cancel_right hversion))
    refine ⟨hdiet, fun a => Bool.eq_iff_iff.mpr ?_, hmajor, hminor⟩
    rw [← b.lists_names.name_mem_iff, hlist, c.lists_names.name_mem_iff]
  · intro h
    have hnames : b.names = c.names := by rw [names, names, funext h.has]
    have hversion : b.version.text = c.version.text := by
      rw [Version.text, Version.text, h.major, h.minor]
    rw [descriptor, descriptor, h.diet, hnames, hversion]

end Build

/-- **The descriptor identifies the build.**  It lists the architectures of the engine in
alphabetical order, and any two engines have the same descriptor exactly if they give the same
answers about diet, about each architecture, and for major and minor of the version: the combined
number does not count, and whether all architectures are there is not asked. -/
theorem describeBuild_identifies (B : Backend) (s : B.State) : ∃ b : Build,
    (Dialogue.describeBuild s).events = b.interview ∧
      Call.support Capability.allArchs.raw ∉ callsOf (Dialogue.describeBuild s).events ∧
      (∃ names, b.Lists names ∧ (Dialogue.describeBuild s).value = b.descriptor names) ∧
      ∀ (B' : Backend) (s' : B'.State) (b' : Build),
        (Dialogue.describeBuild s').events = b'.interview →
          ((Dialogue.describeBuild s).value = (Dialogue.describeBuild s').value ↔ b.Same b') := by
  obtain ⟨b, hevents, hvalue⟩ := Dialogue.run_describeBuild s
  refine ⟨b, hevents, ?_, ⟨b.names, b.lists_names, hvalue⟩, fun B' s' b' hevents' => ?_⟩
  · rw [hevents]
    exact b.allArchs_not_asked
  · obtain ⟨c, hc, hvalue'⟩ := Dialogue.run_describeBuild s'
    obtain rfl : c = b' := Build.interview_inj (hc.symm.trans hevents')
    rw [hvalue, hvalue', Build.descriptor_inj]

/-- An engine for ARM64 only is not one for ARM, and what it says of all architectures does not
count. -/
theorem describeBuild_identifies_arm64 :
    let s : Script.backend.State := ({ supported := [1] } : Script)
    let t : Script.backend.State := ({ combined := some 7, supported := [0xFFFF, 1] } : Script)
    let u : Script.backend.State := ({ supported := [0] } : Script)
    (Dialogue.describeBuild s).value = (Dialogue.describeBuild t).value ∧
      (Dialogue.describeBuild s).value ≠ (Dialogue.describeBuild u).value := by
  intro s t u
  obtain ⟨b, hb, -, -, hsame⟩ := describeBuild_identifies Script.backend s
  -- What each of the three says of itself when it is asked.
  have hs : (Dialogue.describeBuild s).events =
      Build.interview ⟨false, fun a => a == .arm64, Script.version s⟩ := rfl
  have ht : (Dialogue.describeBuild t).events =
      Build.interview ⟨false, fun a => a == .arm64, Script.version t⟩ := rfl
  have hu : (Dialogue.describeBuild u).events =
      Build.interview ⟨false, fun a => a == .arm, Script.version u⟩ := rfl
  obtain rfl := Build.interview_inj (hb.symm.trans hs)
  refine ⟨(hsame Script.backend t _ ht).mpr ⟨rfl, fun _ => rfl, rfl, rfl⟩, fun h => ?_⟩
  exact absurd (((hsame Script.backend u _ hu).mp h).has .arm) (by decide)

end Disassembly
