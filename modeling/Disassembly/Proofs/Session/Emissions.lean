import Disassembly.Proofs.Session.Likeness

/-!
# What operations leave behind

All that can be seen of an operation are its events.  An operation on a desk is put together from
calls and log records, so that a property of all calls and log records is one of all its events.
The log records of decoding a detail (`Insn.decodingLine`) stand apart, since only operations that
look at details (`Op.examines`) leave them.

* `veiled_of_property` — such a property, as a relation of an engine to itself;
* `Desk.events_step` — all events of an operation on a desk have it;
* `Desk.silent_step`, `Desk.loads_step` — so no detail is decoded on the sly, and only the host of
  a library tries to load it.
-/

namespace Disassembly

variable {B : Backend} {P : Event → Prop}

/-- An engine is like itself, and whatever calls and log records have in common its events have. -/
theorem veiled_of_property (hcall : ∀ c a, P (.call c a))
    (hlog : ∀ level m, (∀ i : Insn, i.decodingLine ≠ (level, m)) → P (.log level m)) :
    B.Veiled .nothing Eq fun e _ => P e where
  answers := by
    rintro s _ rfl c
    exact Veil.answers_refl .nothing c _
  next := by
    rintro s _ rfl c
    rfl
  flavour _ := trivial
  call c a _ _ := hcall c a
  log := hlog

namespace Desk

theorem alike_self (d : Desk) : Desk.Alike .nothing d d := by
  refine ⟨rfl, List.forall₂_same.mpr fun p _ => ⟨rfl, List.forall₂_same.mpr fun r _ => ?_⟩⟩
  exact ⟨⟨rfl, rfl, rfl, rfl, rfl, rfl, rfl, trivial⟩, rfl⟩

/-- **All events of an operation have what calls and log records have in common**, if those of
decoding a detail have it too where details are looked at. -/
theorem events_step (hcall : ∀ c a, P (.call c a))
    (hlog : ∀ level m, (∀ i : Insn, i.decodingLine ≠ (level, m)) → P (.log level m)) (d : Desk)
    {o : Op} (hlooks : o.examines = true → ∀ i : Insn, P (.log i.decodingLine.1 i.decodingLine.2))
    (s : B.State) : ∀ e ∈ ((d.step o : Dialogue B (Reply × Desk)) s).events, P e := by
  have hadm : d.Admitted .nothing := fun _ _ _ => trivial
  obtain ⟨-, -, hevents⟩ := alike_step (veiled_of_property (B := B) hcall hlog) d.alike_self hadm
    hlooks s s rfl
  have hboth := hevents.imp fun _ _ he => (⟨he, trivial⟩ : _ ∧ True)
  exact ((List.forall₂_and_left _ _).mp hboth).1

end Desk

/-! ### Details and libraries -/

/-- No event is the log record of decoding a detail. -/
def Undecoded (es : List Event) : Prop :=
  ∀ i : Insn, i.decodingLine ∉ logsOf es

/-- **An operation that does not look at details decodes none.** -/
theorem Desk.silent_step (d : Desk) {o : Op} (ho : o.examines = false) (s : B.State) :
    Undecoded ((d.step o : Dialogue B (Reply × Desk)) s).events := by
  intro i hmem
  obtain ⟨e, he, hline⟩ := List.mem_filterMap.mp hmem
  have hother : e.log? ≠ some i.decodingLine := by
    refine d.events_step (P := fun e => e.log? ≠ some i.decodingLine) ?_ ?_ ?_ s e he
    · exact fun _ _ h => nomatch h
    · exact fun _ _ hne heq => hne i (Option.some.inj heq).symm
    · intro hexamines
      rw [ho] at hexamines
      cases hexamines
  exact hother hline

/-- **No operation on a desk tries to load a library.** -/
theorem Desk.loads_step (d : Desk) (o : Op) (s : B.State) :
    loadsOf ((d.step o : Dialogue B (Reply × Desk)) s).events = [] :=
  List.filterMap_eq_nil_iff.mpr
    (d.events_step (fun _ _ => rfl) (fun _ _ _ => rfl) (fun _ _ => rfl) s)

end Disassembly
