import Disassembly.Proofs.Session.Inquiries
import Disassembly.Proofs.Session.Journal
import Mathlib.Data.List.Forall2

/-!
# Veils over native engines

Two native engines may differ in what they hand out with a decode.  A `Veil` says in what, and what
keeps the difference from showing: that the engine is built without text, or that detail is off.  A
relation of their states that all answers keep up (`Backend.Veiled`) is then kept up by every
operation on an engine, step by step, and the operation comes to the same on both sides, up to what
the veil hides.

* `Dialogue.Alike`, `Attempt.Alike` — two dialogues, or attempts, run from related states end in
  related states, with related values and events; `Dialogue.Alike.bind` is the rule by which all else
  is put together;
* `Dialogue.Same`, `Attempt.Same` — one that is like itself, with equal values;
* `Insn.Alike` — in two instructions what may differ is out of reach of every question;
* `Engine.alike_disasm`, `Engine.alike_disasmLite` — the two decodes, where the veil does its work.
-/

namespace Disassembly

variable {B : Backend} {α β γ δ : Type}

/-! ### What is hidden -/

/-- In what two native engines may differ. -/
inductive Veil where
  | nothing
  /-- On engines built without text: the texts of entries and the contents of their blocks. -/
  | text
  /-- On engines with text, while detail is off: the blocks of entries. -/
  | detail

namespace Veil

/-- Two entries that differ in nothing but what is hidden. -/
def Hides : Veil → NativeInsn → NativeInsn → Prop
  | .nothing, n, n' => n = n'
  | .text, n, n' =>
    n.id = n'.id ∧ n.address = n'.address ∧ n.size = n'.size ∧ n.bytes = n'.bytes ∧
      n.detail.isSome = n'.detail.isSome
  | .detail, n, n' => n' = { n with detail := n'.detail }

/-- What the engines answer when they are asked whether they are built without text. -/
def Flavour : Veil → Bool → Prop
  | .nothing, _ => True
  | .text, diet => diet = true
  | .detail, diet => diet = false

/-- The open engines that the veil is good for. -/
def Admits : Veil → Engine → Prop
  | .nothing, _ => True
  | .text, e => e.diet = true
  | .detail, e => e.diet = false ∧ e.detail = false

/-- The instructions that come of such engines. -/
def Marks : Veil → Insn → Prop
  | .nothing, _ => True
  | .text, i => i.diet = true
  | .detail, i => i.diet = false ∧ i.hasDetail = false

theorem hides_refl (v : Veil) (n : NativeInsn) : v.Hides n n := by
  cases v with
  | nothing => rfl
  | text => exact ⟨rfl, rfl, rfl, rfl, rfl⟩
  | detail => rfl

/-- A setting keeps an engine under the veil unless it turns on what is hidden. -/
theorem admits_accept {v : Veil} {e : Engine} {x : Setting} (h : v.Admits e)
    (hx : v = .detail → x ≠ .detail true) : v.Admits (e.accept x) := by
  cases v with
  | nothing => trivial
  | text => cases x <;> exact h
  | detail =>
    cases x with
    | detail on =>
      refine ⟨h.1, ?_⟩
      show on = false
      cases on with
      | false => rfl
      | true => exact absurd rfl (hx rfl)
    | _ => exact h

/-- The lite path reads nothing that is hidden on an engine with text. -/
theorem lite_eq {v : Veil} {e : Engine} (he : v.Admits e) (hdiet : e.diet = false)
    {n n' : NativeInsn} (h : v.Hides n n') : LiteInsn.ofNative n = LiteInsn.ofNative n' := by
  cases v with
  | nothing => exact congrArg _ h
  | text =>
    have htext : e.diet = true := he
    rw [htext] at hdiet
    cases hdiet
  | detail =>
    have hsame : n' = { n with detail := n'.detail } := h
    rw [hsame]
    rfl

end Veil

/-- Two decodes whose entries differ in nothing but what a relation allows. -/
structure Decoded.Alike (N : NativeInsn → NativeInsn → Prop) (d d' : Decoded) : Prop where
  count : d.count = d'.count
  array : Option.Rel (fun a a' : NativeArray => a.number = a'.number ∧
    List.Forall₂ N a.insns a'.insns) d.array d'.array

theorem Decoded.Alike.entries {N : NativeInsn → NativeInsn → Prop} {d d' : Decoded}
    (h : Decoded.Alike N d d') : List.Forall₂ N d.entries d'.entries := by
  obtain ⟨hcount, harray⟩ := h
  unfold Decoded.entries
  generalize d.array = a at harray
  generalize d'.array = a' at harray
  cases harray with
  | none => exact .nil
  | some hsome =>
    rw [hcount]
    exact List.forall₂_take _ hsome.2

/-- Whether a question is for a decode. -/
def Call.decodes : Call → Bool
  | .disasm _ _ _ _ => true
  | _ => false

/-- Two answers to a question, equal but for what a veil hides in a decode. -/
def Veil.Answers (v : Veil) : (c : Call) → c.Answer → c.Answer → Prop
  | .disasm _ _ _ _, d, d' => Decoded.Alike v.Hides d d'
  | .version, a, a' => a = a'
  | .support _, a, a' => a = a'
  | .openEngine _ _, a, a' => a = a'
  | .close _, a, a' => a = a'
  | .option _ _, a, a' => a = a'
  | .errno _, a, a' => a = a'
  | .free _ _, a, a' => a = a'
  | .regName _ _, a, a' => a = a'
  | .insnName _ _, a, a' => a = a'
  | .strerror _, a, a' => a = a'

theorem Veil.answers_refl (v : Veil) (c : Call) (a : c.Answer) : v.Answers c a a := by
  cases c with
  | disasm h code address count =>
    refine ⟨rfl, ?_⟩
    cases a.array with
    | none => exact .none
    | some array =>
      exact .some ⟨rfl, List.forall₂_same.mpr fun n _ => v.hides_refl n⟩
  | _ => rfl

theorem Veil.Answers.eq {v : Veil} {c : Call} (hc : c.decodes = false) {a a' : c.Answer}
    (h : v.Answers c a a') : a = a' := by
  cases c with
  | disasm _ _ _ _ => cases hc
  | _ => exact h

/-- A relation of states that answers keep up, which differ in nothing but what a veil hides; and
a relation of events that is fit for such answers and for all log records but those of decoding a
detail. -/
structure Backend.Veiled (B : Backend) (v : Veil) (R : B.State → B.State → Prop)
    (E : Event → Event → Prop) : Prop where
  answers : ∀ {s s'}, R s s' → ∀ c, v.Answers c (B.answer s c).1 (B.answer s' c).1
  next : ∀ {s s'}, R s s' → ∀ c, R (B.answer s c).2 (B.answer s' c).2
  flavour : ∀ {s s'}, R s s' → v.Flavour (B.answer s (.support Capability.diet.raw)).1
  call : ∀ c a a', v.Answers c a a' → E (.call c a) (.call c a')
  log : ∀ level m, (∀ i : Insn, i.decodingLine ≠ (level, m)) → E (.log level m) (.log level m)

/-- Two results of which both are failures for the same reason, or both successes with related
values. -/
inductive SameResult (Q : α → β → Prop) : Except Error α → Except Error β → Prop where
  | error (e : Error) : SameResult Q (.error e) (.error e)
  | ok {a : α} {b : β} (h : Q a b) : SameResult Q (.ok a) (.ok b)

theorem SameResult.refl (r : Except Error α) : SameResult Eq r r := by
  cases r with
  | error e => exact .error e
  | ok a => exact .ok rfl

/-- One of two same results is there exactly if the other is. -/
theorem SameResult.ok_iff {Q : α → β → Prop} {r : Except Error α} {r' : Except Error β}
    (h : SameResult Q r r') : (∃ a, r = .ok a) ↔ ∃ b, r' = .ok b := by
  cases h with
  | error e =>
    constructor
    · rintro ⟨_, ⟨⟩⟩
    · rintro ⟨_, ⟨⟩⟩
  | ok _ => exact ⟨fun _ => ⟨_, rfl⟩, fun _ => ⟨_, rfl⟩⟩

theorem SameResult.eq {r r' : Except Error α} (h : SameResult Eq r r') : r = r' := by
  cases h with
  | error e => rfl
  | ok h => rw [h]

/-! ### Dialogues -/

variable {v : Veil} {R : B.State → B.State → Prop} {E : Event → Event → Prop}
  {Q : α → β → Prop} {Q' : γ → δ → Prop}

namespace Dialogue

/-- Run from related states, two dialogues have related values and events and end in related
states. -/
def Alike (R : B.State → B.State → Prop) (E : Event → Event → Prop) (Q : α → β → Prop)
    (x : Dialogue B α) (y : Dialogue B β) : Prop :=
  ∀ s s', R s s' → Q (x s).value (y s').value ∧ R (x s).state (y s').state ∧
    List.Forall₂ E (x s).events (y s').events

/-- Run from related states, a dialogue has equal values. -/
def Same (R : B.State → B.State → Prop) (E : Event → Event → Prop) (x : Dialogue B α) : Prop :=
  Alike R E Eq x x

theorem alike_pure {a : α} {b : β} (h : Q a b) :
    Alike R E Q (Pure.pure a : Dialogue B α) (Pure.pure b) :=
  fun _ _ hs => ⟨h, hs, .nil⟩

/-- One dialogue after another on both sides. -/
theorem Alike.bind {x : Dialogue B α} {y : Dialogue B β} {f : α → Dialogue B γ}
    {g : β → Dialogue B δ} (h : Alike R E Q x y) (hf : ∀ a b, Q a b → Alike R E Q' (f a) (g b)) :
    Alike R E Q' (x >>= f) (y >>= g) := by
  intro s s' hs
  obtain ⟨hvalue, hstate, hevents⟩ := h s s' hs
  obtain ⟨hvalue', hstate', hevents'⟩ := hf _ _ hvalue _ _ hstate
  exact ⟨hvalue', hstate', List.rel_append hevents hevents'⟩

/-- What follows a dialogue with equal values may assume that they are equal. -/
theorem Same.then {x : Dialogue B α} {f : α → Dialogue B γ} {g : α → Dialogue B δ}
    (h : Same R E x) (hf : ∀ a, Alike R E Q' (f a) (g a)) : Alike R E Q' (x >>= f) (x >>= g) :=
  Alike.bind h fun a _ hab => hab ▸ hf a

theorem same_pure (a : α) : Same R E (Pure.pure a : Dialogue B α) :=
  alike_pure rfl

theorem Same.bind {x : Dialogue B α} {f : α → Dialogue B γ} (h : Same R E x)
    (hf : ∀ a, Same R E (f a)) : Same R E (x >>= f) :=
  h.then hf

theorem alike_ask (h : B.Veiled v R E) (c : Call) :
    Alike R E (v.Answers c) (ask c : Dialogue B c.Answer) (ask c) :=
  fun _ _ hs => ⟨h.answers hs c, h.next hs c, .cons (h.call c _ _ (h.answers hs c)) .nil⟩

theorem same_ask (h : B.Veiled v R E) {c : Call} (hc : c.decodes = false) :
    Same R E (ask c : Dialogue B c.Answer) := by
  intro s s' hs
  obtain ⟨hvalue, hrest⟩ := alike_ask h c s s' hs
  exact ⟨hvalue.eq hc, hrest⟩

/-- Whether the engine has text is no secret. -/
theorem alike_supportsDiet (h : B.Veiled v R E) :
    Alike R E (fun a b => a = b ∧ v.Flavour a) (supports .diet : Dialogue B Bool)
      (supports .diet) := by
  intro s s' hs
  obtain ⟨hvalue, hrest⟩ := same_ask h (c := .support Capability.diet.raw) rfl s s' hs
  exact ⟨⟨hvalue, h.flavour hs⟩, hrest⟩

theorem same_log {level : Level} {m : String} (h : E (.log level m) (.log level m)) :
    Same R E (log level m : Dialogue B Unit) :=
  fun _ _ hs => ⟨rfl, hs, .cons h .nil⟩

theorem same_message (h : B.Veiled v R E) (status : Status) :
    Same R E (message status : Dialogue B String) := by
  refine .bind (same_ask h rfl) fun answer => ?_
  cases answer with
  | none => exact same_pure _
  | some bytes => exact same_pure _

theorem Alike.unrecorded {x : Dialogue B α} {y : Dialogue B β} (h : Alike R E Q x y) :
    Alike R E Q x.unrecorded y.unrecorded := by
  intro s s' hs
  obtain ⟨hvalue, hstate, -⟩ := h s s' hs
  exact ⟨hvalue, hstate, .nil⟩

theorem alike_mapM {f : α → Dialogue B γ} {g : β → Dialogue B δ}
    (hf : ∀ a b, Q a b → Alike R E Q' (f a) (g b)) {l : List α} {l' : List β}
    (hl : List.Forall₂ Q l l') : Alike R E (List.Forall₂ Q') (l.mapM f) (l'.mapM g) := by
  induction hl with
  | nil => exact alike_pure .nil
  | cons hab _ ih =>
    rw [List.mapM_cons, List.mapM_cons]
    exact (hf _ _ hab).bind fun _ _ hfirst => ih.bind fun _ _ hrest =>
      alike_pure (.cons hfirst hrest)

theorem same_supportedOf (h : B.Veiled v R E) (l : List Arch) :
    Same R E (supportedOf l : Dialogue B (List Arch)) := by
  induction l with
  | nil => exact same_pure _
  | cons a l ih => exact .bind (same_ask h rfl) fun _ => ih.bind fun _ => same_pure _

theorem same_describeBuild (h : B.Veiled v R E) :
    Same R E (describeBuild : Dialogue B String) :=
  .bind (same_ask h rfl) fun _ => .bind (same_supportedOf h _) fun _ =>
    .bind (same_ask h rfl) fun _ => same_pure _

end Dialogue

/-- Details are logged at the level of traces. -/
theorem decodingLine_ne {level : Level} (h : level ≠ .trace) (m : String) (i : Insn) :
    i.decodingLine ≠ (level, m) :=
  fun heq => h (congrArg Prod.fst heq).symm

theorem Backend.Veiled.log_of_ne (h : B.Veiled v R E) {level : Level} (hlevel : level ≠ .trace)
    (m : String) : E (.log level m) (.log level m) :=
  h.log level m (decodingLine_ne hlevel m)

namespace Attempt

open Dialogue

/-- Run from related states, two attempts fail for the same reason or succeed with related
values. -/
def Alike (R : B.State → B.State → Prop) (E : Event → Event → Prop) (Q : α → β → Prop)
    (x : Attempt B α) (y : Attempt B β) : Prop :=
  Dialogue.Alike R E (SameResult Q) x.run y.run

/-- Run from related states, an attempt has equal results. -/
def Same (R : B.State → B.State → Prop) (E : Event → Event → Prop) (x : Attempt B α) : Prop :=
  Dialogue.Same R E x.run

theorem Same.alike {x : Attempt B α} (h : Same R E x) : Alike R E Eq x x := by
  intro s s' hs
  obtain ⟨hvalue, hrest⟩ := h s s' hs
  exact ⟨hvalue ▸ .refl _, hrest⟩

theorem alike_pure {a : α} {b : β} (h : Q a b) :
    Alike R E Q (Pure.pure a : Attempt B α) (Pure.pure b) :=
  Dialogue.alike_pure (.ok h)

theorem Alike.bind {x : Attempt B α} {y : Attempt B β} {f : α → Attempt B γ}
    {g : β → Attempt B δ} (h : Alike R E Q x y) (hf : ∀ a b, Q a b → Alike R E Q' (f a) (g b)) :
    Alike R E Q' (x >>= f) (y >>= g) := by
  refine Dialogue.Alike.bind h fun r r' hr => ?_
  cases hr with
  | error e => exact Dialogue.alike_pure (.error e)
  | ok hab => exact hf _ _ hab

theorem Same.then {x : Attempt B α} {f : α → Attempt B γ} {g : α → Attempt B δ}
    (h : Same R E x) (hf : ∀ a, Alike R E Q' (f a) (g a)) : Alike R E Q' (x >>= f) (x >>= g) :=
  h.alike.bind fun a _ hab => hab ▸ hf a

theorem Alike.of {x : Dialogue B α} {y : Dialogue B β} (h : Dialogue.Alike R E Q x y) :
    Alike R E Q (of x) (of y) :=
  Dialogue.Alike.bind h fun _ _ hab => Dialogue.alike_pure (.ok hab)

theorem alike_ofExcept {r : Except Error α} {r' : Except Error β} (h : SameResult Q r r') :
    Alike R E Q (ofExcept r : Attempt B α) (ofExcept r') := by
  cases h with
  | error e => exact Dialogue.alike_pure (.error e)
  | ok hab => exact alike_pure hab

theorem same_pure (a : α) : Same R E (Pure.pure a : Attempt B α) :=
  Dialogue.same_pure _

theorem same_throw (e : Error) : Same R E (throw e : Attempt B α) :=
  Dialogue.same_pure _

theorem same_of {x : Dialogue B α} (hx : Dialogue.Same R E x) : Same R E (of x) :=
  hx.bind fun _ => Dialogue.same_pure _

theorem Same.bind {x : Attempt B α} {f : α → Attempt B γ} (hx : Same R E x)
    (hf : ∀ a, Same R E (f a)) : Same R E (x >>= f) := by
  refine Dialogue.Same.bind hx fun r => ?_
  cases r with
  | ok a => exact hf a
  | error e => exact Dialogue.same_pure _

theorem same_ask (h : B.Veiled v R E) {c : Call} (hc : c.decodes = false) :
    Same R E (ask c : Attempt B c.Answer) :=
  same_of (Dialogue.same_ask h hc)

theorem same_debug (h : B.Veiled v R E) (m : String) :
    Same R E (log .debug m : Attempt B Unit) :=
  same_of (Dialogue.same_log (h.log_of_ne (by decide) m))

theorem same_refuse (h : B.Veiled v R E) (code : ErrorCode) :
    Same R E (refuse code : Attempt B α) :=
  (same_of (same_message h _)).bind fun _ => same_throw _

/-- What is refused has no value. -/
theorem alike_refuse (h : B.Veiled v R E) (code : ErrorCode) :
    Alike R E Q (refuse code : Attempt B α) (refuse code) :=
  (same_of (same_message h _)).then fun _ => Dialogue.alike_pure (.error _)

theorem same_check (h : B.Veiled v R E) (status : Status) :
    Same R E (check status : Attempt B Unit) := by
  unfold check
  split
  · exact same_pure _
  · exact same_refuse h _
  · exact same_throw _

end Attempt

open Attempt

theorem same_checkVersion (h : B.Veiled v R E) : Same R E (checkVersion : Attempt B Unit) := by
  refine .bind (same_ask h rfl) fun version => ?_
  split
  · exact same_pure _
  · exact .bind (same_of (Dialogue.same_log (h.log_of_ne (by decide) _))) fun _ =>
      same_refuse h _

/-! ### Operations on one engine -/

/-- Two instructions that every question gets the same answer from, and whether a veil is over
them. -/
structure Insn.Alike (v : Veil) (i i' : Insn) : Prop where
  id : i.id = i'.id
  address : i.address = i'.address
  bytes : i.bytes = i'.bytes
  text : i.text = i'.text
  arch : i.arch = i'.arch
  hasDetail : i.hasDetail = i'.hasDetail
  detail : i.detail = i'.detail
  marks : v.Marks i

/-- What is hidden in an entry is not in its record, or not to be had from it. -/
theorem Insn.alike_ofNative {e : Engine} (he : v.Admits e) {n n' : NativeInsn}
    (h : v.Hides n n') : Insn.Alike v (.ofNative e.arch e.diet e.detail n)
      (.ofNative e.arch e.diet e.detail n') := by
  cases v with
  | nothing =>
    obtain rfl : n = n' := h
    exact ⟨rfl, rfl, rfl, rfl, rfl, rfl, rfl, trivial⟩
  | text =>
    have hdiet : e.diet = true := he
    obtain ⟨hid, haddress, hsize, hbytes, hblock⟩ := h
    rw [hdiet]
    refine ⟨hid, haddress, ?_, rfl, rfl, ?_, rfl, rfl⟩
    · simp only [ofNative, hsize, hbytes]
    · show (if e.detail then n.detail else none).isSome =
        (if e.detail then n'.detail else none).isSome
      split
      · exact hblock
      · rfl
  | detail =>
    obtain ⟨hdiet, hdetail⟩ := he
    have hsame : n' = { n with detail := n'.detail } := h
    rw [hsame, hdiet, hdetail]
    exact ⟨rfl, rfl, rfl, rfl, rfl, rfl, rfl, rfl, rfl⟩

namespace Engine

theorem alike_openWith (h : B.Veiled v R E) (arch : Arch) (mode : Mode) :
    Alike R E (fun e e' => e = e' ∧ v.Admits e) (openWith arch mode : Attempt B Engine)
      (openWith arch mode) := by
  refine (same_checkVersion h).then fun _ => ?_
  split
  · refine (same_ask h rfl).then fun opened => (same_check h _).then fun _ =>
      (Alike.of (Dialogue.alike_supportsDiet h)).bind ?_
    rintro diet _ ⟨rfl, hflavour⟩
    refine (same_debug h _).then fun _ => alike_pure ⟨rfl, ?_⟩
    cases v with
    | nothing => trivial
    | text => exact hflavour
    | detail => exact ⟨hflavour, rfl⟩
  · exact (same_debug h _).then fun _ => alike_refuse h _

theorem same_close (h : B.Veiled v R E) (e : Engine) :
    Same R E (e.close : Attempt B Unit) := by
  rw [close_eq]
  exact .bind (same_ask h rfl) fun _ => .bind (same_debug h _) fun _ => same_check h _

theorem same_drop (h : B.Veiled v R E) (e : Engine) :
    Dialogue.Same R E (e.drop : Dialogue B Unit) := by
  rw [drop_eq]
  refine .bind (e.same_close h) fun r => ?_
  cases r with
  | ok _ => exact Dialogue.same_pure _
  | error err => exact Dialogue.same_log (h.log_of_ne (by decide) _)

/-- An engine that was reconfigured is what it was but for the setting. -/
theorem alike_configure (h : B.Veiled v R E) (e : Engine) (x : Setting) :
    Alike R E (fun e₁ e₂ => e₁ = e₂ ∧ e₁ = e.accept x) (e.configure x : Attempt B Engine)
      (e.configure x) := by
  have hcommit : ∀ text : String, Alike R E (fun e₁ e₂ => e₁ = e₂ ∧ e₁ = e.accept x)
      (do
        e.option x
        Attempt.log .debug text
        return e.accept x : Attempt B Engine)
      (do
        e.option x
        Attempt.log .debug text
        return e.accept x : Attempt B Engine) := fun text =>
    (Attempt.Same.bind (same_ask h rfl) fun _ => same_check h _).then fun _ =>
      (same_debug h _).then fun _ => alike_pure ⟨rfl, rfl⟩
  cases x with
  | dialect t => exact hcommit _
  | detail on => exact hcommit _
  | mode m =>
    rw [configure, setMode]
    split
    · exact hcommit _
    · exact alike_refuse h _

theorem same_errno (h : B.Veiled v R E) (e : Engine) :
    Same R E (e.errno : Attempt B ErrorCode) := by
  refine .bind (same_ask h rfl) fun status => ?_
  split
  · exact same_pure _
  · exact same_throw _

/-- Nobody gets past the refusal on an engine without text. -/
theorem alike_ensureNotDiet (h : B.Veiled v R E) (e : Engine) :
    Alike R E (fun _ _ => e.diet = false) (e.ensureNotDiet : Attempt B Unit) e.ensureNotDiet := by
  unfold ensureNotDiet
  split
  · exact alike_refuse h _
  · next hdiet => exact alike_pure (eq_false_of_ne_true hdiet)

theorem alike_regName (h : B.Veiled v R E) (e : Engine) (id : UInt32) :
    Alike R E Eq (e.regName id : Attempt B (Option String)) (e.regName id) :=
  (e.alike_ensureNotDiet h).bind fun _ _ _ => (same_ask h rfl).then fun _ => alike_pure rfl

theorem alike_insnName (h : B.Veiled v R E) (e : Engine) (id : UInt32) :
    Alike R E Eq (e.insnName id : Attempt B (Option String)) (e.insnName id) :=
  (e.alike_ensureNotDiet h).bind fun _ _ _ => (same_ask h rfl).then fun _ => alike_pure rfl

/-- The trace of a decode does not begin like that of decoding a detail. -/
theorem decodingLine_ne_decode (e : Engine) (rest : String) (i : Insn) :
    i.decodingLine ≠ (.trace, e.arch.name ++ " decode of " ++ rest) := by
  intro heq
  have hhead := congrArg (fun line : Level × String => line.2.toList.head?) heq
  cases harch : e.arch <;>
    simp [Insn.decodingLine, harch, Arch.name, String.toList_append] at hhead

theorem alike_decodeNative (h : B.Veiled v R E) (e : Engine) (code : List UInt8)
    (address : UInt64) (count : Nat) :
    Alike R E (List.Forall₂ v.Hides)
      (e.decodeNative code address count : Attempt B (List NativeInsn))
      (e.decodeNative code address count) := by
  refine (Alike.of (Dialogue.alike_ask h _)).bind fun d d' hd => ?_
  have hdecoded : Decoded.Alike v.Hides d d' := hd
  -- Count, pointer and array are the same on both sides, so that the same calls follow.
  rw [← hdecoded.count]
  refine (same_of (Dialogue.same_log (h.log _ _ fun i => ?_))).then fun _ => ?_
  · simp only [String.append_assoc]
    have hne := e.decodingLine_ne_decode (toString code.length ++ (" bytes at " ++
      (Numeral.marked address.toNat ++ (": " ++ (toString d.count ++ " insns"))))) i
    simpa only [String.append_assoc] using hne
  · have hentries : Alike R E (List.Forall₂ v.Hides)
        (Pure.pure d.entries : Attempt B (List NativeInsn)) (Pure.pure d'.entries) :=
      alike_pure hdecoded.entries
    by_cases hcount : d.count = 0
    · rw [if_pos hcount, if_pos hcount]
      exact (same_ask h rfl).then fun _ => (same_check h _).then fun _ => hentries
    · rw [if_neg hcount, if_neg hcount]
      have harray := hdecoded.array
      generalize d.array = a at harray
      generalize d'.array = a' at harray
      cases harray with
      | none => exact hentries
      | some hsome =>
        dsimp only
        rw [hsome.1]
        exact (same_ask h rfl).then fun _ => hentries

/-- **Decoding on engines under the veil** gives records that are alike. -/
theorem alike_disasm (h : B.Veiled v R E) {e : Engine} (he : v.Admits e) (code : List UInt8)
    (address : UInt64) (count : Nat) :
    Alike R E (List.Forall₂ (Insn.Alike v))
      (e.disasm code address count : Attempt B (List Insn)) (e.disasm code address count) := by
  refine (e.alike_decodeNative h code address count).bind fun l l' hl => alike_pure ?_
  rw [List.forall₂_map_left_iff, List.forall₂_map_right_iff]
  exact hl.imp fun _ _ hn => Insn.alike_ofNative he hn

/-- The lite path is refused or reads nothing that is hidden. -/
theorem alike_disasmLite (h : B.Veiled v R E) {e : Engine} (he : v.Admits e)
    (code : List UInt8) (address : UInt64) (count : Nat) :
    Alike R E Eq (e.disasmLite code address count : Attempt B (List LiteInsn))
      (e.disasmLite code address count) := by
  refine (e.alike_ensureNotDiet h).bind fun _ _ hdiet =>
    (e.alike_decodeNative h code address count).bind fun l l' hl => alike_pure ?_
  rw [← List.forall₂_eq_eq_eq, List.forall₂_map_left_iff, List.forall₂_map_right_iff]
  exact hl.imp fun _ _ hn => Veil.lite_eq he hdiet hn

end Engine

theorem alike_withEngine (h : B.Veiled v R E) (arch : Arch) (mode : Mode)
    {use : Engine → Attempt B α} {use' : Engine → Attempt B β}
    (huse : ∀ e, v.Admits e → Alike R E Q (use e) (use' e)) :
    Alike R E Q (withEngine arch mode use) (withEngine arch mode use') := by
  refine (Engine.alike_openWith h arch mode).bind ?_
  rintro e _ ⟨rfl, he⟩
  refine (Alike.of (huse e he)).bind fun used used' hused =>
    (Alike.of (e.same_close h)).bind ?_
  rintro closed _ rfl
  refine (alike_ofExcept hused).bind fun a b hab => ?_
  exact (alike_ofExcept (SameResult.refl closed)).bind fun _ _ _ => alike_pure hab

theorem alike_disasmQuick (h : B.Veiled v R E) (arch : Arch) (mode : Mode) (code : List UInt8)
    (address : UInt64) (count : Nat) :
    Alike R E (List.Forall₂ (Insn.Alike v))
      (disasmQuick arch mode code address count : Attempt B (List Insn))
      (disasmQuick arch mode code address count) :=
  alike_withEngine h arch mode fun _ he => Engine.alike_disasm h he code address count

theorem alike_disasmLiteQuick (h : B.Veiled v R E) (arch : Arch) (mode : Mode)
    (code : List UInt8) (address : UInt64) (count : Nat) :
    Alike R E Eq (disasmLiteQuick arch mode code address count : Attempt B (List LiteInsn))
      (disasmLiteQuick arch mode code address count) := by
  have hlite : Alike R E Eq
      (withEngine arch mode fun e => e.disasmLite code address count : Attempt B (List LiteInsn))
      (withEngine arch mode fun e => e.disasmLite code address count) :=
    alike_withEngine h arch mode fun _ he => Engine.alike_disasmLite h he code address count
  refine (same_checkVersion h).then fun _ => (same_of (Dialogue.same_ask h rfl)).then fun diet => ?_
  cases diet with
  | true => exact (same_refuse h _).then fun _ => hlite
  | false => exact hlite

end Disassembly
