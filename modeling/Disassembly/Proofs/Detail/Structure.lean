/-!
# Structures and their members

The rule by which a C compiler places the members of a structure: each at the first multiple of
its alignment past the member before it, the whole filled up to the strictest alignment.  The
members of a union all start together.

* `place` is the rule; `memberOf` and `variantOf` look a member of a structure or of a union up,
  `elementOf` an element of an array member;
* `memberOf_disjoint` — members of one structure do not overlap, whatever was declared;
* `memberOf_le`, `variantOf_le` — members end inside their structure, variants inside their union.
-/

namespace Disassembly

/-! ### Types and members -/

/-- A declared type, as far as placing goes. -/
structure CType where
  size : Nat
  align : Nat
  align_pos : 0 < align := by decide

/-- Names of members over all structures of the engine's headers. -/
inductive Member where
  | regsRead | regsReadCount | regsWrite | regsWriteCount | groups | groupsCount | arch
  | cc | updateFlags | writeback | bc | bh | updateCr0
  | prefixes | segment | opcode | opSize | addrSize | dispSize | immSize | modrm | sib
  | sibIndex | sibScale | sibBase
  | opCount | operands
  | opType | value | shift | shiftType | shiftValue | ext | size
  | reg | imm | fp | mem
  | base | index | scale | disp
  deriving DecidableEq

/-- The members of a structure or of a union, as declared. -/
abbrev Members := List (Member × CType)

/-- Where a member stands, from the start of its structure, and how many bytes it takes. -/
structure Field where
  offset : Nat
  size : Nat
  deriving DecidableEq

/-- The first multiple of an alignment from `n` on. -/
def roundUp (n align : Nat) : Nat :=
  (n + align - 1) / align * align

/-- Place members one after another from `start` on. -/
def place (start : Nat) : Members → List (Member × Field)
  | [] => []
  | (m, t) :: ms =>
    (m, ⟨roundUp start t.align, t.size⟩) :: place (roundUp start t.align + t.size) ms

/-- A member of a structure. -/
def memberOf (ms : Members) (m : Member) : Option Field :=
  (place 0 ms).lookup m

/-- A member of a union. -/
def variantOf (ms : Members) (m : Member) : Option Field :=
  (ms.lookup m).map fun t => ⟨0, t.size⟩

/-- The element of an array member with an index. -/
def elementOf (ms : Members) (m : Member) (t : CType) (i : Nat) : Option Field :=
  (memberOf ms m).map fun f => ⟨f.offset + i * t.size, t.size⟩

namespace CType

def byte : CType := ⟨1, 1, by decide⟩

def word : CType := ⟨4, 4, by decide⟩

def double : CType := ⟨8, 8, by decide⟩

def array (t : CType) (n : Nat) : CType := ⟨n * t.size, t.align, t.align_pos⟩

/-- The strictest alignment among some types. -/
def strictest (ts : List CType) : Nat :=
  (ts.map align).foldr max 1

theorem strictest_pos (ts : List CType) : 0 < strictest ts := by
  induction ts with
  | nil => exact Nat.one_pos
  | cons t ts ih => exact Nat.lt_of_lt_of_le ih (Nat.le_max_right _ _)

/-- A structure: its members placed, and filled up to its own alignment. -/
def record (ms : Members) : CType :=
  let past := ((place 0 ms).map fun p => p.2.offset + p.2.size).foldr max 0
  let align := strictest (ms.map Prod.snd)
  ⟨roundUp past align, align, strictest_pos _⟩

/-- A union: room for its largest member. -/
def union (ts : List CType) : CType :=
  ⟨roundUp ((ts.map size).foldr max 0) (strictest ts), strictest ts, strictest_pos ts⟩

end CType

/-! ### Members do not overlap -/

theorem le_roundUp {n align : Nat} (h : 0 < align) : n ≤ roundUp n align := by
  have hdiv := Nat.div_add_mod (n + align - 1) align
  have hmod := Nat.mod_lt (n + align - 1) h
  rw [Nat.mul_comm] at hdiv
  unfold roundUp
  omega

/-- Members are placed past everything that was placed before them. -/
theorem le_offset_of_lookup {ms : Members} {start : Nat} {m : Member} {f : Field}
    (h : (place start ms).lookup m = some f) : start ≤ f.offset := by
  induction ms generalizing start with
  | nil => cases h
  | cons p ms ih =>
    obtain ⟨k, t⟩ := p
    have hround : start ≤ roundUp start t.align := le_roundUp t.align_pos
    rw [place, List.lookup_cons] at h
    split at h
    · cases h
      exact hround
    · have hrest := ih h
      omega

theorem place_disjoint {ms : Members} {start : Nat} {m n : Member} {f g : Field}
    (hm : (place start ms).lookup m = some f) (hn : (place start ms).lookup n = some g)
    (hne : m ≠ n) : f.offset + f.size ≤ g.offset ∨ g.offset + g.size ≤ f.offset := by
  induction ms generalizing start with
  | nil => cases hm
  | cons p ms ih =>
    obtain ⟨k, t⟩ := p
    rw [place, List.lookup_cons] at hm hn
    split at hm <;> rename_i hmk <;> split at hn <;> rename_i hnk
    · exact absurd ((eq_of_beq hmk).trans (eq_of_beq hnk).symm) hne
    · cases hm
      exact Or.inl (le_offset_of_lookup hn)
    · cases hn
      exact Or.inr (le_offset_of_lookup hm)
    · exact ih hm hn

/-- Of two members of a structure, one ends before the other begins. -/
theorem memberOf_disjoint {ms : Members} {m n : Member} {f g : Field}
    (hm : memberOf ms m = some f) (hn : memberOf ms n = some g) (hne : m ≠ n) :
    f.offset + f.size ≤ g.offset ∨ g.offset + g.size ≤ f.offset :=
  place_disjoint hm hn hne

/-! ### Members end inside -/

theorem le_foldr_max {l : List Nat} {n b : Nat} (h : n ∈ l) : n ≤ l.foldr max b := by
  induction l with
  | nil => cases h
  | cons k l ih =>
    rw [List.foldr_cons]
    rcases List.mem_cons.mp h with rfl | hmem
    · exact Nat.le_max_left _ _
    · exact Nat.le_trans (ih hmem) (Nat.le_max_right _ _)

theorem mem_of_lookup {α : Type} {l : List (Member × α)} {m : Member} {a : α}
    (h : l.lookup m = some a) : (m, a) ∈ l := by
  induction l with
  | nil => cases h
  | cons p l ih =>
    rw [List.lookup_cons] at h
    split at h
    · next heq =>
      cases h
      rw [eq_of_beq heq]
      exact List.mem_cons_self
    · exact List.mem_cons_of_mem p (ih h)

/-- A member ends inside its structure. -/
theorem memberOf_le {ms : Members} {m : Member} {f : Field} (h : memberOf ms m = some f) :
    f.offset + f.size ≤ (CType.record ms).size := by
  have hmem := mem_of_lookup h
  have hpast : f.offset + f.size ≤
      ((place 0 ms).map fun p => p.2.offset + p.2.size).foldr max 0 :=
    le_foldr_max (List.mem_map.mpr ⟨(m, f), hmem, rfl⟩)
  exact Nat.le_trans hpast (le_roundUp (CType.strictest_pos _))

/-- A variant ends inside its union. -/
theorem variantOf_le {ms : Members} {m : Member} {f : Field} (h : variantOf ms m = some f) :
    f.offset + f.size ≤ (CType.union (ms.map Prod.snd)).size := by
  obtain ⟨t, ht, rfl⟩ := Option.map_eq_some_iff.mp h
  have hmem : t.size ∈ (ms.map Prod.snd).map CType.size :=
    List.mem_map.mpr ⟨t, List.mem_map.mpr ⟨(m, t), mem_of_lookup ht, rfl⟩, rfl⟩
  rw [Nat.zero_add]
  exact Nat.le_trans (le_foldr_max hmem) (le_roundUp (CType.strictest_pos _))

theorem map_fst_place (start : Nat) (ms : Members) :
    (place start ms).map Prod.fst = ms.map Prod.fst := by
  induction ms generalizing start with
  | nil => rfl
  | cons p ms ih => rw [place, List.map_cons, List.map_cons, ih]

/-- Only declared members have a place. -/
theorem mem_of_memberOf {ms : Members} {m : Member} {f : Field} (h : memberOf ms m = some f) :
    m ∈ ms.map Prod.fst := by
  rw [← map_fst_place 0 ms]
  exact List.mem_map.mpr ⟨(m, f), mem_of_lookup h, rfl⟩

theorem size_of_lookup {ms : Members} {start : Nat} {m : Member} {f : Field}
    (h : (place start ms).lookup m = some f) : (ms.lookup m).map CType.size = some f.size := by
  induction ms generalizing start with
  | nil => cases h
  | cons p ms ih =>
    obtain ⟨k, t⟩ := p
    rw [place, List.lookup_cons] at h
    rw [List.lookup_cons]
    split at h
    · cases h
      rfl
    · exact ih h

/-- A member takes as many bytes as its type. -/
theorem size_memberOf {ms : Members} {m : Member} {f : Field} {t : CType}
    (h : memberOf ms m = some f) (ht : ms.lookup m = some t) : f.size = t.size := by
  have hsize := size_of_lookup h
  rw [ht] at hsize
  exact (Option.some.inj hsize).symm

end Disassembly
