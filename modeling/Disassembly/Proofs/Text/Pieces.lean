import Disassembly.Proofs.Text.RoundTrip

/-!
# The cut of bytes into characters and broken starts

Any byte sequence is cut into the spellings of characters and, where none stands, into the longest
start of one that does, or a single byte if there is no such start.  The cut is described here by
the spellings alone, without lead bytes and the ranges that they owe, and is the only one there is.

* `encodeChar_assemble` — a lead byte with bytes in the ranges that it owes is the spelling of the
  character put together from them, so that there are no other spellings;
* `Starts`, `starts_cons_iff` — the starts of spellings, by how far the bytes lie in their ranges;
* `Broken`, `pieces_broken` — the longest start of a spelling that is not completed;
* `Cut`, `cut_iff` — the cut, and that `pieces` is the one;
* `decode_cutOff` — a text and a character that is cut off;
* `ne_zero_of_mem_decode` — without a zero byte there is no zero character.
-/

namespace Disassembly.Utf8

variable {b c d e : UInt8} {rs : List Range} {bs t u rest : List UInt8}

/-! ### There are no other spellings -/

theorem toNat_ofNat_of_valid {v : Nat} (h : v.isValidChar) : (Char.ofNat v).val.toNat = v := by
  rw [Char.ofNat, dif_pos h]
  rfl

/-- A byte is known by its number. -/
theorem ofNat_eq {n : Nat} (h : n = b.toNat) : UInt8.ofNat n = b := by
  rw [h, UInt8.ofNat_toNat]

theorem encodeChar_one (hb : b.toNat ≤ 0x7F) : String.utf8EncodeChar (assemble b []) = [b] := by
  have hassemble : assemble b [] = Char.ofNat b.toNat := rfl
  unfold String.utf8EncodeChar
  rw [hassemble, toNat_ofNat_of_valid (Or.inl (by omega))]
  dsimp only
  rw [if_pos hb, UInt8.ofNat_toNat]

theorem encodeChar_two (hb : 0xC2 ≤ b.toNat) (hb' : b.toNat ≤ 0xDF) (hc : 0x80 ≤ c.toNat)
    (hc' : c.toNat ≤ 0xBF) : String.utf8EncodeChar (assemble b [c]) = [b, c] := by
  have hassemble : assemble b [c] = Char.ofNat (b.toNat % 32 * 64 + c.toNat % 64) := rfl
  unfold String.utf8EncodeChar
  rw [hassemble, toNat_ofNat_of_valid (Or.inl (by omega))]
  dsimp only
  rw [if_neg (by omega), if_pos (by omega)]
  refine congrArg₂ List.cons (ofNat_eq ?_) (congrArg₂ List.cons (ofNat_eq ?_) rfl)
  · omega
  · omega

/-- The lowest characters of three bytes and the surrogates are left out. -/
theorem encodeChar_three (hb : 0xE0 ≤ b.toNat) (hb' : b.toNat ≤ 0xEF) (hc : 0x80 ≤ c.toNat)
    (hc' : c.toNat ≤ 0xBF) (hd : 0x80 ≤ d.toNat) (hd' : d.toNat ≤ 0xBF)
    (hlow : b.toNat = 0xE0 → 0xA0 ≤ c.toNat) (hsurrogate : b.toNat = 0xED → c.toNat ≤ 0x9F) :
    String.utf8EncodeChar (assemble b [c, d]) = [b, c, d] := by
  have hassemble : assemble b [c, d] =
      Char.ofNat ((b.toNat % 16 * 64 + c.toNat % 64) * 64 + d.toNat % 64) := rfl
  have hvalid : ((b.toNat % 16 * 64 + c.toNat % 64) * 64 + d.toNat % 64).isValidChar := by
    unfold Nat.isValidChar
    omega
  unfold String.utf8EncodeChar
  rw [hassemble, toNat_ofNat_of_valid hvalid]
  dsimp only
  rw [if_neg (by omega), if_neg (by omega), if_pos (by omega)]
  refine congrArg₂ List.cons (ofNat_eq ?_) (congrArg₂ List.cons (ofNat_eq ?_)
    (congrArg₂ List.cons (ofNat_eq ?_) rfl))
  · omega
  · omega
  · omega

/-- The lowest characters of four bytes are left out, and those behind the last character. -/
theorem encodeChar_four (hb : 0xF0 ≤ b.toNat) (hb' : b.toNat ≤ 0xF4) (hc : 0x80 ≤ c.toNat)
    (hc' : c.toNat ≤ 0xBF) (hd : 0x80 ≤ d.toNat) (hd' : d.toNat ≤ 0xBF) (he : 0x80 ≤ e.toNat)
    (he' : e.toNat ≤ 0xBF) (hlow : b.toNat = 0xF0 → 0x90 ≤ c.toNat)
    (hhigh : b.toNat = 0xF4 → c.toNat ≤ 0x8F) :
    String.utf8EncodeChar (assemble b [c, d, e]) = [b, c, d, e] := by
  have hassemble : assemble b [c, d, e] = Char.ofNat
      (((b.toNat % 8 * 64 + c.toNat % 64) * 64 + d.toNat % 64) * 64 + e.toNat % 64) := rfl
  have hvalid : (((b.toNat % 8 * 64 + c.toNat % 64) * 64 + d.toNat % 64) * 64 +
      e.toNat % 64).isValidChar := by
    unfold Nat.isValidChar
    omega
  unfold String.utf8EncodeChar
  rw [hassemble, toNat_ofNat_of_valid hvalid]
  dsimp only
  rw [if_neg (by omega), if_neg (by omega), if_neg (by omega)]
  refine congrArg₂ List.cons (ofNat_eq ?_) (congrArg₂ List.cons (ofNat_eq ?_)
    (congrArg₂ List.cons (ofNat_eq ?_) (congrArg₂ List.cons (ofNat_eq ?_) rfl)))
  · omega
  · omega
  · omega
  · omega

/-- Ranges by the numbers of their ends. -/
def bounds (rs : List Range) : List (Nat × Nat) :=
  rs.map fun r => (r.low.toNat, r.high.toNat)

/-- Numbers of bytes between bounds, one between each two. -/
def Between (ps : List (Nat × Nat)) (bs : List UInt8) : Prop :=
  List.Forall₂ (fun p b => p.1 ≤ b.toNat ∧ b.toNat ≤ p.2) ps bs

theorem Fits.between (h : Fits rs bs) : Between (bounds rs) bs :=
  List.forall₂_map_left_iff.mpr (h.imp fun r b => (Range.holds_iff r b).mp)

theorem encodeChar_of_two (hb : 0xC2 ≤ b.toNat) (hb' : b.toNat ≤ 0xDF)
    (h : Between [(0x80, 0xBF)] bs) : String.utf8EncodeChar (assemble b bs) = b :: bs := by
  rcases h with _ | ⟨hc, _ | _⟩
  exact encodeChar_two hb hb' hc.1 hc.2

theorem encodeChar_of_three (low high : Nat) (hb : 0xE0 ≤ b.toNat) (hb' : b.toNat ≤ 0xEF)
    (hlow : 0x80 ≤ low) (hhigh : high ≤ 0xBF) (hfirst : b.toNat = 0xE0 → 0xA0 ≤ low)
    (hsurrogate : b.toNat = 0xED → high ≤ 0x9F) (h : Between [(low, high), (0x80, 0xBF)] bs) :
    String.utf8EncodeChar (assemble b bs) = b :: bs := by
  rcases h with _ | ⟨hc, _ | ⟨hd, _ | _⟩⟩
  dsimp only at hc
  exact encodeChar_three hb hb' (by omega) (by omega) hd.1 hd.2 (by omega) (by omega)

theorem encodeChar_of_four (low high : Nat) (hb : 0xF0 ≤ b.toNat) (hb' : b.toNat ≤ 0xF4)
    (hlow : 0x80 ≤ low) (hhigh : high ≤ 0xBF) (hfirst : b.toNat = 0xF0 → 0x90 ≤ low)
    (hlast : b.toNat = 0xF4 → high ≤ 0x8F)
    (h : Between [(low, high), (0x80, 0xBF), (0x80, 0xBF)] bs) :
    String.utf8EncodeChar (assemble b bs) = b :: bs := by
  rcases h with _ | ⟨hc, _ | ⟨hd, _ | ⟨he, _ | _⟩⟩⟩
  dsimp only at hc
  exact encodeChar_four hb hb' (by omega) (by omega) hd.1 hd.2 he.1 he.2 (by omega) (by omega)

/-- **A lead byte and bytes in the ranges that it owes spell a character.** -/
theorem encodeChar_assemble (howed : owed b = some rs) (hfits : Fits rs bs) :
    String.utf8EncodeChar (assemble b bs) = b :: bs := by
  have h := hfits.between
  rw [owed_eq] at howed
  -- One case for each line of the table of lead bytes.
  by_cases hone : b.toNat ≤ 0x7F
  · rw [if_pos hone] at howed
    obtain rfl := Option.some.inj howed
    cases h
    exact encodeChar_one hone
  rw [if_neg hone] at howed
  by_cases hnone : b.toNat < 0xC2
  · rw [if_pos hnone] at howed
    cases howed
  rw [if_neg hnone] at howed
  by_cases htwo : b.toNat ≤ 0xDF
  · rw [if_pos htwo] at howed
    obtain rfl := Option.some.inj howed
    exact encodeChar_of_two (by omega) htwo h
  rw [if_neg htwo] at howed
  by_cases hlow : b.toNat = 0xE0
  · rw [if_pos hlow] at howed
    obtain rfl := Option.some.inj howed
    exact encodeChar_of_three 0xA0 0xBF (by omega) (by omega) (by omega) (by omega) (by omega)
      (by omega) h
  rw [if_neg hlow] at howed
  by_cases hsurrogate : b.toNat = 0xED
  · rw [if_pos hsurrogate] at howed
    obtain rfl := Option.some.inj howed
    exact encodeChar_of_three 0x80 0x9F (by omega) (by omega) (by omega) (by omega) (by omega)
      (by omega) h
  rw [if_neg hsurrogate] at howed
  by_cases hthree : b.toNat ≤ 0xEF
  · rw [if_pos hthree] at howed
    obtain rfl := Option.some.inj howed
    exact encodeChar_of_three 0x80 0xBF (by omega) (by omega) (by omega) (by omega) (by omega)
      (by omega) h
  rw [if_neg hthree] at howed
  by_cases hfirst : b.toNat = 0xF0
  · rw [if_pos hfirst] at howed
    obtain rfl := Option.some.inj howed
    exact encodeChar_of_four 0x90 0xBF (by omega) (by omega) (by omega) (by omega) (by omega)
      (by omega) h
  rw [if_neg hfirst] at howed
  by_cases hfour : b.toNat ≤ 0xF3
  · rw [if_pos hfour] at howed
    obtain rfl := Option.some.inj howed
    exact encodeChar_of_four 0x80 0xBF (by omega) (by omega) (by omega) (by omega) (by omega)
      (by omega) h
  rw [if_neg hfour] at howed
  by_cases hlast : b.toNat = 0xF4
  · rw [if_pos hlast] at howed
    obtain rfl := Option.some.inj howed
    exact encodeChar_of_four 0x80 0x8F (by omega) (by omega) (by omega) (by omega) (by omega)
      (by omega) h
  · rw [if_neg hlast] at howed
    cases howed

/-- No range that is owed is empty. -/
theorem holds_low (howed : owed b = some rs) : ∀ r ∈ rs, r.holds r.low = true := by
  have htable : (owed b).all (fun rs => rs.all fun r => r.holds r.low) = true := by
    unfold owed
    -- Nine lines of the table are left behind one by one; the last has no ranges at all.
    iterate 9
      refine iteInduction (motive := fun o => Option.all _ o = true) (fun _ => rfl) fun _ => ?_
    rfl
  rw [howed, Option.all_some, List.all_eq_true] at htable
  exact htable

/-! ### How far bytes lie in their ranges -/

theorem matching_le (rs : List Range) (bs : List UInt8) : matching rs bs ≤ bs.length := by
  induction rs, bs using matching.induct with
  | case1 r rs b bs hholds ih =>
    rw [matching, if_pos hholds]
    exact Nat.succ_le_succ ih
  | case2 r rs b bs hno =>
    rw [matching, if_neg hno]
    exact Nat.zero_le _
  | case3 rs bs hshort =>
    rw [matching]
    · exact Nat.zero_le _
    · exact hshort

/-- The first bytes lie in their ranges, as far as they were counted. -/
theorem matching_take (rs : List Range) (bs : List UInt8) :
    matching rs (bs.take (matching rs bs)) = matching rs bs := by
  induction rs, bs using matching.induct with
  | case1 r rs b bs hholds ih =>
    rw [matching, if_pos hholds, List.take_succ_cons, matching, if_pos hholds, ih]
  | case2 r rs b bs hno =>
    rw [matching, if_neg hno]
    rfl
  | case3 rs bs hshort =>
    have hzero : matching rs bs = 0 := by
      rw [matching]
      exact hshort
    rw [hzero, List.take_zero]
    cases rs <;> rfl

theorem length_take_matching (rs : List Range) (bs : List UInt8) :
    (bs.take (matching rs bs)).length = matching rs bs :=
  List.length_take_of_le (matching_le rs bs)

/-- If all bytes lie in their ranges, so does the first, and all the others. -/
theorem matching_cons (h : matching rs (b :: t) = (b :: t).length) :
    ∃ r rs', rs = r :: rs' ∧ r.holds b = true ∧ matching rs' t = t.length := by
  cases rs with
  | nil => cases h
  | cons r rs =>
    rw [matching] at h
    split at h
    · next hholds => exact ⟨r, rs, rfl, hholds, Nat.succ.inj h⟩
    · cases h

/-- Bytes that lie in their ranges do so whatever follows. -/
theorem length_le_matching (h : matching rs t = t.length) (u : List UInt8) :
    t.length ≤ matching rs (t ++ u) := by
  induction t generalizing rs with
  | nil => exact Nat.zero_le _
  | cons b t ih =>
    obtain ⟨r, rs, rfl, hholds, hrest⟩ := matching_cons h
    rw [List.cons_append, matching, if_pos hholds]
    exact Nat.succ_le_succ (ih hrest)

theorem matching_of_fits (h : Fits rs (t ++ u)) : matching rs t = t.length := by
  induction t generalizing rs with
  | nil => exact Nat.le_zero.mp (matching_le rs [])
  | cons b t ih =>
    cases h with
    | cons hholds hrest => rw [matching, if_pos hholds, ih hrest, List.length_cons]

/-- Bytes that lie in their ranges can be completed. -/
theorem exists_fits (hlow : ∀ r ∈ rs, r.holds r.low = true) (h : matching rs t = t.length) :
    ∃ u, Fits rs (t ++ u) := by
  induction t generalizing rs with
  | nil =>
    refine ⟨rs.map Range.low, ?_⟩
    rw [List.nil_append, Fits, List.forall₂_map_right_iff, List.forall₂_same]
    exact hlow
  | cons b t ih =>
    obtain ⟨r, rs, rfl, hholds, hrest⟩ := matching_cons h
    obtain ⟨u, hu⟩ := ih (List.forall_mem_cons.mp hlow).2 hrest
    exact ⟨u, .cons hholds hu⟩

/-! ### Starts of spellings -/

/-- A byte sequence with which the spelling of a character starts. -/
def Starts (bs : List UInt8) : Prop :=
  ∃ c, bs <+: String.utf8EncodeChar c

/-- **A start of a spelling** is a lead byte with bytes that lie in the ranges that it owes. -/
theorem starts_cons_iff :
    Starts (b :: t) ↔ ∃ rs, owed b = some rs ∧ matching rs t = t.length := by
  constructor
  · rintro ⟨c, hc⟩
    have hspelling := spelling c
    generalize String.utf8EncodeChar c = bytes at hspelling hc
    cases hspelling with
    | mk howed hfits hchar =>
      obtain ⟨rfl, u, rfl⟩ := List.cons_prefix_cons.mp hc
      exact ⟨_, howed, matching_of_fits hfits⟩
  · rintro ⟨rs, howed, hmatching⟩
    obtain ⟨u, hfits⟩ := exists_fits (holds_low howed) hmatching
    refine ⟨assemble b (t ++ u), ?_⟩
    rw [encodeChar_assemble howed hfits]
    exact ⟨u, rfl⟩

/-- Where all that is owed is there, a character is spelt. -/
theorem encodeChar_of_matching (howed : owed b = some rs) (h : matching rs bs = rs.length) :
    String.utf8EncodeChar (assemble b (bs.take (matching rs bs))) =
      b :: bs.take (matching rs bs) := by
  have htake : matching rs (bs.take (matching rs bs)) = (bs.take (matching rs bs)).length :=
    (matching_take rs bs).trans (length_take_matching rs bs).symm
  obtain ⟨u, hfits⟩ := exists_fits (holds_low howed) htake
  have hlength := hfits.length_eq
  rw [List.length_append, length_take_matching, h, Nat.left_eq_add] at hlength
  rw [List.length_eq_zero_iff.mp hlength, List.append_nil] at hfits
  exact encodeChar_assemble howed hfits

/-- And only there. -/
theorem matching_of_encodeChar {x : Char} (h : String.utf8EncodeChar x <+: b :: bs) :
    ∃ rs, owed b = some rs ∧ matching rs bs = rs.length := by
  have hspelling := spelling x
  generalize String.utf8EncodeChar x = bytes at hspelling h
  cases hspelling with
  | mk howed hfits hchar =>
    obtain ⟨rfl, u, rfl⟩ := List.cons_prefix_cons.mp h
    exact ⟨_, howed, (hfits.matching u).trans hfits.length_eq.symm⟩

/-- No spelling is the start of another. -/
theorem eq_of_encodeChar_prefix {x y : Char}
    (h : String.utf8EncodeChar x <+: String.utf8EncodeChar y) : x = y := by
  obtain ⟨u, hu⟩ := h
  have hx := pieces_encodeChar x u
  have hy := pieces_encodeChar y []
  rw [List.append_nil, ← hu, hx] at hy
  injection hy with hpiece
  injection hpiece

/-! ### Broken starts -/

/-- Bytes in front of others are the longest start of a spelling that is not completed there, or a
single byte that is no start. -/
structure Broken (t rest : List UInt8) : Prop where
  ne_nil : t ≠ []
  noChar : ∀ c, ¬ String.utf8EncodeChar c <+: t ++ rest
  start : Starts t ∨ t.length = 1
  longest : ∀ u, u <+: t ++ rest → Starts u → u.length ≤ t.length

/-- What is cut off as broken is what lies in the ranges, and less than what is owed. -/
theorem Broken.matching_eq (h : Broken (b :: t) rest) :
    matching ((owed b).getD []) (t ++ rest) = t.length ∧
      ∀ rs, owed b = some rs → t.length ≠ rs.length := by
  cases howed : owed b with
  | none =>
    refine ⟨?_, fun rs hrs => nomatch hrs⟩
    rcases h.start with hstarts | hone
    · obtain ⟨rs, hrs, -⟩ := starts_cons_iff.mp hstarts
      rw [howed] at hrs
      cases hrs
    · rw [Nat.succ.inj hone]
      rfl
  | some rs =>
    have hle : t.length ≤ matching rs (t ++ rest) := by
      rcases h.start with hstarts | hone
      · obtain ⟨rs', hrs', hmatching⟩ := starts_cons_iff.mp hstarts
        obtain rfl := Option.some.inj (howed.symm.trans hrs')
        exact length_le_matching hmatching rest
      · rw [Nat.succ.inj hone]
        exact Nat.zero_le _
    have hge : matching rs (t ++ rest) ≤ t.length := by
      have hstarts : Starts (b :: (t ++ rest).take (matching rs (t ++ rest))) :=
        starts_cons_iff.mpr ⟨rs, howed,
          (matching_take _ _).trans (length_take_matching _ _).symm⟩
      have hlongest := h.longest (b :: (t ++ rest).take (matching rs (t ++ rest)))
        (List.cons_prefix_cons.mpr ⟨rfl, List.take_prefix _ _⟩) hstarts
      rw [List.length_cons, length_take_matching] at hlongest
      exact Nat.le_of_succ_le_succ hlongest
    have heq := Nat.le_antisymm hge hle
    refine ⟨heq, fun rs' hrs' hfull => ?_⟩
    obtain rfl := Option.some.inj hrs'
    have hchar := encodeChar_of_matching howed (heq.trans hfull)
    refine h.noChar (assemble b ((t ++ rest).take (matching rs (t ++ rest)))) ?_
    rw [hchar]
    exact List.cons_prefix_cons.mpr ⟨rfl, List.take_prefix _ _⟩

/-- **A broken start is one piece**, and the rest is cut as if it stood alone. -/
theorem pieces_broken (h : Broken t rest) : pieces (t ++ rest) = .broken t :: pieces rest := by
  obtain ⟨b, t, rfl⟩ := List.exists_cons_of_ne_nil h.ne_nil
  obtain ⟨hmatching, hpart⟩ := h.matching_eq
  rw [List.cons_append, pieces, hmatching, List.take_left, List.drop_left]
  cases howed : owed b with
  | none =>
    have hnil : t = [] := by
      rw [howed] at hmatching
      exact List.length_eq_zero_iff.mp hmatching.symm
    rw [piece, hnil]
  | some rs => rw [piece, if_neg (hpart rs howed)]

/-- A byte that leads nothing is broken by itself. -/
theorem broken_of_none (howed : owed b = none) (rest : List UInt8) : Broken [b] rest where
  ne_nil := List.cons_ne_nil b []
  noChar c hc := by
    obtain ⟨rs, hrs, -⟩ := matching_of_encodeChar hc
    rw [howed] at hrs
    cases hrs
  start := Or.inr rfl
  longest u hu hstarts := by
    cases u with
    | nil => exact Nat.zero_le _
    | cons c u =>
      obtain ⟨rfl, -⟩ := List.cons_prefix_cons.mp hu
      obtain ⟨rs, hrs, -⟩ := starts_cons_iff.mp hstarts
      rw [howed] at hrs
      cases hrs

/-- A lead byte and what lies in the ranges is broken if that is not all that is owed. -/
theorem broken_of_some (howed : owed b = some rs) (hpart : matching rs bs ≠ rs.length) :
    Broken (b :: bs.take (matching rs bs)) (bs.drop (matching rs bs)) where
  ne_nil := List.cons_ne_nil _ _
  noChar c hc := by
    rw [List.cons_append, List.take_append_drop] at hc
    obtain ⟨rs', hrs', hfull⟩ := matching_of_encodeChar hc
    obtain rfl := Option.some.inj (howed.symm.trans hrs')
    exact hpart hfull
  start := Or.inl (starts_cons_iff.mpr ⟨rs, howed,
    (matching_take _ _).trans (length_take_matching _ _).symm⟩)
  longest u hu hstarts := by
    rw [List.cons_append, List.take_append_drop] at hu
    cases u with
    | nil => exact Nat.zero_le _
    | cons c u =>
      obtain ⟨rfl, v, rfl⟩ := List.cons_prefix_cons.mp hu
      obtain ⟨rs', hrs', hmatching⟩ := starts_cons_iff.mp hstarts
      obtain rfl := Option.some.inj (howed.symm.trans hrs')
      rw [List.length_cons, List.length_cons, length_take_matching]
      exact Nat.succ_le_succ (length_le_matching hmatching v)

/-! ### The cut -/

/-- Bytes are cut into spellings of characters and broken starts. -/
inductive Cut : List UInt8 → List Piece → Prop where
  | nil : Cut [] []
  | whole (c : Char) {rest : List UInt8} {ps : List Piece} (hrest : Cut rest ps) :
    Cut (String.utf8EncodeChar c ++ rest) (.whole c (String.utf8EncodeChar c) :: ps)
  | broken {t rest : List UInt8} {ps : List Piece} (ht : Broken t rest) (hrest : Cut rest ps) :
    Cut (t ++ rest) (.broken t :: ps)

theorem cut_pieces (bs : List UInt8) : Cut bs (pieces bs) := by
  induction bs using pieces.induct with
  | case1 =>
    rw [pieces]
    exact .nil
  | case2 b bs n ih =>
    rw [pieces]
    cases howed : owed b with
    | none =>
      have hnone : n = 0 := by
        show matching ((owed b).getD []) bs = 0
        rw [howed]
        rfl
      rw [hnone, List.drop_zero] at ih
      exact .broken (broken_of_none howed bs) ih
    | some rs =>
      have hn : n = matching rs bs := by
        show matching ((owed b).getD []) bs = _
        rw [howed, Option.getD_some]
      rw [hn] at ih
      rw [Option.getD_some, piece, length_take_matching]
      split
      · next hfull =>
        have hcut := Cut.whole (assemble b (bs.take (matching rs bs))) ih
        rwa [encodeChar_of_matching howed hfull, List.cons_append, List.take_append_drop] at hcut
      · next hpart =>
        have hcut := Cut.broken (broken_of_some howed hpart) ih
        rwa [List.cons_append, List.take_append_drop] at hcut

/-- **There is one cut, and it is the one into pieces.** -/
theorem cut_iff {ps : List Piece} : Cut bs ps ↔ ps = pieces bs := by
  constructor
  · intro h
    induction h with
    | nil => rw [pieces]
    | whole c hrest ih => rw [pieces_encodeChar, ih]
    | broken ht hrest ih => rw [pieces_broken ht, ih]
  · rintro rfl
    exact cut_pieces bs

/-! ### Reading what was cut -/

/-- A character that is cut off behind a text reads as one replacement character. -/
theorem decode_cutOff {x : Char} (hne : t ≠ []) (hcut : t <+: String.utf8EncodeChar x)
    (hpart : t ≠ String.utf8EncodeChar x) (cs : List Char) :
    decode (encode cs ++ t) = cs ++ [replacement] := by
  have hbroken : Broken t [] :=
    { ne_nil := hne
      noChar := fun y hy => by
        rw [List.append_nil] at hy
        -- The character that is spelt would be the one that is cut off.
        obtain rfl := eq_of_encodeChar_prefix (hy.trans hcut)
        exact hpart (hcut.eq_of_length_le hy.length_le)
      start := Or.inl ⟨x, hcut⟩
      longest := fun u hu _ => by
        rw [List.append_nil] at hu
        exact hu.length_le }
  have hpieces := pieces_broken hbroken
  rw [List.append_nil, pieces] at hpieces
  rw [decode_encode_append, decode, hpieces]
  rfl

/-- Without a zero byte there is no zero character. -/
theorem ne_zero_of_mem_decode (h : 0 ∉ bs) : ∀ x ∈ decode bs, x.val.toNat ≠ 0 := by
  have hcut := cut_pieces bs
  rw [decode]
  generalize pieces bs = ps at hcut
  induction hcut with
  | nil => exact fun x hx => absurd hx List.not_mem_nil
  | whole y hrest ih =>
    rw [List.mem_append, not_or] at h
    refine List.forall_mem_cons.mpr ⟨fun hzero => h.1 ?_, ih h.2⟩
    have hy : y = Char.ofNat 0 := by
      rw [← hzero]
      exact (Char.ofNat_toNat y).symm
    rw [hy]
    exact List.mem_singleton_self 0
  | broken ht hrest ih =>
    rw [List.mem_append, not_or] at h
    have hreplacement : replacement.val.toNat ≠ 0 := by decide
    exact List.forall_mem_cons.mpr ⟨hreplacement, ih h.2⟩

end Disassembly.Utf8
