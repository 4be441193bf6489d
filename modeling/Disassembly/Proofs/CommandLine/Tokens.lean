import Disassembly.Proofs.CommandLine.Spelling

/-!
# Tokens of machine code

Separators and markers cut a text into tokens.  Reading does not keep them apart: what is between
them is taken out, and the digits of all of them are paired as one row.  So a token with a digit
missing is an error only if the number of such tokens is odd; otherwise its last digit makes a byte
with the first digit of the next token.

* `tokens` — the tokens of a text, cut from left to right;
* `flatten_tokens` — what reading leaves of a text are its tokens, one behind the other;
* `Paired.split`, `Paired.straddle` — pairs of digits, cut behind an even number of digits and
  behind an odd one;
* `oddTokens`, `length_flatten_mod_two` — the tokens with a digit missing, and why they count;
* `Balanced`, `balanced_iff` — the tokens that make up bytes;
* `Strung`, `Paired.strung` — the bytes that they make up, and where a byte goes across two tokens;
* `tokens_strung_together` — which texts are read, and as which bytes; `tokens_not_kept_apart` is a
  text that is read although each of its tokens has a digit missing.
-/

namespace Disassembly.CommandLine

open Numeral

/-! ### The cut -/

/-- The text behind the `x` of a marker whose zero has been passed.  Whole markers of the other kind
may stand before that `x`. -/
def behindCross : List Char → Option (List Char)
  | 'x' :: cs => some cs
  | '\\' :: 'x' :: cs => behindCross cs
  | _ => none

/-- The text behind the marker with which a text begins. -/
def behindMarker : List Char → Option (List Char)
  | '\\' :: 'x' :: cs => some cs
  | '0' :: cs => behindCross cs
  | _ => none

section

variable {c : Char} {cs rest : List Char}

theorem length_behindCross (h : behindCross cs = some rest) : rest.length < cs.length := by
  fun_induction behindCross cs with
  | case1 cs =>
    obtain rfl := Option.some.inj h
    exact Nat.lt_succ_self _
  | case2 cs ih =>
    have hlt := ih h
    simp only [List.length_cons]
    omega
  | case3 => cases h

theorem length_behindMarker (h : behindMarker cs = some rest) : rest.length < cs.length := by
  unfold behindMarker at h
  split at h
  · next cs =>
    obtain rfl := Option.some.inj h
    simp only [List.length_cons]
    omega
  · exact (length_behindCross h).trans (Nat.lt_succ_self _)
  · cases h

/-- What stands before, between and behind the separators and markers of a text. -/
def pieces : List Char → List (List Char)
  | [] => [[]]
  | c :: cs =>
    match _h : behindMarker (c :: cs) with
    | some rest => [] :: pieces rest
    | none => if isSeparator c then [] :: pieces cs else (pieces cs).modifyHead (c :: ·)
termination_by cs => cs.length
decreasing_by
  · exact length_behindMarker _h
  · exact Nat.lt_succ_self _
  · exact Nat.lt_succ_self _

/-- The tokens of a text: what is between separators and markers, where that is anything. -/
def tokens (cs : List Char) : List (List Char) :=
  (pieces cs).filter fun t => !t.isEmpty

theorem pieces_nil : pieces [] = [[]] := by
  rw [pieces]

theorem pieces_marker (h : behindMarker cs = some rest) : pieces cs = [] :: pieces rest := by
  cases cs with
  | nil => cases h
  | cons c cs =>
    rw [pieces]
    split
    · next heq => rw [Option.some.inj (heq.symm.trans h)]
    · next heq => cases heq.symm.trans h

theorem pieces_cons (h : behindMarker (c :: cs) = none) : pieces (c :: cs) =
    if isSeparator c then [] :: pieces cs else (pieces cs).modifyHead (c :: ·) := by
  rw [pieces]
  split
  · next heq => cases heq.symm.trans h
  · rfl

/-- The cut goes from marker to marker, and from character to character where none begins. -/
theorem pieces_induction {motive : List Char → Prop} (nil : motive [])
    (marker : ∀ cs rest, behindMarker cs = some rest → motive rest → motive cs)
    (cons : ∀ c cs, behindMarker (c :: cs) = none → motive cs → motive (c :: cs))
    (cs : List Char) : motive cs := by
  induction cs using pieces.induct with
  | case1 => exact nil
  | case2 c cs rest h ih => exact marker _ rest h ih
  | case3 c cs h hc ih => exact cons c cs h ih
  | case4 c cs h hc ih => exact cons c cs h ih

theorem pieces_ne_nil (cs : List Char) : pieces cs ≠ [] := by
  induction cs using pieces_induction with
  | nil => simp [pieces_nil]
  | marker cs rest h ih => simp [pieces_marker h]
  | cons c cs h ih =>
    rw [pieces_cons h]
    split
    · exact List.cons_ne_nil _ _
    · simpa using ih

theorem ne_nil_of_mem_tokens {t : List Char} (h : t ∈ tokens cs) : t ≠ [] := by
  rintro rfl
  simp [tokens] at h

/-! ### What reading leaves -/

theorem dropPairs_of_behindCross (h : behindCross cs = some rest) :
    dropPairs '\\' 'x' cs = 'x' :: dropPairs '\\' 'x' rest := by
  fun_induction behindCross cs with
  | case1 cs =>
    obtain rfl := Option.some.inj h
    exact dropPairs_cons fun hp => absurd hp.1 (by decide)
  | case2 cs ih => rw [dropPairs_pair, ih h]
  | case3 => cases h

/-- Where no marker ends, taking out the first kind brings no `x` to the front. -/
theorem head?_of_behindCross (h : behindCross cs = none) :
    (dropPairs '\\' 'x' cs).head? ≠ some 'x' := by
  fun_induction behindCross cs with
  | case1 cs => cases h
  | case2 cs ih =>
    rw [dropPairs_pair]
    exact ih h
  | case3 cs hcross hmark =>
    cases cs with
    | nil => exact nofun
    | cons c cs =>
      -- Neither kind goes on here, so that the first character stays, and it is no `x`.
      have hstays : ¬ (c = '\\' ∧ cs.head? = some 'x') := by
        rintro ⟨rfl, hx⟩
        obtain ⟨cs', rfl⟩ := List.head?_eq_some_iff.mp hx
        exact hmark cs' rfl
      rw [dropPairs_cons hstays]
      intro hx
      obtain rfl := Option.some.inj hx
      exact hcross cs rfl

theorem codeDigits_of_behindMarker (h : behindMarker cs = some rest) :
    codeDigits cs = codeDigits rest := by
  unfold behindMarker at h
  split at h
  · obtain rfl := Option.some.inj h
    rw [codeDigits, dropPairs_pair, codeDigits]
  · rw [codeDigits, dropPairs_cons fun hp => absurd hp.1 (by decide), dropPairs_of_behindCross h,
      dropPairs_pair, codeDigits]
  · cases h

theorem codeDigits_cons (h : behindMarker (c :: cs) = none) : codeDigits (c :: cs) =
    if isSeparator c then codeDigits cs else c :: codeDigits cs := by
  have hfirst : ¬ (c = '\\' ∧ cs.head? = some 'x') := by
    rintro ⟨rfl, hx⟩
    obtain ⟨cs', rfl⟩ := List.head?_eq_some_iff.mp hx
    cases h
  have hsecond : ¬ (c = '0' ∧ (dropPairs '\\' 'x' cs).head? = some 'x') := by
    rintro ⟨rfl, hx⟩
    exact head?_of_behindCross h hx
  rw [codeDigits, dropPairs_cons hfirst, dropPairs_cons hsecond, List.filter_cons]
  cases hc : isSeparator c with
  | true => rfl
  | false => rfl

theorem flatten_pieces (cs : List Char) : (pieces cs).flatten = codeDigits cs := by
  induction cs using pieces_induction with
  | nil =>
    rw [pieces_nil]
    rfl
  | marker cs rest h ih =>
    rw [pieces_marker h, codeDigits_of_behindMarker h, ← ih, List.flatten_cons, List.nil_append]
  | cons c cs h ih =>
    rw [pieces_cons h, codeDigits_cons h, ← ih]
    split
    · rfl
    · obtain ⟨piece, others, heq⟩ := List.exists_cons_of_ne_nil (pieces_ne_nil cs)
      rw [heq]
      rfl

/-- **What reading leaves of a text are its tokens**, one behind the other. -/
theorem flatten_tokens (cs : List Char) : (tokens cs).flatten = codeDigits cs := by
  rw [tokens, List.flatten_filter_not_isEmpty, flatten_pieces]

end

/-- A zero is no digit where it begins a marker, also one with markers of the other kind inside. -/
example : tokens "100xff,0\\xx4 0\\x5".toList =
    [['1', '0'], ['f', 'f'], ['4'], ['0'], ['5']] := by decide +kernel

/-! ### Pairs of digits, cut -/

section

variable {cs ds : List Char} {bs : List UInt8} {high low : Char}

/-- There are bytes to every even number of digits. -/
theorem exists_paired : ∀ {cs : List Char}, cs.length % 2 = 0 →
    (∀ c ∈ cs, (hexDigit? c).isSome) → ∃ bs, Paired cs bs
  | [], _, _ => ⟨[], .nil⟩
  | [_], hodd, _ => nomatch hodd
  | high :: low :: cs, heven, hdigits => by
    rw [List.forall_mem_cons, List.forall_mem_cons] at hdigits
    obtain ⟨h, hhigh⟩ := Option.isSome_iff_exists.mp hdigits.1
    obtain ⟨l, hlow⟩ := Option.isSome_iff_exists.mp hdigits.2.1
    have heven' : cs.length % 2 = 0 := (Nat.add_mod_right _ 2).symm.trans heven
    obtain ⟨bs, hbs⟩ := exists_paired heven' hdigits.2.2
    exact ⟨_, .cons hhigh hlow hbs⟩

namespace Paired

theorem even (h : Paired cs bs) : cs.length % 2 = 0 := by
  rw [h.length]
  exact Nat.mul_mod_right 2 _

/-- Behind an even number of digits no byte is cut. -/
theorem split (heven : cs.length % 2 = 0) (h : Paired (cs ++ ds) bs) :
    ∃ bs₁ bs₂, bs = bs₁ ++ bs₂ ∧ Paired cs bs₁ ∧ Paired ds bs₂ := by
  -- The front has bytes of its own, and the induction goes along these.
  obtain ⟨bs₁, h₁⟩ := exists_paired heven fun c hc =>
    Option.isSome_iff_exists.mpr (h.digit c (List.mem_append_left ds hc))
  induction h₁ generalizing bs with
  | nil => exact ⟨[], bs, rfl, .nil, h⟩
  | cons hhigh hlow hrest ih =>
    cases h with
    | cons hhigh' hlow' hrest' =>
      have heven' : _ % 2 = 0 := (Nat.add_mod_right _ 2).symm.trans heven
      obtain ⟨bs₁, bs₂, rfl, hcs, hds⟩ := ih heven' hrest'
      exact ⟨_ :: bs₁, bs₂, rfl, .cons hhigh' hlow' hcs, hds⟩

/-- Behind an odd number of digits a byte is cut, into the digit before and the digit behind. -/
theorem straddle (heven : cs.length % 2 = 0) (h : Paired (cs ++ high :: low :: ds) bs) :
    ∃ bs₁ b bs₂, bs = bs₁ ++ b :: bs₂ ∧ Paired cs bs₁ ∧ Paired [high, low] [b] ∧ Paired ds bs₂ := by
  obtain ⟨bs₁, behind, rfl, hcs, hbehind⟩ := h.split heven
  cases hbehind with
  | cons hhigh hlow hds => exact ⟨bs₁, _, _, rfl, hcs, .cons hhigh hlow .nil, hds⟩

end Paired

/-! ### Tokens with a digit missing -/

variable {ts : List (List Char)}

/-- The number of tokens of which a digit is missing: the length is odd. -/
def oddTokens (ts : List (List Char)) : Nat :=
  ts.countP fun t => t.length % 2 == 1

/-- Whether a digit is missing at the end of all tokens depends on how many miss one. -/
theorem length_flatten_mod_two (ts : List (List Char)) :
    ts.flatten.length % 2 = oddTokens ts % 2 := by
  induction ts with
  | nil => rfl
  | cons t ts ih =>
    rw [oddTokens] at ih
    rw [oddTokens, List.flatten_cons, List.length_append, List.countP_cons]
    split
    · next hodd =>
      have hone := beq_iff_eq.mp hodd
      omega
    · next heven =>
      have hzero := mt beq_iff_eq.mpr heven
      omega

/-- Bytes token by token: to each token its own, one token after the other. -/
def Tokenwise (ts : List (List Char)) (bs : List UInt8) : Prop :=
  ∃ bss, List.Forall₂ Paired ts bss ∧ bs = bss.flatten

/-- In bytes token by token no digit is missing. -/
theorem Tokenwise.even (h : Tokenwise ts bs) : ∀ t ∈ ts, t.length % 2 = 0 := by
  obtain ⟨bss, hbss, -⟩ := h
  induction hbss with
  | nil => exact fun t ht => absurd ht List.not_mem_nil
  | cons hown _ ih => exact List.forall_mem_cons.mpr ⟨hown.even, ih⟩

/-- Where no digit is missing, pairing all digits as one row gives bytes token by token. -/
theorem tokenwise_of_even (heven : ∀ t ∈ ts, t.length % 2 = 0) (h : Paired ts.flatten bs) :
    Tokenwise ts bs := by
  induction ts generalizing bs with
  | nil =>
    cases h
    exact ⟨[], .nil, rfl⟩
  | cons t ts ih =>
    obtain ⟨ht, hts⟩ := List.forall_mem_cons.mp heven
    obtain ⟨own, behind, rfl, hown, hbehind⟩ := h.split ht
    obtain ⟨bss, hbss, rfl⟩ := ih hts hbehind
    exact ⟨own :: bss, .cons hown hbss, rfl⟩

end

/-! ### What is made of tokens -/

/-- Tokens that make up bytes: digits only, and no token or an even number of them with a digit
missing. -/
structure Balanced (ts : List (List Char)) : Prop where
  pos : ts ≠ []
  digits : ∀ t ∈ ts, ∀ c ∈ t, (hexDigit? c).isSome
  even : oddTokens ts % 2 = 0

/-- The bytes that tokens make up. -/
structure Strung (ts : List (List Char)) (bs : List UInt8) : Prop where
  /-- The digits of all tokens are paired as one row. -/
  row : Paired ts.flatten bs
  /-- These are bytes token by token exactly if no token has a digit missing. -/
  tokenwise : Tokenwise ts bs ↔ ∀ t ∈ ts, t.length % 2 = 0
  /-- Behind an even number of tokens with a digit missing no byte goes across. -/
  within : ∀ before behind, ts = before ++ behind → oddTokens before % 2 = 0 →
    ∃ bs₁ bs₂, bs = bs₁ ++ bs₂ ∧ Paired before.flatten bs₁ ∧ Paired behind.flatten bs₂
  /-- Behind an odd number of them one byte does, made of the last digit of one token and the first
  digit of the next. -/
  across : ∀ before t t' behind, ts = before ++ t :: t' :: behind →
    oddTokens (before ++ [t]) % 2 = 1 →
    ∃ cs high low ds bs₁ b bs₂, t = cs ++ [high] ∧ t' = low :: ds ∧ bs = bs₁ ++ b :: bs₂ ∧
      Paired (before.flatten ++ cs) bs₁ ∧ Paired [high, low] [b] ∧
      Paired (ds ++ behind.flatten) bs₂

section

variable {ts : List (List Char)} {bs : List UInt8} {text : String}

theorem readCode_ok_iff_tokens : readCode text = .ok bs ↔
    bs ≠ [] ∧ Paired (tokens text.toList).flatten bs := by
  rw [flatten_tokens, readCode_ok_iff]

theorem balanced_iff (hne : ∀ t ∈ ts, t ≠ []) :
    Balanced ts ↔ ∃ bs, bs ≠ [] ∧ Paired ts.flatten bs := by
  constructor
  · intro h
    have heven : ts.flatten.length % 2 = 0 := (length_flatten_mod_two ts).trans h.even
    obtain ⟨bs, hbs⟩ := exists_paired heven fun c hc => by
      obtain ⟨t, ht, hct⟩ := List.mem_flatten.mp hc
      exact h.digits t ht c hct
    refine ⟨bs, ?_, hbs⟩
    rintro rfl
    obtain ⟨t, ts', rfl⟩ := List.exists_cons_of_ne_nil h.pos
    have hlength := hbs.length
    have hpos := List.length_pos_of_ne_nil (hne t List.mem_cons_self)
    rw [List.flatten_cons, List.length_append, List.length_nil] at hlength
    omega
  · rintro ⟨bs, hbs, hpaired⟩
    refine ⟨?_, fun t ht c hc => ?_, ?_⟩
    · rintro rfl
      cases hpaired
      exact hbs rfl
    · exact Option.isSome_iff_exists.mpr (hpaired.digit c (List.mem_flatten.mpr ⟨t, ht, hc⟩))
    · exact (length_flatten_mod_two ts).symm.trans hpaired.even

/-- **The bytes of one row of digits**, cut where the tokens are. -/
theorem Paired.strung (hne : ∀ t ∈ ts, t ≠ []) (h : Paired ts.flatten bs) : Strung ts bs where
  row := h
  tokenwise := ⟨Tokenwise.even, fun heven => tokenwise_of_even heven h⟩
  within := by
    rintro before behind rfl heven
    rw [List.flatten_append] at h
    exact h.split ((length_flatten_mod_two before).trans heven)
  across := by
    rintro before t t' behind rfl hodd
    have ht : t ≠ [] := hne t (by simp)
    have ht' : t' ≠ [] := hne t' (by simp)
    obtain ⟨cs, high, rfl⟩ := (List.eq_nil_or_concat' t).resolve_left ht
    obtain ⟨low, ds, rfl⟩ := List.exists_cons_of_ne_nil ht'
    -- Without the last digit of `t` the number of digits in front is even.
    have heven : (before.flatten ++ cs).length % 2 = 0 := by
      have hlength := (length_flatten_mod_two (before ++ [cs ++ [high]])).trans hodd
      simp only [List.flatten_append, List.flatten_singleton, List.length_append,
        List.length_singleton] at hlength ⊢
      omega
    have hrow : Paired ((before.flatten ++ cs) ++ high :: low :: (ds ++ behind.flatten)) bs := by
      simpa using h
    obtain ⟨bs₁, b, bs₂, hbs, hcs, hb, hds⟩ := hrow.straddle heven
    exact ⟨cs, high, low, ds, bs₁, b, bs₂, rfl, rfl, hbs, hcs, hb, hds⟩

/-- Digits of which one is missing are refused for that. -/
theorem readCode_of_odd (hdigits : ∀ c ∈ codeDigits text.toList, (hexDigit? c).isSome)
    (hodd : (codeDigits text.toList).length % 2 = 1) :
    readCode text = .error (.undecoded .oddLength) := by
  have hsmall : ∀ c ∈ codeDigits text.toList, c.toNat ≤ 127 := fun c hc => by
    obtain ⟨d, hd⟩ := Option.isSome_iff_exists.mp (hdigits c hc)
    exact toNat_le_of_digit hd
  have hbytes : (textBytes (String.ofList (codeDigits text.toList))).length % 2 = 1 := by
    rw [textBytes_eq, String.toList_ofList, ← List.length_map (f := byteChar),
      map_byteChar_encode (Or.inl hsmall), hodd]
  unfold readCode
  split
  · next hnil =>
    rw [hnil] at hodd
    cases hodd
  · rw [Hex.decode, if_neg (by omega)]
    rfl

end

/-! ### Reading -/

/-- **Tokens are strung together.**  A text is read exactly if its tokens consist of digits and the
number of those with a digit missing is even; where it is odd, that is the error.  What is read has a
byte made of two tokens exactly where an odd number of tokens with a digit missing comes before. -/
theorem tokens_strung_together :
    (∀ text, (∃ bs, readCode text = .ok bs) ↔ Balanced (tokens text.toList)) ∧
      (∀ text, (∀ t ∈ tokens text.toList, ∀ c ∈ t, (hexDigit? c).isSome) →
        oddTokens (tokens text.toList) % 2 = 1 → readCode text = .error (.undecoded .oddLength)) ∧
      ∀ text bs, readCode text = .ok bs → Strung (tokens text.toList) bs := by
  refine ⟨fun text => ?_, fun text hdigits hodd => ?_, fun text bs hread => ?_⟩
  · simp only [readCode_ok_iff_tokens]
    exact (balanced_iff fun t => ne_nil_of_mem_tokens).symm
  · have hlength := (length_flatten_mod_two (tokens text.toList)).trans hodd
    rw [flatten_tokens] at hlength
    refine readCode_of_odd (fun c hc => ?_) hlength
    rw [← flatten_tokens] at hc
    obtain ⟨t, ht, hct⟩ := List.mem_flatten.mp hc
    exact hdigits t ht c hct
  · exact (readCode_ok_iff_tokens.mp hread).2.strung fun t => ne_nil_of_mem_tokens

/-- Four tokens of which the second and the third have a digit missing, with a marker between them
inside which stands another; and the first two tokens of these alone. -/
theorem tokens_strung_together_missing :
    readCode "8d,4 0\\xxc32 08" = .ok [0x8d, 0x4c, 0x32, 0x08] ∧
      Strung [['8', 'd'], ['4'], ['c', '3', '2'], ['0', '8']] [0x8d, 0x4c, 0x32, 0x08] ∧
      Balanced [['8', 'd'], ['4'], ['c', '3', '2'], ['0', '8']] ∧
      oddTokens [['8', 'd'], ['4']] % 2 = 1 ∧
      readCode "8d,4" = .error (.undecoded .oddLength) := by
  have hread : readCode "8d,4 0\\xxc32 08" = .ok [0x8d, 0x4c, 0x32, 0x08] := by decide +kernel
  have htokens : tokens "8d,4 0\\xxc32 08".toList =
      [['8', 'd'], ['4'], ['c', '3', '2'], ['0', '8']] := by decide +kernel
  have hfirst : tokens "8d,4".toList = [['8', 'd'], ['4']] := by decide +kernel
  have hodd : oddTokens [['8', 'd'], ['4']] % 2 = 1 := by decide
  refine ⟨hread, ?_, ?_, hodd, ?_⟩
  · rw [← htokens]
    exact tokens_strung_together.2.2 _ _ hread
  · rw [← htokens]
    exact (tokens_strung_together.1 _).mp ⟨_, hread⟩
  · refine tokens_strung_together.2.1 _ ?_ (hfirst ▸ hodd)
    rw [hfirst]
    decide

/-- Tokens are not kept apart: a text may be read of which each token has a digit missing. -/
theorem tokens_not_kept_apart :
    readCode "7 0" = .ok [0x70] ∧ tokens "7 0".toList = [['7'], ['0']] ∧
      ¬ ∀ text bs, readCode text = .ok bs →
        (∀ t ∈ tokens text.toList, t.length % 2 = 0) ∧ Tokenwise (tokens text.toList) bs := by
  have hread : readCode "7 0" = .ok [0x70] := by decide +kernel
  have htokens : tokens "7 0".toList = [['7'], ['0']] := by decide +kernel
  refine ⟨hread, htokens, fun hall => ?_⟩
  have heven := (hall _ _ hread).1 ['7'] (by rw [htokens]; exact List.mem_cons_self)
  cases heven

end Disassembly.CommandLine
