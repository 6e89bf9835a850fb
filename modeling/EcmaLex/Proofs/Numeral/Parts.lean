import EcmaLex.Proofs.Numeral.Reading

/-!
# What follows the integer of a numeral

The fraction, the exponent and the suffix are read one after the other, and then the
next character is looked at.  Where a part fails, the literal could have ended
before it, and what follows there is the letter of the exponent or a separator,
neither of which may follow a literal.

## Main definitions

* `Literal.ends` — what may follow the digits and the fraction of a literal.
* `Literal.Marked` — the kind is that of a BigInt just where the text has the suffix.

## Main results

* `Numeral.reads_fraction` — the fraction, if there is one.
* `Numeral.reads_ending` — the exponent or the suffix, if there is one.
-/

namespace EcmaLex

namespace Literal

/-- What may follow the digits and the fraction of a literal of the form. -/
def ends (settings : Settings) (form : NumberForm) (pointSeen : Bool) : Language Char :=
  (if form.isDecimal then 1 + exponent (Numeral.allowsSeparators settings form) else 1) +
    if form.allowsBigInt && !pointSeen then oneOf ['n'] else 0

/-- The kind is that of a BigInt just where the text has the suffix, as its last character. -/
def Marked (kind : TokenKind) (w : List Char) : Prop :=
  kind = .bigInt ∧ w.getLast? = some 'n' ∨ kind ≠ .bigInt ∧ 'n' ∉ w

variable {settings : Settings} {form : NumberForm} {pointSeen : Bool} {a w v x : List Char}
  {kind : TokenKind}

/-- What comes before the suffix does not matter. -/
theorem Marked.append (h : Marked kind w) (hx : 'n' ∉ x) : Marked kind (x ++ w) := by
  rcases h with ⟨hk, hw⟩ | ⟨hk, hw⟩
  · refine .inl ⟨hk, ?_⟩
    rw [List.getLast?_append, hw]
    rfl
  · refine .inr ⟨hk, fun h => ?_⟩
    rcases List.mem_append.1 h with h | h
    · exact hx h
    · exact hw h

theorem Marked.iff (h : Marked kind w) : kind = .bigInt ↔ w.getLast? = some 'n' := by
  rcases h with ⟨hk, hw⟩ | ⟨hk, hw⟩
  · exact ⟨fun _ => hw, fun _ => hk⟩
  · exact ⟨fun h => absurd h hk, fun h => absurd (List.mem_of_getLast? h) hw⟩

theorem abuts_of_isIdentifierStart {c : Char} (h : v.head? = some c)
    (hc : isIdentifierStart c = true) : Abuts v := by
  unfold Abuts
  rw [h, Option.any_some, hc, Bool.or_true]

/-- A separator starts an identifier. -/
theorem abuts_separator (h : v.head? = some '_') : Abuts v :=
  abuts_of_isIdentifierStart h (by decide)

/-! ### Texts without the suffix -/

theorem More.notMem {isDigit : Char → Bool} {separators : Bool}
    (hd : ∀ c, isDigit c = true → isHexDigit c = true) (hw : More isDigit separators w) :
    'n' ∉ w := by
  intro h
  rcases hw.digit_or_separator _ h with h | h
  · cases hd _ h
  · cases h

theorem notMem_run {separators : Bool} (hw : w ∈ run isDecimalDigit separators) : 'n' ∉ w := by
  obtain ⟨c, x, hc, hx, rfl⟩ := hw
  intro h
  rcases List.mem_cons.1 h with rfl | h
  · cases hc
  · exact hx.notMem (fun _ => isHexDigit_of_isDecimalDigit) h

theorem notMem_fraction {separators : Bool} (hw : w ∈ fraction separators) : 'n' ∉ w := by
  obtain ⟨c, hc, x, hx, rfl⟩ := mem_oneOf_mul.1 hw
  rw [List.mem_singleton.1 hc]
  intro h
  rcases List.mem_cons.1 h with h | h
  · cases h
  · rcases hx with hx | hx
    · rw [(Language.mem_one x).1 hx] at h
      cases h
    · exact notMem_run hx h

theorem notMem_exponent {separators : Bool} (hw : w ∈ exponent separators) : 'n' ∉ w := by
  obtain ⟨c, hc, y, hy, rfl⟩ := mem_oneOf_mul.1 hw
  obtain ⟨s, hs, x, hx, rfl⟩ := Language.mem_mul.1 hy
  have hs' : 'n' ∉ s := by
    rcases hs with hs | ⟨d, hd, rfl⟩
    · rw [(Language.mem_one s).1 hs]
      exact List.not_mem_nil
    · intro h
      rw [← List.mem_singleton.1 h] at hd
      revert hd
      decide
  intro h
  rcases List.mem_cons.1 h with rfl | h
  · revert hc
    decide
  · rcases List.mem_append.1 h with h | h
    · exact hs' h
    · exact notMem_run hx h

/-! ### Where a literal ends -/

/-- The suffix ends a literal that may have one. -/
theorem munch_ends_suffix (h : (form.allowsBigInt && !pointSeen) = true) :
    Munch (ends settings form pointSeen) ('n' :: a) ['n'] a := by
  unfold ends
  rw [if_pos h]
  refine (Munch.oneOf List.mem_cons_self a).add_right fun u hu hm => ?_
  -- neither may the first part begin with the letter, nor is it longer
  have hexp : Misses (exponent (Numeral.allowsSeparators settings form)) ('n' :: a) :=
    (misses_oneOf (by rintro _ ⟨⟩; decide)).mul
  split at hm
  · rcases hm with hm | hm
    · rw [(Language.mem_one u).1 hm]
      exact Nat.zero_le _
    · exact absurd hm (hexp u hu)
  · rw [(Language.mem_one u).1 hm]
    exact Nat.zero_le _

theorem misses_suffix (h : a.head? = some 'n' → ¬ (form.allowsBigInt && !pointSeen) = true) :
    Misses (if form.allowsBigInt && !pointSeen then oneOf ['n'] else 0) a := by
  split
  · next hn =>
    refine misses_oneOf fun c hc hc' => ?_
    rw [List.mem_singleton.1 hc'] at hc
    exact h hc hn
  · exact fun _ _ h => by cases h

/-- The exponent ends a literal that may have one. -/
theorem munch_ends_exponent (hf : form.isDecimal = true)
    (hn : a.head? = some 'n' → ¬ (form.allowsBigInt && !pointSeen) = true)
    (h : Munch (exponent (Numeral.allowsSeparators settings form)) a w v) :
    Munch (ends settings form pointSeen) a w v := by
  unfold ends
  rw [if_pos hf]
  exact h.one_add.add_left (misses_suffix hn).length_le

/-- Without suffix and exponent a literal ends at once. -/
theorem munch_ends_nil
    (he : form.isDecimal = true → Misses (exponent (Numeral.allowsSeparators settings form)) a)
    (hn : a.head? = some 'n' → ¬ (form.allowsBigInt && !pointSeen) = true) :
    Munch (ends settings form pointSeen) a [] a := by
  unfold ends
  refine Munch.add_left ?_ (misses_suffix hn).length_le
  split
  · next hf => exact Munch.one_add_nil (he hf)
  · exact Munch.one a

/-- After a fraction there may only be an exponent. -/
theorem munch_exponent_of_ends (hf : form.isDecimal = true)
    (h : Munch (ends settings form true) a w v) :
    Munch (1 + exponent (Numeral.allowsSeparators settings form)) a w v := by
  unfold ends at h
  rwa [if_pos hf, if_neg (by simp), add_zero] at h

/-- Before a separator a literal ends at once. -/
theorem munch_ends_separator (h : a.head? = some '_') :
    Munch (ends settings form pointSeen) a [] a := by
  refine munch_ends_nil (fun _ => Misses.mul (misses_oneOf fun c hc hc' => ?_)) fun hn => ?_
  · rw [h] at hc
    cases hc
    revert hc'
    decide
  · rw [h] at hn
    cases hn

end Literal

namespace Numeral

open Literal (run Abuts Cut ends Marked)

variable {σ : Type} [ExactSource σ] {before u a : List Char} {settings : Settings} {start : Nat}
  {form : NumberForm} {pointSeen : Bool}

/-! ### The fraction and the exponent -/

/-- A point is read with the digits after it. -/
theorem reads_fraction (separators : Bool) :
    Reads (σ := σ) (fraction separators) before u a
      (fun point w v => point = true ∧ Munch (Literal.fraction separators) a w v ∨
        point = false ∧ w = [] ∧ v = a ∧ a.head? ≠ some '.')
      (Cut (Literal.fraction separators) a) := by
  refine Reads.get_bind ?_
  rw [reader_of, Reader.isAt_between]
  by_cases ha : (a.head? == some '.') = true
  · rw [if_pos ha]
    obtain ⟨_, rfl⟩ := List.head?_eq_some_iff.1 (beq_iff_eq.1 ha)
    refine (Reads.take (by decide)).bind ?_
    rintro _ _ b ⟨rfl, rfl⟩
    refine ((reads_digits_false fun _ => isHexDigit_of_isDecimalDigit).mono_fails ?_).bind
      fun _ w v hm => .pure ?_
    · exact Cut.oneOf_mul List.mem_cons_self
    · rw [List.append_nil]
      exact .inl ⟨rfl, hm.oneOf_mul List.mem_cons_self⟩
  · rw [if_neg ha]
    exact .pure (.inr ⟨rfl, rfl, rfl, fun h => ha (beq_iff_eq.2 h)⟩)

theorem reads_sign {fails : Prop} :
    Reads (σ := σ) sign before u a (fun _ w v => Munch (1 + oneOf ['+', '-']) a w v) fails := by
  refine Reads.get_bind ?_
  rw [reader_of, Reader.isAtAny_between]
  cases a with
  | nil => exact .pure (Munch.one_add_nil (misses_oneOf fun _ h => by cases h))
  | cons c a =>
    by_cases hc : (c == '+' || c == '-') = true
    · have hc' : c ∈ ['+', '-'] := by simpa using hc
      have hall : ∀ d ∈ ['+', '-'], d ∉ ['_', 'n'] := forall_mem_of_all (by decide)
      rw [List.head?_cons, Option.any_some, if_pos hc]
      refine (Reads.take (hall c hc')).mono ?_ id
      rintro _ _ _ ⟨rfl, rfl⟩
      exact (Munch.oneOf hc' _).one_add
    · rw [List.head?_cons, Option.any_some, if_neg hc]
      refine .pure (Munch.one_add_nil (misses_oneOf ?_))
      rintro _ ⟨⟩ hc'
      exact hc (by simpa using hc')

/-- The letter of an exponent is read with the sign and the digits after it. -/
theorem reads_exponent {c : Char} (hf : form.isDecimal = true) (hc : c ∈ ['e', 'E']) :
    Reads (σ := σ) (exponent settings form) before u (c :: a)
      (fun _ w v => Munch (Literal.exponent (allowsSeparators settings form)) (c :: a) w v)
      (Misses (Literal.exponent (allowsSeparators settings form)) (c :: a) ∨
        Cut (Literal.exponent (allowsSeparators settings form)) (c :: a)) := by
  have hk : c ∉ ['_', 'n'] := by
    have hall : ∀ d ∈ ['e', 'E'], d ∉ ['_', 'n'] := forall_mem_of_all (by decide)
    exact hall c hc
  unfold exponent
  rw [if_pos hf]
  refine (Reads.take hk).bind ?_
  rintro _ _ _ ⟨rfl, rfl⟩
  refine reads_sign.bind fun _ s b hs => ?_
  -- neither sign is a digit
  have hap : Apart s (run isDecimalDigit (allowsSeparators settings form)) := by
    refine Literal.apart_run fun d hd => ?_
    rcases hs.mem with h | ⟨z, hz, rfl⟩
    · rw [(Language.mem_one s).1 h] at hd
      cases hd
    · rw [List.mem_singleton.1 hd]
      rcases List.mem_cons.1 hz with rfl | hz
      · rfl
      · rw [List.mem_singleton.1 hz]
        rfl
  refine (reads_someDigits fun _ => isHexDigit_of_isDecimalDigit).mono ?_ ?_
  · intro _ w v hw
    exact (hs.mul hw hap).oneOf_mul hc
  · rintro (hmiss | hcut)
    · exact .inl (hs.misses_mul hmiss hap).oneOf_mul
    · exact .inr ((Cut.mul hs hcut hap).oneOf_mul hc)

/-! ### The end of a literal -/

theorem reads_bigIntSuffix {fails : Prop} :
    Reads (σ := σ) (bigIntSuffix settings start form) before u ('n' :: a)
      (fun _ w v => w = ['n'] ∧ v = a) fails := by
  refine Reads.get_bind ?_
  dsimp only
  split
  · exact .inl rfl
  · exact ⟨['n'], a, takeRaw_of (by decide), rfl, rfl⟩

/-- A suffix or an exponent is read if there is one. -/
theorem reads_suffix :
    Reads (σ := σ) (suffix settings start form pointSeen) before u a
      (fun kind w v => Munch (ends settings form pointSeen) a w v ∧ Marked kind w)
      (∃ w v, Munch (ends settings form pointSeen) a w v ∧ Abuts v) := by
  refine Reads.get_bind ?_
  dsimp only
  rw [reader_of, Reader.isAt_between, Reader.isAtAny_between]
  by_cases hn : (a.head? == some 'n' && !pointSeen && form.allowsBigInt) = true
  · rw [if_pos hn]
    simp only [Bool.and_eq_true, beq_iff_eq, Bool.not_eq_true'] at hn
    obtain ⟨⟨hn, hp⟩, hb⟩ := hn
    obtain ⟨_, rfl⟩ := List.head?_eq_some_iff.1 hn
    refine reads_bigIntSuffix.bind ?_
    rintro _ _ b ⟨rfl, rfl⟩
    refine .pure ⟨?_, .inl ⟨rfl, rfl⟩⟩
    exact Literal.munch_ends_suffix (by rw [hp, hb]; rfl)
  · rw [if_neg hn]
    -- no suffix comes here, or it may not
    have hsuf : a.head? = some 'n' → ¬ (form.allowsBigInt && !pointSeen) = true := by
      intro h h'
      obtain ⟨hb, hp⟩ := Bool.and_eq_true_iff.1 h'
      exact hn (by rw [h, hp, hb]; rfl)
    by_cases he : a.head?.any (fun c => c == 'e' || c == 'E') = true
    · rw [if_pos he]
      obtain ⟨c, b, rfl, hcc⟩ := exists_cons_of_any_head? he
      have hc : c ∈ ['e', 'E'] := by simpa using hcc
      have habuts : Abuts (c :: b) := by
        have hall : ∀ d ∈ ['e', 'E'], isIdentifierStart d = true :=
          forall_mem_of_all (by decide)
        exact Literal.abuts_of_isIdentifierStart rfl (hall c hc)
      by_cases hf : form.isDecimal = true
      · refine ((reads_exponent hf hc).mono_fails ?_).bind ?_
        · rintro (hmiss | ⟨w, v, hw, h_⟩)
          · exact ⟨[], c :: b, Literal.munch_ends_nil (fun _ => hmiss) hsuf, habuts⟩
          · exact ⟨w, v, Literal.munch_ends_exponent hf hsuf hw, Literal.abuts_separator h_⟩
        · intro _ w v hw
          refine .pure ⟨?_, ?_⟩
          · rw [List.append_nil]
            exact Literal.munch_ends_exponent hf hsuf hw
          · rw [List.append_nil]
            exact .inr ⟨by decide, Literal.notMem_exponent hw.mem⟩
      · -- the letter of an exponent after a form without one
        unfold exponent
        rw [if_neg hf]
        have hfail : Reads (σ := σ) (failHere .identifierAfterNumber : Reading σ Unit) before u
            (c :: b) (fun _ _ _ => False)
            (∃ w v, Munch (ends settings form pointSeen) (c :: b) w v ∧ Abuts v) :=
          .failHere ⟨[], c :: b, Literal.munch_ends_nil (fun h => absurd h hf) hsuf, habuts⟩
        exact hfail.bind fun _ _ _ h => h.elim
    · -- neither a suffix nor an exponent: the literal ends here
      rw [if_neg he]
      refine .pure ⟨Literal.munch_ends_nil (fun _ => ?_) hsuf, .inr ⟨by decide, List.not_mem_nil⟩⟩
      refine Misses.mul (misses_oneOf fun c hc hc' => he ?_)
      rw [hc]
      simpa using hc'

/-- Nothing is read where the text may go on. -/
theorem reads_boundary :
    Reads (σ := σ) boundary before u a (fun _ w v => w = [] ∧ v = a ∧ ¬ Abuts a) (Abuts a) := by
  refine Reads.get_bind ?_
  rw [reader_of, Reader.isAtAny_between]
  split
  · next ha => exact .failHere ha
  · next ha => exact .pure ⟨rfl, rfl, ha⟩

/-- **The end of a literal** is a suffix or an exponent that is taken to its full length,
after which the text goes on as it may after a literal. -/
theorem reads_ending :
    Reads (σ := σ) (ending settings start form pointSeen) before u a
      (fun kind w v => Munch (ends settings form pointSeen) a w v ∧ ¬ Abuts v ∧ Marked kind w)
      (∃ w v, Munch (ends settings form pointSeen) a w v ∧ Abuts v) := by
  refine reads_suffix.bind fun kind w v ⟨hw, hk⟩ => ?_
  refine (reads_boundary.mono_fails fun h => ⟨w, v, hw, h⟩).bind ?_
  rintro _ _ _ ⟨rfl, rfl, ha⟩
  refine .pure ?_
  rw [List.append_nil, List.append_nil]
  exact ⟨hw, ha, hk⟩

end Numeral

end EcmaLex
