import EcmaLex.Decimal.Numeral
import EcmaLex.Proofs.Character.Class
import EcmaLex.Proofs.Numeral.Grammar

/-!
# The grammar of decimal numerals

A decimal numeral is read part by part: the digits before the point, the point with the digits
after it, the exponent.  The parts are those of decimal literals without separators, but there
may be zeros in front, and of the digits before and after the point only one side is needed.

## Main definitions

* `DecimalNumeral.mantissa` — digits with a point in front, in between or behind, or without one.
* `DecimalNumeral.grammar` — the decimal numerals.

## Main results

* `DecimalNumeral.isSome_ofChars_iff` — **just the texts of the grammar are read**.
-/

namespace EcmaLex

open Literal (run fraction)

/-- The characters of some kind in front of a text are split off where another character
comes. -/
theorem span_append {p : Char → Bool} {w r : List Char} (hw : ∀ c ∈ w, p c = true)
    (hr : ∀ c, r.head? = some c → p c = false) : (w ++ r).span p = (w, r) := by
  rw [List.span_eq_takeWhile_dropWhile, List.takeWhile_append_of_pos hw,
    List.dropWhile_append_of_pos hw]
  cases r with
  | nil => rw [List.takeWhile_nil, List.append_nil, List.dropWhile_nil]
  | cons c r =>
    have hc : ¬ p c = true := by simp [hr c rfl]
    rw [List.takeWhile_cons_of_neg hc, List.dropWhile_cons_of_neg hc, List.append_nil]

/-- Without separators a run is some digits, and no other characters. -/
theorem Literal.mem_run_iff {isDigit : Char → Bool} {w : List Char} :
    w ∈ run isDigit false ↔ w ≠ [] ∧ ∀ c ∈ w, isDigit c = true := by
  constructor
  · rintro ⟨c, x, hc, hx, rfl⟩
    refine ⟨List.cons_ne_nil c x, fun d hd => ?_⟩
    rcases List.mem_cons.1 hd with rfl | hd
    · exact hc
    · exact hx.digit_of_mem d hd
  · rintro ⟨hne, hw⟩
    cases w with
    | nil => exact absurd rfl hne
    | cons c x =>
      exact ⟨c, x, hw c List.mem_cons_self,
        .of_isDigit fun d hd => hw d (List.mem_cons_of_mem c hd), rfl⟩

namespace DecimalNumeral

/-- Digits with a point in front, in between or behind, or without one. -/
def mantissa : Language Char :=
  run isDecimalDigit false * (1 + fraction false) + oneOf ['.'] * run isDecimalDigit false

/-- The decimal numerals: digits with at most one point, and an exponent that may be left
out. -/
def grammar : Language Char := mantissa * (1 + Literal.exponent false)

variable {w f r ds : List Char} {e : Char}

/-! ### Exponents -/

theorem isSome_digits_iff {n : Int} :
    (if ds.isEmpty || ds.any (!isDecimalDigit ·) then none else some n).isSome = true ↔
      ds ∈ run isDecimalDigit false := by
  rw [Literal.mem_run_iff]
  simp

/-- A sign in front of digits is left out to get the digits. -/
theorem sign_mem_iff {c : Char} (hc : c ∈ ['+', '-']) :
    c :: ds ∈ (1 + oneOf ['+', '-']) * run isDecimalDigit false ↔
      ds ∈ run isDecimalDigit false := by
  have hdigit : ∀ d ∈ ['+', '-'], isDecimalDigit d = false := forall_mem_of_all (by decide)
  rw [cons_mem_mul]
  constructor
  · rintro (⟨-, d, x, hd, -, h⟩ | ⟨x, y, hx, hy, rfl⟩)
    · -- a sign is no digit
      obtain ⟨rfl, -⟩ := List.cons.inj h
      rw [hdigit c hc] at hd
      cases hd
    · obtain ⟨-, rfl⟩ := cons_mem_oneOf.1 (cons_mem_one_add.1 hx)
      exact hy
  · exact fun h => .inr ⟨[], ds, .inr (singleton_mem_oneOf hc), h, rfl⟩

/-- Without a sign there are only the digits. -/
theorem unsigned_mem_iff (h : ∀ c ∈ ['+', '-'], ds.head? ≠ some c) :
    ds ∈ (1 + oneOf ['+', '-']) * run isDecimalDigit false ↔ ds ∈ run isDecimalDigit false := by
  constructor
  · intro hds
    obtain ⟨s, hs, x, hx, rfl⟩ := Language.mem_mul.1 hds
    rcases hs with hs | ⟨c, hc, rfl⟩
    · rwa [(Language.mem_one s).1 hs]
    · exact absurd rfl (h c hc)
  · exact fun hds => ⟨[], .inl rfl, ds, hds, rfl⟩

theorem isSome_readExponent_cons :
    (readExponent (e :: r)).isSome = true ↔
      e ∈ ['e', 'E'] ∧ r ∈ (1 + oneOf ['+', '-']) * run isDecimalDigit false := by
  have he : (e == 'e' || e == 'E') = true ↔ e ∈ ['e', 'E'] := by simp
  unfold readExponent
  dsimp only
  by_cases h : (e == 'e' || e == 'E') = true
  · rw [if_pos h, and_iff_right (he.1 h), isSome_digits_iff]
    split
    · exact (sign_mem_iff (by decide)).symm
    · exact (sign_mem_iff (by decide)).symm
    · next hminus hplus =>
      refine (unsigned_mem_iff fun c hc h => ?_).symm
      obtain ⟨ds, rfl⟩ := List.head?_eq_some_iff.1 h
      rcases List.mem_cons.1 hc with rfl | hc
      · exact hplus ds rfl
      · rw [List.mem_singleton.1 hc] at hminus
        exact hminus ds rfl
  · rw [if_neg h]
    exact iff_of_false (by decide) fun ⟨h', _⟩ => h (he.2 h')

theorem isSome_readExponent_iff :
    (readExponent r).isSome = true ↔ r ∈ 1 + Literal.exponent false := by
  cases r with
  | nil => exact iff_of_true rfl (.inl rfl)
  | cons e r =>
    rw [isSome_readExponent_cons, cons_mem_one_add]
    constructor
    · rintro ⟨he, hr⟩
      exact mem_oneOf_mul.2 ⟨e, he, r, hr, rfl⟩
    · intro h
      obtain ⟨c, hc, x, hx, h⟩ := mem_oneOf_mul.1 h
      obtain ⟨rfl, rfl⟩ := List.cons.inj h
      exact ⟨hc, hx⟩

/-- Where an exponent begins, or the text ends, there is neither a digit nor a point. -/
theorem head?_of_mem (h : r ∈ 1 + Literal.exponent false) :
    (∀ c, r.head? = some c → isDecimalDigit c = false) ∧ r.head? ≠ some '.' := by
  have hletter : ∀ c ∈ ['e', 'E'], isDecimalDigit c = false ∧ c ≠ '.' :=
    forall_mem_of_all (by decide)
  rcases h with h | h
  · rw [(Language.mem_one r).1 h]
    exact ⟨nofun, nofun⟩
  · obtain ⟨e, he, x, -, rfl⟩ := mem_oneOf_mul.1 h
    obtain ⟨hdigit, hpoint⟩ := hletter e he
    refine ⟨?_, fun h => hpoint (Option.some.inj h)⟩
    rintro _ ⟨⟩
    exact hdigit

/-! ### Numerals -/

/-- Every text has some digits in front, or none. -/
theorem exists_digits (cs : List Char) : ∃ w r, cs = w ++ r ∧
    (∀ c ∈ w, isDecimalDigit c = true) ∧ ∀ c, r.head? = some c → isDecimalDigit c = false := by
  refine ⟨cs.takeWhile isDecimalDigit, cs.dropWhile isDecimalDigit,
    List.takeWhile_append_dropWhile.symm, List.all_eq_true.1 List.all_takeWhile, fun c hc => ?_⟩
  have hnot := List.head?_dropWhile_not isDecimalDigit cs
  rw [hc] at hnot
  simpa using hnot

theorem isSome_ofChars_whole (hw : ∀ c ∈ w, isDecimalDigit c = true)
    (hr : ∀ c, r.head? = some c → isDecimalDigit c = false) (hp : r.head? ≠ some '.') :
    (ofChars (w ++ r)).isSome = true ↔
      w ∈ run isDecimalDigit false ∧ r ∈ 1 + Literal.exponent false := by
  have hread : ofChars (w ++ r) =
      if w.isEmpty then none else (readExponent r).map fun e => ⟨ofDigits w, w.length, e⟩ := by
    unfold ofChars
    rw [span_append hw hr]
    cases r with
    | nil => simp
    | cons c r =>
      have hc : c ≠ '.' := fun h => hp (congrArg some h)
      simp [hc]
  rw [hread, ← isSome_readExponent_iff, Literal.mem_run_iff, and_iff_left hw]
  by_cases hne : w = [] <;> simp [hne]

theorem isSome_ofChars_point (hw : ∀ c ∈ w, isDecimalDigit c = true)
    (hf : ∀ c ∈ f, isDecimalDigit c = true)
    (hr : ∀ c, r.head? = some c → isDecimalDigit c = false) :
    (ofChars (w ++ '.' :: (f ++ r))).isSome = true ↔
      (w ∈ run isDecimalDigit false ∨ f ∈ run isDecimalDigit false) ∧
        r ∈ 1 + Literal.exponent false := by
  have hread : ofChars (w ++ '.' :: (f ++ r)) =
      if (w ++ f).isEmpty then none
      else (readExponent r).map fun e => ⟨ofDigits (w ++ f), (w ++ f).length, e - f.length⟩ := by
    unfold ofChars
    rw [span_append hw (by rintro _ ⟨⟩; decide)]
    simp only [span_append hf hr]
  rw [hread, ← isSome_readExponent_iff, Literal.mem_run_iff, Literal.mem_run_iff,
    and_iff_left hw, and_iff_left hf]
  by_cases hw : w = [] <;> by_cases hf : f = [] <;> simp [hw, hf]

/-- **Just the texts of the grammar are read.** -/
theorem isSome_ofChars_iff (cs : List Char) : (ofChars cs).isSome = true ↔ cs ∈ grammar := by
  constructor
  · intro h
    obtain ⟨w, r, rfl, hw, hr⟩ := exists_digits cs
    by_cases hp : r.head? = some '.'
    · obtain ⟨b, rfl⟩ := List.head?_eq_some_iff.1 hp
      obtain ⟨f, r, rfl, hf, hr⟩ := exists_digits b
      obtain ⟨hdigits, he⟩ := (isSome_ofChars_point hw hf hr).1 h
      have hmantissa : w ++ '.' :: f ∈ mantissa := by
        by_cases hwhole : w ∈ run isDecimalDigit false
        · -- the digits after the point may be missing
          refine .inl (Language.append_mem_mul hwhole (.inr ?_))
          refine mem_oneOf_mul.2 ⟨'.', List.mem_cons_self, f, ?_, rfl⟩
          by_cases hf0 : f = []
          · exact .inl hf0
          · exact .inr (Literal.mem_run_iff.2 ⟨hf0, hf⟩)
        · have hw0 : w = [] := by
            by_contra hne
            exact hwhole (Literal.mem_run_iff.2 ⟨hne, hw⟩)
          rw [hw0]
          exact .inr (mem_oneOf_mul.2 ⟨'.', List.mem_cons_self, f, hdigits.resolve_left hwhole, rfl⟩)
      rw [← List.cons_append, ← List.append_assoc]
      exact Language.append_mem_mul hmantissa he
    · obtain ⟨hw, he⟩ := (isSome_ofChars_whole hw hr hp).1 h
      exact Language.append_mem_mul (.inl ⟨w, hw, [], .inl rfl, List.append_nil w⟩) he
  · intro h
    obtain ⟨m, hm, e, he, rfl⟩ := Language.mem_mul.1 h
    obtain ⟨hdigit, hpoint⟩ := head?_of_mem he
    rcases hm with hm | hm
    · obtain ⟨w, hw, p, hp, rfl⟩ := Language.mem_mul.1 hm
      have hdigits := (Literal.mem_run_iff.1 hw).2
      rcases hp with hp | hp
      · rw [(Language.mem_one p).1 hp, List.append_nil]
        exact (isSome_ofChars_whole hdigits hdigit hpoint).2 ⟨hw, he⟩
      · obtain ⟨c, hc, f, hf, rfl⟩ := mem_oneOf_mul.1 hp
        rw [List.mem_singleton.1 hc, List.append_assoc, List.cons_append]
        refine (isSome_ofChars_point hdigits ?_ hdigit).2 ⟨.inl hw, he⟩
        rcases hf with hf | hf
        · rw [(Language.mem_one f).1 hf]
          nofun
        · exact (Literal.mem_run_iff.1 hf).2
    · obtain ⟨c, hc, f, hf, rfl⟩ := mem_oneOf_mul.1 hm
      rw [List.mem_singleton.1 hc, List.cons_append]
      exact (isSome_ofChars_point (w := []) nofun (Literal.mem_run_iff.1 hf).2 hdigit).2
        ⟨.inr hf, he⟩

end DecimalNumeral

end EcmaLex
