import EcmaLex.Lexeme.Numeral
import EcmaLex.Proofs.Numeral.Forms
import EcmaLex.Proofs.Source.Exact

/-!
# What the parts of a numeral read

Over an exact source a numeral is told by what stands before it, what was read of it
and what follows.  The raw text is what was read, and the cooked text is that
without separators and suffix; no step ever makes them part.

Each step of the reading takes the longest prefix in the language of its part.
Where it finds something wrong, the longest prefix is followed by a character that
no literal may be followed by.

## Main definitions

* `Numeral.of` — the numeral with some text read, at a place of the text.
* `Numeral.Reads` — what a reading takes of the text, and what holds when it fails.

## Main results

* `Numeral.reads_digits_true`, `Numeral.reads_digits_false`, `Numeral.reads_someDigits` — **a
  run of digits is read to its end**, or a separator in it stands where none may.
* `Numeral.exists_octal_of_octalRun` — the digits of a legacy octal literal.
-/

namespace EcmaLex

/-- The text of a literal without separators and suffix. -/
def Literal.cooked (u : List Char) : List Char := u.filter fun c => c != '_' && c != 'n'

namespace Numeral

open Literal (run more More Stops Cut)

variable {σ : Type} [ExactSource σ]

/-- The numeral that stands after `before`, with `u` read of it, and `after` what follows. -/
def of (before u after : List Char) : Numeral σ where
  cooked := .ofList (Literal.cooked u)
  raw := .ofList u
  reader := .between (before ++ u) after

variable {α β : Type} {before u a w v : List Char} {c : Char}

@[simp] theorem reader_of (before u a : List Char) :
    (of before u a : Numeral σ).reader = .between (before ++ u) a := rfl

@[simp] theorem take_of (hc : c ∉ ['_', 'n']) :
    (of before u (c :: a) : Numeral σ).take = of before (u ++ [c]) a := by
  have h_ : c ≠ '_' := fun h => hc (by rw [h]; decide)
  have hn : c ≠ 'n' := fun h => hc (by rw [h]; decide)
  simp [take, append, of, Literal.cooked, h_, hn]

@[simp] theorem takeRaw_of (hc : c ∈ ['_', 'n']) :
    (of before u (c :: a) : Numeral σ).takeRaw = of before (u ++ [c]) a := by
  rcases List.mem_cons.1 hc with rfl | hc
  · simp [takeRaw, of, Literal.cooked, String.ext_iff]
  · rw [List.mem_singleton.1 hc]
    simp [takeRaw, of, Literal.cooked, String.ext_iff]

/-! ### Readings -/

/-- From the numeral with `u` read and `a` to follow, the reading takes some `w` and leaves
some `v` for which `ok` holds, or it fails and `fails` holds.  Nothing is said of
the BigInts that are too long. -/
def Reads (x : Reading σ α) (before u a : List Char) (ok : α → List Char → List Char → Prop)
    (fails : Prop) : Prop :=
  match x (of before u a) with
  | .ok r n => ∃ w v, n = of before (u ++ w) v ∧ ok r w v
  | .error d _ => d.cause = .bigIntTooBig ∨ fails

namespace Reads

variable {x : Reading σ α} {f : α → Reading σ β} {ok ok' : α → List Char → List Char → Prop}
  {fails fails' : Prop}

theorem pure {r : α} (h : ok r [] a) : Reads (Pure.pure r : Reading σ α) before u a ok fails :=
  ⟨[], a, by rw [List.append_nil], h⟩

theorem failHere {cause : Cause} (h : fails) :
    Reads (Numeral.failHere cause : Reading σ α) before u a ok fails :=
  .inr h

/-- What the second reading takes is put after what the first one took. -/
theorem bind {okβ : β → List Char → List Char → Prop} (hx : Reads x before u a ok fails)
    (hf : ∀ r w v, ok r w v →
      Reads (f r) before (u ++ w) v (fun r' w' v' => okβ r' (w ++ w') v') fails) :
    Reads (x >>= f) before u a okβ fails := by
  unfold Reads at hx ⊢
  simp only [Bind.bind, EStateM.bind]
  cases hr : x (of before u a) with
  | error d n =>
    rw [hr] at hx
    exact hx
  | ok r n =>
    rw [hr] at hx
    obtain ⟨w, v, rfl, hok⟩ := hx
    -- the second reading starts from what the first one left
    have hfr := hf r w v hok
    unfold Reads at hfr
    dsimp only
    cases hr' : f r (of before (u ++ w) v) with
    | error d n =>
      rw [hr'] at hfr
      exact hfr
    | ok r' n' =>
      rw [hr'] at hfr
      obtain ⟨w', v', rfl, hok'⟩ := hfr
      exact ⟨w ++ w', v', by rw [List.append_assoc], hok'⟩

theorem get_bind {f : Numeral σ → Reading σ α}
    (h : Reads (f (of before u a)) before u a ok fails) :
    Reads (get >>= f) before u a ok fails := h

theorem mono (h : Reads x before u a ok fails) (hok : ∀ r w v, ok r w v → ok' r w v)
    (hfails : fails → fails') : Reads x before u a ok' fails' := by
  unfold Reads at h ⊢
  cases hr : x (of before u a) with
  | error d n =>
    rw [hr] at h
    exact h.imp id hfails
  | ok r n =>
    rw [hr] at h
    obtain ⟨w, v, hn, h⟩ := h
    exact ⟨w, v, hn, hok r w v h⟩

theorem mono_fails (h : Reads x before u a ok fails) (hfails : fails → fails') :
    Reads x before u a ok fails' :=
  h.mono (fun _ _ _ hok => hok) hfails

theorem take (hc : c ∉ ['_', 'n']) :
    Reads (modify Numeral.take : Reading σ PUnit) before u (c :: a)
      (fun _ w v => w = [c] ∧ v = a) fails :=
  ⟨[c], a, take_of hc, rfl, rfl⟩

end Reads

/-! ### Runs of digits -/

section Digits

variable {isDigit : Char → Bool} {separators : Bool}

theorem digitRun_of_nil (seen : Bool) (separator : Option Span) :
    digitRun isDigit separators seen separator (of before u [] : Numeral σ) =
      (of before u [], separator.map (⟨·, .trailingSeparator⟩)) := by
  rw [digitRun]
  split
  · rfl
  · next h => cases h

theorem digitRun_of_cons (seen : Bool) (separator : Option Span) :
    digitRun isDigit separators seen separator (of before u (c :: a) : Numeral σ) =
      if isDigit c then
        digitRun isDigit separators true none (of before u (c :: a) : Numeral σ).take
      else if c == '_' && separators then
        if !seen then
          (of before u (c :: a),
            some ⟨(of before u (c :: a) : Numeral σ).reader.charSpan, .leadingSeparator⟩)
        else if separator.isSome then
          (of before u (c :: a),
            some ⟨(of before u (c :: a) : Numeral σ).reader.charSpan, .continuousSeparator⟩)
        else
          digitRun isDigit separators seen
            (some (of before u (c :: a) : Numeral σ).reader.charSpan)
            (of before u (c :: a) : Numeral σ).takeRaw
      else (of before u (c :: a), separator.map (⟨·, .trailingSeparator⟩)) := by
  rw [digitRun]
  split
  · next h => cases h
  · next h =>
    cases h
    rfl

/-- Digits of any radix are kept in both texts. -/
theorem notMem_of_isHexDigit (hc : isHexDigit c = true) : c ∉ ['_', 'n'] := by
  have hall : ∀ d ∈ "0123456789abcdefABCDEF".toList, d ∉ ['_', 'n'] :=
    forall_mem_of_all (by decide)
  exact hall c (mem_of_isHexDigit hc)

variable (hd : ∀ c, isDigit c = true → isHexDigit c = true)
include hd

theorem isDigit_separator : isDigit '_' = false := by
  rw [Bool.eq_false_iff]
  intro h
  cases hd '_' h

/-- After a digit the rest of the run is read.  What goes wrong is a separator that no digit
follows. -/
theorem exists_more_of_digitRun (separators : Bool) (before : List Char) : ∀ u a : List Char,
    ∃ w v, a = w ++ v ∧ More isDigit separators w ∧ Stops isDigit separators v ∧
      (digitRun isDigit separators true none (of before u a : Numeral σ) =
          (of before (u ++ w) v, none) ∨
        v.head? = some '_' ∧
          (digitRun isDigit separators true none (of before u a : Numeral σ)).2.isSome = true)
  | u, [] => by
    refine ⟨[], [], rfl, .nil, ⟨fun _ h => (by cases h), fun _ _ _ h => (by cases h)⟩, .inl ?_⟩
    rw [digitRun_of_nil, List.append_nil]
    rfl
  | u, c :: a => by
    rw [digitRun_of_cons]
    by_cases hc : isDigit c = true
    · obtain ⟨w, v, rfl, hw, hv, h⟩ := exists_more_of_digitRun separators before (u ++ [c]) a
      refine ⟨c :: w, v, rfl, .digit hc hw, hv, ?_⟩
      rw [if_pos hc, take_of (notMem_of_isHexDigit (hd c hc))]
      simpa using h
    · rw [if_neg hc]
      rw [Bool.not_eq_true] at hc
      by_cases hs : (c == '_' && separators) = true
      · obtain ⟨rfl, hsep⟩ : c = '_' ∧ separators = true := by simpa using hs
        -- what counts is the character after the separator
        rw [if_pos hs, if_neg (by decide), if_neg (by decide), takeRaw_of (by decide)]
        match a with
        | [] =>
          refine ⟨[], ['_'], rfl, .nil, ⟨?_, fun _ _ _ h => (by cases h)⟩, .inr ⟨rfl, ?_⟩⟩
          · rintro _ ⟨⟩
            exact hc
          · rw [digitRun_of_nil]
            rfl
        | d :: a =>
          rw [digitRun_of_cons]
          by_cases hdd : isDigit d = true
          · obtain ⟨w, v, rfl, hw, hv, h⟩ :=
              exists_more_of_digitRun separators before (u ++ ['_'] ++ [d]) a
            refine ⟨'_' :: d :: w, v, rfl, .separated hsep hdd hw, hv, ?_⟩
            rw [if_pos hdd, take_of (notMem_of_isHexDigit (hd d hdd))]
            simpa using h
          · refine ⟨[], '_' :: d :: a, rfl, .nil, ⟨?_, ?_⟩, .inr ⟨rfl, ?_⟩⟩
            · rintro _ ⟨⟩
              exact hc
            · rintro - _ _ ⟨⟩
              exact Bool.not_eq_true _ ▸ hdd
            · rw [if_neg hdd]
              split <;> rfl
      · -- the character is neither a digit nor a separator that may stand here
        refine ⟨[], c :: a, rfl, .nil, ⟨?_, ?_⟩, .inl ?_⟩
        · rintro _ ⟨⟩
          exact hc
        · rintro rfl _ _ ⟨⟩
          exact absurd rfl hs
        · rw [if_neg hs, List.append_nil]
          rfl

/-- After a digit the rest of the run is read. -/
theorem reads_digits_true :
    Reads (σ := σ) (digits isDigit separators true) before u a
      (fun _ w v => Munch (more isDigit separators) a w v)
      (Cut (more isDigit separators) a) := by
  obtain ⟨w, v, rfl, hw, hv, h⟩ := exists_more_of_digitRun (σ := σ) hd separators before u a
  have hm := Literal.munch_more (isDigit_separator hd) hw hv
  unfold Reads digits
  rcases h with h | ⟨h_, h⟩
  · rw [h]
    exact ⟨w, v, rfl, hm⟩
  · generalize digitRun isDigit separators true none (of before u (w ++ v) : Numeral σ) = run at h ⊢
    obtain ⟨n, _ | d⟩ := run
    · cases h
    · exact .inr ⟨w, v, hm, h_⟩

/-- The first digit of a run is read like any other. -/
theorem reads_digits_of_digit (ha : a.head?.any isDigit = true) :
    Reads (σ := σ) (digits isDigit separators false) before u a
      (fun _ w v => Munch (run isDigit separators) a w v)
      (Cut (run isDigit separators) a) := by
  -- at a digit it does not matter whether one was seen before
  have hsame : digits isDigit separators false (of before u a : Numeral σ) =
      digits isDigit separators true (of before u a) := by
    cases a with
    | nil => cases ha
    | cons c a =>
      have hc : isDigit c = true := ha
      unfold digits
      rw [digitRun_of_cons, digitRun_of_cons, if_pos hc, if_pos hc]
  unfold Reads
  rw [hsame]
  exact (reads_digits_true hd).mono (fun _ _ _ => Literal.munch_run_of_munch_more ha)
    (Cut.run ha)

omit hd in
theorem misses_run_of_not_digit (ha : ¬ a.head?.any isDigit = true) :
    Misses (run isDigit separators) a := by
  refine Literal.misses_run fun c hc => ?_
  rw [hc] at ha
  exact Bool.not_eq_true _ ▸ ha

/-- Where no digit needs to stand a run is read if one is there. -/
theorem reads_digits_false :
    Reads (σ := σ) (digits isDigit separators false) before u a
      (fun _ w v => Munch (1 + run isDigit separators) a w v)
      (Cut (1 + run isDigit separators) a) := by
  by_cases ha : a.head?.any isDigit = true
  · exact (reads_digits_of_digit hd ha).mono (fun _ _ _ => Munch.one_add) Cut.one_add
  · have hm : Munch (1 + run isDigit separators) a [] a :=
      Munch.one_add_nil (misses_run_of_not_digit ha)
    unfold Reads digits
    cases a with
    | nil =>
      rw [digitRun_of_nil]
      exact ⟨[], [], by rw [List.append_nil], hm⟩
    | cons c a =>
      have hc : ¬ isDigit c = true := ha
      rw [digitRun_of_cons, if_neg hc]
      by_cases hs : (c == '_' && separators) = true
      · obtain ⟨rfl, -⟩ : c = '_' ∧ separators = true := by simpa using hs
        -- a separator where the run would begin
        rw [if_pos hs]
        exact .inr ⟨[], _, hm, rfl⟩
      · rw [if_neg hs]
        exact ⟨[], c :: a, by rw [List.append_nil], hm⟩

/-- Where a digit needs to stand a run is read. -/
theorem reads_someDigits :
    Reads (σ := σ) (someDigits isDigit separators) before u a
      (fun _ w v => Munch (run isDigit separators) a w v)
      (Misses (run isDigit separators) a ∨ Cut (run isDigit separators) a) := by
  refine Reads.get_bind ?_
  dsimp only
  rw [reader_of, Reader.isAtAny_between]
  by_cases ha : a.head?.any isDigit = true
  · rw [if_pos ha]
    exact (reads_digits_of_digit hd ha).mono_fails .inr
  · rw [if_neg ha]
    have hm : Misses (run isDigit separators) a := misses_run_of_not_digit ha
    split
    · exact .failHere (.inl hm)
    · exact .failHere (.inl hm)

end Digits

/-- The octal digits are read, and whether another digit follows is told. -/
theorem exists_octal_of_octalRun (before : List Char) : ∀ u a : List Char,
    ∃ w v, a = w ++ v ∧ (∀ c ∈ w, isOctalDigit c = true) ∧
      (octalRun (of before u a : Numeral σ) = (true, of before (u ++ w) v) ∧
          v.head?.any isNonOctalDecimalDigit = true ∨
        octalRun (of before u a : Numeral σ) = (false, of before (u ++ w) v) ∧
          ∀ c, v.head? = some c → isDecimalDigit c = false)
  | u, [] => by
    refine ⟨[], [], rfl, fun _ h => (by cases h), .inr ⟨?_, fun _ h => (by cases h)⟩⟩
    rw [octalRun]
    split
    · rw [List.append_nil]
    · next h => cases h
  | u, c :: a => by
    rw [octalRun]
    split
    · next h => cases h
    · next h =>
      cases h
      by_cases hn : isNonOctalDecimalDigit c = true
      · rw [if_pos hn]
        exact ⟨[], c :: a, rfl, fun _ h => (by cases h), .inl ⟨by rw [List.append_nil], hn⟩⟩
      · rw [if_neg hn]
        by_cases ho : isOctalDigit c = true
        · have hk := notMem_of_isHexDigit
            (isHexDigit_of_isDecimalDigit (isDecimalDigit_of_isOctalDigit ho))
          obtain ⟨w, v, rfl, hw, h⟩ := exists_octal_of_octalRun before (u ++ [c]) a
          refine ⟨c :: w, v, rfl, ?_, ?_⟩
          · rintro d hd
            rcases List.mem_cons.1 hd with rfl | hd
            · exact ho
            · exact hw d hd
          · rw [if_pos ho, take_of hk]
            simpa using h
        · rw [if_neg ho]
          refine ⟨[], c :: a, rfl, fun _ h => (by cases h), .inr ⟨by rw [List.append_nil], ?_⟩⟩
          -- a decimal digit is octal, or it is not
          rintro _ ⟨⟩
          rw [Bool.eq_false_iff]
          intro hd
          rw [isNonOctalDecimalDigit_of_isDecimalDigit hd] at hn
          simp only [Bool.not_eq_true] at hn ho
          rw [ho] at hn
          cases hn

end Numeral

end EcmaLex
