import EcmaLex.Proofs.Numeral.Munch
import EcmaLex.Settings
import EcmaLex.Token.NumberForm
import EcmaLex.Character.Class

/-!
# The grammar of numeric literals

Every form of a literal is an integer with a tail, and decimal literals may also
start with their point.  The integer tells the form by its first characters, and
the tail holds what may follow: a suffix, or a fraction and an exponent.

In the legacy forms a zero stands before the digits, and no separators stand
between them.

## Main definitions

* `Literal.run` — a run of digits, with separators between them where they are allowed.
* `Literal.integer`, `Literal.tail`, `Literal.pointFirst` — the parts of a literal.
* `NumberForm.literals` — the literals of a form.
* `Literal.Cut` — the longest prefix in a language ends before a separator.
* `Literal.Longest` — the longest literal that a text begins with, whatever its form.

## Main results

* `Literal.munch_more` — where a run of digits ends.
* `Literal.isDigit_of_munch_more` — no digit comes after a run.
-/

namespace EcmaLex

namespace Literal

/-! ### Runs of digits -/

/-- What may follow a digit of a run: more digits, each with a separator before it or
none. -/
inductive More (isDigit : Char → Bool) (separators : Bool) : List Char → Prop where
  /-- The run may end. -/
  | nil : More isDigit separators []
  /-- A digit follows. -/
  | digit {c : Char} {w : List Char} (hc : isDigit c = true) (hw : More isDigit separators w) :
      More isDigit separators (c :: w)
  /-- A separator and a digit follow. -/
  | separated {c : Char} {w : List Char} (hs : separators = true) (hc : isDigit c = true)
      (hw : More isDigit separators w) : More isDigit separators ('_' :: c :: w)

/-- What may follow a digit of a run. -/
def more (isDigit : Char → Bool) (separators : Bool) : Language Char :=
  {w | More isDigit separators w}

/-- A digit and what may follow it. -/
def run (isDigit : Char → Bool) (separators : Bool) : Language Char :=
  {w | ∃ c x, isDigit c = true ∧ More isDigit separators x ∧ w = c :: x}

/-- A run of digits that does not begin with a zero. -/
def nonzeroRun (separators : Bool) : Language Char :=
  {w | w ∈ run isDecimalDigit separators ∧ w.head? ≠ some '0'}

/-- A run of decimal digits some of which are not octal. -/
def nonOctalRun : Language Char :=
  {w | w ∈ run isDecimalDigit false ∧ ∃ c ∈ w, isNonOctalDecimalDigit c = true}

/-! ### The parts of a literal -/

/-- A point, and digits that may be left out. -/
def fraction (separators : Bool) : Language Char :=
  oneOf ['.'] * (1 + run isDecimalDigit separators)

/-- The letter of an exponent, a sign that may be left out, and digits. -/
def exponent (separators : Bool) : Language Char :=
  oneOf ['e', 'E'] * ((1 + oneOf ['+', '-']) * run isDecimalDigit separators)

/-- A zero, a mark of the radix and digits of the radix. -/
def radixInteger (marks : List Char) (isDigit : Char → Bool) (separators : Bool) :
    Language Char :=
  oneOf ['0'] * (oneOf marks * run isDigit separators)

/-- The integer that a literal of the form begins with. -/
def integer (separators : Bool) : NumberForm → Language Char
  | .decimal => oneOf ['0'] + nonzeroRun separators
  | .hex => radixInteger ['x', 'X'] isHexDigit separators
  | .octal => radixInteger ['o', 'O'] isOctalDigit separators
  | .binary => radixInteger ['b', 'B'] isBinaryDigit separators
  | .implicitOctal => oneOf ['0'] * run isOctalDigit false
  | .decimalWithLeadingZero => oneOf ['0'] * nonOctalRun

/-- What follows the integer in a literal of the form. -/
def tail (separators : Bool) : NumberForm → Language Char
  | .decimal => oneOf ['n'] + (1 + fraction separators) * (1 + exponent separators)
  | .hex | .octal | .binary => 1 + oneOf ['n']
  | .implicitOctal => 1
  | .decimalWithLeadingZero => (1 + fraction false) * (1 + exponent false)

/-- The literals of the form that begin with their point. -/
def pointFirst (separators : Bool) : NumberForm → Language Char
  | .decimal => oneOf ['.'] * (run isDecimalDigit separators * (1 + exponent separators))
  | _ => 0

end Literal

/-- The literals of the form. -/
def NumberForm.literals (settings : Settings) (form : NumberForm) : Language Char :=
  Literal.integer settings.numericSeparators form * Literal.tail settings.numericSeparators form +
    Literal.pointFirst settings.numericSeparators form

namespace Literal

/-- `u` is the longest literal that the text begins with, of any form; its form is `form`,
and `v` is what follows it. -/
structure Longest (settings : Settings) (r : List Char) (form : NumberForm) (u v : List Char) :
    Prop where
  /-- The text is the literal and what follows it. -/
  split : r = u ++ v
  /-- The literal is one of the form. -/
  mem : u ∈ form.literals settings
  /-- No literal of any form is longer. -/
  longest : ∀ (form' : NumberForm) (u' : List Char), u' <+: r → u' ∈ form'.literals settings →
    u'.length ≤ u.length

/-- The text goes on where a literal may not: with a digit, or with a character that starts
an identifier. -/
def Abuts (v : List Char) : Prop :=
  v.head?.any (fun c => isDecimalDigit c || isIdentifierStart c) = true

/-- The longest prefix in the language ends before a separator. -/
def Cut (L : Language Char) (a : List Char) : Prop :=
  ∃ u v, Munch L a u v ∧ v.head? = some '_'

variable {isDigit : Char → Bool} {separators : Bool} {a u v w : List Char} {c : Char}

/-! ### Texts that a separator cuts -/

section Cut

variable {L M : Language Char}

theorem Cut.one_add (h : Cut L a) : Cut (1 + L) a := by
  obtain ⟨u, v, hm, h_⟩ := h
  exact ⟨u, v, hm.one_add, h_⟩

theorem Cut.oneOf_mul {cs : List Char} (hc : c ∈ cs) (h : Cut L a) :
    Cut (oneOf cs * L) (c :: a) := by
  obtain ⟨u, v, hm, h_⟩ := h
  exact ⟨c :: u, v, hm.oneOf_mul hc, h_⟩

/-- What cuts the second part cuts the whole. -/
theorem Cut.mul (h₁ : Munch L a u v) (h₂ : Cut M v) (hap : Apart u M) : Cut (L * M) a := by
  obtain ⟨u', v', hm, h_⟩ := h₂
  exact ⟨u ++ u', v', h₁.mul hm hap, h_⟩

end Cut

/-! ### Where runs end -/

theorem More.digit_or_separator (hw : More isDigit separators w) :
    ∀ c ∈ w, isDigit c = true ∨ c = '_' := by
  induction hw with
  | nil =>
    intro c hc
    cases hc
  | digit hd _ ih =>
    intro c hc
    rcases List.mem_cons.1 hc with rfl | hc
    · exact .inl hd
    · exact ih c hc
  | separated _ hd _ ih =>
    intro c hc
    rcases List.mem_cons.1 hc with rfl | hc
    · exact .inr rfl
    · rcases List.mem_cons.1 hc with rfl | hc
      · exact .inl hd
      · exact ih c hc

/-- Without separators there are only digits. -/
theorem More.digit_of_mem (hw : More isDigit false w) : ∀ c ∈ w, isDigit c = true := by
  intro c hc
  induction hw with
  | nil => cases hc
  | digit hd _ ih =>
    rcases List.mem_cons.1 hc with rfl | hc
    · exact hd
    · exact ih hc
  | separated hs => cases hs

theorem More.of_isDigit (hw : ∀ c ∈ w, isDigit c = true) : More isDigit separators w := by
  induction w with
  | nil => exact .nil
  | cons c w ih =>
    exact .digit (hw c List.mem_cons_self) (ih fun d hd => hw d (List.mem_cons_of_mem c hd))

theorem digit_or_separator_of_mem_run (hw : w ∈ run isDigit separators) :
    ∀ c ∈ w, isDigit c = true ∨ c = '_' := by
  obtain ⟨d, x, hd, hx, rfl⟩ := hw
  intro c hc
  rcases List.mem_cons.1 hc with rfl | hc
  · exact .inl hd
  · exact hx.digit_or_separator c hc

theorem More.append_digit (hw : More isDigit separators w) (hc : isDigit c = true) :
    More isDigit separators (w ++ [c]) := by
  induction hw with
  | nil => exact .digit hc .nil
  | digit hd _ ih => exact .digit hd ih
  | separated hs hd _ ih => exact .separated hs hd ih

/-- No run goes on here: the next character is no digit, and neither is the one after a
separator. -/
structure Stops (isDigit : Char → Bool) (separators : Bool) (v : List Char) : Prop where
  /-- The next character is no digit. -/
  digit : ∀ c, v.head? = some c → isDigit c = false
  /-- The next characters are no separator and digit. -/
  separated : separators = true → ∀ c v', v = '_' :: c :: v' → isDigit c = false

/-- **A run ends where it stops**, and no prefix of the text gives a longer one. -/
theorem munch_more (h_ : isDigit '_' = false) (hw : More isDigit separators w)
    (hv : Stops isDigit separators v) : Munch (more isDigit separators) (w ++ v) w v where
  split := rfl
  mem := hw
  longest := by
    intro u hu hm
    induction hw generalizing u with
    | nil =>
      obtain ⟨z, rfl⟩ := hu
      cases hm with
      | nil => exact Nat.le_refl _
      | digit hc => rw [hv.digit _ rfl] at hc; cases hc
      | separated hs hc => rw [hv.separated hs _ _ rfl] at hc; cases hc
    | digit hd _ ih =>
      cases hm with
      | nil => exact Nat.zero_le _
      | digit _ hx =>
        exact Nat.succ_le_succ (ih _ (List.cons_prefix_cons.1 hu).2 hx)
      | separated _ _ _ =>
        -- a separator is no digit
        obtain ⟨rfl, -⟩ := List.cons_prefix_cons.1 hu
        rw [h_] at hd
        cases hd
    | separated _ _ _ ih =>
      cases hm with
      | nil => exact Nat.zero_le _
      | digit hc _ =>
        obtain ⟨rfl, -⟩ := List.cons_prefix_cons.1 hu
        rw [h_] at hc
        cases hc
      | separated _ _ hx =>
        have hu' := (List.cons_prefix_cons.1 (List.cons_prefix_cons.1 hu).2).2
        exact Nat.succ_le_succ (Nat.succ_le_succ (ih _ hu' hx))

/-- After a run comes no digit. -/
theorem isDigit_of_munch_more (h : Munch (more isDigit separators) a w v)
    (hc : v.head? = some c) : isDigit c = false := by
  obtain ⟨v, rfl⟩ := List.head?_eq_some_iff.1 hc
  rw [Bool.eq_false_iff]
  intro hd
  have := h.longest (w ++ [c]) ⟨v, by rw [h.split]; simp⟩ (More.append_digit h.mem hd)
  rw [List.length_append, List.length_singleton] at this
  omega

/-- A digit before a run makes it a longer one. -/
theorem munch_more_cons (h_ : isDigit '_' = false) (hc : isDigit c = true)
    (h : Munch (more isDigit separators) a w v) :
    Munch (more isDigit separators) (c :: a) (c :: w) v where
  split := by rw [h.split, List.cons_append]
  mem := .digit hc h.mem
  longest u hu hm := by
    cases hm with
    | nil => exact Nat.zero_le _
    | digit _ hx => exact Nat.succ_le_succ (h.longest _ (List.cons_prefix_cons.1 hu).2 hx)
    | separated _ _ _ =>
      obtain ⟨rfl, -⟩ := List.cons_prefix_cons.1 hu
      rw [h_] at hc
      cases hc

theorem munch_run (hc : isDigit c = true) (h : Munch (more isDigit separators) a w v) :
    Munch (run isDigit separators) (c :: a) (c :: w) v where
  split := by rw [h.split, List.cons_append]
  mem := ⟨c, w, hc, h.mem, rfl⟩
  longest := by
    rintro u hu ⟨d, x, -, hx, rfl⟩
    exact Nat.succ_le_succ (h.longest x (List.cons_prefix_cons.1 hu).2 hx)

/-- Digits before a run make it a longer one. -/
theorem munch_more_append (h_ : isDigit '_' = false) {x : List Char}
    (hx : ∀ c ∈ x, isDigit c = true) (h : Munch (more isDigit separators) a w v) :
    Munch (more isDigit separators) (x ++ a) (x ++ w) v := by
  induction x with
  | nil => exact h
  | cons c x ih =>
    exact munch_more_cons h_ (hx c List.mem_cons_self)
      (ih fun d hd => hx d (List.mem_cons_of_mem c hd))

/-- What may follow a digit is a run itself where a digit comes next. -/
theorem munch_run_of_munch_more (ha : a.head?.any isDigit = true)
    (h : Munch (more isDigit separators) a w v) : Munch (run isDigit separators) a w v where
  split := h.split
  mem := by
    obtain ⟨c, a, rfl, hc⟩ := exists_cons_of_any_head? ha
    have hlen := h.longest [c] ⟨a, rfl⟩ (More.digit hc .nil)
    cases w with
    | nil => cases hlen
    | cons d w =>
      obtain ⟨rfl, -⟩ := List.cons.inj h.split
      cases h.mem with
      | digit _ hw => exact ⟨c, w, hc, hw, rfl⟩
      | separated _ hd hw => exact ⟨'_', _, hc, .digit hd hw, rfl⟩
  longest := by
    rintro u hu ⟨d, x, hd, hx, rfl⟩
    exact h.longest _ hu (More.digit hd hx)

theorem Cut.run (ha : a.head?.any isDigit = true) (h : Cut (more isDigit separators) a) :
    Cut (run isDigit separators) a := by
  obtain ⟨u, v, hm, h_⟩ := h
  exact ⟨u, v, munch_run_of_munch_more ha hm, h_⟩

theorem misses_run (ha : ∀ c, a.head? = some c → isDigit c = false) :
    Misses (run isDigit separators) a := by
  rintro u ⟨v, rfl⟩ ⟨c, x, hc, -, rfl⟩
  rw [ha c rfl] at hc
  cases hc

end Literal

end EcmaLex
