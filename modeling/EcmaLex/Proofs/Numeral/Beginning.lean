import EcmaLex.Proofs.Numeral.Parts

/-!
# How a numeral begins

The first characters of a numeral tell its form, and from then on only one form is
looked at.  What is known after the beginning is that the longest tail makes the
longest literal, so nothing but the tail has to be looked for.

Where the beginning goes wrong, the longest literal is one that does not stand by
itself: the zero before a mark of the radix or before a separator, or the digits
before a separator.

## Main definitions

* `Literal.Rejected` — the longest literal of the text does not stand by itself.
* `Literal.Led` — the longest tail makes the longest literal.

## Main results

* `Literal.munch_tail_of_ends`, `Literal.munch_tail_of_fraction` — tails, part by part.
* `Numeral.reads_lead` — **the beginning of a literal** tells its form.
-/

namespace EcmaLex

namespace Literal

variable {settings : Settings} {form : NumberForm} {a b r u v v' w x y : List Char} {c : Char}

/-- The longest literal that the text begins with does not stand by itself. -/
def Rejected (settings : Settings) (r : List Char) : Prop :=
  ∃ form u v, Longest settings r form u v ∧ Abuts v

/-- With the form told and `u` read of the text `r`, the longest tail makes the longest
literal.  Where more digits may follow, they come before the tail. -/
structure Led (settings : Settings) (r : List Char) (form : NumberForm) (u a : List Char) :
    Prop where
  /-- What was read has no suffix. -/
  notMem : 'n' ∉ u
  /-- The decimal forms go on with digits. -/
  decimal : form.isDecimal = true → ∀ w v x v',
    Munch (more isDecimalDigit (Numeral.allowsSeparators settings form)) a w v →
      Munch (tail settings.numericSeparators form) v x v' →
        Longest settings r form (u ++ (w ++ x)) v'
  /-- The other forms go on with their tail. -/
  other : form.isDecimal = false → ∀ x v',
    Munch (tail settings.numericSeparators form) a x v' → Longest settings r form (u ++ x) v'

/-! ### Tails, part by part -/

/-- Where there is no fraction, a suffix or an exponent is the tail. -/
theorem munch_tail_of_ends (hv : form.isDecimal = true → a.head? ≠ some '.')
    (h : Munch (ends settings form false) a x v) :
    Munch (tail settings.numericSeparators form) a x v := by
  -- what begins with no point is told by the exponent alone
  have hskip : ∀ (s : Bool) (u : List Char), form.isDecimal = true → u <+: a →
      (u ∈ 1 + exponent s ↔ u ∈ (1 + fraction s) * (1 + exponent s)) := by
    intro s u hf hu
    constructor
    · intro he
      exact ⟨[], .inl rfl, u, he, rfl⟩
    · intro hm
      obtain ⟨y, hy, z, hz, rfl⟩ := Language.mem_mul.1 hm
      rcases hy with hy | hy
      · rw [(Language.mem_one y).1 hy]
        exact hz
      · obtain ⟨d, hd, q, -, rfl⟩ := mem_oneOf_mul.1 hy
        rw [List.mem_singleton.1 hd] at hu
        obtain ⟨b, rfl⟩ := hu
        exact absurd rfl (hv hf)
  refine h.of_iff fun u hu => ?_
  cases form with
  | decimal =>
    show u ∈ (1 + exponent settings.numericSeparators) + oneOf ['n'] ↔
      u ∈ oneOf ['n'] + (1 + fraction settings.numericSeparators) *
        (1 + exponent settings.numericSeparators)
    rw [add_comm _ (oneOf ['n'])]
    exact or_congr Iff.rfl (hskip _ u rfl hu)
  | decimalWithLeadingZero =>
    show u ∈ (1 + exponent false) + 0 ↔ u ∈ (1 + fraction false) * (1 + exponent false)
    rw [add_zero, hskip _ u rfl hu]
  | implicitOctal =>
    show u ∈ (1 : Language Char) + 0 ↔ u ∈ (1 : Language Char)
    rw [add_zero]
  | hex => exact Iff.rfl
  | octal => exact Iff.rfl
  | binary => exact Iff.rfl

/-- A fraction is the tail, together with the exponent after it. -/
theorem munch_tail_of_fraction (hf : form.isDecimal = true)
    (hx : Munch (fraction (Numeral.allowsSeparators settings form)) a x b)
    (hy : Munch (ends settings form true) b y v) :
    Munch (tail settings.numericSeparators form) a (x ++ y) v := by
  -- a fraction consists of its point, digits and separators
  have hap : ∀ s : Bool, x ∈ fraction s → Apart x (1 + exponent s) := by
    intro s hm
    refine (apart_oneOf_mul fun c hc hc' => ?_).one_add
    obtain ⟨d, hd, q, hq, rfl⟩ := mem_oneOf_mul.1 hm
    rcases List.mem_cons.1 hc with rfl | hc
    · rw [List.mem_singleton.1 hd] at hc'
      revert hc'
      decide
    · rcases hq with hq | hq
      · rw [(Language.mem_one q).1 hq] at hc
        cases hc
      · refine notMem_of_digit_or_separator (digit_or_separator_of_mem_run hq) c hc ?_
        exact List.mem_cons_of_mem _ (List.mem_cons_of_mem _ hc')
  have hsplit := hx.split
  cases form with
  | decimal =>
    -- a decimal tail may also be the suffix, but this one begins with a point
    refine (hx.one_add.mul (munch_exponent_of_ends hf hy) (hap _ hx.mem)).add_right ?_
    obtain ⟨d, hd, q, -, rfl⟩ := mem_oneOf_mul.1 hx.mem
    rw [List.mem_singleton.1 hd] at hsplit ⊢
    refine (misses_oneOf fun c hc hc' => ?_).length_le
    rw [hsplit] at hc
    cases hc
    revert hc'
    decide
  | decimalWithLeadingZero =>
    exact hx.one_add.mul (munch_exponent_of_ends hf hy) (hap _ hx.mem)
  | implicitOctal => cases hf
  | hex => cases hf
  | octal => cases hf
  | binary => cases hf

/-! ### The beginning of a literal -/

theorem led_of_digit (hc : isDecimalDigit c = true) (h0 : c ≠ '0') :
    Led settings (c :: a) .decimal [c] a where
  notMem h := by
    rw [← List.mem_singleton.1 h] at hc
    cases hc
  decimal _ w v x v' hw hx := by
    have : Longest settings (c :: a) .decimal (c :: w ++ x) v' := longest_of_digit hc h0 hw hx
    exact this
  other h := by cases h

/-- After a zero that makes no other form there are no digits. -/
theorem led_of_zero (ha : Stops isDecimalDigit settings.numericSeparators a)
    (hr : ∀ form : NumberForm, form ≠ .decimal → Misses (form.literals settings) ('0' :: a)) :
    Led settings ('0' :: a) .decimal ['0'] a where
  notMem := by decide
  decimal := by
    intro _ w v x v' hw hx
    -- there is no run to take
    obtain ⟨rfl, rfl⟩ := hw.unique (munch_more rfl .nil ha)
    exact longest_of_zero hr hx
  other h := by cases h

theorem led_of_radix {marks : List Char} {isDigit : Char → Bool} (hf : Radix form marks isDigit)
    (hc : c ∈ marks) (hw : Munch (run isDigit settings.numericSeparators) a w v) :
    Led settings ('0' :: c :: a) form ('0' :: c :: w) v where
  notMem := hf.notMem hc hw.mem
  decimal h := by cases hf <;> cases h
  other _ x v' hx := by
    have ht : tail settings.numericSeparators form = 1 + oneOf ['n'] := by cases hf <;> rfl
    rw [ht] at hx
    exact hf.longest_of_radix hc hw hx

theorem led_of_octal (hc : isOctalDigit c = true) (hw : ∀ d ∈ w, isOctalDigit d = true)
    (hv : ∀ d, v.head? = some d → isDecimalDigit d = false) :
    Led settings ('0' :: c :: w ++ v) .implicitOctal ('0' :: c :: w) v where
  notMem h := by
    rcases List.mem_cons.1 h with h | h
    · cases h
    · rcases List.mem_cons.1 h with rfl | h
      · cases hc
      · cases hw _ h
  decimal h := by cases h
  other _ x v' hx := by
    obtain ⟨rfl, rfl⟩ := hx.unique (Munch.one v)
    rw [List.append_nil]
    exact longest_of_octal hc hw hv

theorem led_of_nonOctal (hw : ∀ d ∈ w, isOctalDigit d = true)
    (ha : a.head?.any isNonOctalDecimalDigit = true) :
    Led settings ('0' :: (w ++ a)) .decimalWithLeadingZero ('0' :: w) a where
  notMem h := by
    rcases List.mem_cons.1 h with h | h
    · cases h
    · cases hw _ h
  decimal _ w' v x v' hw' hx := by
    have := longest_of_nonOctal hw ha hw' hx
    rwa [List.cons_append, List.append_assoc] at this
  other h := by cases h

/-- A literal is just the zero if that makes no other form and no tail follows. -/
theorem rejected_of_zero
    (hr : ∀ form : NumberForm, form ≠ .decimal → Misses (form.literals settings) ('0' :: c :: a))
    (hc : isIdentifierStart c = true) (ht : c ∉ ['n', '.', 'e', 'E']) :
    Rejected settings ('0' :: c :: a) := by
  refine ⟨.decimal, ['0'], c :: a, longest_of_zero hr (munch_tail_nil ?_), ?_⟩
  · rintro _ ⟨⟩
    exact ht
  · exact abuts_of_isIdentifierStart rfl hc

/-- A run that a separator ends makes a literal that does not stand by itself. -/
theorem Led.rejected_of_separator (h : Led settings r form u a) (ha : a.head? = some '_')
    (hf : form.isDecimal = false) : Rejected settings r := by
  exact ⟨form, u ++ [], a, h.other hf [] a (munch_tail_separator ha), abuts_separator ha⟩

end Literal

namespace Numeral

open Literal (Rejected Led run Radix)

variable {σ : Type} [ExactSource σ] {settings : Settings} {start : Nat} {form : NumberForm}
  {before u a r : List Char} {c : Char}

/-! ### Reading the beginning -/

theorem reads_radixDigits {marks : List Char} {isDigit : Char → Bool}
    (hf : Radix form marks isDigit) (hc : c ∈ marks) :
    Reads (σ := σ) (radixDigits form isDigit settings.numericSeparators) before ['0'] (c :: a)
      (fun form w v => Led settings ('0' :: c :: a) form ('0' :: w) v)
      (Rejected settings ('0' :: c :: a)) := by
  obtain ⟨hs, hk⟩ := hf.isIdentifierStart hc
  refine (Reads.take hk).bind ?_
  rintro _ _ _ ⟨rfl, rfl⟩
  refine ((reads_someDigits fun _ => hf.isHexDigit).mono_fails ?_).bind ?_
  · rintro (hm | ⟨w, v, hw, h_⟩)
    · exact Literal.rejected_of_zero (hf.misses_of_radix hc hm) hs (hf.mark hc).1
    · exact (Literal.led_of_radix hf hc hw).rejected_of_separator h_ hf.not_isDecimal
  · intro _ w v hw
    refine .pure ?_
    rw [List.append_nil]
    exact Literal.led_of_radix hf hc hw

/-- After a zero and an octal digit, the digits tell which of the legacy forms there is. -/
theorem reads_octalRun {d : Char} (hd : isOctalDigit d = true) :
    Reads (σ := σ)
      (modifyGet fun n => (if (octalRun n).1 then .decimalWithLeadingZero else .implicitOctal,
        (octalRun n).2)) before ['0'] (d :: a)
      (fun form w v => Led settings ('0' :: d :: a) form ('0' :: w) v)
      (Rejected settings ('0' :: d :: a)) := by
  obtain ⟨w, v, hs, hw, ⟨hr, hv⟩ | ⟨hr, hv⟩⟩ :=
    exists_octal_of_octalRun (σ := σ) before ['0'] (d :: a)
  · -- the run ends at a digit that is not octal
    refine ⟨w, v, by rw [hr], ?_⟩
    rw [hr, hs]
    exact Literal.led_of_nonOctal hw hv
  · -- no digit follows the octal ones
    refine ⟨w, v, by rw [hr], ?_⟩
    rw [hr, hs]
    cases w with
    | nil =>
      -- the first digit is octal, so it was read
      obtain rfl : d :: a = v := hs
      have := hv d rfl
      rw [isDecimalDigit_of_isOctalDigit hd] at this
      cases this
    | cons d' w =>
      obtain ⟨rfl, -⟩ := List.cons.inj hs
      exact Literal.led_of_octal hd (fun z hz => hw z (List.mem_cons_of_mem d hz)) hv

/-- A zero with neither a digit nor a mark of the radix after it is all of the integer. -/
theorem led_of_other
    (ha : ∀ d, a.head? = some d → isDecimalDigit d = false ∧ d ∉ ['x', 'X', 'o', 'O', 'b', 'B'])
    (h_ : settings.numericSeparators = true → a.head? ≠ some '_') :
    Led settings ('0' :: a) .decimal ['0'] a := by
  refine Literal.led_of_zero ⟨fun d hd => (ha d hd).1, ?_⟩ fun _ => Literal.misses_of_other ha
  rintro hs _ _ rfl
  exact absurd rfl (h_ hs)

/-- **The beginning of a literal** tells its form. -/
theorem reads_lead (hc : isDecimalDigit c = true) :
    Reads (σ := σ) (lead settings c) before [c] a
      (fun form w v => Led settings (c :: a) form (c :: w) v) (Rejected settings (c :: a)) := by
  unfold lead
  by_cases h0 : c = '0'
  · subst h0
    rw [if_neg (by decide)]
    refine Reads.get_bind ?_
    rw [reader_of, Reader.char?_between]
    cases a with
    | nil => exact .pure (led_of_other (fun _ h => by cases h) fun _ h => by cases h)
    | cons d b =>
      dsimp only [List.head?_cons]
      by_cases hx : (d == 'x' || d == 'X') = true
      · rw [if_pos hx]
        exact reads_radixDigits .hex (by simpa using hx)
      rw [if_neg hx]
      by_cases ho : (d == 'o' || d == 'O') = true
      · rw [if_pos ho]
        exact reads_radixDigits .octal (by simpa using ho)
      rw [if_neg ho]
      by_cases hb : (d == 'b' || d == 'B') = true
      · rw [if_pos hb]
        exact reads_radixDigits .binary (by simpa using hb)
      rw [if_neg hb]
      by_cases hoct : isOctalDigit d = true
      · rw [if_pos hoct]
        exact reads_octalRun hoct
      rw [if_neg hoct]
      by_cases hn : isNonOctalDecimalDigit d = true
      · rw [if_pos hn]
        exact .pure (Literal.led_of_nonOctal (w := []) (fun _ h => (by cases h)) hn)
      rw [if_neg hn]
      have hother : ∀ z, (d :: b).head? = some z →
          isDecimalDigit z = false ∧ z ∉ ['x', 'X', 'o', 'O', 'b', 'B'] := by
        rintro _ ⟨⟩
        refine ⟨?_, ?_⟩
        · rw [Bool.eq_false_iff]
          intro hd
          rw [isNonOctalDecimalDigit_of_isDecimalDigit hd] at hn
          rw [Bool.not_eq_true] at hoct
          exact hn (by rw [hoct]; rfl)
        · simp only [Bool.or_eq_true, beq_iff_eq, not_or] at hx ho hb
          simp [hx, ho, hb]
      by_cases h_ : (d == '_' && settings.numericSeparators) = true
      · rw [if_pos h_]
        obtain ⟨rfl, -⟩ : d = '_' ∧ settings.numericSeparators = true := by simpa using h_
        refine .failHere (Literal.rejected_of_zero (fun _ => Literal.misses_of_other hother) ?_ ?_)
        · decide
        · decide
      · rw [if_neg h_]
        refine .pure (led_of_other hother ?_)
        rintro hs ⟨⟩
        exact h_ (by rw [hs]; rfl)
  · rw [if_pos (bne_iff_ne.2 h0)]
    exact .pure (Literal.led_of_digit hc h0)

end Numeral

end EcmaLex
