import EcmaLex.Proofs.Character.Class
import EcmaLex.Proofs.Numeral.Grammar

/-!
# Which literal a text begins with

The first characters of a text tell what forms of literals it may begin with, and of
these only two compete: after a zero with a digit behind it, the digits tell
whether the literal is a legacy octal one.  For each way that a literal may
begin, its longest integer is found first, and the longest tail after it makes the
longest literal.

## Main definitions

* `Literal.second` — what may come after the zero in a form that is not decimal.

## Main results

* `Literal.longest_of_digit`, `Literal.longest_of_zero`, `Literal.longest_of_radix`,
  `Literal.longest_of_octal`, `Literal.longest_of_nonOctal`, `Literal.longest_of_point` — **the
  longest literal of a text**, for each way that it may begin.
-/

namespace EcmaLex.Literal

open NumberForm

variable {settings : Settings} {form : NumberForm} {isDigit : Char → Bool} {separators : Bool}
  {a r u v v' w e : List Char} {c : Char}

/-! ### How the parts begin -/

theorem apart_run (h : ∀ c ∈ u, isDigit c = false) : Apart u (run isDigit separators) := by
  rintro c w ⟨d, x, hd, -, hw⟩ hc
  obtain ⟨rfl, -⟩ := List.cons.inj hw
  rw [h c hc] at hd
  cases hd

theorem apart_oneOf_mul {L : Language Char} {cs : List Char} (h : ∀ c ∈ u, c ∉ cs) :
    Apart u (oneOf cs * L) := by
  refine (apart_oneOf h).mul ?_
  rintro ⟨c, -, hc⟩
  cases hc

/-- A tail begins with one of these characters. -/
theorem head_of_mem_tail (h : c :: w ∈ tail separators form) : c ∈ ['n', '.', 'e', 'E'] := by
  -- the tails of the two decimal forms, with separators and without
  have hdecimal : ∀ s : Bool, c :: w ∈ (1 + fraction s) * (1 + exponent s) →
      c ∈ ['n', '.', 'e', 'E'] := by
    intro s h
    rcases cons_mem_mul.1 h with ⟨-, h⟩ | ⟨x, _, h, -, -⟩
    · obtain ⟨d, hd, _, -, he⟩ := mem_oneOf_mul.1 (cons_mem_one_add.1 h)
      obtain ⟨rfl, -⟩ := List.cons.inj he
      exact List.mem_cons_of_mem _ (List.mem_cons_of_mem _ hd)
    · obtain ⟨d, hd, _, -, he⟩ := mem_oneOf_mul.1 (cons_mem_one_add.1 h)
      obtain ⟨rfl, -⟩ := List.cons.inj he
      rw [List.mem_singleton.1 hd]
      decide
  have hmark : c :: w ∈ oneOf ['n'] → c ∈ ['n', '.', 'e', 'E'] := by
    intro h
    rw [List.mem_singleton.1 (cons_mem_oneOf.1 h).1]
    decide
  cases form with
  | decimal => exact h.elim hmark (hdecimal separators)
  | decimalWithLeadingZero => exact hdecimal false h
  | implicitOctal => cases h
  | hex => exact hmark (cons_mem_one_add.1 h)
  | octal => exact hmark (cons_mem_one_add.1 h)
  | binary => exact hmark (cons_mem_one_add.1 h)

theorem apart_tail (h : ∀ c ∈ u, c ∉ ['n', '.', 'e', 'E']) : Apart u (tail separators form) :=
  fun c _ hw hc => h c hc (head_of_mem_tail hw)

theorem nil_mem_tail : [] ∈ tail separators form := by
  have hdecimal : ∀ s : Bool, [] ∈ (1 + fraction s) * (1 + exponent s) := fun s =>
    ⟨[], .inl rfl, [], .inl rfl, rfl⟩
  cases form with
  | decimal => exact .inr (hdecimal separators)
  | decimalWithLeadingZero => exact hdecimal false
  | implicitOctal => rfl
  | hex => exact .inl rfl
  | octal => exact .inl rfl
  | binary => exact .inl rfl

/-- There is no tail where none begins. -/
theorem munch_tail_nil (h : ∀ c, v.head? = some c → c ∉ ['n', '.', 'e', 'E']) :
    Munch (tail separators form) v [] v where
  split := rfl
  mem := nil_mem_tail
  longest := by
    rintro u ⟨x, rfl⟩ hm
    cases u with
    | nil => exact Nat.le_refl _
    | cons c u => exact absurd (head_of_mem_tail hm) (h c rfl)

theorem munch_tail_separator (h : v.head? = some '_') : Munch (tail separators form) v [] v := by
  refine munch_tail_nil fun c hc => ?_
  rw [h] at hc
  cases hc
  decide

/-- What may come after the zero in a form that is not decimal. -/
def second : NumberForm → Char → Bool
  | .decimal => fun _ => false
  | .hex => (['x', 'X'].contains ·)
  | .octal => (['o', 'O'].contains ·)
  | .binary => (['b', 'B'].contains ·)
  | .implicitOctal => isOctalDigit
  | .decimalWithLeadingZero => isDecimalDigit

theorem second_of_mem_radixInteger {marks : List Char}
    (h : u ∈ radixInteger marks isDigit separators) :
    ∃ c w, u = '0' :: c :: w ∧ marks.contains c = true := by
  obtain ⟨d, hd, x, hx, rfl⟩ := mem_oneOf_mul.1 h
  obtain ⟨c, hc, w, -, rfl⟩ := mem_oneOf_mul.1 hx
  rw [List.mem_singleton.1 hd]
  exact ⟨c, w, rfl, List.contains_iff_mem.2 hc⟩

/-- The forms other than the decimal one are told by their first two characters. -/
theorem second_of_mem (hf : form ≠ .decimal) (h : u ∈ form.literals settings) :
    ∃ c w, u = '0' :: c :: w ∧ second form c = true := by
  have hpoint : pointFirst settings.numericSeparators form = 0 := by
    cases form <;> first | rfl | exact absurd rfl hf
  rw [literals, hpoint, add_zero] at h
  obtain ⟨x, hx, y, -, rfl⟩ := Language.mem_mul.1 h
  have hx' : ∃ c w, x = '0' :: c :: w ∧ second form c = true := by
    cases form with
    | decimal => exact absurd rfl hf
    | hex => exact second_of_mem_radixInteger hx
    | octal => exact second_of_mem_radixInteger hx
    | binary => exact second_of_mem_radixInteger hx
    | implicitOctal =>
      obtain ⟨d, hd, _, ⟨c, w, hc, -, rfl⟩, rfl⟩ := mem_oneOf_mul.1 hx
      rw [List.mem_singleton.1 hd]
      exact ⟨c, w, rfl, hc⟩
    | decimalWithLeadingZero =>
      obtain ⟨d, hd, _, ⟨⟨c, w, hc, -, rfl⟩, -⟩, rfl⟩ := mem_oneOf_mul.1 hx
      rw [List.mem_singleton.1 hd]
      exact ⟨c, w, rfl, hc⟩
  obtain ⟨c, w, rfl, hc⟩ := hx'
  exact ⟨c, w ++ y, rfl, hc⟩

/-- A text that does not begin like a form has no literal of it. -/
theorem misses_literals (hf : form ≠ .decimal)
    (h : ∀ c a, r = '0' :: c :: a → second form c = false) : Misses (form.literals settings) r := by
  rintro u ⟨v, rfl⟩ hm
  obtain ⟨c, w, rfl, hc⟩ := second_of_mem hf hm
  rw [h c (w ++ v) rfl] at hc
  cases hc

/-- After a zero neither a digit nor a mark of the radix makes a form that is not decimal. -/
theorem misses_of_other
    (ha : ∀ d, a.head? = some d → isDecimalDigit d = false ∧ d ∉ ['x', 'X', 'o', 'O', 'b', 'B'])
    (hf : form ≠ .decimal) : Misses (form.literals settings) ('0' :: a) := by
  refine misses_literals hf ?_
  rintro c b ⟨⟩
  obtain ⟨hd, hm⟩ := ha c rfl
  simp only [List.mem_cons, List.not_mem_nil, or_false, not_or] at hm
  obtain ⟨hx, hX, ho, hO, hb, hB⟩ := hm
  cases form with
  | decimal => rfl
  | hex => simp [second, hx, hX]
  | octal => simp [second, ho, hO]
  | binary => simp [second, hb, hB]
  | implicitOctal =>
    rw [second, Bool.eq_false_iff]
    intro h
    rw [isDecimalDigit_of_isOctalDigit h] at hd
    cases hd
  | decimalWithLeadingZero => exact hd

/-- A decimal literal is a zero with a tail, or begins with another digit, or with its point. -/
theorem begin_of_mem_decimal (h : u ∈ literals settings .decimal) :
    (∃ t ∈ tail settings.numericSeparators .decimal, u = '0' :: t) ∨
      (∃ c t, u = c :: t ∧ isDecimalDigit c = true ∧ c ≠ '0') ∨ ∃ t, u = '.' :: t := by
  rcases h with h | h
  · obtain ⟨x, hx | ⟨⟨c, w, hc, -, rfl⟩, h0⟩, y, hy, rfl⟩ := Language.mem_mul.1 h
    · obtain ⟨d, hd, rfl⟩ := hx
      rw [List.mem_singleton.1 hd]
      exact .inl ⟨y, hy, rfl⟩
    · exact .inr (.inl ⟨c, w ++ y, rfl, hc, fun hc => h0 (by rw [hc]; rfl)⟩)
  · obtain ⟨d, hd, x, -, rfl⟩ := mem_oneOf_mul.1 h
    rw [List.mem_singleton.1 hd]
    exact .inr (.inr ⟨x, rfl⟩)

/-- After a zero only a tail makes a decimal literal longer. -/
theorem length_le_of_mem_decimal (hc : c ∉ ['n', '.', 'e', 'E']) (hu : u <+: '0' :: c :: a)
    (hm : u ∈ literals settings .decimal) : u.length ≤ 1 := by
  rcases begin_of_mem_decimal hm with ⟨t, ht, rfl⟩ | ⟨d, t, rfl, -, h0⟩ | ⟨t, rfl⟩
  · cases t with
    | nil => exact Nat.le_refl _
    | cons d t =>
      obtain ⟨rfl, -⟩ := List.cons_prefix_cons.1 (List.cons_prefix_cons.1 hu).2
      exact absurd (head_of_mem_tail ht) hc
  · exact absurd (List.cons_prefix_cons.1 hu).1 h0
  · cases (List.cons_prefix_cons.1 hu).1

/-- The longest literal of one form is the longest of all, if the other forms give none
that is longer. -/
theorem Longest.of_munch (h : Munch (form.literals settings) r u v)
    (ho : ∀ form' : NumberForm, form' ≠ form → ∀ u', u' <+: r → u' ∈ form'.literals settings →
      u'.length ≤ u.length) : Longest settings r form u v where
  split := h.split
  mem := h.mem
  longest form' u' hu' hm := by
    by_cases hf : form' = form
    · subst hf
      exact h.longest u' hu' hm
    · exact ho form' hf u' hu' hm

/-! ### Decimal literals -/

theorem notMem_of_digit_or_separator (h : ∀ c ∈ u, isDecimalDigit c = true ∨ c = '_') :
    ∀ c ∈ u, c ∉ ['n', '.', 'e', 'E'] := by
  have hall : ∀ c ∈ "0123456789".toList, c ∉ ['n', '.', 'e', 'E'] :=
    forall_mem_of_all (by decide)
  intro c hc
  rcases h c hc with hd | rfl
  · exact hall c (mem_of_isDecimalDigit hd)
  · decide

/-- A literal that begins with a digit other than zero. -/
theorem longest_of_digit (hc : isDecimalDigit c = true) (h0 : c ≠ '0')
    (hw : Munch (more isDecimalDigit settings.numericSeparators) a w v)
    (he : Munch (tail settings.numericSeparators .decimal) v e v') :
    Longest settings (c :: a) .decimal (c :: w ++ e) v' := by
  -- the first digit and what follows it are the longest integer, and so the tail is looked for
  have hrun := munch_run hc hw
  have hi : Munch (integer settings.numericSeparators .decimal) (c :: a) (c :: w) v := by
    have hn : Munch (nonzeroRun settings.numericSeparators) (c :: a) (c :: w) v :=
      hrun.restrict ⟨hrun.mem, fun h => h0 (Option.some.inj h)⟩ fun _ hx => hx.1
    refine hn.add_right ?_
    rintro _ - ⟨d, -, rfl⟩
    exact Nat.succ_le_succ (Nat.zero_le _)
  have hap : Apart (c :: w) (tail settings.numericSeparators .decimal) :=
    apart_tail (notMem_of_digit_or_separator (digit_or_separator_of_mem_run hrun.mem))
  refine .of_munch ((hi.mul he hap).add_left ?_) fun form' hf => ?_
  · -- the literal does not begin with its point
    refine (Misses.mul (misses_oneOf ?_)).length_le
    rintro _ ⟨⟩ hd
    rw [List.mem_singleton.1 hd] at hc
    cases hc
  · refine (misses_literals hf ?_).length_le
    rintro _ _ ⟨⟩
    exact absurd rfl h0

/-- A literal whose zero makes no other form than the decimal one. -/
theorem longest_of_zero
    (hr : ∀ form : NumberForm, form ≠ .decimal → Misses (form.literals settings) ('0' :: a))
    (he : Munch (tail settings.numericSeparators .decimal) a e v') :
    Longest settings ('0' :: a) .decimal ('0' :: e) v' := by
  refine .of_munch ⟨?_, ?_, fun u hu hm => ?_⟩ fun form' hf => (hr form' hf).length_le
  · rw [he.split, List.cons_append]
  · have hz : ['0'] ∈ integer settings.numericSeparators .decimal :=
      .inl (singleton_mem_oneOf List.mem_cons_self)
    exact .inl (Language.append_mem_mul hz he.mem)
  · -- of the decimal literals only those of a zero and a tail begin like the text
    rcases begin_of_mem_decimal hm with ⟨t, ht, rfl⟩ | ⟨d, t, rfl, -, h0⟩ | ⟨t, rfl⟩
    · exact Nat.succ_le_succ (he.longest t (List.cons_prefix_cons.1 hu).2 ht)
    · exact absurd (List.cons_prefix_cons.1 hu).1 h0
    · cases (List.cons_prefix_cons.1 hu).1

/-- A literal that begins with its point. -/
theorem longest_of_point
    (hw : Munch (run isDecimalDigit settings.numericSeparators) a w v)
    (he : Munch (1 + exponent settings.numericSeparators) v e v') :
    Longest settings ('.' :: a) .decimal ('.' :: (w ++ e)) v' := by
  have hap : Apart w (1 + exponent settings.numericSeparators) := by
    refine (apart_oneOf_mul fun c hc => ?_).one_add
    have := notMem_of_digit_or_separator (digit_or_separator_of_mem_run hw.mem) c hc
    exact fun h => this (List.mem_cons_of_mem _ (List.mem_cons_of_mem _ h))
  have hp : Munch (pointFirst settings.numericSeparators .decimal) ('.' :: a)
      ('.' :: (w ++ e)) v' :=
    (hw.mul he hap).oneOf_mul List.mem_cons_self
  refine .of_munch (hp.add_right ?_) fun form' hf => ?_
  · intro u hu hm
    have hdec : u ∈ literals settings .decimal := .inl hm
    rcases begin_of_mem_decimal hdec with ⟨t, -, rfl⟩ | ⟨d, t, rfl, hd, -⟩ | ⟨t, rfl⟩
    · cases (List.cons_prefix_cons.1 hu).1
    · rw [(List.cons_prefix_cons.1 hu).1] at hd
      cases hd
    · obtain ⟨x, hx, y, -, hxy⟩ := Language.mem_mul.1 hm
      rcases hx with ⟨d, hd, rfl⟩ | ⟨⟨d, w, hd, -, rfl⟩, -⟩
      · cases (List.cons.inj hxy).1
        cases List.mem_singleton.1 hd
      · cases (List.cons.inj hxy).1
        cases hd
  · refine (misses_literals hf ?_).length_le
    rintro _ _ ⟨⟩

/-! ### Literals with a mark of the radix -/

/-- The marks and the digits of a radix. -/
inductive Radix : NumberForm → List Char → (Char → Bool) → Prop where
  /-- As in `0x1F`. -/
  | hex : Radix .hex ['x', 'X'] isHexDigit
  /-- As in `0o17`. -/
  | octal : Radix .octal ['o', 'O'] isOctalDigit
  /-- As in `0b101`. -/
  | binary : Radix .binary ['b', 'B'] isBinaryDigit

namespace Radix

variable {marks : List Char} (hf : Radix form marks isDigit)
include hf

theorem integer_eq : integer separators form = radixInteger marks isDigit separators := by
  cases hf <;> rfl

theorem literals_eq :
    form.literals settings = integer settings.numericSeparators form * (1 + oneOf ['n']) := by
  have hp : pointFirst settings.numericSeparators form = 0 := by cases hf <;> rfl
  have ht : tail settings.numericSeparators form = 1 + oneOf ['n'] := by cases hf <;> rfl
  rw [literals, hp, ht, add_zero]

theorem isHexDigit (hc : isDigit c = true) : EcmaLex.isHexDigit c = true := by
  cases hf with
  | hex => exact hc
  | octal => exact isHexDigit_of_isDecimalDigit (isDecimalDigit_of_isOctalDigit hc)
  | binary => exact isHexDigit_of_isDecimalDigit (isDecimalDigit_of_isBinaryDigit hc)

/-- The mark begins no tail, and marks nothing else. -/
theorem mark (hc : c ∈ marks) :
    c ∉ ['n', '.', 'e', 'E'] ∧ ∀ form' : NumberForm, form' ≠ form → second form' c = false := by
  have htail : ∀ c ∈ marks, c ∉ ['n', '.', 'e', 'E'] := by
    cases hf <;> exact forall_mem_of_all (by decide)
  refine ⟨htail c hc, fun form' h => ?_⟩
  have hsecond : ∀ c ∈ marks, second form' c = false := by
    cases hf <;> cases form' <;>
      first | exact absurd rfl h | exact forall_mem_of_all (by decide)
  exact hsecond c hc

/-- The mark is a letter. -/
theorem isIdentifierStart (hc : c ∈ marks) :
    EcmaLex.isIdentifierStart c = true ∧ c ∉ ['_', 'n'] := by
  have hall : ∀ c ∈ marks, EcmaLex.isIdentifierStart c = true ∧ c ∉ ['_', 'n'] := by
    cases hf <;> exact forall_mem_of_all (by decide)
  exact hall c hc

theorem not_isDecimal : form.isDecimal = false := by cases hf <;> rfl

/-- Neither the mark nor the digits after it are the suffix. -/
theorem notMem (hc : c ∈ marks) (hw : w ∈ run isDigit separators) : 'n' ∉ '0' :: c :: w := by
  intro h
  rcases List.mem_cons.1 h with h | h
  · cases h
  rcases List.mem_cons.1 h with rfl | h
  · exact (hf.mark hc).1 List.mem_cons_self
  rcases digit_or_separator_of_mem_run hw _ h with h | h
  · cases hf.isHexDigit h
  · cases h

/-- A literal that begins with a mark of the radix. -/
theorem longest_of_radix (hc : c ∈ marks)
    (hw : Munch (run isDigit settings.numericSeparators) a w v)
    (he : Munch (1 + oneOf ['n']) v e v') :
    Longest settings ('0' :: c :: a) form ('0' :: c :: w ++ e) v' := by
  obtain ⟨ht, hs⟩ := hf.mark hc
  have hi : Munch (integer settings.numericSeparators form) ('0' :: c :: a) ('0' :: c :: w) v := by
    rw [hf.integer_eq]
    exact (hw.oneOf_mul hc).oneOf_mul List.mem_cons_self
  have hap : Apart ('0' :: c :: w) (1 + oneOf ['n']) := by
    refine (apart_oneOf fun d hd hn => ?_).one_add
    rw [List.mem_singleton.1 hn] at hd
    exact hf.notMem hc hw.mem hd
  have hm := hi.mul he hap
  rw [← hf.literals_eq] at hm
  -- the mark tells the form, and what a decimal literal may begin with is the zero alone
  refine .of_munch hm fun form' hf' u hu hu' => ?_
  by_cases hdec : form' = .decimal
  · subst hdec
    exact Nat.le_trans (length_le_of_mem_decimal ht hu hu') (Nat.succ_le_succ (Nat.zero_le _))
  · refine (misses_literals hdec ?_).length_le u hu hu'
    rintro _ _ ⟨⟩
    exact hs form' hf'

/-- A mark of the radix without digits makes no literal. -/
theorem misses_of_radix (hc : c ∈ marks)
    (hw : Misses (run isDigit settings.numericSeparators) a) (form' : NumberForm)
    (hf' : form' ≠ .decimal) : Misses (form'.literals settings) ('0' :: c :: a) := by
  obtain ⟨-, hs⟩ := hf.mark hc
  by_cases h : form' = form
  · subst h
    rw [hf.literals_eq, hf.integer_eq]
    exact hw.oneOf_mul.oneOf_mul.mul
  · refine misses_literals hf' ?_
    rintro _ _ ⟨⟩
    exact hs form' h

end Radix

/-! ### Literals with a leading zero -/

/-- After a zero and digits only the two legacy forms have literals of some length. -/
theorem length_le_of_legacy (hc : isDecimalDigit c = true) (hu : u <+: '0' :: c :: a)
    (hm : u ∈ form.literals settings) (hoct : form ≠ .implicitOctal)
    (hdec : form ≠ .decimalWithLeadingZero) : u.length ≤ 1 := by
  have hall : ∀ d ∈ "0123456789".toList, d ∉ ['n', '.', 'e', 'E'] ∧
      second .hex d = false ∧ second .octal d = false ∧ second .binary d = false :=
    forall_mem_of_all (by decide)
  obtain ⟨ht, hx, ho, hb⟩ := hall c (mem_of_isDecimalDigit hc)
  by_cases hf : form = .decimal
  · subst hf
    exact length_le_of_mem_decimal ht hu hm
  · refine (misses_literals (r := '0' :: c :: a) hf ?_).length_le (u := [c]) u hu hm
    rintro _ _ ⟨⟩
    cases form with
    | decimal => exact absurd rfl hf
    | hex => exact hx
    | octal => exact ho
    | binary => exact hb
    | implicitOctal => exact absurd rfl hoct
    | decimalWithLeadingZero => exact absurd rfl hdec

/-- Digits that no digit follows are a run without separators. -/
theorem munch_run_digits (h_ : isDigit '_' = false) (hc : isDigit c = true)
    (hw : ∀ d ∈ w, isDigit d = true) (hv : ∀ d, v.head? = some d → isDigit d = false) :
    Munch (run isDigit false) (c :: w ++ v) (c :: w) v :=
  munch_run hc (munch_more h_ (.of_isDigit hw) ⟨hv, fun h => by cases h⟩)

/-- A literal of octal digits that no other digits follow. -/
theorem longest_of_octal (hc : isOctalDigit c = true) (hw : ∀ d ∈ w, isOctalDigit d = true)
    (hv : ∀ d, v.head? = some d → isDecimalDigit d = false) :
    Longest settings ('0' :: c :: w ++ v) .implicitOctal ('0' :: c :: w) v := by
  -- the digits are the longest run of octal digits, and the longest one of decimal digits
  have hoctal : Munch (run isOctalDigit false) (c :: w ++ v) (c :: w) v := by
    refine munch_run_digits rfl hc hw fun d hd => ?_
    rw [Bool.eq_false_iff]
    intro ho
    have := hv d hd
    rw [isDecimalDigit_of_isOctalDigit ho] at this
    cases this
  have hdecimal : Munch (run isDecimalDigit false) (c :: w ++ v) (c :: w) v :=
    munch_run_digits rfl (isDecimalDigit_of_isOctalDigit hc)
      (fun d hd => isDecimalDigit_of_isOctalDigit (hw d hd)) hv
  have hm : Munch (literals settings .implicitOctal) ('0' :: c :: w ++ v) ('0' :: c :: w) v := by
    rw [literals, pointFirst, tail, mul_one, add_zero]
    · exact hoctal.oneOf_mul List.mem_cons_self
    · intro h
      cases h
  refine .of_munch hm fun form' hf u hu hm => ?_
  by_cases hz : form' = .decimalWithLeadingZero
  · -- the digits of such a literal are among those read, and one of them is not octal
    subst hz
    rcases hm with hm | hm
    · obtain ⟨x, hx, y, -, rfl⟩ := Language.mem_mul.1 hm
      obtain ⟨z, hz, ds, ⟨hds, d, hd, hn⟩, rfl⟩ := mem_oneOf_mul.1 hx
      have hp : ds <+: c :: w ++ v :=
        (List.prefix_append ds y).trans (List.cons_prefix_cons.1 hu).2
      have hpw : ds <+: c :: w :=
        List.prefix_of_prefix_length_le hp (List.prefix_append _ v) (hdecimal.longest ds hp hds)
      have ho : isOctalDigit d = true := by
        rcases List.mem_cons.1 (hpw.subset hd) with rfl | hdw
        · exact hc
        · exact hw d hdw
      rw [isNonOctalDecimalDigit_of_isDecimalDigit (isDecimalDigit_of_isOctalDigit ho), ho] at hn
      cases hn
    · cases hm
  · refine Nat.le_trans (length_le_of_legacy (isDecimalDigit_of_isOctalDigit hc) hu hm hf hz) ?_
    exact Nat.succ_le_succ (Nat.zero_le _)

/-- A literal with a leading zero that a digit makes a decimal one, where the digits before
that one are octal. -/
theorem longest_of_nonOctal {x : List Char} (hx : ∀ d ∈ x, isOctalDigit d = true)
    (ha : a.head?.any isNonOctalDecimalDigit = true) (hw : Munch (more isDecimalDigit false) a w v)
    (he : Munch (tail settings.numericSeparators .decimalWithLeadingZero) v e v') :
    Longest settings ('0' :: (x ++ a)) .decimalWithLeadingZero ('0' :: (x ++ w) ++ e) v' := by
  have hd : ∀ d ∈ x, isDecimalDigit d = true := fun d h => isDecimalDigit_of_isOctalDigit (hx d h)
  obtain ⟨d, a, rfl, hn⟩ := exists_cons_of_any_head? ha
  -- `c` is the first digit after the zero, whether or not it is octal
  obtain ⟨c, b, hcb, hc⟩ : ∃ c b, x ++ d :: a = c :: b ∧ isDecimalDigit c = true := by
    cases x with
    | nil => exact ⟨d, a, rfl, isDecimalDigit_of_isNonOctalDecimalDigit hn⟩
    | cons c x => exact ⟨c, x ++ d :: a, rfl, hd c List.mem_cons_self⟩
  have hrun : Munch (run isDecimalDigit false) (x ++ d :: a) (x ++ w) v := by
    refine munch_run_of_munch_more ?_ (munch_more_append rfl hd hw)
    rw [hcb]
    exact hc
  -- the digit that is not octal is among those that are read
  have hmem : d ∈ w := by
    have hlen := hw.longest [d] ⟨a, rfl⟩
      (More.digit (isDecimalDigit_of_isNonOctalDecimalDigit hn) .nil)
    cases w with
    | nil => cases hlen
    | cons d' w =>
      rw [(List.cons.inj hw.split).1]
      exact List.mem_cons_self
  have hi : Munch (integer settings.numericSeparators .decimalWithLeadingZero)
      ('0' :: (x ++ d :: a)) ('0' :: (x ++ w)) v := by
    have hnon : Munch nonOctalRun (x ++ d :: a) (x ++ w) v :=
      hrun.restrict ⟨hrun.mem, d, List.mem_append_right x hmem, hn⟩ fun _ h => h.1
    exact hnon.oneOf_mul List.mem_cons_self
  have hap : Apart ('0' :: (x ++ w))
      (tail settings.numericSeparators .decimalWithLeadingZero) := by
    refine apart_tail (notMem_of_digit_or_separator fun z hz => ?_)
    rcases List.mem_cons.1 hz with rfl | hz
    · exact .inl rfl
    · exact digit_or_separator_of_mem_run hrun.mem z hz
  have hm := hi.mul he hap
  refine .of_munch (hm.add_left fun u _ hu => by cases hu) fun form' hf u hu hu' => ?_
  by_cases ho : form' = .implicitOctal
  · -- octal digits are decimal, so there are no more of them than were read
    subst ho
    rcases hu' with hu' | hu'
    · obtain ⟨y, hy, z, hz, rfl⟩ := Language.mem_mul.1 hu'
      obtain ⟨q, hq, ds, ⟨o, os, ho, hos, rfl⟩, rfl⟩ := mem_oneOf_mul.1 hy
      obtain rfl : z = [] := hz
      rw [List.append_nil] at hu
      have hmem : o :: os ∈ run isDecimalDigit false :=
        ⟨o, os, isDecimalDigit_of_isOctalDigit ho,
          .of_isDigit fun z hz => isDecimalDigit_of_isOctalDigit (hos.digit_of_mem z hz), rfl⟩
      have := hrun.longest (o :: os) (List.cons_prefix_cons.1 hu).2 hmem
      simp only [List.length_append, List.length_cons, List.length_nil] at this ⊢
      omega
    · cases hu'
  · rw [hcb] at hu
    exact Nat.le_trans (length_le_of_legacy hc hu hu' ho hf) (Nat.succ_le_succ (Nat.zero_le _))

end EcmaLex.Literal
