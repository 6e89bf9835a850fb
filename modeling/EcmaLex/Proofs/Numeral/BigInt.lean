import EcmaLex.Proofs.Numeral.Literals

/-!
# The limit for BigInts

An integer with the suffix behind it is a BigInt, unless it is too long.  It is read to its end in
any case, and only then its length is looked at.  That length is a distance in the text, from the
mark of the radix to the suffix.  So a separator counts as much as a digit, and the limit is one for
the digits alone just where there are no separators.

## Main definitions

* `Literal.digitCount`, `Literal.separatorCount` — the digits and the separators of an integer.

## Main results

* `Numeral.afterFirstDigit_of_mem` — an integer is read up to its suffix.
* `Numeral.ending_of_suffix` — what is made of the suffix.
* `bigInt_iff_length` — **BigInts are the integers that are short enough**, separators counted.
-/

namespace EcmaLex

namespace Literal

variable {settings : Settings} {form : NumberForm} {separators : Bool} {u : List Char}

/-! ### Counting -/

/-- The number of digits of an integer, behind the mark of the radix. -/
def digitCount (form : NumberForm) (u : List Char) : Nat :=
  ((u.drop form.prefixLength).filter (· != '_')).length

/-- The number of separators of an integer. -/
def separatorCount (form : NumberForm) (u : List Char) : Nat :=
  ((u.drop form.prefixLength).filter (· == '_')).length

/-- An integer with a suffix is a digit and a row of more, or it has a mark of the radix. -/
theorem integer_cases (h : form.allowsBigInt = true) (hu : u ∈ integer separators form) :
    form = .decimal ∧ (∃ c w, u = c :: w ∧ isDecimalDigit c = true ∧
        More isDecimalDigit separators w ∧ (c = '0' → w = [])) ∨
      ∃ marks isDigit c w, Radix form marks isDigit ∧ c ∈ marks ∧
        u = '0' :: c :: w ∧ w ∈ run isDigit separators := by
  have hradix : ∀ {marks : List Char} {isDigit : Char → Bool}, Radix form marks isDigit →
      ∃ marks isDigit c w, Radix form marks isDigit ∧ c ∈ marks ∧
        u = '0' :: c :: w ∧ w ∈ run isDigit separators := by
    intro marks isDigit hf
    rw [hf.integer_eq] at hu
    obtain ⟨d, hd, x, hx, rfl⟩ := mem_oneOf_mul.1 hu
    obtain ⟨c, hc, w, hw, rfl⟩ := mem_oneOf_mul.1 hx
    rw [List.mem_singleton.1 hd]
    exact ⟨marks, isDigit, c, w, hf, hc, rfl, hw⟩
  cases form with
  | hex => exact .inr (hradix .hex)
  | octal => exact .inr (hradix .octal)
  | binary => exact .inr (hradix .binary)
  | implicitOctal => cases h
  | decimalWithLeadingZero => cases h
  | decimal =>
    refine .inl ⟨rfl, ?_⟩
    rcases hu with ⟨c, hc, rfl⟩ | ⟨⟨c, w, hc, hw, rfl⟩, h0⟩
    · rw [List.mem_singleton.1 hc]
      exact ⟨'0', [], rfl, rfl, .nil, fun _ => rfl⟩
    · refine ⟨c, w, rfl, hc, hw, ?_⟩
      rintro rfl
      exact absurd rfl h0

/-- The length of an integer, told from its parts. -/
theorem length_eq_count (h : form.allowsBigInt = true) (hu : u ∈ integer separators form) :
    u.length = form.prefixLength + (digitCount form u + separatorCount form u) := by
  have hle : form.prefixLength ≤ u.length := by
    rcases integer_cases h hu with ⟨rfl, -⟩ | ⟨_, _, c, w, hf, -, rfl, -⟩
    · exact Nat.zero_le _
    · have hlen : form.prefixLength = 2 := by cases hf <;> rfl
      rw [hlen, List.length_cons, List.length_cons]
      omega
  have hsum := List.length_eq_length_filter_add (l := u.drop form.prefixLength) (· == '_')
  rw [List.length_drop] at hsum
  change _ = _ + (List.filter (· != '_') _).length at hsum
  unfold digitCount separatorCount
  omega

/-- Every character of an integer takes one byte. -/
theorem extent_eq_length (h : form.allowsBigInt = true) (hu : u ∈ integer separators form) :
    extent ByteCursor u = u.length := by
  have hdigit : ∀ c, isHexDigit c = true ∨ c = '_' → c.utf8Size = 1 := by
    have hall : ∀ d ∈ "0123456789abcdefABCDEF".toList, d.utf8Size = 1 :=
      forall_mem_of_all (by decide)
    rintro c (hc | rfl)
    · exact hall c (mem_of_isHexDigit hc)
    · rfl
  have hsize : ∀ c ∈ u, c.utf8Size = 1 := by
    rcases integer_cases h hu with
      ⟨rfl, c, w, rfl, hc, hw, -⟩ | ⟨marks, _, c, w, hf, hc, rfl, hw⟩
    · intro d hd
      rcases List.mem_cons.1 hd with rfl | hd
      · exact hdigit d (.inl (isHexDigit_of_isDecimalDigit hc))
      · exact hdigit d ((hw.digit_or_separator d hd).imp_left isHexDigit_of_isDecimalDigit)
    · have hmark : c.utf8Size = 1 := by
        have hall : ∀ d ∈ marks, d.utf8Size = 1 := by
          cases hf <;> exact forall_mem_of_all (by decide)
        exact hall c hc
      intro d hd
      rcases List.mem_cons.1 hd with rfl | hd
      · rfl
      rcases List.mem_cons.1 hd with rfl | hd
      · exact hmark
      · exact hdigit d ((digit_or_separator_of_mem_run hw d hd).imp_left hf.isHexDigit)
  clear hu
  induction u with
  | nil => rfl
  | cons c u ih =>
    obtain ⟨hc, hu⟩ := List.forall_mem_cons.1 hsize
    rw [extent_cons, ih hu, List.length_cons]
    have hw : ExactSource.width ByteCursor c = 1 := hc
    omega

end Literal

namespace Numeral

open Literal (run More Stops Radix integer Abuts)

variable {σ : Type} [ExactSource σ] {settings : Settings} {form : NumberForm}
  {before u v w : List Char} {c : Char}

/-! ### Reading up to the suffix -/

omit [ExactSource σ] in
/-- What comes after a step that finds nothing wrong. -/
theorem bind_of_ok {α β : Type} {x : Reading σ α} {f : α → Reading σ β} {n n' : Numeral σ} {a : α}
    (h : x n = .ok a n') : (x >>= f) n = f a n' := by
  simp only [Bind.bind, EStateM.bind, h]

omit [ExactSource σ] in
theorem get_bind {α : Type} (f : Numeral σ → Reading σ α) (n : Numeral σ) :
    (get >>= f) n = f n n := rfl

section Digits

variable {isDigit : Char → Bool} {separators : Bool}
  (hd : ∀ c, isDigit c = true → isHexDigit c = true)
include hd

/-- The suffix ends every run of digits. -/
theorem stops_suffix (v : List Char) : Stops isDigit separators ('n' :: v) where
  digit := by
    rintro _ ⟨⟩
    rw [Bool.eq_false_iff]
    intro h
    cases hd 'n' h
  separated := by
    rintro - c v' h
    cases h

/-- A run of digits is read up to the suffix. -/
theorem digits_of_more (hw : More isDigit separators w) (before u v : List Char) :
    digits isDigit separators true (of before u (w ++ 'n' :: v) : Numeral σ) =
      .ok () (of before (u ++ w) ('n' :: v)) := by
  obtain ⟨w', v', hsplit, hw', hv', h⟩ :=
    exists_more_of_digitRun (σ := σ) hd separators before u (w ++ 'n' :: v)
  -- what is read is the longest run, and that is `w`
  have hm := Literal.munch_more (isDigit_separator hd) hw (stops_suffix hd v)
  have hm' := Literal.munch_more (isDigit_separator hd) hw' hv'
  rw [← hsplit] at hm'
  obtain ⟨rfl, rfl⟩ := hm.unique hm'
  rcases h with h | ⟨h_, -⟩
  · rw [digits, h]
  · cases h_

theorem someDigits_of_mem_run (hw : w ∈ run isDigit separators) :
    someDigits isDigit separators (of before u (w ++ 'n' :: v) : Numeral σ) =
      .ok () (of before (u ++ w) ('n' :: v)) := by
  obtain ⟨c, x, hc, hx, rfl⟩ := hw
  have hread := digits_of_more (σ := σ) hd (.digit hc hx) before u v
  -- the first digit is read like any other
  have hfirst : someDigits isDigit separators (of before u (c :: x ++ 'n' :: v) : Numeral σ) =
      digits isDigit separators false (of before u (c :: x ++ 'n' :: v)) := by
    unfold someDigits
    rw [get_bind, reader_of, Reader.isAtAny_between, List.cons_append, List.head?_cons,
      Option.any_some, if_pos hc]
  rw [hfirst, ← hread, List.cons_append, digits, digits, digitRun_of_cons, digitRun_of_cons,
    if_pos hc, if_pos hc]

end Digits

/-- A mark of the radix and digits are read up to the suffix. -/
theorem lead_of_radix {marks : List Char} {isDigit : Char → Bool}
    (hf : Radix form marks isDigit) (hc : c ∈ marks)
    (hw : w ∈ run isDigit settings.numericSeparators) :
    lead settings '0' (of before ['0'] (c :: w ++ 'n' :: v) : Numeral σ) =
      .ok form (of before ('0' :: c :: w) ('n' :: v)) := by
  have hmark : lead settings '0' (of before ['0'] (c :: w ++ 'n' :: v) : Numeral σ) =
      radixDigits form isDigit settings.numericSeparators
        (of before ['0'] (c :: w ++ 'n' :: v)) := by
    cases hf <;> rcases List.mem_cons.1 hc with rfl | hc <;>
      first | rfl | (rw [List.mem_singleton.1 hc]; rfl)
  have htake : (modify take : Reading σ PUnit) (of before ['0'] (c :: (w ++ 'n' :: v))) =
      .ok () (of before ['0', c] (w ++ 'n' :: v)) :=
    congrArg (EStateM.Result.ok ()) (take_of (hf.isIdentifierStart hc).2)
  rw [hmark, radixDigits, List.cons_append, bind_of_ok htake,
    bind_of_ok (someDigits_of_mem_run (fun _ => hf.isHexDigit) hw)]
  rfl

/-- **An integer is read up to its suffix**, and then its end is looked for. -/
theorem afterFirstDigit_of_mem (h : form.allowsBigInt = true)
    (hu : c :: w ∈ integer settings.numericSeparators form) (start : Nat)
    (before v : List Char) :
    afterFirstDigit settings start c (of before [c] (w ++ 'n' :: v) : Numeral σ) =
      (do return { kind := ← ending settings start form false, form } : Reading σ Verdict)
        (of before (c :: w) ('n' :: v)) := by
  rw [afterFirstDigit_eq]
  rcases Literal.integer_cases h hu with
    ⟨rfl, d, x, heq, hd, hw, h0⟩ | ⟨marks, isDigit, d, x, hf, hmark, heq, hx⟩
  · obtain ⟨rfl, rfl⟩ := List.cons.inj heq
    have hlead : lead settings c (of before [c] (w ++ 'n' :: v) : Numeral σ) =
        .ok .decimal (of before [c] (w ++ 'n' :: v)) := by
      by_cases hc : c = '0'
      · rw [hc, h0 hc]
        rfl
      · unfold lead
        rw [if_pos (bne_iff_ne.2 hc)]
        rfl
    -- the suffix starts identifiers, so that this is no small integer
    have hsmall : (of before (c :: w) ('n' :: v) : Numeral σ).smallInt? = none := by
      cases hs : (of before (c :: w) ('n' :: v) : Numeral σ).smallInt? with
      | none => rfl
      | some value => cases (head_of_smallInt? hs 'n' rfl).2
    have hdigits : digits isDecimalDigit (allowsSeparators settings .decimal) true
        (of before [c] (w ++ 'n' :: v) : Numeral σ) = .ok () (of before ([c] ++ w) ('n' :: v)) :=
      digits_of_more (fun _ => isHexDigit_of_isDecimalDigit) hw before [c] v
    rw [bind_of_ok hlead, afterLead, if_pos (c := NumberForm.decimal.isDecimal = true) rfl,
      bind_of_ok hdigits, get_bind, List.singleton_append, hsmall]
    rfl
  · obtain ⟨rfl, rfl⟩ := List.cons.inj heq
    rw [bind_of_ok (lead_of_radix hf hmark hx), afterLead, if_neg]
    rw [hf.not_isDecimal]
    decide

/-- **What is made of the suffix**: if the integer is not too long it is read, and then neither a
digit nor an identifier follows. -/
theorem ending_of_suffix (settings : Settings) (h : form.allowsBigInt = true) (hv : ¬ Abuts v)
    (start : Nat) (before u : List Char) :
    ending settings start form false (of before u ('n' :: v) : Numeral σ) =
      if settings.maxBigIntDigits < extent σ (before ++ u) - (start + form.prefixLength) then
        .error ⟨⟨start, extent σ (before ++ u)⟩, .bigIntTooBig⟩ (of before u ('n' :: v))
      else .ok .bigInt (of before (u ++ ['n']) v) := by
  have hsuffix : suffix settings start form false (of before u ('n' :: v) : Numeral σ) =
      (do bigIntSuffix settings start form; return .bigInt : Reading σ TokenKind)
        (of before u ('n' :: v)) := by
    unfold suffix
    rw [get_bind, reader_of, Reader.isAt_between, List.head?_cons, if_pos (by rw [h]; rfl)]
  have hbigInt : bigIntSuffix settings start form (of before u ('n' :: v) : Numeral σ) =
      if settings.maxBigIntDigits < extent σ (before ++ u) - (start + form.prefixLength) then
        .error ⟨⟨start, extent σ (before ++ u)⟩, .bigIntTooBig⟩ (of before u ('n' :: v))
      else .ok () (of before (u ++ ['n']) v) := by
    unfold bigIntSuffix
    rw [get_bind, reader_of, Reader.position_between]
    split
    · rfl
    · exact congrArg (EStateM.Result.ok ()) (takeRaw_of (by decide))
  have hboundary : boundary (of before (u ++ ['n']) v : Numeral σ) =
      .ok () (of before (u ++ ['n']) v) := by
    unfold boundary
    unfold Abuts at hv
    rw [get_bind, reader_of, Reader.isAtAny_between, if_neg hv]
    rfl
  unfold ending
  split
  · next hlong =>
    rw [if_pos hlong] at hbigInt
    simp only [Bind.bind, EStateM.bind, hsuffix, hbigInt]
  · next hlong =>
    rw [if_neg hlong] at hbigInt
    rw [bind_of_ok (hsuffix.trans (bind_of_ok hbigInt)), bind_of_ok hboundary]
    rfl

/-- The lexeme of an integer with the suffix, if it is not too long, and an error up to the suffix if
it is. -/
theorem lexeme_of_suffix (h : form.allowsBigInt = true) (hv : ¬ Abuts v)
    (hu : c :: w ∈ integer settings.numericSeparators form) (before : List Char) :
    lexeme (afterFirstDigit settings (extent σ before) c)
        (of before [c] (w ++ 'n' :: v) : Numeral σ) =
      if settings.maxBigIntDigits < extent σ (c :: w) - form.prefixLength then
        .illegal ⟨⟨extent σ before, extent σ (before ++ c :: w)⟩, .bigIntTooBig⟩
          { cooked := .ofList (Literal.cooked (c :: w)), raw := .ofList (c :: w) }
          (.between (before ++ c :: w) ('n' :: v))
      else
        ⟨.ok .bigInt,
          { cooked := .ofList (Literal.cooked (c :: w)), raw := .ofList (c :: w ++ ['n'])
            form? := some form },
          .between (before ++ (c :: w ++ ['n'])) v⟩ := by
  have hlength : extent σ (before ++ c :: w) - (extent σ before + form.prefixLength) =
      extent σ (c :: w) - form.prefixLength := by
    rw [extent_append]
    omega
  have hending := ending_of_suffix (σ := σ) settings h hv (extent σ before) before (c :: w)
  rw [hlength] at hending
  have hread := afterFirstDigit_of_mem (σ := σ) h hu (extent σ before) before v
  by_cases hlong : settings.maxBigIntDigits < extent σ (c :: w) - form.prefixLength
  · rw [if_pos hlong] at hending ⊢
    simp only [Bind.bind, EStateM.bind, hending] at hread
    rw [lexeme, hread]
    rfl
  · rw [if_neg hlong] at hending ⊢
    rw [bind_of_ok hending] at hread
    have hcooked : Literal.cooked (c :: w ++ ['n']) = Literal.cooked (c :: w) := by
      unfold Literal.cooked
      rw [List.filter_append, List.filter_singleton]
      exact List.append_nil _
    rw [lexeme, hread, ← hcooked]
    rfl

end Numeral

/-! ### BigInts of a text -/

open Reader

/-- An integer that may have the suffix is noted nowhere. -/
theorem Findings.noteLegacyOctal_of_allowsBigInt (f : Findings) {form : NumberForm}
    (h : form.allowsBigInt = true) (span : Span) : f.noteLegacyOctal (some form) span = f := by
  cases form <;> first | rfl | cases h

/-- **BigInts are the integers that are short enough.**  A scan from an integer of a form that may be
a BigInt, with the suffix behind it and then neither a digit nor the start of an identifier, gives
a BigInt just if the digits and the separators together are no more than the digits that the
settings allow.  The token ends behind the suffix.  Otherwise it is an error that spans the integer,
and the suffix is left. -/
theorem bigInt_iff_length (settings : Settings) (form : NumberForm) (lineBreak : Bool)
    (f : Findings) (before u v : List Char) (hform : form.allowsBigInt = true)
    (hu : u ∈ Literal.integer settings.numericSeparators form) (hv : ¬ Literal.Abuts v) :
    let start := extent ByteCursor before
    let scanned := scanToken settings lineBreak f (between before (u ++ 'n' :: v) : Reader ByteCursor)
    let length := Literal.digitCount form u + Literal.separatorCount form u
    (scanned.token.kind = .bigInt ↔ length ≤ settings.maxBigIntDigits) ∧
    scanned =
      if length ≤ settings.maxBigIntDigits then
        { token :=
            { cooked := .ofList (Literal.cooked u), raw := .ofList (u ++ ['n']), form? := some form
              kind := .bigInt
              span := ⟨start, start + (u ++ ['n']).length⟩
              afterLineTerminator := lineBreak
              error? := none }
          findings := f
          reader := between (before ++ (u ++ ['n'])) v }
      else
        { token :=
            { cooked := .ofList (Literal.cooked u), raw := .ofList u
              kind := .illegal
              span := ⟨start, start + u.length⟩
              afterLineTerminator := lineBreak
              error? := some ⟨⟨start, start + u.length⟩, .bigIntTooBig⟩ }
          findings := f
          reader := between (before ++ u) ('n' :: v) } := by
  obtain ⟨c, w, rfl, hc⟩ : ∃ c w, u = c :: w ∧ isDecimalDigit c = true := by
    rcases Literal.integer_cases hform hu with
      ⟨-, c, w, rfl, hc, -⟩ | ⟨_, _, c, w, -, -, rfl, -⟩
    · exact ⟨c, w, rfl, hc⟩
    · exact ⟨'0', c :: w, rfl, rfl⟩
  intro start scanned length
  have hextent : extent ByteCursor (c :: w) = (c :: w).length := Literal.extent_eq_length hform hu
  have hlength : extent ByteCursor (c :: w) - form.prefixLength = length := by
    have := Literal.length_eq_count hform hu
    omega
  have hstop : extent ByteCursor (before ++ c :: w) = start + (c :: w).length := by
    rw [extent_append, hextent]
  have hlexeme := Numeral.lexeme_of_suffix (σ := ByteCursor) hform hv hu before
  rw [← numeral_between settings before _ hc, hlength, hstop] at hlexeme
  have hscan : scanned = _ := scanToken_of_step_eq_lexeme
    (step_eq_numeral (r := between before (c :: w ++ 'n' :: v)) rfl hc settings lineBreak f)
  rw [position_between, List.cons_append, hlexeme] at hscan
  by_cases hle : length ≤ settings.maxBigIntDigits
  · rw [if_neg (Nat.not_lt.2 hle), Findings.noteLegacyOctal_of_allowsBigInt f hform] at hscan
    have hend : extent ByteCursor (before ++ (c :: w ++ ['n'])) =
        start + (c :: w ++ ['n']).length := by
      rw [extent_append, extent_append, hextent, List.length_append]
      rfl
    refine ⟨iff_of_true (by rw [hscan]; rfl) hle, ?_⟩
    rw [if_pos hle, hscan, Lexeme.toToken, position_between, hend]
    rfl
  · rw [if_pos (Nat.not_le.1 hle)] at hscan
    have hkind : scanned.token.kind ≠ .bigInt := by
      rw [hscan]
      intro h
      cases h
    refine ⟨iff_of_false hkind hle, ?_⟩
    rw [if_neg hle, hscan, Lexeme.toToken, Lexeme.illegal, position_between, hstop]
    rfl

/-- Two digits with a separator are one too many for a limit of two, and two without it are not. -/
theorem bigInt_iff_length_separator :
    let settings : Settings := { maxBigIntBits := 8 }
    let kind (u : List Char) : TokenKind :=
      (scanToken settings false {} (between ['é'] (u ++ ['n', ';']) : Reader ByteCursor)).token.kind
    NumberForm.allowsBigInt .hex = true ∧ ¬ Literal.Abuts [';'] ∧
      ['0', 'x', '1', '_', 'F'] ∈ Literal.integer settings.numericSeparators .hex ∧
      ['0', 'x', '1', 'F'] ∈ Literal.integer settings.numericSeparators .hex ∧
      kind ['0', 'x', '1', '_', 'F'] ≠ .bigInt ∧ kind ['0', 'x', '1', 'F'] = .bigInt := by
  intro settings kind
  have hv : ¬ Literal.Abuts [';'] := by unfold Literal.Abuts; decide
  have hseparated : ['0', 'x', '1', '_', 'F'] ∈ Literal.integer true .hex :=
    mem_oneOf_mul.2 ⟨'0', List.mem_singleton_self _, _, mem_oneOf_mul.2 ⟨'x', List.mem_cons_self, _,
      ⟨'1', ['_', 'F'], rfl, .separated rfl rfl .nil, rfl⟩, rfl⟩, rfl⟩
  have hplain : ['0', 'x', '1', 'F'] ∈ Literal.integer true .hex :=
    mem_oneOf_mul.2 ⟨'0', List.mem_singleton_self _, _, mem_oneOf_mul.2 ⟨'x', List.mem_cons_self, _,
      ⟨'1', ['F'], rfl, .digit rfl .nil, rfl⟩, rfl⟩, rfl⟩
  refine ⟨rfl, hv, hseparated, hplain, ?_, ?_⟩
  · intro h
    have hle := (bigInt_iff_length settings .hex false {} ['é'] _ [';'] rfl hseparated hv).1.1 h
    revert hle
    decide
  · exact (bigInt_iff_length settings .hex false {} ['é'] _ [';'] rfl hplain hv).1.2 (by decide)

end EcmaLex
