import EcmaLex.Proofs.Lexeme.Sound
import EcmaLex.Proofs.Numeral.Beginning
import EcmaLex.Proofs.Source.ByteCursor

/-!
# Numerals are the literals of the grammar

Reading a numeral takes the longest literal that the text begins with, of whatever
form, and then makes sure that the text goes on as it may.  So a number is found
just where the longest literal is followed neither by a digit nor by the start of
an identifier.  A number is that literal: its raw text is the literal as it is
written, and its cooked text is the literal without separators and suffix.

A decimal integer that is a small one is done before its tail is looked for.
That is right, because a small integer is one that no tail follows.

## Main definitions

* `Literal.Taken` — the longest literal of the text stands by itself.
* `Literal.Begins` — the text begins with a digit, or with a point and a digit.

## Main results

* `Numeral.reads_afterFirstDigit`, `Numeral.reads_afterPoint` — the two ways to begin.
* `number_iff_literal` — **numbers are the literals of the grammar**.
-/

namespace EcmaLex

namespace Literal

/-- The text begins with a literal that stands by itself, no literal of any form is longer,
and the verdict says so. -/
structure Taken (settings : Settings) (r : List Char) (verdict : Numeral.Verdict)
    (u v : List Char) : Prop where
  /-- No literal is longer. -/
  longest : Longest settings r verdict.form u v
  /-- The text goes on as it may after a literal. -/
  not_abuts : ¬ Abuts v
  /-- The BigInts are the literals with the suffix. -/
  marked : Marked verdict.kind u

end Literal

namespace Numeral

open Literal (Taken Rejected Led Longest Abuts Marked more run ends tail)

variable {σ : Type} [ExactSource σ] {settings : Settings} {start : Nat} {form : NumberForm}
  {before u a r w v : List Char} {c : Char}

/-! ### After the beginning -/

/-- Reads a literal of the form on, with its beginning read. -/
def afterLead (settings : Settings) (start : Nat) (form : NumberForm) : Reading σ Verdict := do
  if form.isDecimal then
    let separators := allowsSeparators settings form
    digits isDecimalDigit separators true
    match (← get).smallInt?.filter fun _ => form == .decimal with
    | some value => return { kind := .smallInt, form, smallInt? := some value }
    | none =>
      let pointSeen ← fraction separators
      return { kind := ← ending settings start form pointSeen, form }
  else return { kind := ← ending settings start form false, form }

theorem afterFirstDigit_eq (settings : Settings) (start : Nat) (first : Char) :
    afterFirstDigit (σ := σ) settings start first =
      lead settings first >>= afterLead settings start := rfl

/-- After a small integer stands neither a point nor an identifier. -/
theorem head_of_smallInt? {n : Nat} (h : (of before u a : Numeral σ).smallInt? = some n) :
    ∀ c, a.head? = some c → c ≠ '.' ∧ isIdentifierStart c = false := by
  unfold smallInt? at h
  dsimp only at h
  split at h
  · next hc =>
    simp only [reader_of, Reader.isAt_between, Reader.isAtAny_between, Bool.and_eq_true,
      Bool.not_eq_true'] at hc
    obtain ⟨⟨⟨-, hp⟩, hi⟩, -⟩ := hc
    intro c hc
    rw [hc] at hp hi
    exact ⟨by simpa using hp, hi⟩
  · cases h

/-- What a form that is not decimal goes on with is its tail. -/
theorem reads_afterLead_other (hf : form.isDecimal = false) (h : Led settings r form u a) :
    Reads (σ := σ) (afterLead settings start form) before u a
      (fun verdict w v => Taken settings r verdict (u ++ w) v) (Rejected settings r) := by
  -- what may end a form that has no fraction is all of its tail
  have hlong : ∀ w v, Munch (ends settings form false) a w v →
      Longest settings r form (u ++ w) v := by
    intro w v hm
    refine h.other hf w v (Literal.munch_tail_of_ends (fun hf' => ?_) hm)
    rw [hf] at hf'
    cases hf'
  unfold afterLead
  rw [if_neg (by rw [hf]; decide)]
  refine (reads_ending.mono_fails ?_).bind ?_
  · rintro ⟨w, v, hm, hv⟩
    exact ⟨form, u ++ w, v, hlong w v hm, hv⟩
  · rintro kind w v ⟨hm, hv, hk⟩
    refine .pure ?_
    rw [List.append_nil]
    exact ⟨hlong w v hm, hv, hk.append h.notMem⟩

/-- After the digits of a decimal form comes its fraction, and then its end. -/
theorem reads_fraction_ending (hf : form.isDecimal = true) (hu : 'n' ∉ u)
    (hlong : ∀ x v, Munch (tail settings.numericSeparators form) a x v →
      Longest settings r form (u ++ x) v) :
    Reads (σ := σ)
      (do
        let pointSeen ← fraction (allowsSeparators settings form)
        return { kind := ← ending settings start form pointSeen, form })
      before u a (fun verdict w v => Taken settings r verdict (u ++ w) v)
      (Rejected settings r) := by
  refine ((reads_fraction _).mono_fails ?_).bind ?_
  · -- a separator after the fraction ends the literal
    rintro ⟨x, v, hx, h_⟩
    have htail := Literal.munch_tail_of_fraction hf hx (Literal.munch_ends_separator h_)
    exact ⟨form, _, v, hlong _ v htail, Literal.abuts_separator h_⟩
  · intro point x b hx
    have htail : ∀ y v, Munch (ends settings form point) b y v →
        Longest settings r form (u ++ (x ++ y)) v := by
      intro y v hy
      rcases hx with ⟨rfl, hx⟩ | ⟨rfl, rfl, rfl, hp⟩
      · exact hlong _ v (Literal.munch_tail_of_fraction hf hx hy)
      · exact hlong _ v (Literal.munch_tail_of_ends (fun _ => hp) hy)
    -- the suffix comes last, so that it is in nothing read before
    have hn : 'n' ∉ u ++ x := by
      intro h
      rcases List.mem_append.1 h with h | h
      · exact hu h
      · rcases hx with ⟨-, hx⟩ | ⟨-, rfl, -⟩
        · exact Literal.notMem_fraction hx.mem h
        · cases h
    refine (reads_ending.mono_fails ?_).bind ?_
    · rintro ⟨y, v, hy, hv⟩
      exact ⟨form, _, v, htail y v hy, hv⟩
    · rintro kind y v ⟨hy, hv, hk⟩
      refine .pure ?_
      rw [List.append_nil]
      refine ⟨htail y v hy, hv, ?_⟩
      rw [← List.append_assoc]
      exact hk.append hn

/-- What a decimal form goes on with is more digits and its tail. -/
theorem reads_afterLead_decimal (hf : form.isDecimal = true) (h : Led settings r form u a) :
    Reads (σ := σ) (afterLead settings start form) before u a
      (fun verdict w v => Taken settings r verdict (u ++ w) v) (Rejected settings r) := by
  unfold afterLead
  rw [if_pos hf]
  refine ((reads_digits_true fun _ => isHexDigit_of_isDecimalDigit).mono_fails ?_).bind ?_
  · -- a separator after the digits ends the literal
    rintro ⟨w, v, hw, h_⟩
    have hlong := h.decimal hf w v [] v hw (Literal.munch_tail_separator h_)
    exact ⟨form, _, v, hlong, Literal.abuts_separator h_⟩
  · intro _ w v hw
    have hn : 'n' ∉ u ++ w := by
      intro hmem
      rcases List.mem_append.1 hmem with hmem | hmem
      · exact h.notMem hmem
      · exact Literal.More.notMem (fun _ => isHexDigit_of_isDecimalDigit) hw.mem hmem
    refine Reads.get_bind ?_
    split
    · next value hs =>
      -- what may not follow a small integer is also what a tail begins with
      obtain ⟨hs, hform⟩ := Option.filter_eq_some_iff.1 hs
      have hhead := head_of_smallInt? hs
      have hnil : Munch (tail settings.numericSeparators form) v [] v := by
        have hall : ∀ d ∈ ['n', '.', 'e', 'E'], d = '.' ∨ isIdentifierStart d = true :=
          forall_mem_of_all (by decide)
        refine Literal.munch_tail_nil fun c hc hc' => ?_
        obtain ⟨hp, hi⟩ := hhead c hc
        rcases hall c hc' with h | h
        · exact hp h
        · rw [hi] at h
          cases h
      have hlong := h.decimal hf w v [] v hw hnil
      rw [List.append_nil] at hlong
      refine .pure ?_
      rw [List.append_nil]
      refine ⟨hlong, fun hv => ?_, .inr ⟨fun hk => (by cases hk), hn⟩⟩
      obtain ⟨c, hc, habuts⟩ := (Option.any_eq_true _ _).1 hv
      rw [Literal.isDigit_of_munch_more hw hc, (hhead c hc).2] at habuts
      cases habuts
    · -- the digits alone decide nothing yet
      next hs =>
      have hlong : ∀ x v', Munch (tail settings.numericSeparators form) v x v' →
          Longest settings r form (u ++ w ++ x) v' := by
        intro x v' hx
        rw [List.append_assoc]
        exact h.decimal hf w v x v' hw hx
      refine (reads_fraction_ending hf hn hlong).mono (fun _ _ _ ht => ?_) id
      rwa [List.append_assoc] at ht

/-! ### The two ways to begin -/

/-- **A numeral that begins with a digit** is the longest literal there. -/
theorem reads_afterFirstDigit (hc : isDecimalDigit c = true) :
    Reads (σ := σ) (afterFirstDigit settings start c) before [c] a
      (fun verdict w v => Taken settings (c :: a) verdict (c :: w) v)
      (Rejected settings (c :: a)) := by
  rw [afterFirstDigit_eq]
  refine (reads_lead hc).bind fun form w v h => ?_
  cases hf : form.isDecimal with
  | false => exact reads_afterLead_other hf h
  | true => exact reads_afterLead_decimal hf h

/-- **A numeral that begins with its point** is the longest literal there. -/
theorem reads_afterPoint (hd : isDecimalDigit c = true) :
    Reads (σ := σ) (afterPoint settings start) before ['.'] (c :: a)
      (fun verdict w v => Taken settings ('.' :: c :: a) verdict ('.' :: w) v)
      (Rejected settings ('.' :: c :: a)) := by
  have hends : ∀ b y v, Munch (ends settings .decimal true) b y v →
      Munch (1 + Literal.exponent settings.numericSeparators) b y v :=
    fun _ _ _ => Literal.munch_exponent_of_ends rfl
  unfold afterPoint
  refine ((reads_someDigits fun _ => isHexDigit_of_isDecimalDigit).mono_fails ?_).bind
    fun _ w b hw => ?_
  · rintro (hm | ⟨w, v, hw, h_⟩)
    · -- a digit comes after the point
      exact absurd ⟨c, [], hd, .nil, rfl⟩ (hm [c] ⟨a, rfl⟩)
    have he := hends v [] v (Literal.munch_ends_separator h_)
    exact ⟨.decimal, _, v, Literal.longest_of_point hw he, Literal.abuts_separator h_⟩
  · refine (reads_ending.mono_fails ?_).bind ?_
    · rintro ⟨y, v, hy, hv⟩
      exact ⟨.decimal, _, v, Literal.longest_of_point hw (hends b y v hy), hv⟩
    · rintro kind y v ⟨hy, hv, hk⟩
      refine .pure ?_
      rw [List.append_nil]
      refine ⟨Literal.longest_of_point hw (hends b y v hy), hv, ?_⟩
      have hn : 'n' ∉ '.' :: w := by
        intro h
        rcases List.mem_cons.1 h with h | h
        · cases h
        · exact Literal.notMem_run hw.mem h
      exact hk.append hn

end Numeral

/-! ### Numbers of a text -/

open Literal (Taken Rejected Longest Abuts)

/-- The text begins with a digit, or with a point and a digit. -/
def Literal.Begins (r : List Char) : Prop :=
  r.head?.any isDecimalDigit = true ∨
    r.head? = some '.' ∧ r.tail.head?.any isDecimalDigit = true

/-- There is one longest literal. -/
theorem Literal.Longest.unique {settings : Settings} {r u u' v v' : List Char}
    {form form' : NumberForm} (h : Longest settings r form u v)
    (h' : Longest settings r form' u' v') : u = u' ∧ v = v' := by
  have hlen : u.length = u'.length := by
    refine Nat.le_antisymm ?_ ?_
    · exact h'.longest form u ⟨v, h.split.symm⟩ h.mem
    · exact h.longest form' u' ⟨v', h'.split.symm⟩ h'.mem
  exact List.append_inj (h.split.symm.trans h'.split) hlen

/-- A longest literal that does not stand by itself leaves none that does. -/
theorem Literal.Rejected.not_exists {settings : Settings} {r : List Char}
    (h : Rejected settings r) : ¬ ∃ form u v, Longest settings r form u v ∧ ¬ Abuts v := by
  rintro ⟨form, u, v, hl, hv⟩
  obtain ⟨form', u', v', hl', hv'⟩ := h
  obtain ⟨-, rfl⟩ := hl.unique hl'
  exact hv hv'

/-- The token is the literal `u` of the form after `before`, text for text. -/
structure Token.IsLiteral (σ : Type) [ExactSource σ] (t : Token) (before : List Char)
    (form : NumberForm) (u : List Char) : Prop where
  /-- It stands where the literal stands. -/
  span : t.span = ⟨extent σ before, extent σ (before ++ u)⟩
  /-- Its raw text is the literal. -/
  raw : t.raw = .ofList u
  /-- Its cooked text is the literal without separators and suffix. -/
  cooked : t.cooked = .ofList (u.filter fun c => c != '_' && c != 'n')
  /-- Its form is that of the literal. -/
  form_eq : t.form? = some form
  /-- It is a BigInt just where the literal ends with the suffix. -/
  bigInt : t.kind = .bigInt ↔ u.getLast? = some 'n'

variable {σ : Type} [ExactSource σ]

open Reader

/-- A reading that takes the longest literal gives the token of it, or none. -/
theorem isLiteral_of_reads {settings : Settings} {before u a r : List Char}
    {x : Numeral.Reading σ Numeral.Verdict} (hs : Numeral.Yields Numeral.Verdict.Sound x)
    (hx : Numeral.Reads x before u a (fun verdict w v => Taken settings r verdict (u ++ w) v)
      (Rejected settings r)) (lineBreak : Bool) :
    let t := (Numeral.lexeme x (.of before u a)).toToken (extent σ before) lineBreak
    t.kind.isNumeric = false ∧
        (t.error?.map Diagnostic.cause = some .bigIntTooBig ∨ Rejected settings r) ∨
      t.kind.isNumeric = true ∧ ∃ form u v,
        Longest settings r form u v ∧ ¬ Abuts v ∧ t.IsLiteral σ before form u := by
  unfold Numeral.Reads at hx
  unfold Numeral.lexeme
  cases hr : x (.of before u a) with
  | error d n =>
    rw [hr] at hx
    refine .inl ⟨rfl, hx.imp ?_ id⟩
    intro hd
    exact congrArg some hd
  | ok verdict n =>
    rw [hr] at hx
    obtain ⟨w, v, rfl, ht⟩ := hx
    refine .inr ⟨(hs _ _ _ hr).1, verdict.form, u ++ w, v, ht.longest, ht.not_abuts, ?_⟩
    refine ⟨?_, rfl, rfl, rfl, ht.marked.iff⟩
    rw [Lexeme.toToken]
    show Span.mk _ (Reader.between (before ++ (u ++ w)) v : Reader σ).position = _
    rw [position_between]

theorem numeral_between (settings : Settings) (before a : List Char) {c : Char}
    (hc : isDecimalDigit c = true) :
    numeral settings c (between before (c :: a) : Reader σ) =
      Numeral.lexeme (Numeral.afterFirstDigit settings (extent σ before) c) (.of before [c] a) := by
  have hk := Numeral.notMem_of_isHexDigit (isHexDigit_of_isDecimalDigit hc)
  -- the first digit is kept in both texts
  have hcooked : Literal.cooked [c] = [c] := by
    have h_ : c ≠ '_' := fun h => hk (by rw [h]; decide)
    have hn : c ≠ 'n' := fun h => hk (by rw [h]; decide)
    simp [Literal.cooked, h_, hn]
  rw [numeral, Numeral.of, hcooked, advance_between_cons, position_between]
  rfl

theorem fractionNumeral_between (settings : Settings) (before a : List Char) (start : Nat) :
    fractionNumeral settings start (between (before ++ ['.']) a : Reader σ) =
      Numeral.lexeme (Numeral.afterPoint settings start) (.of before ['.'] a) := rfl

/-- At a digit a numeral is read. -/
theorem step_of_isDecimalDigit (settings : Settings) (lineBreak : Bool) (findings : Findings)
    {r : Reader σ} {c : Char} (hr : r.char? = some c) (hc : isDecimalDigit c = true) :
    ∃ findings', step settings lineBreak findings r =
      .lexeme lineBreak findings' (numeral settings c r) :=
  ⟨_, step_eq_numeral hr hc settings lineBreak findings⟩

/-- At a point with a digit after it a numeral is read. -/
theorem step_of_period (settings : Settings) (lineBreak : Bool) (findings : Findings)
    {before a : List Char} {c : Char} (hc : isDecimalDigit c = true) :
    step settings lineBreak findings (between before ('.' :: c :: a) : Reader σ) =
      .lexeme lineBreak findings
        (fractionNumeral settings (extent σ before) (between (before ++ ['.']) (c :: a))) := by
  -- no punctuator is a point and a digit
  have hmunch : Punctuator.munch .period (between (before ++ ['.']) (c :: a) : Reader σ) =
      (.period, between (before ++ ['.']) (c :: a)) := by
    rw [Punctuator.munch]
    split <;> rfl
  rw [step]
  dsimp only [char?_between, List.head?_cons]
  rw [if_neg (by decide), if_neg (by decide), if_neg (by decide), if_neg (by decide),
    if_neg (by decide), if_neg (by decide), advance_between_cons, position_between]
  have hdot : Punctuator.ofChar '.' = some .period := rfl
  rw [hdot]
  dsimp only
  rw [hmunch, operator]
  rw [isAtAny_between, List.head?_cons, Option.any_some, if_pos hc]

/-- **Numbers are the literals of the grammar.**  Scanning from a digit, or from a point
with a digit after it, gives a number just where the longest literal stands by
itself, leaving aside the BigInts that are too long; and a number is that literal. -/
theorem number_iff_literal (settings : Settings) (lineBreak : Bool) (findings : Findings)
    (before r : List Char) (hr : Literal.Begins r) :
    let t := (scanToken settings lineBreak findings (between before r : Reader σ)).token
    (t.error?.map Diagnostic.cause ≠ some .bigIntTooBig →
      (t.kind.isNumeric = true ↔ ∃ form u v, Longest settings r form u v ∧ ¬ Abuts v)) ∧
    (t.kind.isNumeric = true → ∃ form u v,
      Longest settings r form u v ∧ ¬ Abuts v ∧ t.IsLiteral σ before form u) := by
  have hcases :
      let t := (scanToken settings lineBreak findings (between before r : Reader σ)).token
      t.kind.isNumeric = false ∧
          (t.error?.map Diagnostic.cause = some .bigIntTooBig ∨ Rejected settings r) ∨
        t.kind.isNumeric = true ∧ ∃ form u v,
          Longest settings r form u v ∧ ¬ Abuts v ∧ t.IsLiteral σ before form u := by
    rcases hr with hr | ⟨hp, hr⟩
    · obtain ⟨c, a, rfl, hd⟩ := exists_cons_of_any_head? hr
      obtain ⟨findings', hstep⟩ := step_of_isDecimalDigit (σ := σ) settings lineBreak findings
        (char?_between before (c :: a)) hd
      rw [scanToken_of_step_eq_lexeme hstep, position_between, numeral_between settings before a hd]
      exact isLiteral_of_reads (Numeral.yields_afterFirstDigit _ _ _)
        (Numeral.reads_afterFirstDigit hd) lineBreak
    · obtain ⟨b, rfl⟩ := List.head?_eq_some_iff.1 hp
      obtain ⟨c, a, rfl, hd⟩ := exists_cons_of_any_head? hr
      rw [scanToken_of_step_eq_lexeme (step_of_period settings lineBreak findings hd),
        position_between, fractionNumeral_between]
      exact isLiteral_of_reads (Numeral.yields_afterPoint _ _) (Numeral.reads_afterPoint hd)
        lineBreak
  intro t
  rcases hcases with ⟨hk, herr⟩ | ⟨hk, form, u, v, hl, hv, ht⟩
  · refine ⟨fun hbig => ⟨fun h => ?_, fun h => ?_⟩, fun h => ?_⟩
    · rw [hk] at h
      cases h
    · rcases herr with herr | herr
      · exact absurd herr hbig
      · exact absurd h herr.not_exists
    · rw [hk] at h
      cases h
  · exact ⟨fun _ => ⟨fun _ => ⟨form, u, v, hl, hv⟩, fun _ => hk⟩, fun _ => ⟨form, u, v, hl, hv, ht⟩⟩

/-- A BigInt with a separator, after a character that takes two positions. -/
theorem number_iff_literal_bigInt :
    let r := "0b1_0n;".toList
    let t := (scanToken {} false {} (between ['é'] r : Reader ByteCursor)).token
    Literal.Begins r ∧ t.error?.map Diagnostic.cause ≠ some .bigIntTooBig ∧
      t.kind.isNumeric = true ∧
      (∃ form u v, Longest {} r form u v ∧ ¬ Abuts v) ∧
      ∃ form u v, Longest {} r form u v ∧ ¬ Abuts v ∧ t.IsLiteral ByteCursor ['é'] form u := by
  intro r t
  have hr : Literal.Begins r := .inl (by decide)
  have herr : t.error?.map Diagnostic.cause ≠ some .bigIntTooBig := by decide +kernel
  have hk : t.kind.isNumeric = true := by decide +kernel
  obtain ⟨hiff, hlit⟩ := number_iff_literal (σ := ByteCursor) {} false {} ['é'] r hr
  exact ⟨hr, herr, hk, (hiff herr).1 hk, hlit hk⟩

end EcmaLex
