import EcmaLex.Proofs.Scanner.Place
import EcmaLex.Proofs.Source.ByteCursor

/-!
# Where the errors of lexemes are

What is wrong with a lexeme is reported at a span that starts inside the lexeme or
right after it.  The span may go on past the end of the lexeme, over the character that
was not expected there, but not past the end of the text, and it does not cut a character
in two.

The rules find these spans in different ways: from the character under the head, from
the head at an earlier time, or from the place where the lexeme starts.  In each case both
ends are places of the head, or of the head one character further on.

## Main definitions

* `IsPlace` — an offset between two characters of a text.
* `Reader.From` — the reader stands in the text, not before a given offset.
* `Span.Fits` — the span starts in a given stretch and covers whole characters.
* `Lexeme.ErrorFits`, `Numeral.ErrorFits` — so does what is wrong with a lexeme, or makes a
  reading fail.

## Main results

* `errorFits_step` — **the error of every lexeme fits**.
-/

namespace EcmaLex

open Reader

/-- The offset is one where a character of the text starts, or the text ends. -/
def IsPlace (text : List Char) (n : Nat) : Prop :=
  ∃ before after, text = before ++ after ∧ extent ByteCursor before = n

theorem IsPlace.le_extent {text : List Char} {n : Nat} (h : IsPlace text n) :
    n ≤ extent ByteCursor text := by
  obtain ⟨before, after, rfl, rfl⟩ := h
  rw [extent_append]
  exact Nat.le_add_right _ _

/-- The span starts between two offsets and covers whole characters of the text. -/
structure Span.Fits (text : List Char) (start stop : Nat) (s : Span) : Prop where
  /-- It does not start before the first offset. -/
  start_le : start ≤ s.start
  /-- It does not start after the second one. -/
  le_stop : s.start ≤ stop
  /-- It does not run backwards. -/
  ordered : s.start ≤ s.stop
  /-- It starts between two characters. -/
  isPlace_start : IsPlace text s.start
  /-- It stops between two characters. -/
  isPlace_stop : IsPlace text s.stop

theorem Span.Fits.mono {text : List Char} {start stop stop' : Nat} {s : Span}
    (h : s.Fits text start stop) (hle : stop ≤ stop') : s.Fits text start stop' :=
  ⟨h.start_le, Nat.le_trans h.le_stop hle, h.ordered, h.isPlace_start, h.isPlace_stop⟩

/-! ### Places of the head -/

/-- The reader stands in the text, at a place that is not before `start`, which is one as
well. -/
def Reader.From (text : List Char) (start : Nat) (r : Reader ByteCursor) : Prop :=
  ∃ before after, text = before ++ after ∧ extent ByteCursor before = start ∧ Within before after r

theorem Reader.from_invariant (text : List Char) (start : Nat) : Invariant (From text start) where
  advance := by
    rintro r ⟨before, after, ht, hs, hw⟩
    exact ⟨before, after, ht, hs, hw.advance⟩
  skipTo := by
    rintro r l ⟨before, after, ht, hs, hw⟩
    exact ⟨before, after, ht, hs, hw.skipTo l⟩
  pushBack := by
    rintro r c hc ⟨before, after, ht, hs, hw⟩
    exact ⟨before, after, ht, hs, (within_invariant before after).pushBack c hc hw⟩

namespace Reader.From

variable {text : List Char} {start : Nat} {r r' : Reader ByteCursor}

theorem le (h : From text start r) : start ≤ r.position := by
  obtain ⟨before, after, -, rfl, passed, rest, -, rfl⟩ := h
  rw [position_between, extent_append]
  exact Nat.le_add_right _ _

theorem isPlace_start (h : From text start r) : IsPlace text start := by
  obtain ⟨before, after, ht, hs, -⟩ := h
  exact ⟨before, after, ht, hs⟩

theorem isPlace (h : From text start r) : IsPlace text r.position := by
  obtain ⟨before, after, ht, -, passed, rest, rfl, rfl⟩ := h
  refine ⟨before ++ passed, rest, ?_, (position_between _ _).symm⟩
  rw [ht, List.append_assoc]

/-- The reader is not before the place where it stands. -/
theorem here (h : From text start r) : From text r.position r := by
  obtain ⟨before, after, ht, -, passed, rest, rfl, rfl⟩ := h
  refine ⟨before ++ passed, rest, ?_, (position_between _ _).symm, within_between _ _⟩
  rw [ht, List.append_assoc]

theorem advance (h : From text start r) : From text start r.advance :=
  (from_invariant text start).advance h

/-- The span from one place of the head to a later one. -/
theorem fits_span (h : From text start r) (h' : From text r.position r') :
    Span.Fits text start r'.position ⟨r.position, r'.position⟩ :=
  ⟨h.le, h'.le, h'.le, h.isPlace, h'.isPlace⟩

/-- The span of the character under the head. -/
theorem fits_charSpan (h : From text start r) : r.charSpan.Fits text start r.position := by
  refine ⟨h.le, Nat.le_refl _, Nat.le_add_right _ _, h.isPlace, ?_⟩
  obtain ⟨before, after, ht, -, passed, rest, rfl, rfl⟩ := h
  rw [charSpan, position_between, char?_between]
  cases rest with
  | nil => exact ⟨before ++ passed, [], by rw [ht, List.append_assoc], rfl⟩
  | cons c rest =>
    refine ⟨before ++ passed ++ [c], rest, by rw [ht]; simp, ?_⟩
    rw [extent_append]
    rfl

end Reader.From

/-- What is wrong with the lexeme is reported at a span that starts in it, or right after
it. -/
def Lexeme.ErrorFits (text : List Char) (start : Nat) (l : Lexeme ByteCursor) : Prop :=
  ∀ d, l.verdict = .error d → d.span.Fits text start l.reader.position

namespace Lexeme.ErrorFits

variable {text : List Char} {start : Nat} {r : Reader ByteCursor}

theorem ok (kind : TokenKind) (t : TokenText) (r : Reader ByteCursor) :
    ErrorFits text start ⟨.ok kind, t, r⟩ :=
  nofun

theorem illegal {d : Diagnostic} (h : d.span.Fits text start r.position) (t : TokenText) :
    (Lexeme.illegal d t r).ErrorFits text start := by
  intro d' hd
  cases hd
  exact h

end Lexeme.ErrorFits

/-! ### Words -/

section Rules

variable {text : List Char} {start : Nat} {r : Reader ByteCursor}

/-- An escape is reported from its backslash to where the head was left. -/
theorem fits_allowedEscape (allowed : Char → Bool) (h : From text start r) :
    Span.Fits text start (Word.allowedEscape allowed r).2.position
      ⟨r.position, (Word.allowedEscape allowed r).2.position⟩ :=
  h.fits_span ((from_invariant text r.position).allowedEscape allowed h.here.advance)

theorem fits_carefulRun {w : Word.Progress ByteCursor} (h : From text start w.reader) :
    ∀ d, (Word.carefulRun w).2 = some d →
      d.span.Fits text start (Word.carefulRun w).1.reader.position := by
  fun_induction Word.carefulRun w with
  | case1 =>
    intro d hd
    cases hd
  | case2 w _ _ _ d r he ih =>
    have hr := (from_invariant text start).allowedEscape isIdentifierPart h.advance
    rw [he] at hr
    exact ih hr
  | case3 w _ _ _ r he =>
    have hr := fits_allowedEscape isIdentifierPart h
    rw [he] at hr
    intro d hd
    cases hd
    exact hr
  | case4 _ _ _ _ _ ih => exact ih h.advance
  | case5 =>
    intro d hd
    cases hd

theorem errorFits_finish {w : Word.Progress ByteCursor} (h : From text start w.reader) :
    (Word.finish w).ErrorFits text start := by
  have hw := fits_carefulRun h
  unfold Word.finish
  dsimp only
  split
  · next d hd => exact .illegal (hw d hd) _
  · exact .ok _ _ _

theorem errorFits_word (t : String) (first : Char) (h : From text start r) :
    (word t first r).ErrorFits text start := by
  unfold word
  split
  · have hr := (from_invariant text start).allowedEscape isIdentifierStart h.advance
    have hs := fits_allowedEscape isIdentifierStart h
    split
    · next he =>
      rw [he] at hr
      exact errorFits_finish hr
    · next he =>
      rw [he] at hs
      exact .illegal hs _
  · split
    · have hr := (from_invariant text start).plainRun
        (CharFlags.ofFirst (CharFlags.ofChar first)) (t.push first) h.advance
      dsimp only
      split
      · exact errorFits_finish hr
      · exact .ok _ _ _
    · exact errorFits_finish h.advance

/-- A private name is a word of another kind, with the errors of that word. -/
theorem errorFits_privateName (h : From text start r) :
    (privateName r).ErrorFits text start := by
  unfold privateName
  split
  · next first _ =>
    have hw := errorFits_word "#" first h.advance
    intro d hd
    refine hw d ?_
    dsimp only at hd
    cases hv : (word "#" first r.advance).verdict with
    | ok k =>
      rw [hv] at hd
      cases hd
    | error d' =>
      rw [hv] at hd
      cases hd
      rfl
  · exact .illegal (h.fits_charSpan.mono h.here.advance.le) _

/-! ### Strings and templates -/

/-- An unterminated string is reported at its quote, which is one byte long. -/
theorem errorFits_stringLiteral {quote : Char} (hq : r.char? = some quote)
    (hw : quote.utf8Size = 1) (h : From text start r) :
    (stringLiteral quote r).ErrorFits text start := by
  have hr := (from_invariant text r.position).stringBody quote "" h.here.advance
  have hs := h.fits_charSpan
  rw [charSpan, hq, Option.elim_some, hw] at hs
  unfold stringLiteral
  dsimp only
  split
  · exact .ok _ _ _
  · exact .illegal (hs.mono hr.le) _

/-- An unterminated piece of a template is reported at what opened it, which is one byte
long. -/
theorem errorFits_templatePiece (hstop : IsPlace text (start + 1)) (h : From text start r) :
    (templatePiece start r).ErrorFits text start := by
  have hr := (from_invariant text start).templateBody "" h
  unfold templatePiece
  dsimp only
  split
  · exact .ok _ _ _
  · exact .ok _ _ _
  · exact .illegal ⟨Nat.le_refl _, hr.le, Nat.le_succ _, h.isPlace_start, hstop⟩ _

end Rules

/-! ### Numbers -/

namespace Numeral

variable {text : List Char} {start : Nat}

/-- What makes the reading fail is reported at a span that starts in what was read, or right
after it. -/
def ErrorFits (text : List Char) (start : Nat) {α : Type} (x : Reading ByteCursor α) : Prop :=
  ∀ n, From text start n.reader → ∀ d n', x n = .error d n' →
    d.span.Fits text start n'.reader.position

namespace ErrorFits

variable {α β : Type}

theorem pure (a : α) : ErrorFits text start (Pure.pure a : Reading ByteCursor α) := nofun

theorem get : ErrorFits text start (MonadState.get : Reading ByteCursor (Numeral ByteCursor)) :=
  nofun

theorem modifyGet (f : Numeral ByteCursor → α × Numeral ByteCursor) :
    ErrorFits text start (MonadStateOf.modifyGet f : Reading ByteCursor α) :=
  nofun

theorem bind {x : Reading ByteCursor α} {f : α → Reading ByteCursor β}
    (hk : Keeps (From text start) x) (hx : ErrorFits text start x)
    (hf : ∀ a, ErrorFits text start (f a)) : ErrorFits text start (x >>= f) := by
  intro n hn d n' h
  have hkept := hk n hn
  simp only [Bind.bind, EStateM.bind] at h
  cases hr : x n with
  | ok a n₁ =>
    rw [hr] at h
    rw [after, hr] at hkept
    exact hf a n₁ hkept d n' h
  | error d₁ n₁ =>
    rw [hr] at h
    cases h
    exact hx n hn d n' hr

/-- Looking at what was read so far does not fail. -/
theorem get_bind {f : Numeral ByteCursor → Reading ByteCursor β}
    (hf : ∀ n, ErrorFits text start (f n)) : ErrorFits text start (MonadState.get >>= f) :=
  bind .get get hf

theorem ite {c : Prop} [Decidable c] {x y : Reading ByteCursor α}
    (hx : ErrorFits text start x) (hy : ErrorFits text start y) :
    ErrorFits text start (if c then x else y) := by
  split
  · exact hx
  · exact hy

theorem lexeme {x : Reading ByteCursor Verdict} (hx : ErrorFits text start x)
    {n : Numeral ByteCursor} (h : From text start n.reader) :
    (lexeme x n).ErrorFits text start := by
  unfold Numeral.lexeme
  split
  · exact .ok _ _ _
  · next d n' hr => exact .illegal (hx n h d n' hr) _

end ErrorFits

/-- A run of digits fails at the character under the head, or at the separator that was
passed last. -/
theorem fits_digitRun (isDigit : Char → Bool) (separators seen : Bool) (separator : Option Span)
    {n : Numeral ByteCursor} (h : From text start n.reader)
    (hs : ∀ s, separator = some s → s.Fits text start n.reader.position) :
    ∀ d, (digitRun isDigit separators seen separator n).2 = some d →
      d.span.Fits text start
        (digitRun isDigit separators seen separator n).1.reader.position := by
  -- the span of the separator, which stays where it is
  have htrailing : ∀ {separator : Option Span} {stop : Nat} {d : Diagnostic},
      (∀ s, separator = some s → s.Fits text start stop) →
      separator.map (Diagnostic.mk · .trailingSeparator) = some d →
      d.span.Fits text start stop := by
    intro separator stop d hs hd
    obtain ⟨s, hsep, rfl⟩ := Option.map_eq_some_iff.1 hd
    exact hs s hsep
  fun_induction digitRun isDigit separators seen separator n with
  | case1 => exact fun _ => htrailing hs
  | case2 _ _ _ _ _ _ ih =>
    apply ih h.advance
    intro s hs
    cases hs
  | case3 =>
    intro d hd
    cases hd
    exact h.fits_charSpan
  | case4 =>
    intro d hd
    cases hd
    exact h.fits_charSpan
  | case5 seen separator n _ _ _ _ _ _ ih =>
    refine ih h.advance fun s hs => ?_
    cases hs
    exact h.fits_charSpan.mono h.here.advance.le
  | case6 => exact fun _ => htrailing hs

theorem errorFits_digits (isDigit : Char → Bool) (separators seen : Bool) :
    ErrorFits text start (digits (σ := ByteCursor) isDigit separators seen) := by
  intro n hn d n' h
  have hd := fits_digitRun isDigit separators seen none hn nofun
  unfold digits at h
  generalize digitRun isDigit separators seen none n = run at h hd
  obtain ⟨n₁, _ | d₁⟩ := run
  · cases h
  · cases h
    exact hd d rfl

theorem errorFits_failHere {α : Type} (cause : Cause) :
    ErrorFits text start (failHere cause : Reading ByteCursor α) := by
  intro n hn d n' h
  cases h
  exact hn.fits_charSpan

theorem errorFits_someDigits (isDigit : Char → Bool) (separators : Bool) :
    ErrorFits text start (someDigits (σ := ByteCursor) isDigit separators) :=
  .get_bind fun _ =>
    .ite (errorFits_digits _ _ _) (.ite (errorFits_failHere _) (errorFits_failHere _))

theorem errorFits_radixDigits (form : NumberForm) (isDigit : Char → Bool) (separators : Bool) :
    ErrorFits text start (radixDigits (σ := ByteCursor) form isDigit separators) :=
  .bind (from_invariant text start).keeps_take (.modifyGet _) fun _ =>
    .bind ((from_invariant text start).keeps_someDigits _ _) (errorFits_someDigits _ _) fun _ =>
      .pure _

theorem errorFits_lead (settings : Settings) (first : Char) :
    ErrorFits text start (lead (σ := ByteCursor) settings first) := by
  unfold lead
  refine .ite (.pure _) (.get_bind fun n => ?_)
  split
  · exact .pure _
  · exact .ite (errorFits_radixDigits _ _ _) <| .ite (errorFits_radixDigits _ _ _) <|
      .ite (errorFits_radixDigits _ _ _) <| .ite (.modifyGet _) <| .ite (.pure _) <|
      .ite (errorFits_failHere _) (.pure _)

theorem errorFits_fraction (separators : Bool) :
    ErrorFits text start (fraction (σ := ByteCursor) separators) :=
  .get_bind fun _ =>
    .ite
      (.bind (from_invariant text start).keeps_take (.modifyGet _) fun _ =>
        .bind ((from_invariant text start).keeps_digits _ _ _) (errorFits_digits _ _ _) fun _ =>
          .pure _)
      (.pure _)

/-- A BigInt that is too long is reported from its first character to its suffix. -/
theorem errorFits_bigIntSuffix (settings : Settings) (form : NumberForm) :
    ErrorFits text start (bigIntSuffix (σ := ByteCursor) settings start form) := by
  intro n hn d n' h
  have hsplit : bigIntSuffix settings start form n =
      if settings.maxBigIntDigits < n.reader.position - (start + form.prefixLength) then
        .error ⟨⟨start, n.reader.position⟩, .bigIntTooBig⟩ n
      else .ok () n.takeRaw := by
    unfold bigIntSuffix
    change (if settings.maxBigIntDigits < n.reader.position - (start + form.prefixLength) then
        (throw ⟨⟨start, n.reader.position⟩, .bigIntTooBig⟩ : Reading ByteCursor Unit)
      else modify takeRaw) n = _
    split <;> rfl
  rw [hsplit] at h
  split at h
  · cases h
    exact ⟨Nat.le_refl _, hn.le, hn.le, hn.isPlace_start, hn.isPlace⟩
  · cases h

theorem errorFits_exponent (settings : Settings) (form : NumberForm) :
    ErrorFits text start (exponent (σ := ByteCursor) settings form) := by
  have hsign : Keeps (From text start) (sign (σ := ByteCursor)) :=
    Keeps.get.bind fun _ => .ite (from_invariant text start).keeps_take (.pure _)
  refine .ite ?_ (errorFits_failHere _)
  refine .bind (from_invariant text start).keeps_take (.modifyGet _) fun _ => ?_
  refine .bind hsign ?_ fun _ => errorFits_someDigits _ _
  exact .get_bind fun _ => .ite (.modifyGet _) (.pure _)

theorem errorFits_suffix (settings : Settings) (form : NumberForm) (pointSeen : Bool) :
    ErrorFits text start (suffix (σ := ByteCursor) settings start form pointSeen) := by
  have hbigInt : Keeps (From text start) (bigIntSuffix (σ := ByteCursor) settings start form) :=
    Keeps.get.bind fun _ =>
      .ite (.throw _) (.modifyGet fun _ h => (from_invariant text start).advance h)
  refine .get_bind fun _ => .ite ?_ (.ite ?_ (.pure _))
  · exact .bind hbigInt (errorFits_bigIntSuffix _ _) fun _ => .pure _
  · exact .bind ((from_invariant text start).keeps_exponent _ _) (errorFits_exponent _ _)
      fun _ => .pure _

theorem errorFits_ending (settings : Settings) (form : NumberForm) (pointSeen : Bool) :
    ErrorFits text start (ending (σ := ByteCursor) settings start form pointSeen) := by
  have hboundary : Keeps (From text start) (boundary (σ := ByteCursor)) :=
    Keeps.get.bind fun _ => .ite (Invariant.keeps_failHere _) (.pure _)
  refine .bind ((from_invariant text start).keeps_suffix _ _ _ _) (errorFits_suffix _ _ _)
    fun _ => ?_
  refine .bind hboundary ?_ fun _ => .pure _
  exact .get_bind fun _ => .ite (errorFits_failHere _) (.pure _)

theorem errorFits_afterFirstDigit (settings : Settings) (first : Char) :
    ErrorFits text start (afterFirstDigit (σ := ByteCursor) settings start first) := by
  have hinvariant := from_invariant text start
  refine .bind (hinvariant.keeps_lead _ _) (errorFits_lead _ _) fun form => .ite ?_ ?_
  · refine .bind (hinvariant.keeps_digits _ _ _) (errorFits_digits _ _ _) fun _ =>
      .get_bind fun n => ?_
    split
    · exact .pure _
    · refine .bind (hinvariant.keeps_fraction _) (errorFits_fraction _) fun _ => ?_
      exact .bind (hinvariant.keeps_ending _ _ _ _) (errorFits_ending _ _ _) fun _ => .pure _
  · exact .bind (hinvariant.keeps_ending _ _ _ _) (errorFits_ending _ _ _) fun _ => .pure _

theorem errorFits_afterPoint (settings : Settings) :
    ErrorFits text start (afterPoint (σ := ByteCursor) settings start) := by
  have hinvariant := from_invariant text start
  refine .bind (hinvariant.keeps_someDigits _ _) (errorFits_someDigits _ _) fun _ => ?_
  exact .bind (hinvariant.keeps_ending _ _ _ _) (errorFits_ending _ _ _) fun _ => .pure _

end Numeral

/-! ### All rules -/

section Steps

variable {text : List Char} {start : Nat} {r : Reader ByteCursor}

/-- What is found is a piece of a gap, or a lexeme of which the error fits. -/
def Step.ErrorFits (text : List Char) (start : Nat) : Step ByteCursor → Prop
  | gap _ _ _ => True
  | lexeme _ _ l => l.ErrorFits text start

theorem errorFits_illegalSpan (cause : Cause) (h : From text start r) :
    (illegalSpan start cause r).ErrorFits text start :=
  .illegal ⟨Nat.le_refl _, h.le, h.le, h.isPlace_start, h.isPlace⟩ _

theorem errorFits_htmlComment (settings : Settings) (lineBreak : Bool) (findings : Findings)
    (h : From text start r) :
    (htmlComment settings lineBreak findings start r).ErrorFits text start := by
  unfold htmlComment
  split
  · exact errorFits_illegalSpan _ h
  · trivial

theorem errorFits_operator (settings : Settings) (lineBreak : Bool) (findings : Findings)
    (p : Punctuator) (h : From text start r) :
    (operator settings lineBreak findings start p r).ErrorFits text start := by
  have hs := ofPunctuator_operator settings lineBreak findings start p r
  generalize operator settings lineBreak findings start p r = s at hs ⊢
  cases hs with
  | htmlOpening => exact errorFits_htmlComment _ _ _ h.advance.advance
  | htmlClosing => exact errorFits_htmlComment _ _ _ h
  | magicComment => trivial
  | lineComment => trivial
  | blockComment => trivial
  | openComment => exact errorFits_illegalSpan _ ((from_invariant text start).blockComment _ h)
  | fractionNumeral => exact (Numeral.errorFits_afterPoint settings).lexeme h
  | _ => exact Lexeme.ErrorFits.ok _ _ _

/-- **The error of every lexeme fits**: it starts in the lexeme or right after it, and covers
whole characters of the text. -/
theorem errorFits_step (settings : Settings) (lineBreak : Bool) (findings : Findings)
    (h : From text start r) :
    (step settings lineBreak findings r).ErrorFits text r.position := by
  have hr := h.here
  have hs := chosen_step settings lineBreak findings r
  generalize step settings lineBreak findings r = s at hs ⊢
  cases hs with
  | endOfInput => exact Lexeme.ErrorFits.ok _ _ _
  | blank => trivial
  | word => exact errorFits_word _ _ hr
  | numeral => exact (Numeral.errorFits_afterFirstDigit settings _).lexeme hr.advance
  | stringLiteral hc hq =>
    -- both quotes are one byte long
    refine errorFits_stringLiteral hc ?_ hr
    rcases hq with rfl | rfl <;> rfl
  | templatePiece hc =>
    have hstop := hr.fits_charSpan.isPlace_stop
    rw [charSpan, hc] at hstop
    exact errorFits_templatePiece hstop hr.advance
  | privateName => exact errorFits_privateName hr
  | operator => exact errorFits_operator _ _ _ _ ((from_invariant text _).munch _ hr.advance)
  | illegal => exact Lexeme.ErrorFits.illegal (hr.fits_charSpan.mono hr.advance.le) _

end Steps

end EcmaLex
