import EcmaLex.Proofs.Gap.Rows
import EcmaLex.Proofs.Scanner.CommentEnd

/-!
# The longest punctuator is read

Punctuators are read character by character, with a look at what follows where the text may be
a comment or a number.  What comes out is told by their spellings alone: of all punctuators that
the text begins with, the token is the longest one.  There is one exception among the spellings.
A question mark and a point are no punctuator together where a digit follows, so that the point can
begin a number.

## Main definitions

* `Punctuator.Begins` — the text begins with the punctuator.
* `Punctuator.IsLongest` — it begins with shorter ones only, apart from this one.
* `Punctuator.Shadowed` — the texts that are read otherwise, though they begin with a punctuator.

## Main results

* `Punctuator.exists_munch` — extending a punctuator finds the longest one of those that are found
  in this way.
* `step_of_begins` — a rule reads the longest punctuator.
* `scanToken_of_begins` — **a scan reads the longest punctuator** behind the gap.
-/

namespace EcmaLex

open Reader

namespace Punctuator

/-! ### The punctuators that a text begins with -/

/-- The text begins with the punctuator.  A question mark and a point before a digit are none. -/
def Begins (text : List Char) (p : Punctuator) : Prop :=
  p.lexeme.toList <+: text ∧
    (p = .questionPeriod → (text.drop 2).head?.any isDecimalDigit = false)

/-- The text begins with the punctuator, and all others that it begins with are shorter. -/
def IsLongest (text : List Char) (p : Punctuator) : Prop :=
  Begins text p ∧ ∀ q, Begins text q → q = p ∨ q.lexeme.length < p.lexeme.length

/-- The texts that begin with the characters of a punctuator, and of which a number, an HTML-like
comment or a block comment without an end is made all the same. -/
inductive Shadowed (lineBreak : Bool) : List Char → Prop where
  /-- A number begins with its point. -/
  | fraction {c rest} (digit : isDecimalDigit c = true) : Shadowed lineBreak ('.' :: c :: rest)
  /-- An HTML-like comment is opened. -/
  | htmlOpening {rest} : Shadowed lineBreak ('<' :: '!' :: '-' :: '-' :: rest)
  /-- An HTML-like comment is closed after a line terminator. -/
  | htmlClosing {rest} (line : lineBreak = true) : Shadowed lineBreak ('-' :: '-' :: '>' :: rest)
  /-- A block comment is never closed. -/
  | openComment {rest} (unclosed : ¬ ['*', '/'] <:+: rest) : Shadowed lineBreak ('/' :: '*' :: rest)

/-- Whether the punctuator is found by extending shorter ones. -/
def isExtended (p : Punctuator) : Bool := p != .ellipsis && p != .questionPeriod

/-- The punctuator that the characters make after the first one. -/
def extendAll (p : Punctuator) (run : List Char) : Option Punctuator := run.foldlM extend p

/-- No two punctuators are spelled alike. -/
theorem lexeme_injective {p q : Punctuator} (h : p.lexeme = q.lexeme) : p = q := by
  have hinj : ∀ p ∈ all, ∀ q ∈ all, p.lexeme = q.lexeme → p = q := by decide +kernel
  exact hinj p p.mem_all q q.mem_all h

/-- Extending the first character of a punctuator by the others gives the punctuator. -/
theorem exists_extendAll {p : Punctuator} (h : p.isExtended = true) :
    ∃ c first run, p.lexeme.toList = c :: run ∧ ofChar c = some first ∧
      first.extendAll run = some p := by
  cases p with
  | ellipsis => cases h
  | questionPeriod => cases h
  | _ => exact ⟨_, _, _, rfl, rfl, rfl⟩

/-- Every punctuator begins with one of one character. -/
theorem exists_ofChar (p : Punctuator) :
    ∃ c run first, p.lexeme.toList = c :: run ∧ ofChar c = some first := by
  cases p <;> exact ⟨_, _, _, rfl, rfl⟩

theorem isExtended_of_ofChar {c : Char} {p : Punctuator} (h : ofChar c = some p) :
    p.isExtended = true := by
  unfold ofChar at h
  split at h <;> cases h <;> rfl

theorem isExtended_of_extend {p q : Punctuator} {c : Char} (h : p.extend c = some q) :
    q.isExtended = true := by
  unfold extend at h
  split at h <;> cases h <;> rfl

/-! ### Extending finds the longest -/

variable {σ : Type} [ExactSource σ]

theorem isExtended_munch {p : Punctuator} (h : p.isExtended = true) (r : Reader σ) :
    (p.munch r).1.isExtended = true := by
  fun_induction p.munch r with
  | case1 => exact h
  | case2 _ _ _ _ _ hq ih => exact ih (isExtended_of_extend hq)
  | case3 => exact h

/-- Extending goes on from every punctuator that it comes to. -/
theorem munch_of_extendAll {p q : Punctuator} {run : List Char} (h : p.extendAll run = some q)
    (before rest : List Char) :
    p.munch (between before (run ++ rest) : Reader σ) =
      q.munch (between (before ++ run) rest) := by
  induction run generalizing p before with
  | nil =>
    cases h
    rw [List.nil_append, List.append_nil]
  | cons c run ih =>
    rw [extendAll, List.foldlM_cons] at h
    obtain ⟨next, hnext, h⟩ := Option.bind_eq_some_iff.1 h
    rw [List.cons_append, munch_of_extend hnext, ih h, List.append_assoc, List.singleton_append]

/-- **Extending finds the longest** of the punctuators that are found in this way. -/
theorem exists_munch {c : Char} {first : Punctuator} (h : ofChar c = some first)
    (before after : List Char) :
    ∃ p rest, c :: after = p.lexeme.toList ++ rest ∧
      first.munch (between (before ++ [c]) after : Reader σ) =
        (p, between (before ++ p.lexeme.toList) rest) ∧
      p.isExtended = true ∧
      ∀ q, q.isExtended = true → q.lexeme.toList <+: c :: after →
        q = p ∨ q.lexeme.length < p.lexeme.length := by
  obtain ⟨run, rest, hafter, hreader, hlexeme⟩ :=
    first.munch_between (σ := σ) (before ++ [c]) after
  have hext := isExtended_munch (isExtended_of_ofChar h) (between (before ++ [c]) after : Reader σ)
  generalize hm : first.munch (between (before ++ [c]) after : Reader σ) = m at *
  obtain ⟨p, r⟩ := m
  dsimp only at hreader hlexeme hext
  rw [lexeme_of_ofChar h, String.toList_singleton, List.singleton_append] at hlexeme
  refine ⟨p, rest, by rw [hlexeme, hafter, List.cons_append], ?_, hext, fun q hq hstarts => ?_⟩
  · rw [hreader, hlexeme, List.append_assoc, List.singleton_append]
  · -- extending comes to `q` on its way
    obtain ⟨c', first', run', hq', hc', hall⟩ := exists_extendAll hq
    rw [hq', List.cons_prefix_cons] at hstarts
    obtain ⟨rfl, after', rfl⟩ := hstarts
    obtain rfl : first' = first := Option.some_inj.1 (hc'.symm.trans h)
    rw [munch_of_extendAll hall] at hm
    obtain ⟨more, -, -, -, hmore⟩ := q.munch_between (σ := σ) (before ++ [c'] ++ run') after'
    rw [hm] at hmore
    cases more with
    | nil =>
      rw [List.append_nil, String.toList_inj] at hmore
      exact .inl (lexeme_injective hmore).symm
    | cons d more =>
      right
      rw [← String.length_toList, ← String.length_toList, hmore, List.length_append,
        List.length_cons]
      omega

/-- Where neither of the two others stands, the longest of these is the longest of all. -/
theorem isLongest_of_isExtended {text : List Char} {p : Punctuator} (hp : p.isExtended = true)
    (hstarts : p.lexeme.toList <+: text) (hellipsis : ¬ Begins text .ellipsis)
    (hquestion : ¬ Begins text .questionPeriod)
    (hlongest : ∀ q, q.isExtended = true → q.lexeme.toList <+: text →
      q = p ∨ q.lexeme.length < p.lexeme.length) : IsLongest text p := by
  refine ⟨⟨hstarts, ?_⟩, ?_⟩
  · rintro rfl
    cases hp
  · intro q hq
    cases q with
    | ellipsis => exact absurd hq hellipsis
    | questionPeriod => exact absurd hq hquestion
    | _ => exact hlongest _ rfl hq.1

/-- Three points are the longest punctuator of those that begin with a point. -/
theorem isLongest_ellipsis (rest : List Char) : IsLongest ('.' :: '.' :: '.' :: rest) .ellipsis := by
  refine ⟨⟨⟨rest, rfl⟩, nofun⟩, ?_⟩
  rintro q ⟨⟨rest', hq⟩, -⟩
  cases q with
  | ellipsis => exact .inl rfl
  | period => exact .inr (by decide)
  | _ => simp [lexeme] at hq

/-- A question mark and a point are the longest where no digit follows. -/
theorem isLongest_questionPeriod {rest : List Char}
    (h : rest.head?.any isDecimalDigit = false) :
    IsLongest ('?' :: '.' :: rest) .questionPeriod := by
  refine ⟨⟨⟨rest, rfl⟩, fun _ => h⟩, ?_⟩
  rintro q ⟨⟨rest', hq⟩, -⟩
  cases q with
  | questionPeriod => exact .inl rfl
  | conditional => exact .inr (by decide)
  | _ => simp [lexeme] at hq

end Punctuator

/-! ### What is read at a punctuator -/

namespace Punctuator

variable {σ : Type} [ExactSource σ] {settings : Settings} {lineBreak : Bool}

/-- Where no comment is passed and none is left open, the punctuator begins none. -/
theorem opensComment_eq_false {p : Punctuator} {rest : List Char}
    (hshadow : ¬ Shadowed lineBreak (p.lexeme.toList ++ rest))
    (hends : Gap.Ends settings lineBreak (p.lexeme.toList ++ rest)) (before : List Char) :
    p.opensComment lineBreak (between before rest : Reader σ) = false := by
  rw [Bool.eq_false_iff]
  intro h
  cases p with
  | lt =>
    simp only [opensComment, Bool.and_eq_true, beq_iff_eq] at h
    obtain ⟨rest, rfl⟩ := exists_cons_of_htmlOpening h.1 h.2.1 h.2.2
    exact hshadow .htmlOpening
  | dec =>
    simp only [opensComment, isAt_between, Bool.and_eq_true, beq_iff_eq] at h
    obtain ⟨rest, rfl⟩ := List.head?_eq_some_iff.1 h.1
    exact hshadow (.htmlClosing h.2)
  | div =>
    simp only [opensComment, isAt_between, Bool.or_eq_true, beq_iff_eq] at h
    rcases h with h | h
    · obtain ⟨rest, rfl⟩ := List.head?_eq_some_iff.1 h
      refine hends _ _ ?_ (.lineComment (Gap.line_takeWhile rest))
      rw [List.cons_append, List.cons_append, List.takeWhile_append_dropWhile]
      rfl
    · obtain ⟨rest, rfl⟩ := List.head?_eq_some_iff.1 h
      by_cases hclosed : ['*', '/'] <:+: rest
      · obtain ⟨inside, rest, rfl, hfirst⟩ := exists_first_closing hclosed
        refine hends _ rest ?_ (.blockComment hfirst)
        simp [lexeme]
      · exact hshadow (.openComment hclosed)
  | _ => cases h

/-- A punctuator stays what it is where it begins neither a comment nor a number nor one of the two
that are not found by extending it. -/
theorem operator_of_plain {p : Punctuator} {before rest : List Char}
    (hcomment : p.opensComment lineBreak (between before rest : Reader σ) = false)
    (hperiod : p = .period →
      rest.head?.any isDecimalDigit = false ∧ ¬ ['.', '.'] <+: rest)
    (hquestion : p = .conditional → ∀ rest', rest = '.' :: rest' →
      rest'.head?.any isDecimalDigit = true) (f : Findings) (start : Nat) :
    operator settings lineBreak f start p (between before rest : Reader σ) =
      .lexeme lineBreak f (.ofKind (.punctuator p) (between before rest)) := by
  have h := ofPunctuator_operator settings lineBreak f start p (between before rest : Reader σ)
  generalize operator settings lineBreak f start p (between before rest : Reader σ) = s at h ⊢
  -- a comment would have to be opened
  have hnone : p.opensComment lineBreak (between before rest : Reader σ) = true → False := by
    intro hopens
    rw [hcomment] at hopens
    cases hopens
  cases h with
  | htmlOpening hmark hdash hdash' =>
    exact (hnone (by rw [opensComment, hmark, hdash, hdash']; rfl)).elim
  | htmlClosing hmark hline => exact (hnone (by rw [opensComment, hmark, hline]; rfl)).elim
  | magicComment hslash => exact (hnone (by rw [opensComment, hslash]; rfl)).elim
  | lineComment hslash => exact (hnone (by rw [opensComment, hslash]; rfl)).elim
  | blockComment hstar => exact (hnone (by rw [opensComment, hstar, Bool.or_true])).elim
  | openComment hstar => exact (hnone (by rw [opensComment, hstar, Bool.or_true])).elim
  | fractionNumeral hdigit =>
    rw [isAtAny_between, (hperiod rfl).1] at hdigit
    cases hdigit
  | ellipsis hpoint hpoint' =>
    obtain ⟨rest, rfl⟩ := List.head?_eq_some_iff.1 (beq_iff_eq.1 hpoint)
    rw [peek_between] at hpoint'
    obtain ⟨rest, rfl⟩ := List.head?_eq_some_iff.1 hpoint'
    exact absurd ⟨rest, rfl⟩ (hperiod rfl).2
  | questionPeriod hpoint hdigit =>
    obtain ⟨rest, rfl⟩ := List.head?_eq_some_iff.1 (beq_iff_eq.1 hpoint)
    rw [advance_between_cons, isAtAny_between, hquestion rfl rest rfl] at hdigit
    cases hdigit
  | givenBack hc => rw [(within_between _ _).pushBack_advance hc]
  | plain => rfl

end Punctuator

variable {σ : Type} [ExactSource σ] {settings : Settings} {lineBreak : Bool}

/-- Three points are read as such. -/
theorem step_ellipsis (settings : Settings) (lineBreak : Bool) (f : Findings)
    (before rest : List Char) :
    step settings lineBreak f (between before ('.' :: '.' :: '.' :: rest) : Reader σ) =
      .lexeme lineBreak f
        (.ofKind (.punctuator .ellipsis) (between (before ++ ['.', '.', '.']) rest)) := by
  rw [step_of_ofChar (p := .period) rfl, Punctuator.munch_of_extend_eq_none rfl]
  unfold operator
  dsimp only
  rw [if_neg (by simp; decide), if_pos (by simp), advance_between_cons, advance_between_cons]
  simp

/-- A question mark and a point are read together where no digit follows. -/
theorem step_questionPeriod {rest : List Char} (h : rest.head?.any isDecimalDigit = false)
    (settings : Settings) (lineBreak : Bool) (f : Findings) (before : List Char) :
    step settings lineBreak f (between before ('?' :: '.' :: rest) : Reader σ) =
      .lexeme lineBreak f
        (.ofKind (.punctuator .questionPeriod) (between (before ++ ['?', '.']) rest)) := by
  rw [step_of_ofChar (p := .conditional) rfl, Punctuator.munch_of_extend_eq_none rfl]
  unfold operator
  dsimp only
  rw [if_pos (by simp), advance_between_cons, if_neg (by simp [h])]
  simp

/-- **A rule reads the longest punctuator** of those that the text begins with. -/
theorem step_of_begins {text : List Char} (hbegins : ∃ p : Punctuator, p.lexeme.toList <+: text)
    (hshadow : ¬ Punctuator.Shadowed lineBreak text)
    (hends : Gap.Ends settings lineBreak text) (f : Findings) (before : List Char) :
    ∃ p rest, text = p.lexeme.toList ++ rest ∧ Punctuator.IsLongest text p ∧
      step settings lineBreak f (between before text : Reader σ) =
        .lexeme lineBreak f
          (.ofKind (.punctuator p) (between (before ++ p.lexeme.toList) rest)) := by
  by_cases hellipsis : Punctuator.Begins text .ellipsis
  · obtain ⟨⟨rest, rfl⟩, -⟩ := hellipsis
    exact ⟨.ellipsis, rest, rfl, Punctuator.isLongest_ellipsis rest,
      step_ellipsis settings lineBreak f before rest⟩
  by_cases hquestion : Punctuator.Begins text .questionPeriod
  · obtain ⟨⟨rest, rfl⟩, hdigit⟩ := hquestion
    have hdigit : rest.head?.any isDecimalDigit = false := hdigit rfl
    exact ⟨.questionPeriod, rest, rfl, Punctuator.isLongest_questionPeriod hdigit,
      step_questionPeriod hdigit settings lineBreak f before⟩
  -- neither of these two: the punctuator is found by extending its first character
  obtain ⟨q, after, htext⟩ := hbegins
  obtain ⟨c, run, first, hlexeme, hfirst⟩ := q.exists_ofChar
  rw [hlexeme, List.cons_append] at htext
  obtain ⟨p, rest, hsplit, hmunch, hext, hlongest⟩ :=
    Punctuator.exists_munch (σ := σ) hfirst before (run ++ after)
  rw [htext] at hsplit hlongest
  refine ⟨p, rest, hsplit, ?_, ?_⟩
  · exact Punctuator.isLongest_of_isExtended hext ⟨rest, hsplit.symm⟩ hellipsis hquestion hlongest
  · rw [← htext, step_of_ofChar hfirst, hmunch]
    subst hsplit
    refine Punctuator.operator_of_plain
      (Punctuator.opensComment_eq_false hshadow hends _) ?_ ?_ f _
    · rintro rfl
      refine ⟨?_, ?_⟩
      · rw [Bool.eq_false_iff]
        intro hdigit
        obtain ⟨d, hhead, hd⟩ := (Option.any_eq_true _ _).1 hdigit
        obtain ⟨rest, rfl⟩ := List.head?_eq_some_iff.1 hhead
        exact hshadow (.fraction hd)
      · rintro ⟨rest, rfl⟩
        exact hellipsis ⟨⟨rest, rfl⟩, nofun⟩
    · rintro rfl rest' rfl
      by_contra hdigit
      exact hquestion ⟨⟨rest', rfl⟩, fun _ => Bool.eq_false_iff.2 hdigit⟩

/-- **A scan reads the longest punctuator.**  A scan passes a gap, and where it is over a punctuator
may stand.  The exceptions are a point before a digit, an HTML-like comment that is opened, or
closed after a line terminator, and a block comment that is not closed.  Apart from these the token
is the longest punctuator that the text behind the gap begins with, and a question mark and a point
count as one only where no digit follows.  The token takes what its spelling takes, it has no text,
and the reader is right behind it. -/
theorem scanToken_of_begins (settings : Settings) (lineBreak : Bool) (f : Findings)
    (before after : List Char) :
    (∃ gap text, after = gap ++ text ∧ Gap.Whole settings lineBreak gap text) ∧
    ∀ gap text, after = gap ++ text → Gap.Whole settings lineBreak gap text →
      (∃ p ∈ Punctuator.all, p.lexeme.toList <+: text) →
      ¬ Punctuator.Shadowed (lineBreak || gap.any isLineTerminator) text →
      ∃ p ∈ Punctuator.all, ∃ rest f', text = p.lexeme.toList ++ rest ∧
        Punctuator.IsLongest text p ∧
        let start := extent σ (before ++ gap)
        scanToken settings lineBreak f (between before after : Reader σ) =
          { token :=
              { kind := .punctuator p
                span := ⟨start, start + extent σ p.lexeme.toList⟩
                afterLineTerminator := lineBreak || gap.any isLineTerminator
                error? := none }
            findings := f'
            reader := between (before ++ gap ++ p.lexeme.toList) rest } := by
  refine ⟨Gap.exists_whole settings lineBreak after, ?_⟩
  rintro gap text rfl hgap ⟨q, -, hq⟩ hshadow
  obtain ⟨f', hscan⟩ := scanToken_of_pieces (σ := σ) hgap.pieces f before
  obtain ⟨p, rest, htext, hlongest, hstep⟩ :=
    step_of_begins (σ := σ) ⟨q, hq⟩ hshadow hgap.ends f' (before ++ gap)
  refine ⟨p, p.mem_all, rest, f', htext, hlongest, ?_⟩
  intro start
  have hstop : extent σ (before ++ gap ++ p.lexeme.toList) = start + extent σ p.lexeme.toList :=
    extent_append σ _ _
  rw [hscan, scanToken_of_step_eq_lexeme hstep, position_between, Lexeme.toToken, Lexeme.ofKind,
    position_between, hstop]
  rfl

/-- Behind a comment, the longest of four punctuators, and a character that makes it no longer. -/
theorem scanToken_of_begins_shift :
    let gap := [' ', '/', '*', '*', '/']
    let text := ['>', '>', '>', '=', '=', '1']
    Gap.Whole {} false gap text ∧ (∃ p ∈ Punctuator.all, p.lexeme.toList <+: text) ∧
      ¬ Punctuator.Shadowed false text ∧
      ∃ p ∈ Punctuator.all, Punctuator.IsLongest text p ∧
        (scanToken {} false {} (between ['é'] (gap ++ text) : Reader ByteCursor)).token.kind =
          .punctuator p ∧
        (scanToken {} false {} (between ['é'] (gap ++ text) : Reader ByteCursor)).token.span =
          ⟨7, 11⟩ := by
  intro gap text
  have hshift : Punctuator.assignShr.lexeme.toList <+: text := ⟨['=', '1'], rfl⟩
  have hpieces : Gap.Pieces {} false false gap text :=
    .cons (.blank rfl) (@Gap.Piece.blockComment {} false false [] text (by decide)).pieces
  have hends : Gap.Ends {} false text := by
    intro piece rest htext hpiece
    change ['>', '>', '>', '=', '=', '1'] = piece ++ rest at htext
    cases hpiece <;> cases htext
    contradiction
  have hwhole : Gap.Whole {} false gap text := ⟨hpieces, hends⟩
  have hshadow : ¬ Punctuator.Shadowed false ['>', '>', '>', '=', '=', '1'] := nofun
  have hp : ∃ p ∈ Punctuator.all, p.lexeme.toList <+: text := ⟨_, Punctuator.mem_all _, hshift⟩
  obtain ⟨p, hmem, rest, f', -, hlongest, hscan⟩ :=
    (scanToken_of_begins (σ := ByteCursor) {} false {} ['é'] (gap ++ text)).2 gap text rfl hwhole hp
      hshadow
  refine ⟨hwhole, hp, hshadow, p, hmem, hlongest, ?_, ?_⟩
  · rw [hscan]
  · decide +kernel

end EcmaLex
