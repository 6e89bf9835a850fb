import EcmaLex.Proofs.Lexeme.Cause
import EcmaLex.Proofs.Scanner.Coverage

/-!
# Line terminators before tokens

Every token says whether a line terminator comes before it.  The pieces of a gap
note the line terminators in them one after the other: a run of blanks looks at each
character, a comment on a line stops before the line terminator that ends it, and a
block comment, which is searched in two ways, notes the first one.  No lexeme adds
to these, with one exception: a block comment that is not closed is no piece of a
gap, but what was found in it counts.

So the token says exactly what is in the text between the token before and itself.

## Main definitions

* `Token.isOpenComment` — the token is a block comment that is not closed.
* `Lexeme.KeepsLineBreak` — what a lexeme adds to what is known of line terminators.

## Main results

* `keepsLineBreak_step` — only an open comment adds anything.
* `Scanner.afterLineTerminator_stream` — **a token comes after a line terminator just if there
  is one in the gap before it**.
-/

namespace EcmaLex

open Reader

/-- Whether the token is a comment without its closing. -/
def Token.isOpenComment (t : Token) : Bool := t.hasErrorOf (· == .unterminatedComment)

/-- Whether the lexeme is a comment without its closing. -/
def Lexeme.isOpenComment {σ : Type} (l : Lexeme σ) : Bool :=
  l.hasErrorOf (· == .unterminatedComment)

variable {σ : Type} [ExactSource σ]

/-- A lexeme that is read at a place adds nothing to what is known of line terminators,
unless it is an open comment.  That one takes the rest of the text, and adds the line
terminators in it. -/
structure Lexeme.KeepsLineBreak (before after : List Char) (lineBreak lineBreak' : Bool)
    (l : Lexeme σ) : Prop where
  /-- What is known after the lexeme. -/
  lineBreak_eq : lineBreak' = (lineBreak || (l.isOpenComment && after.any isLineTerminator))
  /-- An open comment goes on to the end of the text. -/
  reader_eq : l.isOpenComment = true → l.reader = between (before ++ after) []

/-- The same for what a rule has found, where only lexemes matter. -/
def Step.KeepsLineBreak (before after : List Char) (lineBreak : Bool) : Step σ → Prop
  | gap _ _ _ => True
  | lexeme lineBreak' _ l => l.KeepsLineBreak before after lineBreak lineBreak'

namespace Lexeme.KeepsLineBreak

variable {before after : List Char} {lineBreak : Bool} {l : Lexeme σ}

theorem of_isOpenComment (h : l.isOpenComment = false) :
    l.KeepsLineBreak before after lineBreak lineBreak := by
  constructor
  · rw [h, Bool.false_and, Bool.or_false]
  · intro ho
    rw [h] at ho
    cases ho

theorem of_raises {p : Cause → Bool} (h : l.Raises p) (hp : p .unterminatedComment = false) :
    l.KeepsLineBreak before after lineBreak lineBreak :=
  of_isOpenComment (h.hasErrorOf_eq_false hp)

end Lexeme.KeepsLineBreak

/-! ### One step -/

theorem keepsLineBreak_htmlComment (settings : Settings) (lineBreak : Bool) (findings : Findings)
    (start : Nat) (before after : List Char) (r : Reader σ) :
    (htmlComment settings lineBreak findings start r).KeepsLineBreak before after lineBreak := by
  unfold htmlComment
  split
  · exact Lexeme.KeepsLineBreak.of_isOpenComment rfl
  · trivial

/-- The only punctuator that adds a line terminator is the opening of a comment that is not
closed. -/
theorem keepsLineBreak_operator (settings : Settings) (lineBreak : Bool) (findings : Findings)
    (start : Nat) (p : Punctuator) (before after : List Char) :
    (operator settings lineBreak findings start p
      (between (before ++ p.lexeme.toList) after : Reader σ)).KeepsLineBreak before
        (p.lexeme.toList ++ after) lineBreak := by
  have hs := ofPunctuator_operator settings lineBreak findings start p
    (between (before ++ p.lexeme.toList) after : Reader σ)
  generalize operator settings lineBreak findings start p
    (between (before ++ p.lexeme.toList) after : Reader σ) = s at hs ⊢
  cases hs with
  | htmlOpening => exact keepsLineBreak_htmlComment _ _ _ _ _ _ _
  | htmlClosing => exact keepsLineBreak_htmlComment _ _ _ _ _ _ _
  | magicComment => trivial
  | lineComment => trivial
  | blockComment => trivial
  | openComment hstar hopen =>
    obtain ⟨after, rfl⟩ := List.head?_eq_some_iff.1 (beq_iff_eq.1 hstar)
    rw [Gap.blockComment_between] at hopen ⊢
    cases hc : closeComment after with
    | some closed =>
      rw [hc] at hopen
      cases hopen
    | none =>
      constructor
      · -- neither mark of the opening is a line terminator
        show _ = (lineBreak || (true && List.any ('/' :: '*' :: after) isLineTerminator))
        rw [List.any_cons, List.any_cons]
        rfl
      · intro _
        show between _ [] = _
        rw [List.append_assoc]
  | fractionNumeral => exact .of_raises (raises_fractionNumeral _ _ _) rfl
  | _ => exact Lexeme.KeepsLineBreak.of_isOpenComment rfl

/-- **Only an open comment adds anything to what is known of line terminators.** -/
theorem keepsLineBreak_step (settings : Settings) (lineBreak : Bool) (findings : Findings)
    (before after : List Char) :
    (step settings lineBreak findings (between before after : Reader σ)).KeepsLineBreak before
      after lineBreak := by
  have hs := chosen_step settings lineBreak findings (between before after : Reader σ)
  generalize step settings lineBreak findings (between before after : Reader σ) = s at hs ⊢
  cases hs with
  | endOfInput => exact Lexeme.KeepsLineBreak.of_isOpenComment rfl
  | blank => trivial
  | word => exact .of_raises (raises_word _ _ _) rfl
  | numeral => exact .of_raises (raises_numeral _ _ _) rfl
  | stringLiteral => exact .of_raises (raises_stringLiteral _ _) rfl
  | templatePiece => exact .of_raises (raises_templatePiece _ _) rfl
  | privateName => exact .of_raises (raises_privateName _) rfl
  | @operator c p hc hp =>
    obtain ⟨after, rfl⟩ := List.head?_eq_some_iff.1 hc
    rw [advance_between_cons]
    obtain ⟨run, rest, rfl, hr, hl⟩ := p.munch_between (σ := σ) (before ++ [c]) after
    rw [Punctuator.lexeme_of_ofChar hp, String.toList_singleton] at hl
    have ho := keepsLineBreak_operator (σ := σ) settings lineBreak findings
      (between before (c :: (run ++ rest)) : Reader σ).position
      (p.munch (between (before ++ [c]) (run ++ rest) : Reader σ)).1 before rest
    rw [hl, ← List.append_assoc, ← hr] at ho
    exact ho
  | illegal => exact Lexeme.KeepsLineBreak.of_isOpenComment rfl

/-! ### Tokens -/

/-- The text in which a line terminator counts for the token: the gap before it, and the token
as well if it is an open comment. -/
def Token.textBefore (t : Token) (gap lexeme : List Char) : List Char :=
  if t.isOpenComment then gap ++ lexeme else gap

/-- A scan passes a gap and a lexeme, and the token comes after a line terminator if one was
known before, or is in that gap. -/
theorem afterLineTerminator_scanToken (settings : Settings) (lineBreak : Bool)
    (findings : Findings) (before after : List Char) :
    let t := (scanToken settings lineBreak findings (between before after : Reader σ)).token
    ∃ gap lexeme rest, after = gap ++ lexeme ++ rest ∧
      t.span = ⟨extent σ (before ++ gap), extent σ (before ++ gap ++ lexeme)⟩ ∧
      t.afterLineTerminator =
        (lineBreak || (t.textBefore gap lexeme).any isLineTerminator) := by
  intro t
  obtain ⟨gap, rest, findings₁, lineBreak', findings', l, rfl, -, hl, hs⟩ :=
    exists_lexeme_of_scanToken (σ := σ) settings lineBreak findings before after
  have ht : t = l.toToken (extent σ (before ++ gap)) lineBreak' := congrArg Scanned.token hs
  have hopen : t.isOpenComment = l.isOpenComment := by
    rw [ht]
    rfl
  have hk : l.KeepsLineBreak (before ++ gap) rest (lineBreak || gap.any isLineTerminator)
      lineBreak' := by
    have := keepsLineBreak_step (σ := σ) settings (lineBreak || gap.any isLineTerminator)
      findings₁ (before ++ gap) rest
    rwa [hl] at this
  by_cases ho : l.isOpenComment = true
  · -- the comment is the rest of the text
    refine ⟨gap, rest, [], (List.append_nil _).symm, ?_, ?_⟩
    · rw [ht, Lexeme.toToken, hk.reader_eq ho, position_between]
    · rw [Token.textBefore, hopen, if_pos ho, List.any_append, ← Bool.or_assoc, ht]
      show lineBreak' = _
      rw [hk.lineBreak_eq, ho, Bool.true_and]
  · have hw := within_reader_step (σ := σ) settings (lineBreak || gap.any isLineTerminator)
      findings₁ (before ++ gap) rest
    rw [hl] at hw
    obtain ⟨lexeme, rest, rfl, hreader⟩ := hw
    refine ⟨gap, lexeme, rest, (List.append_assoc ..).symm, ?_, ?_⟩
    · rw [ht, Lexeme.toToken, show l.reader = _ from hreader, position_between]
    · rw [Token.textBefore, hopen, if_neg ho, ht]
      show lineBreak' = _
      rw [hk.lineBreak_eq, Bool.eq_false_of_not_eq_true ho, Bool.false_and, Bool.or_false]

namespace Scanner

/-- **A token comes after a line terminator just if there is one in the gap before it.**  The
first token counts as coming after one.  The text between the end of any token and the start
of the next one is looked at, inside of comments and outside, and no other text, except that
an open comment is looked at itself. -/
theorem afterLineTerminator_stream (settings : Settings) (source : String) :
    let token := (ofSource settings (ByteCursor.ofString source)).start.stream
    (token 0).afterLineTerminator = true ∧
      ∀ n, ∃ before gap lexeme after : List Char,
        source.toList = before ++ gap ++ lexeme ++ after ∧
        (String.ofList before).utf8ByteSize = (token n).span.stop ∧
        (String.ofList (before ++ gap)).utf8ByteSize = (token (n + 1)).span.start ∧
        (String.ofList (before ++ gap ++ lexeme)).utf8ByteSize = (token (n + 1)).span.stop ∧
        ((token (n + 1)).afterLineTerminator = true ↔
          ∃ c ∈ (token (n + 1)).textBefore gap lexeme, isLineTerminator c = true) := by
  intro token
  refine ⟨?_, fun n => ?_⟩
  · -- the first scan is told that there was a line terminator
    obtain ⟨gap, rest, -, hr, -⟩ := hashbang_between (σ := ByteCursor) settings source.toList
    obtain ⟨_, _, _, -, -, hlb⟩ :=
      afterLineTerminator_scanToken (σ := ByteCursor) settings true {} gap rest
    rw [← hr, ← advance_ofSource_fresh, ← ByteCursor.ofString_eq_fresh] at hlb
    show (stream _ 0).afterLineTerminator = true
    rw [stream_eq_next]
    exact hlb
  · obtain ⟨before, _, -, ⟨gap₀, lexeme₀, rest₀, -, -, -, -, -, hup⟩, -⟩ :=
      exists_follows_iterate (σ := ByteCursor) settings source.toList n
    rw [← ByteCursor.ofString_eq_fresh] at hup
    generalize before ++ gap₀ ++ lexeme₀ = passed at hup
    have hnext : token (n + 1) = (scanToken settings false
        (advance^[n] (ofSource settings (ByteCursor.ofString source)).start).findings
        (between passed rest₀ : Reader ByteCursor)).token := by
      show stream _ (n + 1) = _
      rw [stream_eq_next, Function.iterate_succ_apply', advance_of_not_isAhead hup.isAhead_eq]
      show (scanToken _ _ _ _).token = _
      rw [hup.settings_eq, hup.reader_eq]
    -- the gap and the token are what the scan from the end of the token before passes
    obtain ⟨gap, lexeme, rest, hsplit, hspan, hlb⟩ :=
      afterLineTerminator_scanToken (σ := ByteCursor) settings false
        (advance^[n] (ofSource settings (ByteCursor.ofString source)).start).findings passed rest₀
    rw [← hnext] at hspan hlb
    refine ⟨passed, gap, lexeme, rest, ?_, ?_, ?_, ?_, ?_⟩
    · rw [hup.text_eq, hsplit]
      simp
    · rw [← ByteCursor.extent_eq_utf8ByteSize, ← hup.stop_eq, ← stream_eq_next]
    · rw [← ByteCursor.extent_eq_utf8ByteSize]
      exact (congrArg Span.start hspan).symm
    · rw [← ByteCursor.extent_eq_utf8ByteSize]
      exact (congrArg Span.stop hspan).symm
    · rw [hlb, Bool.false_or, List.any_eq_true]

end Scanner

end EcmaLex
