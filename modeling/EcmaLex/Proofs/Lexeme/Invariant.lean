import EcmaLex.Proofs.Lexeme.Rule

/-!
# What no rule can break

A rule of the grammar touches its reader in three ways only: it moves the head on, it
searches, and it takes back the move onto a character that turned out not to be its
own.  What these three keep true of a reader, every rule keeps true.

## Main definitions

* `Reader.Invariant` — what the moves of the head keep true.
* `Numeral.Keeps` — a reading keeps it true.

## Main results

* `Reader.Invariant.step` — **every rule keeps it true**.
* `Reader.Invariant.scanToken` — scanning a token keeps it true.
-/

namespace EcmaLex

/-- What the moves of the head keep true of a reader. -/
structure Reader.Invariant {σ : Type} [SearchableSource σ] (P : Reader σ → Prop) : Prop where
  /-- Moving the head on. -/
  advance : ∀ {r}, P r → P r.advance
  /-- Searching. -/
  skipTo : ∀ {r} l, P r → P (r.skipTo l)
  /-- Moving the head on and back. -/
  pushBack : ∀ {r} c, r.isAt c = true → P r → P (r.advance.pushBack c)

namespace Reader.Invariant

variable {σ : Type} [SearchableSource σ] {P : Reader σ → Prop} (hP : Invariant P)
include hP

theorem skipWhile {r : Reader σ} (p : Char → Bool) (h : P r) : P (r.skipWhile p) := by
  fun_induction r.skipWhile p with
  | case1 => exact h
  | case2 _ _ _ _ ih => exact ih (hP.advance h)
  | case3 => exact h

theorem takeWhile {r : Reader σ} (p : Char → Bool) (text : String) (h : P r) :
    P (r.takeWhile p text).2 := by
  fun_induction r.takeWhile p text with
  | case1 => exact h
  | case2 _ _ _ _ _ ih => exact ih (hP.advance h)
  | case3 => exact h

/-! ### Words -/

theorem bracedDigits {r : Reader σ} (value : Option Nat) (h : P r) :
    P (Word.bracedDigits value r).2 := by
  fun_induction Word.bracedDigits value r with
  | case1 => exact h
  | case2 => exact h
  | case3 => exact h
  | case4 _ _ _ _ _ _ _ _ ih => exact ih (hP.advance h)

theorem fixedDigits {r : Reader σ} (n value : Nat) (h : P r) :
    P (Word.fixedDigits n value r).2 := by
  fun_induction Word.fixedDigits n value r with
  | case1 => exact h
  | case2 => exact h
  | case3 _ _ _ _ _ ih => exact ih (hP.advance h)

theorem unicodeEscape {r : Reader σ} (h : P r.advance) : P (Word.unicodeEscape r).2 := by
  unfold Word.unicodeEscape
  dsimp only
  split
  · split
    · have hb := hP.bracedDigits none (hP.advance (hP.advance h))
      split
      · split
        · exact hP.advance hb
        · exact hb
      · exact hb
    · exact hP.fixedDigits 4 0 (hP.advance h)
  · exact h

theorem allowedEscape {r : Reader σ} (allowed : Char → Bool) (h : P r.advance) :
    P (Word.allowedEscape allowed r).2 :=
  hP.unicodeEscape h

theorem plainRun {r : Reader σ} (flags : CharFlags) (text : String) (h : P r) :
    P (Word.plainRun flags text r).2.2 := by
  fun_induction Word.plainRun flags text r with
  | case1 => exact h
  | case2 => exact h
  | case3 _ _ _ _ _ _ _ ih => exact ih (hP.advance h)

theorem carefulRun {w : Word.Progress σ} (h : P w.reader) : P (Word.carefulRun w).1.reader := by
  -- only escapes move the head by more than one character
  fun_induction Word.carefulRun w with
  | case1 => exact h
  | case2 w _ _ _ d r he ih =>
    have ha := hP.allowedEscape isIdentifierPart (hP.advance h)
    rw [he] at ha
    exact ih ha
  | case3 w _ _ _ r he =>
    have ha := hP.allowedEscape isIdentifierPart (hP.advance h)
    rwa [he] at ha
  | case4 _ _ _ _ _ ih => exact ih (hP.advance h)
  | case5 => exact h

theorem finish {w : Word.Progress σ} (h : P w.reader) : P (Word.finish w).reader := by
  rw [Word.reader_finish]
  exact hP.carefulRun h

theorem word {r : Reader σ} (text : String) (first : Char) (h : P r.advance) :
    P (word text first r).reader := by
  unfold EcmaLex.word
  split
  · have ha := hP.allowedEscape isIdentifierStart h
    split
    · next he =>
      rw [he] at ha
      exact hP.finish ha
    · next he => rwa [he] at ha
  · split
    · have hp := hP.plainRun (CharFlags.ofFirst (CharFlags.ofChar first)) (text.push first) h
      dsimp only
      split
      · exact hP.finish hp
      · exact hp
    · exact hP.finish h

theorem privateName {r : Reader σ} (h : P r.advance) : P (privateName r).reader := by
  unfold EcmaLex.privateName
  split
  · exact hP.word _ _ (hP.advance h)
  · exact h

/-! ### Strings and templates -/

theorem stringEscaped {r : Reader σ} (text : String) (h : P r) :
    P (StringLiteral.takeEscaped text r).2 := by
  unfold StringLiteral.takeEscaped
  split
  · exact h
  · dsimp only [StringLiteral.take]
    split
    · exact hP.advance (hP.advance h)
    · exact hP.advance h

theorem stringBody {r : Reader σ} (quote : Char) (text : String) (h : P r) :
    P (StringLiteral.body quote text r).2.2 := by
  fun_induction StringLiteral.body quote text r with
  | case1 => exact h
  | case2 _ _ _ _ _ ih => exact ih (hP.advance h)
  | case3 text r c _ _ _ text' r' he ih =>
    have ht := hP.stringEscaped (text.push c) (hP.advance h)
    rw [he] at ht
    exact ih ht
  | case4 => exact hP.advance h
  | case5 => exact h
  | case6 _ _ _ _ _ _ _ _ ih => exact ih (hP.advance h)

theorem stringLiteral {r : Reader σ} (quote : Char) (h : P r.advance) :
    P (stringLiteral quote r).reader := by
  have hb := hP.stringBody quote "" h
  unfold EcmaLex.stringLiteral
  dsimp only
  split <;> exact hb

theorem templateNormalized {r : Reader σ} (text : String) (c : Char) (h : P r) :
    P (Template.takeNormalized text c r).2 := by
  unfold Template.takeNormalized
  dsimp only
  split
  · dsimp only
    split
    · exact hP.advance (hP.advance h)
    · exact hP.advance h
  · exact hP.advance h

theorem templateEscaped {r : Reader σ} (text : String) (h : P r) :
    P (Template.takeEscaped text r).2 := by
  unfold Template.takeEscaped
  split
  · exact h
  · exact hP.templateNormalized _ _ h

theorem templateBody {r : Reader σ} (text : String) (h : P r) :
    P (Template.body text r).2.2 := by
  fun_induction Template.body text r with
  | case1 => exact h
  | case2 => exact hP.advance h
  | case3 => exact hP.advance (hP.advance h)
  | case4 text r c _ _ _ _ text' r' he ih =>
    have ht := hP.templateEscaped (text.push c) (hP.advance h)
    rw [he] at ht
    exact ih ht
  | case5 text r c _ _ _ _ text' r' he ih =>
    have ht := hP.templateNormalized text c h
    rw [he] at ht
    exact ih ht

theorem templatePiece {r : Reader σ} (opening : Nat) (h : P r) :
    P (templatePiece opening r).reader := by
  have hb := hP.templateBody "" h
  unfold EcmaLex.templatePiece
  dsimp only
  split <;> exact hb

end Reader.Invariant

/-! ### Numbers -/

namespace Numeral

variable {σ : Type}

/-- What is true of the reader stays true of it, whatever the outcome of the reading. -/
def Keeps (P : Reader σ → Prop) {α : Type} (x : Reading σ α) : Prop :=
  ∀ n, P n.reader → P (after x n).reader

namespace Keeps

variable {P : Reader σ → Prop} {α β : Type}

theorem pure (a : α) : Keeps P (Pure.pure a : Reading σ α) := fun _ h => h

theorem throw (d : Diagnostic) : Keeps P (MonadExcept.throw d : Reading σ α) := fun _ h => h

theorem get : Keeps P (MonadState.get : Reading σ (Numeral σ)) := fun _ h => h

theorem modifyGet {f : Numeral σ → α × Numeral σ} (h : ∀ n, P n.reader → P (f n).2.reader) :
    Keeps P (MonadStateOf.modifyGet f : Reading σ α) := h

theorem bind {x : Reading σ α} {f : α → Reading σ β} (hx : Keeps P x) (hf : ∀ a, Keeps P (f a)) :
    Keeps P (x >>= f) := by
  intro n hn
  have h := hx n hn
  simp only [after, Bind.bind, EStateM.bind] at h ⊢
  cases hr : x n with
  | ok a n' =>
    rw [hr] at h
    exact hf a n' h
  | error d n' =>
    rw [hr] at h
    exact h

theorem ite {c : Prop} [Decidable c] {x y : Reading σ α} (hx : Keeps P x) (hy : Keeps P y) :
    Keeps P (if c then x else y) := by
  split
  · exact hx
  · exact hy

theorem lexeme {x : Reading σ Verdict} (hx : Keeps P x) {n : Numeral σ} (h : P n.reader) :
    P (lexeme x n).reader := by
  have := hx n h
  unfold after at this
  unfold Numeral.lexeme
  split <;> next hr => rwa [hr] at this

end Keeps

end Numeral

namespace Reader.Invariant

open Numeral

variable {σ : Type} [SearchableSource σ] {P : Reader σ → Prop} (hP : Invariant P)
include hP

theorem digitRun (isDigit : Char → Bool) (separators seen : Bool) (separator : Option Span)
    {n : Numeral σ} (h : P n.reader) :
    P (digitRun isDigit separators seen separator n).1.reader := by
  fun_induction Numeral.digitRun isDigit separators seen separator n with
  | case1 => exact h
  | case2 _ _ _ _ _ _ ih => exact ih (hP.advance h)
  | case3 => exact h
  | case4 => exact h
  | case5 _ _ _ _ _ _ _ _ _ ih => exact ih (hP.advance h)
  | case6 => exact h

theorem octalRun {n : Numeral σ} (h : P n.reader) : P (octalRun n).2.reader := by
  fun_induction Numeral.octalRun n with
  | case1 => exact h
  | case2 => exact h
  | case3 _ _ _ _ _ ih => exact ih (hP.advance h)
  | case4 => exact h

theorem keeps_take : Keeps P (modify take : Reading σ PUnit) :=
  .modifyGet fun _ h => hP.advance h

theorem keeps_digits (isDigit : Char → Bool) (separators seen : Bool) :
    Keeps P (digits (σ := σ) isDigit separators seen) := by
  intro n hn
  have h := hP.digitRun isDigit separators seen none hn
  -- whether the run failed does not matter
  unfold after digits
  generalize Numeral.digitRun isDigit separators seen none n = run at h ⊢
  obtain ⟨n', _ | d⟩ := run <;> exact h

omit hP in
theorem keeps_failHere {α : Type} (cause : Cause) : Keeps P (failHere cause : Reading σ α) :=
  Keeps.get.bind fun _ => .throw _

theorem keeps_someDigits (isDigit : Char → Bool) (separators : Bool) :
    Keeps P (someDigits (σ := σ) isDigit separators) :=
  Keeps.get.bind fun _ =>
    .ite (hP.keeps_digits _ _ _) (.ite (keeps_failHere _) (keeps_failHere _))

theorem keeps_radixDigits (form : NumberForm) (isDigit : Char → Bool) (separators : Bool) :
    Keeps P (radixDigits (σ := σ) form isDigit separators) :=
  hP.keeps_take.bind fun _ => (hP.keeps_someDigits _ _).bind fun _ => .pure _

theorem keeps_lead (settings : Settings) (first : Char) :
    Keeps P (lead (σ := σ) settings first) := by
  unfold lead
  refine .ite (.pure _) (Keeps.get.bind fun n => ?_)
  split
  · exact .pure _
  · exact .ite (hP.keeps_radixDigits _ _ _) <| .ite (hP.keeps_radixDigits _ _ _) <|
      .ite (hP.keeps_radixDigits _ _ _) <| .ite (.modifyGet fun _ h => hP.octalRun h) <|
      .ite (.pure _) <| .ite (keeps_failHere _) (.pure _)

theorem keeps_fraction (separators : Bool) : Keeps P (fraction (σ := σ) separators) :=
  Keeps.get.bind fun _ =>
    .ite (hP.keeps_take.bind fun _ => (hP.keeps_digits _ _ _).bind fun _ => .pure _) (.pure _)

theorem keeps_exponent (settings : Settings) (form : NumberForm) :
    Keeps P (exponent (σ := σ) settings form) :=
  .ite (hP.keeps_take.bind fun _ =>
      (Keeps.get.bind fun _ => .ite hP.keeps_take (.pure _)).bind fun _ => hP.keeps_someDigits _ _)
    (keeps_failHere _)

theorem keeps_suffix (settings : Settings) (start : Nat) (form : NumberForm) (pointSeen : Bool) :
    Keeps P (suffix (σ := σ) settings start form pointSeen) :=
  Keeps.get.bind fun _ =>
    .ite ((Keeps.get.bind fun _ =>
        .ite (.throw _) (.modifyGet fun _ h => hP.advance h)).bind fun _ => .pure _)
      (.ite ((hP.keeps_exponent _ _).bind fun _ => .pure _) (.pure _))

theorem keeps_ending (settings : Settings) (start : Nat) (form : NumberForm) (pointSeen : Bool) :
    Keeps P (ending (σ := σ) settings start form pointSeen) :=
  (hP.keeps_suffix _ _ _ _).bind fun _ =>
    (Keeps.get.bind fun _ => .ite (keeps_failHere _) (.pure _)).bind fun _ => .pure _

theorem keeps_afterFirstDigit (settings : Settings) (start : Nat) (first : Char) :
    Keeps P (afterFirstDigit (σ := σ) settings start first) := by
  refine (hP.keeps_lead _ _).bind fun form => .ite ?_ ?_
  · refine (hP.keeps_digits _ _ _).bind fun _ => Keeps.get.bind fun n => ?_
    split
    · exact .pure _
    · exact (hP.keeps_fraction _).bind fun _ => (hP.keeps_ending _ _ _ _).bind fun _ => .pure _
  · exact (hP.keeps_ending _ _ _ _).bind fun _ => .pure _

theorem numeral {r : Reader σ} (settings : Settings) (first : Char) (h : P r.advance) :
    P (numeral settings first r).reader :=
  (hP.keeps_afterFirstDigit _ _ _).lexeme h

theorem fractionNumeral {r : Reader σ} (settings : Settings) (start : Nat) (h : P r) :
    P (fractionNumeral settings start r).reader :=
  Keeps.lexeme ((hP.keeps_someDigits _ _).bind fun _ =>
    (hP.keeps_ending _ _ _ _).bind fun _ => .pure _) h

/-! ### Gaps -/

theorem whiteSpace {r : Reader σ} (lineBreak : Bool) (h : P r) :
    P (Gap.whiteSpace lineBreak r).2 := by
  fun_induction Gap.whiteSpace lineBreak r with
  | case1 => exact h
  | case2 _ _ _ _ _ ih => exact ih (hP.advance h)
  | case3 => exact h

theorem commentClose {r : Reader σ} (h : P r) : P (Gap.commentClose r).2 := by
  fun_induction Gap.commentClose r with
  | case1 => exact h
  | case2 => exact hP.advance (hP.advance h)
  | case3 _ _ _ _ _ _ ih => exact ih (hP.advance h)
  | case4 => exact h

theorem magicValue {r : Reader σ} (h : P r) : P (Gap.magicValue r).2 := by
  have h₁ := hP.takeWhile (fun c => !Gap.isQuote c && !isBlank c) "" h
  have h₂ := hP.skipWhile isWhiteSpace h₁
  unfold Gap.magicValue
  dsimp only
  split
  · exact h₁
  · split <;> exact h₂

theorem magicAssignment {r : Reader σ} (f : Findings) (h : P r) :
    P (Gap.magicAssignment f r).2 := by
  have hn := hP.takeWhile (fun c => c != '=' && !isBlank c) "" (hP.advance h)
  unfold Gap.magicAssignment
  dsimp only
  split
  · split
    · exact hn
    · split
      · exact hP.magicValue (hP.skipWhile _ (hP.advance hn))
      · exact hn
  · exact h

theorem magicComment {r : Reader σ} (f : Findings) (h : P r) : P (Gap.magicComment f r).2 := by
  have hm := hP.magicAssignment f h
  unfold Gap.magicComment
  dsimp only
  split
  · exact hP.skipTo _ hm
  · exact hm

theorem blockComment {r : Reader σ} (lineBreak : Bool) (h : P r) :
    P (Gap.blockComment lineBreak r).2.2 := by
  fun_induction Gap.blockComment lineBreak r with
  | case1 => exact h
  | case2 lineBreak r _ _ r' hc =>
    have ht := hP.commentClose (hP.skipTo (Gap.commentLandmark lineBreak) h)
    rwa [hc] at ht
  | case3 lineBreak r _ _ r' hc ih =>
    have ht := hP.commentClose (hP.skipTo (Gap.commentLandmark lineBreak) h)
    rw [hc] at ht
    exact ih ht

theorem hashbang {r : Reader σ} (h : P r) : P (Gap.hashbang r) := by
  unfold Gap.hashbang
  split
  · exact hP.skipTo _ h
  · exact h

/-! ### All rules -/

theorem munch {r : Reader σ} (p : Punctuator) (h : P r) : P (p.munch r).2 := by
  fun_induction p.munch r with
  | case1 => exact h
  | case2 _ _ _ _ _ _ ih => exact ih (hP.advance h)
  | case3 => exact h

theorem htmlComment {r : Reader σ} (settings : Settings) (lineBreak : Bool)
    (findings : Findings) (start : Nat) (h : P r) :
    P (htmlComment settings lineBreak findings start r).reader := by
  unfold EcmaLex.htmlComment
  split
  · exact h
  · exact hP.skipTo _ h

theorem operator {r : Reader σ} (settings : Settings) (lineBreak : Bool) (findings : Findings)
    (start : Nat) (p : Punctuator) (h : P r) :
    P (operator settings lineBreak findings start p r).reader := by
  have hs := ofPunctuator_operator settings lineBreak findings start p r
  generalize EcmaLex.operator settings lineBreak findings start p r = s at hs ⊢
  cases hs with
  | htmlOpening => exact hP.htmlComment _ _ _ _ (hP.advance (hP.advance h))
  | htmlClosing => exact hP.htmlComment _ _ _ _ h
  | magicComment => exact hP.magicComment _ (hP.advance (hP.advance h))
  | lineComment => exact hP.skipTo _ h
  | blockComment => exact hP.blockComment _ h
  | openComment => exact hP.blockComment _ h
  | fractionNumeral => exact hP.fractionNumeral _ _ h
  | ellipsis => exact hP.advance (hP.advance h)
  | questionPeriod => exact hP.advance h
  | givenBack hc => exact hP.pushBack _ hc h
  | plain => exact h

/-- **Every rule keeps true** what is true once the character that it starts from is
read. -/
theorem step {r : Reader σ} (settings : Settings) (lineBreak : Bool) (findings : Findings)
    {c : Char} (hc : r.char? = some c) (h : P r.advance) :
    P (step settings lineBreak findings r).reader := by
  have hs := chosen_step settings lineBreak findings r
  generalize EcmaLex.step settings lineBreak findings r = s at hs ⊢
  cases hs with
  | endOfInput hn =>
    rw [hc] at hn
    cases hn
  | blank hd hb =>
    -- the first of the blanks is the character that is read
    show P (Gap.whiteSpace lineBreak r).2
    rw [Gap.whiteSpace]
    split
    · next hn =>
      rw [hc] at hn
      cases hn
    · next d hd' =>
      rw [hd] at hd'
      cases hd'
      rw [if_pos hb]
      exact hP.whiteSpace _ h
  | word => exact hP.word _ _ h
  | numeral => exact hP.numeral _ _ h
  | stringLiteral => exact hP.stringLiteral _ h
  | templatePiece => exact hP.templatePiece _ h
  | privateName => exact hP.privateName h
  | operator => exact hP.operator _ _ _ _ _ (hP.munch _ h)
  | illegal => exact h

/-- Scanning a token keeps true what is true of its reader. -/
theorem scanToken {r : Reader σ} (settings : Settings) (lineBreak : Bool) (findings : Findings)
    (h : P r) : P (scanToken settings lineBreak findings r).reader := by
  -- at the end of the text no rule moves the head
  have hs : ∀ lineBreak findings r, P r →
      P (EcmaLex.step settings lineBreak findings r).reader := by
    intro lineBreak findings r h
    cases hc : r.char? with
    | none =>
      rw [step_of_char?_eq_none _ _ _ hc]
      exact h
    | some c => exact hP.step settings lineBreak findings hc (hP.advance h)
  fun_induction EcmaLex.scanToken settings lineBreak findings r with
  | case1 lineBreak findings r _ _ _ he ih =>
    have hr := hs lineBreak findings r h
    rw [he] at hr
    exact ih hr
  | case2 lineBreak findings r _ _ _ he =>
    have hr := hs lineBreak findings r h
    rwa [he] at hr

end Reader.Invariant

end EcmaLex
