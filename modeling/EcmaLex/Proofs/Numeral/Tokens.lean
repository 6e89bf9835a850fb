import EcmaLex.Proofs.Lexeme.Punctuator
import EcmaLex.Proofs.Numeral.Literals
import EcmaLex.Proofs.Scanner.Place

/-!
# The numbers of a text

A number begins with a digit, or with a point and a digit, and its first character chooses
the rule that reads it.  So whatever is done with a scanner, each number that it holds was
read at its place by one of two readings.

## Main definitions

* `Numeral.BeginsWith` — how a number begins, and the reading of the rest of it.

## Main results

* `Numeral.beginsWith_of_step` — **which rules give numbers**.
* `Numeral.exists_of_readFrom` — so it is with the numbers that a scanner holds.
-/

namespace EcmaLex

open Reader

theorem Lexeme.NoNumber.isNumeric_kind {σ : Type} {l : Lexeme σ} (h : l.NoNumber) :
    l.kind.isNumeric = false := by
  have hf := h.sound.form
  rw [h.form] at hf
  exact hf.symm

namespace Numeral

variable {σ : Type}

/-- The lexeme of a literal that was read without an error. -/
def Verdict.lexeme (verdict : Verdict) (n : Numeral σ) : Lexeme σ :=
  ⟨.ok verdict.kind,
    { cooked := n.cooked
      raw := n.raw
      smallInt? := verdict.smallInt?
      form? := some verdict.form },
    n.reader⟩

theorem lexeme_of_ok {x : Reading σ Verdict} {n n' : Numeral σ} {verdict : Verdict}
    (h : x n = .ok verdict n') : lexeme x n = verdict.lexeme n' := by
  rw [lexeme, h]
  rfl

end Numeral

variable {σ : Type} [ExactSource σ] {settings : Settings} {lineBreak lineBreak' : Bool}
  {findings findings' : Findings} {before r : List Char} {l : Lexeme σ}

namespace Numeral

/-- The text begins with the first character `c` of a number and goes on with `a`, and the
rest of the number is read by `x`. -/
inductive BeginsWith (settings : Settings) (start : Nat) :
    List Char → Char → List Char → Reading σ Verdict → Prop where
  /-- The number begins with a digit. -/
  | digit {c : Char} (hc : isDecimalDigit c = true) (a : List Char) :
      BeginsWith settings start (c :: a) c a (afterFirstDigit settings start c)
  /-- The number begins with its point. -/
  | point {c : Char} (hc : isDecimalDigit c = true) (a : List Char) :
      BeginsWith settings start ('.' :: c :: a) '.' (c :: a) (afterPoint settings start)

/-- The rule for punctuators gives a number only after a point. -/
theorem fractionNumeral_of_operator {start : Nat} {p : Punctuator} {r : Reader σ}
    (h : operator settings lineBreak findings start p r = .lexeme lineBreak' findings' l)
    (hl : l.kind.isNumeric = true) :
    p = .period ∧ r.isAtAny isDecimalDigit = true ∧ l = fractionNumeral settings start r := by
  have hplain : ∀ {q : Punctuator} {r' : Reader σ},
      Step.lexeme lineBreak findings (.ofKind (.punctuator q) r') =
        .lexeme lineBreak' findings' l → False := by
    intro q r' he
    cases he
    cases hl
  have hcomment : ∀ {f : Findings} {r' : Reader σ},
      htmlComment settings lineBreak f start r' = .lexeme lineBreak' findings' l → False := by
    intro f r' he
    unfold htmlComment at he
    split at he
    · cases he
      cases hl
    · cases he
  have hs := ofPunctuator_operator settings lineBreak findings start p r
  generalize operator settings lineBreak findings start p r = s at h hs
  cases hs with
  | htmlOpening => exact (hcomment h).elim
  | htmlClosing => exact (hcomment h).elim
  | magicComment => cases h
  | lineComment => cases h
  | blockComment => cases h
  | openComment =>
    cases h
    cases hl
  | fractionNumeral hd =>
    cases h
    exact ⟨rfl, hd, rfl⟩
  | _ => exact (hplain h).elim

/-- **Which rules give numbers.** -/
theorem beginsWith_of_step
    (h : step settings lineBreak findings (between before r : Reader σ) =
      .lexeme lineBreak' findings' l)
    (hl : l.kind.isNumeric = true) :
    ∃ c a x, BeginsWith settings (extent σ before) r c a x ∧ l = lexeme x (.of before [c] a) := by
  -- a lexeme of another rule is no number
  have hother : ∀ {l' : Lexeme σ} {f : Findings}, l'.kind.isNumeric = false →
      ¬ Step.lexeme lineBreak f l' = .lexeme lineBreak' findings' l := by
    rintro l' f hk he
    cases he
    rw [hk] at hl
    cases hl
  have hs := chosen_step settings lineBreak findings (between before r : Reader σ)
  generalize step settings lineBreak findings (between before r : Reader σ) = s at h hs
  cases hs with
  | endOfInput => exact absurd h (hother rfl)
  | blank => cases h
  | word => exact absurd h (hother (noNumber_word _ _ _).isNumeric_kind)
  | numeral hr hc =>
    obtain ⟨a, rfl⟩ := List.head?_eq_some_iff.1 hr
    cases h
    exact ⟨_, a, _, .digit hc a, numeral_between settings before a hc⟩
  | stringLiteral => exact absurd h (hother (noNumber_stringLiteral _ _).isNumeric_kind)
  | templatePiece => exact absurd h (hother (noNumber_templatePiece _ _).isNumeric_kind)
  | privateName => exact absurd h (hother (noNumber_privateName _).isNumeric_kind)
  | @operator c p hr hp =>
    obtain ⟨a, rfl⟩ := List.head?_eq_some_iff.1 hr
    rw [advance_between_cons, position_between] at h
    obtain ⟨hperiod, hd, rfl⟩ := fractionNumeral_of_operator h hl
    -- what is read as a point is spelled as one
    obtain ⟨run, rest, rfl, hrun, hp'⟩ := p.munch_between (σ := σ) (before ++ [c]) a
    rw [hperiod, Punctuator.lexeme_of_ofChar hp, String.toList_singleton] at hp'
    obtain ⟨rfl, rfl⟩ : '.' = c ∧ [] = run := List.cons.inj hp'
    rw [List.append_nil] at hrun
    rw [hrun] at hd ⊢
    rw [isAtAny_between] at hd
    obtain ⟨d, b, hb, hd⟩ := exists_cons_of_any_head? hd
    obtain rfl : rest = d :: b := hb
    exact ⟨'.', d :: b, _, .point hd b, fractionNumeral_between settings before (d :: b) _⟩
  | illegal => exact absurd h (hother rfl)

/-- A number that was read from the text begins like one where it stands. -/
theorem exists_of_readFrom {text : List Char} {t : Token} (h : t.ReadFrom σ settings text)
    (ht : t.kind.isNumeric = true) :
    ∃ before r lineBreak c a, ∃ x : Reading σ Verdict, text = before ++ r ∧
      BeginsWith settings (extent σ before) r c a x ∧
      t = (lexeme x (.of before [c] a)).toToken (extent σ before) lineBreak := by
  cases h with
  | before => cases ht
  | template placed start lineBreak =>
    have hn : (templatePiece start _).kind.isNumeric = true := ht
    rw [(noNumber_templatePiece _ _).isNumeric_kind] at hn
    cases hn
  | rule split read =>
    obtain ⟨c, a, x, hx, rfl⟩ := beginsWith_of_step read ht
    exact ⟨_, _, _, c, a, x, split, hx, rfl⟩

namespace BeginsWith

variable {start : Nat} {c : Char} {a : List Char} {x : Reading σ Verdict}

theorem yields (h : BeginsWith settings start r c a x) : Yields Verdict.Sound x := by
  cases h with
  | digit => exact yields_afterFirstDigit _ _ _
  | point => exact yields_afterPoint _ _

/-- However it begins, a number is the longest literal of the text. -/
theorem reads (h : BeginsWith settings start r c a x) (before : List Char) :
    Reads x before [c] a (fun verdict w v => Literal.Taken settings r verdict (c :: w) v)
      (Literal.Rejected settings r) := by
  cases h with
  | digit hc => exact reads_afterFirstDigit hc
  | point hc => exact reads_afterPoint hc

/-- What the reading leaves of a number is the literal and what follows it. -/
theorem exists_taken (h : BeginsWith settings start r c a x)
    (hl : (lexeme x (.of before [c] a)).kind.isNumeric = true) :
    ∃ verdict u v, x (.of before [c] a) = .ok verdict (.of before u v) ∧
      Literal.Taken settings r verdict u v ∧ verdict.Sound := by
  have hx := h.reads before
  unfold Reads at hx
  unfold lexeme at hl
  cases hr : x (.of before [c] a) with
  | error d n =>
    rw [hr] at hl
    cases hl
  | ok verdict n =>
    rw [hr] at hx
    obtain ⟨w, v, rfl, ht⟩ := hx
    exact ⟨verdict, c :: w, v, rfl, ht, h.yields _ _ _ hr⟩

end BeginsWith

end Numeral

/-- The token of a literal that was taken is the literal. -/
theorem Literal.Taken.isLiteral {verdict : Numeral.Verdict} {u v : List Char}
    (h : Literal.Taken settings r verdict u v) (before : List Char) (lineBreak : Bool) :
    ((verdict.lexeme (.of before u v : Numeral σ)).toToken (extent σ before) lineBreak).IsLiteral σ
      before verdict.form u := by
  refine ⟨?_, rfl, rfl, rfl, h.marked.iff⟩
  rw [Lexeme.toToken]
  exact congrArg (Span.mk _) (position_between _ _)

end EcmaLex
