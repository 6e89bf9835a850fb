import EcmaLex.Proofs.Lexeme.Rule

/-!
# What kinds of lexemes there are

The kind of a token tells which of its other data are there: an error with text
that is no token, a value with a small integer, a form with a number.  The kinds
that stand for no text at all are given by no rule of the grammar, apart from the
end of input, which is what there is when no character is left.

## Main definitions

* `TokenKind.isText` — the kinds of text that is a token.
* `Lexeme.Sound` — the kind of the lexeme agrees with its data.
* `Numeral.Yields` — what is known of the result of a reading.

## Main results

* `sound_step` — **every rule gives sound lexemes**, as long as a character is left.
* `kind_scanToken` — no token is white space or missing.
-/

namespace EcmaLex

namespace TokenKind

/-- Whether the kind is that of text which is a token. -/
def isText : TokenKind → Bool
  | whitespace | illegal | endOfInput | uninitialized => false
  | _ => true

/-- Whether the kind is that of a numeric literal. -/
def isNumeric : TokenKind → Bool
  | number | smallInt | bigInt => true
  | _ => false

end TokenKind

namespace Lexeme

variable {σ : Type}

/-- The kind of a lexeme agrees with its data. -/
structure Sound (l : Lexeme σ) : Prop where
  /-- A lexeme without an error is text of some kind. -/
  isText : ∀ k, l.verdict = .ok k → k.isText = true
  /-- The lexemes with a value are the small integers. -/
  smallInt : l.text.smallInt?.isSome = (l.kind == .smallInt)
  /-- The lexemes with a form are the numbers. -/
  form : l.text.form?.isSome = l.kind.isNumeric

/-- The lexeme is text of some kind other than a number, or it is no token. -/
structure NoNumber (l : Lexeme σ) : Prop where
  /-- A lexeme without an error is text. -/
  isText : ∀ k, l.verdict = .ok k → k.isText = true
  /-- It is no number. -/
  isNumeric : ∀ k, l.verdict = .ok k → k.isNumeric = false
  /-- It has no value. -/
  smallInt : l.text.smallInt? = none
  /-- It has no form. -/
  form : l.text.form? = none

theorem noNumber_illegal (d : Diagnostic) {text : TokenText} (r : Reader σ)
    (hv : text.smallInt? = none) (hf : text.form? = none) : (illegal d text r).NoNumber := by
  refine ⟨fun k h => ?_, fun k h => ?_, hv, hf⟩ <;> cases h

theorem noNumber_ok {k : TokenKind} {text : TokenText} (r : Reader σ) (ht : k.isText = true)
    (hn : k.isNumeric = false) (hv : text.smallInt? = none) (hf : text.form? = none) :
    (⟨.ok k, text, r⟩ : Lexeme σ).NoNumber := by
  refine ⟨fun k' h => ?_, fun k' h => ?_, hv, hf⟩
  · cases h
    exact ht
  · cases h
    exact hn

theorem NoNumber.sound {l : Lexeme σ} (h : l.NoNumber) : l.Sound := by
  have hk : l.kind.isNumeric = false := by
    unfold kind
    split
    · next k hv => exact h.isNumeric k hv
    · rfl
  refine ⟨h.isText, ?_, ?_⟩
  · rw [h.smallInt]
    -- a kind that is not that of a number is not that of a small integer
    cases he : l.kind <;> first | rfl | (rw [he] at hk; cases hk)
  · rw [h.form, hk]
    rfl

/-- A sound lexeme is illegal, or text. -/
theorem Sound.kind {l : Lexeme σ} (h : l.Sound) : l.kind = .illegal ∨ l.kind.isText = true := by
  unfold Lexeme.kind
  split
  · next k hv => exact .inr (h.isText k hv)
  · exact .inl rfl

theorem Sound.kind_ne_endOfInput {l : Lexeme σ} (h : l.Sound) : l.kind ≠ .endOfInput := by
  intro he
  rcases h.kind with hk | hk
  · rw [hk] at he
    cases he
  · rw [he] at hk
    cases hk

end Lexeme

open Lexeme

variable {σ : Type}

theorem Word.noNumber_ok_kind (canBeKeyword escaped : Bool) (t : String) {text : TokenText}
    (r : Reader σ) (hv : text.smallInt? = none) (hf : text.form? = none) :
    (⟨.ok (kind canBeKeyword escaped t), text, r⟩ : Lexeme σ).NoNumber := by
  have h : (kind canBeKeyword escaped t).isText = true ∧
      (kind canBeKeyword escaped t).isNumeric = false := by
    -- whether or not a keyword is spelled with escapes, a word is text
    unfold kind
    repeat' split
    all_goals exact ⟨rfl, rfl⟩
  exact noNumber_ok r h.1 h.2 hv hf

/-! ### The results of readings -/

namespace Numeral

/-- Whatever a reading gives has the property. -/
def Yields {α : Type} (p : α → Prop) (x : Reading σ α) : Prop :=
  ∀ n n' a, x n = .ok a n' → p a

namespace Yields

variable {α β : Type} {p : α → Prop}

theorem pure {a : α} (h : p a) : Yields p (Pure.pure a : Reading σ α) := by
  intro n n' b hb
  cases hb
  exact h

theorem bind {q : β → Prop} {x : Reading σ α} {f : α → Reading σ β} (hx : Yields p x)
    (hf : ∀ a, p a → Yields q (f a)) : Yields q (x >>= f) := by
  intro n n' b hb
  simp only [Bind.bind, EStateM.bind] at hb
  split at hb
  · next a n₁ hr => exact hf a (hx n n₁ a hr) n₁ n' b hb
  · cases hb

/-- Nothing needs to be known of the first reading. -/
theorem bind_any {q : β → Prop} {x : Reading σ α} {f : α → Reading σ β}
    (hf : ∀ a, Yields q (f a)) : Yields q (x >>= f) :=
  bind (p := fun _ => True) (fun _ _ _ _ => trivial) fun a _ => hf a

theorem ite {c : Prop} [Decidable c] {x y : Reading σ α} (hx : Yields p x) (hy : Yields p y) :
    Yields p (if c then x else y) := by
  split
  · exact hx
  · exact hy

end Yields

/-- The kind of the verdict is that of a number, which is a small integer just when it has a
value. -/
def Verdict.Sound (v : Verdict) : Prop :=
  v.kind.isNumeric = true ∧ v.smallInt?.isSome = (v.kind == .smallInt)

theorem Verdict.sound_of_ending {k : TokenKind} (h : k = .number ∨ k = .bigInt)
    (form : NumberForm) : Verdict.Sound { kind := k, form } := by
  rcases h with rfl | rfl <;> exact ⟨rfl, rfl⟩

theorem sound_lexeme {x : Reading σ Verdict} (h : Yields Verdict.Sound x) (n : Numeral σ) :
    (lexeme x n).Sound := by
  unfold lexeme
  split
  · next v n' hr =>
    obtain ⟨hk, hv⟩ := h n n' v hr
    refine ⟨fun k he => ?_, hv, ?_⟩
    · cases he
      cases hc : v.kind <;> first | rfl | (rw [hc] at hk; cases hk)
    · exact hk.symm
  · exact (noNumber_illegal _ _ rfl rfl).sound

end Numeral

section Steps

variable [TextSource σ]

/-! ### Words, strings and templates -/

theorem Word.noNumber_finish (w : Word.Progress σ) : (Word.finish w).NoNumber := by
  unfold Word.finish
  dsimp only
  split
  · exact noNumber_illegal _ _ rfl rfl
  · exact Word.noNumber_ok_kind _ _ _ _ rfl rfl

theorem noNumber_word (text : String) (first : Char) (r : Reader σ) :
    (word text first r).NoNumber := by
  unfold word
  split
  · split
    · exact Word.noNumber_finish _
    · exact noNumber_illegal _ _ rfl rfl
  · split
    · dsimp only
      split
      · exact Word.noNumber_finish _
      · exact Word.noNumber_ok_kind _ _ _ _ rfl rfl
    · exact Word.noNumber_finish _

/-- A private name is a word of another kind. -/
theorem noNumber_privateName (r : Reader σ) : (privateName r).NoNumber := by
  unfold privateName
  split
  · next first _ =>
    have h := noNumber_word "#" first r.advance
    dsimp only
    cases hv : (word "#" first r.advance).verdict with
    | error d => exact noNumber_illegal d _ h.smallInt h.form
    | ok k => exact noNumber_ok _ rfl rfl h.smallInt h.form
  · exact noNumber_illegal _ _ rfl rfl

theorem noNumber_stringLiteral (quote : Char) (r : Reader σ) :
    (stringLiteral quote r).NoNumber := by
  unfold stringLiteral
  dsimp only
  split
  · exact noNumber_ok _ rfl rfl rfl rfl
  · exact noNumber_illegal _ _ rfl rfl

theorem noNumber_templatePiece (opening : Nat) (r : Reader σ) :
    (templatePiece opening r).NoNumber := by
  unfold templatePiece
  dsimp only
  split
  · exact noNumber_ok _ rfl rfl rfl rfl
  · exact noNumber_ok _ rfl rfl rfl rfl
  · exact noNumber_illegal _ _ rfl rfl

/-! ### Numbers -/

namespace Numeral

/-- A literal ends as a number or as a BigInt. -/
theorem yields_suffix (settings : Settings) (start : Nat) (form : NumberForm)
    (pointSeen : Bool) :
    Yields (σ := σ) (fun k => k = .number ∨ k = .bigInt) (suffix settings start form pointSeen) :=
  .bind_any fun _ =>
    .ite (.bind_any fun _ => .pure (.inr rfl))
      (.ite (.bind_any fun _ => .pure (.inl rfl)) (.pure (.inl rfl)))

theorem yields_ending (settings : Settings) (start : Nat) (form : NumberForm)
    (pointSeen : Bool) :
    Yields (σ := σ) (fun k => k = .number ∨ k = .bigInt) (ending settings start form pointSeen) :=
  (yields_suffix _ _ _ _).bind fun _ hk => .bind_any fun _ => .pure hk

theorem yields_afterFirstDigit (settings : Settings) (start : Nat) (first : Char) :
    Yields (σ := σ) Verdict.Sound (afterFirstDigit settings start first) := by
  refine .bind_any fun form => .ite (.bind_any fun _ => .bind_any fun n => ?_) ?_
  · -- a small integer is done here
    split
    · exact .pure ⟨rfl, rfl⟩
    · exact .bind_any fun _ => (yields_ending _ _ _ _).bind fun _ hk =>
        .pure (Verdict.sound_of_ending hk _)
  · exact (yields_ending _ _ _ _).bind fun _ hk => .pure (Verdict.sound_of_ending hk _)

theorem yields_afterPoint (settings : Settings) (start : Nat) :
    Yields (σ := σ) Verdict.Sound (afterPoint settings start) :=
  .bind_any fun _ => (yields_ending _ _ _ _).bind fun _ hk => .pure (Verdict.sound_of_ending hk _)

end Numeral

end Steps

/-! ### All rules -/

variable [SearchableSource σ]

/-- **Every rule gives sound lexemes**, as long as there is a character to start from. -/
theorem sound_step {settings : Settings} {lineBreak lineBreak' : Bool}
    {findings findings' : Findings} {r : Reader σ} {l : Lexeme σ} {c : Char}
    (h : step settings lineBreak findings r = .lexeme lineBreak' findings' l)
    (hc : r.char? = some c) : l.Sound := by
  cases foundAt_of_step h with
  | endOfInput hn =>
    rw [hn] at hc
    cases hc
  | word => exact (noNumber_word _ _ _).sound
  | numeral => exact Numeral.sound_lexeme (Numeral.yields_afterFirstDigit _ _ _) _
  | stringLiteral => exact (noNumber_stringLiteral _ _).sound
  | templatePiece => exact (noNumber_templatePiece _ _).sound
  | privateName => exact (noNumber_privateName _).sound
  | fractionNumeral => exact Numeral.sound_lexeme (Numeral.yields_afterPoint _ _) _
  | punctuator => exact (noNumber_ok _ rfl rfl rfl rfl).sound
  | illegal => exact (noNumber_illegal _ _ rfl rfl).sound

/-- A token is the end of input, after which nothing is left, or it is that of a sound
lexeme. -/
theorem scanToken_cases (settings : Settings) (lineBreak : Bool) (findings : Findings)
    (r : Reader σ) :
    ((scanToken settings lineBreak findings r).token.kind = .endOfInput ∧
        (scanToken settings lineBreak findings r).reader.char? = none) ∨
      ∃ (start : Nat) (lineBreak' : Bool) (l : Lexeme σ), l.Sound ∧
        (scanToken settings lineBreak findings r).token = l.toToken start lineBreak' := by
  fun_induction scanToken settings lineBreak findings r with
  | case1 _ _ _ _ _ _ _ ih => exact ih
  | case2 lineBreak findings r lineBreak' findings' l h =>
    cases hc : r.char? with
    | none =>
      rw [step_of_char?_eq_none _ _ _ hc] at h
      cases h
      exact .inl ⟨rfl, hc⟩
    | some c => exact .inr ⟨r.position, lineBreak', l, sound_step h hc, rfl⟩

/-- No token is white space or missing. -/
theorem kind_scanToken (settings : Settings) (lineBreak : Bool) (findings : Findings)
    (r : Reader σ) :
    (scanToken settings lineBreak findings r).token.kind ≠ .whitespace ∧
      (scanToken settings lineBreak findings r).token.kind ≠ .uninitialized := by
  rcases scanToken_cases settings lineBreak findings r with ⟨hk, -⟩ | ⟨_, _, l, hl, ht⟩
  · rw [hk]
    decide
  · rw [ht]
    show l.kind ≠ _ ∧ l.kind ≠ _
    rcases hl.kind with hk | hk
    · rw [hk]
      decide
    · constructor <;> (intro he; rw [he] at hk; cases hk)

/-- Nothing is left after the end of input. -/
theorem char?_of_scanToken_eq_endOfInput {settings : Settings} {lineBreak : Bool}
    {findings : Findings} {r : Reader σ}
    (h : (scanToken settings lineBreak findings r).token.kind = .endOfInput) :
    (scanToken settings lineBreak findings r).reader.char? = none := by
  rcases scanToken_cases settings lineBreak findings r with ⟨-, hc⟩ | ⟨_, _, l, hl, ht⟩
  · exact hc
  · rw [ht] at h
    exact absurd h hl.kind_ne_endOfInput

end EcmaLex
