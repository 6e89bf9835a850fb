import EcmaLex.Proofs.Lexeme.Rule

/-!
# What each rule rejects

A rule that rejects its text says why, and every rule has reasons of its own: those
of numbers are not those of names, and none of them is that of a comment.  So the
cause of an error tells which rule found it.

## Main definitions

* `Cause.isOfNumber`, `Cause.isOfName` — the causes of numbers and of names.
* `Lexeme.hasErrorOf`, `Token.hasErrorOf` — whether there is an error with one of some causes.
* `Lexeme.Raises`, `Numeral.Raises` — a lexeme is rejected, or a reading fails, with one of
  some causes only.

## Main results

* `raises_numeral`, `raises_privateName`, `raises_stringLiteral`, `raises_templatePiece` —
  **the causes with which each rule rejects its text**.
-/

namespace EcmaLex

namespace Cause

/-- Whether it is a number that is rejected. -/
def isOfNumber : Cause → Bool
  | zeroDigitSeparator | continuousSeparator | trailingSeparator | leadingSeparator
  | missingDigits | identifierAfterNumber | bigIntTooBig => true
  | _ => false

/-- Whether it is a name that is rejected. -/
def isOfName : Cause → Bool
  | invalidPrivateName | invalidUnicodeEscape => true
  | _ => false

end Cause

/-- Whether the lexeme is rejected with one of the causes. -/
def Lexeme.hasErrorOf {σ : Type} (p : Cause → Bool) (l : Lexeme σ) : Bool :=
  l.error?.any fun d => p d.cause

/-- Whether the token is text that was rejected with one of the causes. -/
def Token.hasErrorOf (p : Cause → Bool) (t : Token) : Bool := t.error?.any fun d => p d.cause

/-- If the lexeme is rejected, then with one of the causes. -/
def Lexeme.Raises {σ : Type} (p : Cause → Bool) (l : Lexeme σ) : Prop :=
  ∀ d, l.verdict = .error d → p d.cause = true

namespace Lexeme.Raises

variable {σ : Type} {p : Cause → Bool}

theorem ok (kind : TokenKind) (text : TokenText) (r : Reader σ) :
    Raises p ⟨.ok kind, text, r⟩ :=
  nofun

theorem illegal {d : Diagnostic} (h : p d.cause = true) (text : TokenText) (r : Reader σ) :
    (Lexeme.illegal d text r).Raises p := by
  intro d' hd
  cases hd
  exact h

/-- A lexeme is not rejected with any other cause. -/
theorem hasErrorOf_eq_false {l : Lexeme σ} (h : l.Raises p) {cause : Cause}
    (hc : p cause = false) : l.hasErrorOf (· == cause) = false := by
  unfold hasErrorOf error?
  split
  · rfl
  · next d hd =>
    have hp := h d hd
    apply beq_eq_false_iff_ne.2
    intro he
    rw [he, hc] at hp
    cases hp

end Lexeme.Raises

open Lexeme

section Rules

variable {σ : Type} [TextSource σ]

/-! ### Words -/

theorem raises_carefulRun (w : Word.Progress σ) :
    ∀ d, (Word.carefulRun w).2 = some d → d.cause = .invalidUnicodeEscape := by
  fun_induction Word.carefulRun w with
  | case1 =>
    intro d hd
    cases hd
  | case2 _ _ _ _ _ _ _ ih => exact ih
  | case3 =>
    intro d hd
    cases hd
    rfl
  | case4 _ _ _ _ _ ih => exact ih
  | case5 =>
    intro d hd
    cases hd

theorem raises_finish (w : Word.Progress σ) : (Word.finish w).Raises Cause.isOfName := by
  have hw := raises_carefulRun w
  unfold Word.finish
  dsimp only
  split
  · next d hd =>
    refine .illegal ?_ _ _
    rw [hw d hd]
    rfl
  · exact .ok _ _ _

theorem raises_word (text : String) (first : Char) (r : Reader σ) :
    (word text first r).Raises Cause.isOfName := by
  unfold word
  split
  · split
    · exact raises_finish _
    · exact .illegal rfl _ _
  · split
    · dsimp only
      split
      · exact raises_finish _
      · exact .ok _ _ _
    · exact raises_finish _

/-- A private name is rejected with the causes of its word, or because there is none. -/
theorem raises_privateName (r : Reader σ) : (privateName r).Raises Cause.isOfName := by
  unfold privateName
  split
  · next first _ =>
    have hw := raises_word "#" first r.advance
    intro d hd
    dsimp only at hd
    cases hv : (word "#" first r.advance).verdict with
    | ok k =>
      rw [hv] at hd
      cases hd
    | error d' =>
      rw [hv] at hd
      cases hd
      exact hw d hv
  · exact .illegal rfl _ _

/-! ### Strings and templates -/

theorem raises_stringLiteral (quote : Char) (r : Reader σ) :
    (stringLiteral quote r).Raises (· == .unterminatedString) := by
  unfold stringLiteral
  dsimp only
  split
  · exact .ok _ _ _
  · exact .illegal rfl _ _

theorem raises_templatePiece (opening : Nat) (r : Reader σ) :
    (templatePiece opening r).Raises (· == .unterminatedTemplate) := by
  unfold templatePiece
  dsimp only
  split
  · exact .ok _ _ _
  · exact .ok _ _ _
  · exact .illegal rfl _ _

/-! ### Numbers -/

namespace Numeral

/-- If the reading fails, then with one of the causes. -/
def Raises (p : Cause → Bool) {α : Type} (x : Reading σ α) : Prop :=
  ∀ n d n', x n = .error d n' → p d.cause = true

namespace Raises

variable {α β : Type} {p : Cause → Bool}

omit [TextSource σ]

theorem pure (a : α) : Raises p (Pure.pure a : Reading σ α) := nofun

theorem get : Raises p (MonadState.get : Reading σ (Numeral σ)) := nofun

theorem modifyGet (f : Numeral σ → α × Numeral σ) :
    Raises p (MonadStateOf.modifyGet f : Reading σ α) :=
  nofun

theorem throw {d : Diagnostic} (h : p d.cause = true) :
    Raises p (MonadExcept.throw d : Reading σ α) := by
  intro n d' n' hd
  cases hd
  exact h

theorem bind {x : Reading σ α} {f : α → Reading σ β} (hx : Raises p x)
    (hf : ∀ a, Raises p (f a)) : Raises p (x >>= f) := by
  intro n d n' h
  simp only [Bind.bind, EStateM.bind] at h
  split at h
  · next a n₁ hr => exact hf a n₁ d n' h
  · next d₁ n₁ hr =>
    cases h
    exact hx n d n' hr

theorem ite {c : Prop} [Decidable c] {x y : Reading σ α} (hx : Raises p x) (hy : Raises p y) :
    Raises p (if c then x else y) := by
  split
  · exact hx
  · exact hy

end Raises

omit [TextSource σ] in
theorem raises_lexeme {p : Cause → Bool} {x : Reading σ Verdict} (h : Raises p x)
    (n : Numeral σ) : (lexeme x n).Raises p := by
  unfold lexeme
  split
  · exact .ok _ _ _
  · next d n' hr => exact .illegal (h n d n' hr) _ _

theorem raises_failHere {α : Type} {p : Cause → Bool} {cause : Cause} (h : p cause = true) :
    Raises p (failHere cause : Reading σ α) :=
  Raises.get.bind fun _ => .throw h

/-- A run of digits is rejected for its separators only. -/
theorem raises_digitRun (isDigit : Char → Bool) (separators seen : Bool) (separator : Option Span)
    (n : Numeral σ) :
    ∀ d, (digitRun isDigit separators seen separator n).2 = some d →
      d.cause.isOfNumber = true := by
  have htrailing : ∀ {separator : Option Span} {d : Diagnostic},
      separator.map (Diagnostic.mk · .trailingSeparator) = some d → d.cause.isOfNumber = true := by
    intro separator d hd
    obtain ⟨s, -, rfl⟩ := Option.map_eq_some_iff.1 hd
    rfl
  fun_induction digitRun isDigit separators seen separator n with
  | case1 => exact fun _ => htrailing
  | case2 _ _ _ _ _ _ ih => exact ih
  | case3 =>
    intro d hd
    cases hd
    rfl
  | case4 =>
    intro d hd
    cases hd
    rfl
  | case5 _ _ _ _ _ _ _ _ _ ih => exact ih
  | case6 => exact fun _ => htrailing

theorem raises_digits (isDigit : Char → Bool) (separators seen : Bool) :
    Raises Cause.isOfNumber (digits (σ := σ) isDigit separators seen) := by
  intro n d n' h
  have hd := raises_digitRun isDigit separators seen none n
  unfold digits at h
  generalize digitRun isDigit separators seen none n = run at h hd
  obtain ⟨n₁, _ | d₁⟩ := run
  · cases h
  · cases h
    exact hd d rfl

theorem raises_someDigits (isDigit : Char → Bool) (separators : Bool) :
    Raises Cause.isOfNumber (someDigits (σ := σ) isDigit separators) :=
  Raises.get.bind fun _ =>
    .ite (raises_digits _ _ _) (.ite (raises_failHere rfl) (raises_failHere rfl))

theorem raises_radixDigits (form : NumberForm) (isDigit : Char → Bool) (separators : Bool) :
    Raises Cause.isOfNumber (radixDigits (σ := σ) form isDigit separators) :=
  (Raises.modifyGet _).bind fun _ => (raises_someDigits _ _).bind fun _ => .pure _

theorem raises_lead (settings : Settings) (first : Char) :
    Raises Cause.isOfNumber (lead (σ := σ) settings first) := by
  unfold lead
  refine .ite (.pure _) (Raises.get.bind fun n => ?_)
  split
  · exact .pure _
  · exact .ite (raises_radixDigits _ _ _) <| .ite (raises_radixDigits _ _ _) <|
      .ite (raises_radixDigits _ _ _) <| .ite (.modifyGet _) <| .ite (.pure _) <|
      .ite (raises_failHere rfl) (.pure _)

theorem raises_fraction (separators : Bool) :
    Raises Cause.isOfNumber (fraction (σ := σ) separators) :=
  Raises.get.bind fun _ =>
    .ite ((Raises.modifyGet _).bind fun _ => (raises_digits _ _ _).bind fun _ => .pure _)
      (.pure _)

theorem raises_bigIntSuffix (settings : Settings) (start : Nat) (form : NumberForm) :
    Raises Cause.isOfNumber (bigIntSuffix (σ := σ) settings start form) :=
  Raises.get.bind fun _ => .ite (.throw rfl) (.modifyGet _)

theorem raises_exponent (settings : Settings) (form : NumberForm) :
    Raises Cause.isOfNumber (exponent (σ := σ) settings form) := by
  have hsign : Raises Cause.isOfNumber (sign (σ := σ)) :=
    Raises.get.bind fun _ => .ite (.modifyGet _) (.pure _)
  refine .ite ?_ (raises_failHere rfl)
  exact (Raises.modifyGet _).bind fun _ => hsign.bind fun _ => raises_someDigits _ _

theorem raises_suffix (settings : Settings) (start : Nat) (form : NumberForm)
    (pointSeen : Bool) :
    Raises Cause.isOfNumber (suffix (σ := σ) settings start form pointSeen) :=
  Raises.get.bind fun _ =>
    .ite ((raises_bigIntSuffix _ _ _).bind fun _ => .pure _)
      (.ite ((raises_exponent _ _).bind fun _ => .pure _) (.pure _))

theorem raises_ending (settings : Settings) (start : Nat) (form : NumberForm)
    (pointSeen : Bool) :
    Raises Cause.isOfNumber (ending (σ := σ) settings start form pointSeen) := by
  have hboundary : Raises Cause.isOfNumber (boundary (σ := σ)) :=
    Raises.get.bind fun _ => .ite (raises_failHere rfl) (.pure _)
  exact (raises_suffix _ _ _ _).bind fun _ => hboundary.bind fun _ => .pure _

theorem raises_afterFirstDigit (settings : Settings) (start : Nat) (first : Char) :
    Raises Cause.isOfNumber (afterFirstDigit (σ := σ) settings start first) := by
  refine (raises_lead _ _).bind fun form => .ite ?_ ?_
  · refine (raises_digits _ _ _).bind fun _ => Raises.get.bind fun n => ?_
    split
    · exact .pure _
    · exact (raises_fraction _).bind fun _ => (raises_ending _ _ _ _).bind fun _ => .pure _
  · exact (raises_ending _ _ _ _).bind fun _ => .pure _

theorem raises_afterPoint (settings : Settings) (start : Nat) :
    Raises Cause.isOfNumber (afterPoint (σ := σ) settings start) :=
  (raises_someDigits _ _).bind fun _ => (raises_ending _ _ _ _).bind fun _ => .pure _

end Numeral

theorem raises_numeral (settings : Settings) (first : Char) (r : Reader σ) :
    (numeral settings first r).Raises Cause.isOfNumber :=
  Numeral.raises_lexeme (Numeral.raises_afterFirstDigit _ _ _) _

theorem raises_fractionNumeral (settings : Settings) (start : Nat) (r : Reader σ) :
    (fractionNumeral settings start r).Raises Cause.isOfNumber :=
  Numeral.raises_lexeme (Numeral.raises_afterPoint _ _) _

end Rules

end EcmaLex
