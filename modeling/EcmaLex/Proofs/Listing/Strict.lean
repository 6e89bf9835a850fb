import EcmaLex.Proofs.Listing.LineBreak
import EcmaLex.Proofs.Scanner.Errors

/-!
# Literals that strict mode code may not hold

The scanner keeps one such literal at a time, the latest, and it is one token ahead of the
listing.  Still the listing says exactly what there is to say to the tokens in it: the literal
that is kept when a token has been scanned is that token, and it is taken away before the next
one is scanned.

## Main definitions

* `Token.strictDiagnostic?` — what strict mode code would say to a token.

## Main results

* `octal?_scanToken_or` — what is noted while a token is scanned is about that token.
* `Listing.strictDiagnostics_tokenize` — **the strict diagnostics are those of the tokens**.
-/

namespace EcmaLex

/-- What strict mode code would say to the token, at the place of the token. -/
def Token.strictDiagnostic? (t : Token) : Option Diagnostic :=
  match t.form? with
  | some .implicitOctal => some ⟨t.span, .strictOctalLiteral⟩
  | some .decimalWithLeadingZero => some ⟨t.span, .strictDecimalWithLeadingZero⟩
  | _ => none

/-! ### Lexemes -/

section Lexemes

variable {σ : Type}

/-- Strict mode code has nothing to say to the lexeme. -/
def Lexeme.Lenient (l : Lexeme σ) : Prop := l.text.form?.bind NumberForm.strictCause = none

theorem Lexeme.NoNumber.lenient {l : Lexeme σ} (h : l.NoNumber) : l.Lenient := by
  rw [Lenient, h.form]
  rfl

theorem Numeral.lenient_lexeme {x : Reading σ Verdict}
    (h : Yields (fun v => v.form.strictCause = none) x) (n : Numeral σ) : (lexeme x n).Lenient := by
  unfold lexeme
  split
  · next v n' hr => exact h n n' v hr
  · rfl

variable [TextSource σ]

theorem Lexeme.Lenient.strictDiagnostic? {l : Lexeme σ} (h : l.Lenient) (start : Nat)
    (lineBreak : Bool) : (l.toToken start lineBreak).strictDiagnostic? = none := by
  unfold Token.strictDiagnostic? Lexeme.toToken
  dsimp only
  split
  · next hf =>
    rw [Lenient, hf] at h
    cases h
  · next hf =>
    rw [Lenient, hf] at h
    cases h
  · rfl

/-- A literal that begins with a point has no leading zero. -/
theorem lenient_fractionNumeral (settings : Settings) (start : Nat) (r : Reader σ) :
    (fractionNumeral settings start r).Lenient := by
  apply Numeral.lenient_lexeme
  apply Numeral.Yields.bind_any
  intro _
  apply Numeral.Yields.bind_any
  intro k
  exact .pure rfl

/-- What is noted of a numeral is what strict mode code would say to it.  Where that is nothing, what
was noted before stays. -/
theorem octal?_noteLegacyOctal (f : Findings) (l : Lexeme σ) (start : Nat) (lineBreak : Bool) :
    (f.noteLegacyOctal l.text.form? ⟨start, l.reader.position⟩).octal? =
      (l.toToken start lineBreak).strictDiagnostic?.or f.octal? := by
  unfold Findings.noteLegacyOctal Token.strictDiagnostic? Lexeme.toToken
  dsimp only
  rcases l.text.form? with - | form
  · rfl
  · cases form <;> rfl

end Lexemes

/-! ### Rules -/

variable {σ : Type} [SearchableSource σ] {settings : Settings} {lineBreak lineBreak' : Bool}
  {f f' : Findings} {r : Reader σ} {l : Lexeme σ}

/-- The lexemes that are no numerals with a leading digit are lenient. -/
theorem Lexeme.FoundAt.lenient (h : l.FoundAt settings r)
    (hdigit : r.isAtAny isDecimalDigit = false) : l.Lenient := by
  cases h with
  | endOfInput => rfl
  | word => exact (noNumber_word _ _ _).lenient
  | numeral hc hd =>
    rw [Reader.isAtAny, hc, Option.any_some, hd] at hdigit
    cases hdigit
  | stringLiteral => exact (noNumber_stringLiteral _ _).lenient
  | templatePiece => exact (noNumber_templatePiece _ _).lenient
  | privateName => exact (noNumber_privateName _).lenient
  | fractionNumeral => exact lenient_fractionNumeral _ _ _
  | punctuator => rfl
  | illegal => rfl

/-- Only numerals with a leading digit are noted. -/
theorem octal?_step (settings : Settings) (lineBreak : Bool) (f : Findings)
    (hdigit : r.isAtAny isDecimalDigit = false) :
    (step settings lineBreak f r).findings.octal? = f.octal? := by
  have hs := chosen_step settings lineBreak f r
  generalize step settings lineBreak f r = s at hs ⊢
  cases hs with
  | numeral hc hd =>
    rw [Reader.isAtAny, hc, Option.any_some, hd] at hdigit
    cases hdigit
  | operator => exact octal?_operator _ _ _ _ _ _
  | _ => rfl

/-- What a rule notes is what strict mode code would say to its lexeme. -/
theorem octal?_of_step_eq_lexeme (h : step settings lineBreak f r = .lexeme lineBreak' f' l) :
    f'.octal? = (l.toToken r.position lineBreak').strictDiagnostic?.or f.octal? := by
  cases hdigit : r.isAtAny isDecimalDigit with
  | true =>
    obtain ⟨c, hc, hd⟩ := (Option.any_eq_true _ _).1 hdigit
    rw [step_eq_numeral hc hd] at h
    cases h
    exact octal?_noteLegacyOctal f _ _ _
  | false =>
    have hf' := octal?_step settings lineBreak f hdigit
    rw [h] at hf'
    rw [((foundAt_of_step h).lenient hdigit).strictDiagnostic?]
    exact hf'

/-- **What is noted while a token is scanned is about that token**, and where there is nothing to
say to it, what was noted before stays. -/
theorem octal?_scanToken_or (settings : Settings) (lineBreak : Bool) (f : Findings)
    (r : Reader σ) :
    (scanToken settings lineBreak f r).findings.octal? =
      (scanToken settings lineBreak f r).token.strictDiagnostic?.or f.octal? := by
  fun_induction scanToken settings lineBreak f r with
  | case1 lineBreak f r _ _ _ h ih => rw [ih, octal?_of_step_eq_gap h]
  | case2 lineBreak f r _ _ l h => exact octal?_of_step_eq_lexeme h

theorem octal?_scanToken_eq (hf : f.octal? = none) :
    (scanToken settings lineBreak f r).findings.octal? =
      (scanToken settings lineBreak f r).token.strictDiagnostic? := by
  rw [octal?_scanToken_or, hf, Option.or_none]

/-- Only numbers have a form to which strict mode code has something to say. -/
theorem Token.Consistent.strictDiagnostic? {t : Token} (h : t.Consistent)
    (hk : t.kind = .illegal) : t.strictDiagnostic? = none := by
  have hform : t.form? = none := by
    rw [← Option.not_isSome_iff_eq_none, h.form_iff, hk]
    simp
  rw [Token.strictDiagnostic?, hform]

/-! ### Listings -/

/-- Every entry of a trail comes from a scan that starts with nothing noted. -/
theorem exists_scanToken_of_mem_trail (hf : f.octal? = none) {e : Entry}
    (he : e ∈ (trail settings lineBreak f r).entries) :
    ∃ (lineBreak' : Bool) (f' : Findings) (r' : Reader σ), f'.octal? = none ∧
      e = ⟨(scanToken settings lineBreak' f' r').token,
        (scanToken settings lineBreak' f' r').findings.octal?⟩ := by
  fun_induction trail settings lineBreak f r with
  | case1 lineBreak f r => exact ⟨lineBreak, f, r, hf, List.mem_singleton.1 he⟩
  | case2 lineBreak f r _ _ _ ih =>
    rcases List.mem_cons.1 he with he | he
    · exact ⟨lineBreak, f, r, hf, he⟩
    · -- what was noted is taken away before the next token is scanned
      exact ih rfl he

namespace Listing

/-- The strict diagnostics of a listing are those of its tokens. -/
theorem strictDiagnostics_ofSource (settings : Settings) (source : σ) :
    (ofSource settings source).strictDiagnostics.toList =
      (ofSource settings source).tokens.toList.filterMap Token.strictDiagnostic? := by
  rw [ofSource_eq, Trail.strictDiagnostics_appendTo, Trail.tokens_appendTo, List.filterMap_map]
  apply List.filterMap_congr
  intro e he
  obtain ⟨_, _, _, hf, rfl⟩ := exists_scanToken_of_mem_trail rfl he
  exact octal?_scanToken_eq hf

/-- The tokens of a listing are consistent. -/
theorem consistent_of_mem_ofSource {settings : Settings} {source : σ} {t : Token}
    (ht : t ∈ (ofSource settings source).tokens) : t.Consistent := by
  rw [ofSource_eq, ← Array.mem_toList_iff, Trail.tokens_appendTo] at ht
  obtain ⟨e, he, rfl⟩ := List.mem_map.1 ht
  obtain ⟨_, _, _, -, rfl⟩ := exists_scanToken_of_mem_trail rfl he
  exact consistent_scanToken _ _ _ _

/-- **The strict diagnostics of a listing are those of its tokens**, in their order: one for
every legacy literal that is listed, at its place, and none for text with an error. -/
theorem strictDiagnostics_tokenize (settings : Settings) (source : String) :
    let listing := tokenize settings source
    listing.strictDiagnostics.toList = listing.tokens.toList.filterMap Token.strictDiagnostic? ∧
      ∀ t ∈ listing.tokens, t.kind = .illegal → t.strictDiagnostic? = none := by
  intro listing
  constructor
  · exact strictDiagnostics_ofSource settings (ByteCursor.ofString source)
  · intro t ht hk
    exact (consistent_of_mem_ofSource ht).strictDiagnostic? hk

end Listing

/-- Adjacent legacy literals, and one that is not listed. -/
example : (tokenize {} "01 08 1_ #\n07").strictDiagnostics.toList =
    [⟨⟨0, 2⟩, .strictOctalLiteral⟩, ⟨⟨3, 5⟩, .strictDecimalWithLeadingZero⟩] := by
  decide +kernel

end EcmaLex
