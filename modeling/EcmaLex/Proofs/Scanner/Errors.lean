import EcmaLex.Listing.Basic
import EcmaLex.Proofs.Lexeme.Sound
import EcmaLex.Proofs.Scanner.Operation

/-!
# Illegal tokens and their errors

A token is illegal just if something is wrong with it, and its other data agree with
its kind as well.  That is so of every token that a scanner holds, whatever it was
told to do, although its slots are used again and only partly cleared.

The two slots of the current and the next token never hold what is left of an older
token: a token gets into them only from a scan, or from the third slot while that is in
use.  So what is wrong with the current token is never out of date.

## Main definitions

* `Token.Consistent` — the kind of the token agrees with its data.
* `Scanner.Consistent` — so it is in all slots.

## Main results

* `Scanner.Consistent.run` — **no operations make a token inconsistent**.
* `Scanner.illegal_iff_error` — **tokens are illegal just if they have errors**, for all slots,
  for the answers of a scanner and for listings.
-/

namespace EcmaLex

/-- The kind of a token agrees with its data. -/
structure Token.Consistent (t : Token) : Prop where
  /-- The illegal tokens are those with an error. -/
  illegal_iff : t.kind = .illegal ↔ t.error?.isSome = true
  /-- White space is no token. -/
  kind_ne : t.kind ≠ .whitespace
  /-- The tokens with a value are the small integers. -/
  smallInt_iff : t.smallInt?.isSome = true ↔ t.kind = .smallInt
  /-- The tokens with a form are the numbers. -/
  form_iff : t.form?.isSome = true ↔ t.kind = .smallInt ∨ t.kind = .number ∨ t.kind = .bigInt

theorem TokenKind.isNumeric_iff (k : TokenKind) :
    k.isNumeric = true ↔ k = .smallInt ∨ k = .number ∨ k = .bigInt := by
  cases k <;> simp [isNumeric]

section Tokens

variable {σ : Type}

/-- A sound lexeme is illegal just if it has an error. -/
theorem Lexeme.Sound.illegal_iff {l : Lexeme σ} (h : l.Sound) :
    l.kind = .illegal ↔ l.error?.isSome = true := by
  unfold Lexeme.kind Lexeme.error?
  cases hv : l.verdict with
  | ok k =>
    -- text of some kind is not illegal
    have hk := h.isText k hv
    refine iff_of_false ?_ Bool.false_ne_true
    rintro rfl
    cases hk
  | error d => exact iff_of_true rfl rfl

theorem Lexeme.Sound.consistent [TextSource σ] {l : Lexeme σ} (h : l.Sound) (start : Nat)
    (lineBreak : Bool) : (l.toToken start lineBreak).Consistent where
  illegal_iff := h.illegal_iff
  kind_ne := by
    show l.kind ≠ .whitespace
    intro he
    rcases h.kind with hk | hk
    · rw [hk] at he
      cases he
    · rw [he] at hk
      cases hk
  smallInt_iff := by
    show l.text.smallInt?.isSome = true ↔ l.kind = .smallInt
    rw [h.smallInt, beq_iff_eq]
  form_iff := by
    show l.text.form?.isSome = true ↔ _
    rw [h.form]
    exact l.kind.isNumeric_iff

variable [SearchableSource σ]

/-- Every token that is scanned is consistent, the end of input among them. -/
theorem consistent_scanToken (settings : Settings) (lineBreak : Bool) (findings : Findings)
    (r : Reader σ) : (scanToken settings lineBreak findings r).token.Consistent := by
  fun_induction scanToken settings lineBreak findings r with
  | case1 _ _ _ _ _ _ _ ih => exact ih
  | case2 lineBreak findings r lineBreak' findings' l h =>
    cases hc : r.char? with
    | none =>
      rw [step_of_char?_eq_none _ _ _ hc] at h
      cases h
      -- the end of input has no data
      refine ⟨?_, ?_, ?_, ?_⟩
      · exact iff_of_false (by rintro ⟨⟩) Bool.false_ne_true
      · rintro ⟨⟩
      · exact iff_of_false Bool.false_ne_true (by rintro ⟨⟩)
      · exact iff_of_false Bool.false_ne_true (by rintro (hk | hk | hk) <;> cases hk)
    | some c => exact (sound_step h hc).consistent r.position lineBreak'

end Tokens

namespace Scanner

variable {σ : Type}

/-- The tokens in the slots are consistent.  The third slot may hold what is left of an
older token, the other two may not. -/
structure Consistent (s : Scanner σ) : Prop where
  /-- The current token, if there has been one. -/
  current : s.current.Consistent ∨ s.current = .absent
  /-- The next token, if there has been one. -/
  next : s.next.Consistent ∨ s.next = .absent
  /-- The token after the next one, if there is one. -/
  afterNext : s.isAhead = true → s.afterNext.Consistent

namespace Consistent

variable {s : Scanner σ}

theorem ofSource (settings : Settings) (source : σ) : (ofSource settings source).Consistent := by
  refine ⟨.inr rfl, .inr rfl, fun h => ?_⟩
  cases h

theorem dropOctal (h : s.Consistent) : s.dropOctal.Consistent := ⟨h.current, h.next, h.afterNext⟩

/-- A slot that holds a token holds a consistent one. -/
theorem token (h : s.Consistent) (slot : Slot) (hk : (s.token slot).kind ≠ .uninitialized) :
    (s.token slot).Consistent := by
  cases slot with
  | current =>
    rcases h.current with hc | ha
    · exact hc
    · exact absurd (congrArg Token.kind ha) hk
  | next =>
    rcases h.next with hc | ha
    · exact hc
    · exact absurd (congrArg Token.kind ha) hk
  | afterNext =>
    have hk : s.afterNext.kind ≠ .uninitialized := hk
    exact h.afterNext (by simpa [isAhead] using hk)

/-- The current token is illegal just if it has an error, also before there has been
one. -/
theorem current_illegal_iff (h : s.Consistent) :
    s.current.kind = .illegal ↔ s.current.error?.isSome = true := by
  rcases h.current with hc | ha
  · exact hc.illegal_iff
  · rw [ha]
    exact iff_of_false (by decide) Bool.false_ne_true

/-- The scanner gives an error in place of a kind just if the current token is illegal. -/
theorem verdict_iff (h : s.Consistent) :
    (∃ d, s.verdict = .error d) ↔ s.current.kind = .illegal := by
  rw [h.current_illegal_iff]
  unfold Scanner.verdict
  cases s.current.error? with
  | none =>
    refine iff_of_false ?_ Bool.false_ne_true
    rintro ⟨d, hd⟩
    cases hd
  | some d => exact iff_of_true ⟨d, rfl⟩ rfl

variable [SearchableSource σ]

theorem start (h : s.Consistent) : s.start.Consistent :=
  ⟨h.current, .inl (consistent_scanToken _ _ _ _), h.afterNext⟩

/-- Moving on puts a token that was scanned into the next slot. -/
theorem next_advance (h : s.Consistent) : s.advance.next.Consistent := by
  cases ha : s.isAhead with
  | true =>
    rw [advance_of_isAhead ha]
    exact h.afterNext ha
  | false =>
    rw [advance_of_not_isAhead ha]
    exact consistent_scanToken _ _ _ _

theorem advance (h : s.Consistent) : s.advance.Consistent := by
  have hnext := h.next_advance
  refine ⟨?_, .inl hnext, ?_⟩
  · rw [advance_current]
    exact h.next
  · -- the third slot is empty after a move, whether it was so before or not
    intro ha
    cases ha' : s.isAhead with
    | true =>
      rw [advance_of_isAhead ha'] at ha
      cases ha
    | false =>
      rw [advance_of_not_isAhead ha'] at ha
      have hahead : s.isAhead = true := ha
      rw [ha'] at hahead
      cases hahead

theorem peekAhead (h : s.Consistent) : s.peekAhead.Consistent := by
  unfold Scanner.peekAhead
  split
  · exact h
  · exact ⟨h.current, h.next, fun _ => consistent_scanToken _ _ _ _⟩

theorem continueTemplate (h : s.Consistent) : s.continueTemplate.2.Consistent := by
  unfold Scanner.continueTemplate
  split
  · exact ⟨h.current, .inl ((noNumber_templatePiece _ _).sound.consistent _ _), h.afterNext⟩
  · exact h

/-- Every operation keeps the tokens consistent. -/
theorem perform (h : s.Consistent) (op : Operation) : (op.perform s).2.Consistent := by
  cases op with
  | start => exact h.start
  | advance => exact h.advance
  | tryAdvance => exact h.advance
  | peekAhead => exact h.peekAhead
  | peekAheadSpan => exact h.peekAhead
  | lineBreakAhead => exact h.peekAhead
  | continueTemplate => exact h.continueTemplate
  | takeOctal => exact h.dropOctal
  | query q => exact h

/-- **No operations make a token inconsistent.** -/
theorem run (h : s.Consistent) (ops : List Operation) : (s.run ops).Consistent := by
  induction ops generalizing s with
  | nil => exact h
  | cons op ops ih => exact ih (h.perform op)

end Consistent

end Scanner

/-! ### Listings -/

namespace Listing

variable {σ : Type} [SearchableSource σ]

/-- The errors are those of the illegal tokens, in the same order. -/
def Reports (l : Listing) : Prop :=
  l.errors.toList.map some = (l.tokens.toList.filter (·.kind == .illegal)).map (·.error?)

/-- Listing a token that is illegal just if it has an error. -/
theorem Reports.pushToken {l : Listing} (h : l.Reports) {t : Token}
    (ht : t.kind = .illegal ↔ t.error?.isSome = true) : (l.pushToken t).Reports := by
  unfold Reports at h ⊢
  have htokens : (l.pushToken t).tokens.toList = l.tokens.toList ++ [t] := by
    simp [Listing.pushToken]
  rw [htokens, List.filter_append, List.map_append, ← h]
  cases he : t.error? with
  | none =>
    have hk : (t.kind == .illegal) = false := by
      rw [he] at ht
      simpa using mt ht.1 Bool.false_ne_true
    have herrors : (l.pushToken t).errors = l.errors := by
      simp [Listing.pushToken, he]
    simp [herrors, hk]
  | some d =>
    have hk : t.kind = .illegal := ht.2 (by rw [he]; rfl)
    have herrors : (l.pushToken t).errors = l.errors.push d := by
      simp [Listing.pushToken, he]
    simp [herrors, hk, he]

theorem Reports.collect {l : Listing} {s : Scanner σ} (h : l.Reports) (hs : s.Consistent) :
    (Listing.collect l s).Reports := by
  fun_induction Listing.collect l s with
  | case1 l s s' l' hlast => exact h.pushToken hs.advance.current_illegal_iff
  | case2 l s s' l' hlast ih =>
    exact ih (h.pushToken hs.advance.current_illegal_iff) hs.advance.dropOctal

/-- The errors of a listing are those of its illegal tokens. -/
theorem reports_ofSource (settings : Settings) (source : σ) :
    (ofSource settings source).Reports :=
  Reports.collect rfl (Scanner.Consistent.ofSource settings source).start.dropOctal

end Listing

/-- **Tokens are illegal just if they have errors.**  After any operations, every slot that
holds a token holds a consistent one.  Asked to move on, the scanner gives an error
just if the token that it moves onto is illegal.  A listing reports the errors of its
illegal tokens in their order, and no others. -/
theorem Scanner.illegal_iff_error {σ : Type} [SearchableSource σ] (settings : Settings)
    (source : σ) (ops : List Operation) :
    let s := (ofSource settings source).run ops
    (∀ slot, (s.token slot).kind ≠ .uninitialized → (s.token slot).Consistent) ∧
      ((∃ d, (Operation.tryAdvance.perform s).1 = .verdict (.error d)) ↔
        (Operation.advance.perform s).1 = .kind .illegal) ∧
      ∀ text : String,
        (tokenize settings text).errors.toList.map some =
          ((tokenize settings text).tokens.toList.filter (·.kind == .illegal)).map (·.error?) := by
  intro s
  have hs : s.Consistent := (Consistent.ofSource settings source).run ops
  refine ⟨fun slot hk => hs.token slot hk, ?_, fun text => Listing.reports_ofSource settings _⟩
  show (∃ d, Reply.verdict s.advance.verdict = .verdict (.error d)) ↔
    Reply.kind s.advance.current.kind = .kind .illegal
  rw [Reply.kind.injEq, ← hs.advance.verdict_iff]
  simp only [Reply.verdict.injEq]

end EcmaLex
