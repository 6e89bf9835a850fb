import EcmaLex.Proofs.Listing.Strict

/-!
# The legacy literal that is kept

A scanner keeps one literal that strict mode code may not hold, the latest, until it is asked for
it.  Tokens are scanned one or two ahead of the one that the scanner is on, by whichever operation
needs them first, and some moves scan none at all.  What is kept depends on none of this.  It is
told by the tokens that have been scanned, in their order, and by when the scanner was asked.

So a caller who asks after every scan gets them all.  One who lets a second literal be scanned first
loses the one before it.

## Main definitions

* `Operation.scanned?`, `Scanner.scanned` — the tokens that operations scan.
* `Scanner.sinceTaken` — those scanned since the scanner was last asked.
* `Scanner.taken` — what the scanner answers when it is asked.
* `Scanner.takesEach` — it is asked after every scan.

## Main results

* `Operation.octal?_perform` — what one operation does to the literal that is kept.
* `Scanner.exists_octal?_eq` — the literal that is kept was in a slot when it was scanned.
* `Scanner.octal?_run` — **the literal kept is the last one scanned since the last was taken**.
-/

namespace EcmaLex

variable {σ : Type} [SearchableSource σ]

/-! ### One operation -/

/-- The token that an operation scans, if it scans one. -/
def Operation.scanned? (s : Scanner σ) : Operation → Option Token
  | start => some s.start.next
  | advance | tryAdvance => if s.isAhead then none else some s.advance.next
  | peekAhead | peekAheadSpan | lineBreakAhead =>
    if s.isAhead then none else some s.peekAhead.afterNext
  | continueTemplate => if s.canContinueTemplate then some s.continueTemplate.2.next else none
  | takeOctal | query _ => none

/-- The literal that an answer hands over. -/
def Reply.taken : Reply → List Diagnostic
  | octal d? => d?.toList
  | _ => []

namespace Operation

theorem octal?_scan (s : Scanner σ) (lineBreak : Bool) :
    (s.scan lineBreak).2.findings.octal? =
      (s.scan lineBreak).1.strictDiagnostic?.or s.findings.octal? :=
  octal?_scanToken_or _ _ _ _

theorem octal?_advance (s : Scanner σ) :
    s.advance.findings.octal? =
      ((if s.isAhead then none else some s.advance.next).bind Token.strictDiagnostic?).or
        s.findings.octal? := by
  cases ha : s.isAhead with
  | true =>
    rw [Scanner.advance_of_isAhead ha]
    rfl
  | false =>
    rw [Scanner.advance_of_not_isAhead ha]
    exact octal?_scan s false

theorem octal?_peekAhead (s : Scanner σ) :
    s.peekAhead.findings.octal? =
      ((if s.isAhead then none else some s.peekAhead.afterNext).bind Token.strictDiagnostic?).or
        s.findings.octal? := by
  unfold Scanner.peekAhead
  split
  · rfl
  · exact octal?_scan s false

/-- A piece of a template is no literal to keep. -/
theorem octal?_continueTemplate (s : Scanner σ) :
    s.continueTemplate.2.findings.octal? =
      ((if s.canContinueTemplate then some s.continueTemplate.2.next else none).bind
        Token.strictDiagnostic?).or s.findings.octal? := by
  unfold Scanner.continueTemplate
  split
  · have h := (noNumber_templatePiece s.next.span.start s.reader).lenient
    rw [Option.bind_some, h.strictDiagnostic?]
    rfl
  · rfl

/-- **What one operation does to the literal that is kept**, unless it takes it: the token that it
scans is kept if strict mode code may not hold it, and else what was kept before. -/
theorem octal?_perform (s : Scanner σ) {op : Operation} (h : op ≠ .takeOctal) :
    (op.perform s).2.findings.octal? =
      ((op.scanned? s).bind Token.strictDiagnostic?).or s.findings.octal? := by
  cases op with
  | start => exact octal?_scanToken_or _ _ _ _
  | advance => exact octal?_advance s
  | tryAdvance => exact octal?_advance s
  | peekAhead => exact octal?_peekAhead s
  | peekAheadSpan => exact octal?_peekAhead s
  | lineBreakAhead => exact octal?_peekAhead s
  | continueTemplate => exact octal?_continueTemplate s
  | takeOctal => exact absurd rfl h
  | query q => rfl

/-- Only the one operation hands a literal over. -/
theorem taken_perform (s : Scanner σ) {op : Operation} (h : op ≠ .takeOctal) :
    (op.perform s).1.taken = [] := by
  cases op with
  | takeOctal => exact absurd rfl h
  | query q => cases q <;> rfl
  | _ => rfl

/-- What an operation scans is consistent, whatever the scanner was told before. -/
theorem consistent_of_scanned? {s : Scanner σ} {op : Operation} {t : Token}
    (h : op.scanned? s = some t) : t.Consistent := by
  have hscan : ∀ lineBreak, (s.scan lineBreak).1.Consistent :=
    fun _ => consistent_scanToken _ _ _ _
  cases op with
  | start =>
    cases h
    exact consistent_scanToken _ _ _ _
  | advance | tryAdvance =>
    obtain ⟨ha, ht⟩ := Option.ite_none_left_eq_some.1 h
    cases ht
    rw [Scanner.advance_of_not_isAhead (Bool.eq_false_iff.2 ha)]
    exact hscan false
  | peekAhead | peekAheadSpan | lineBreakAhead =>
    obtain ⟨ha, ht⟩ := Option.ite_none_left_eq_some.1 h
    cases ht
    rw [Scanner.peekAhead, if_neg ha]
    exact hscan false
  | continueTemplate =>
    obtain ⟨hc, ht⟩ := Option.ite_none_right_eq_some.1 h
    cases ht
    rw [Scanner.continueTemplate, if_pos hc]
    exact (noNumber_templatePiece _ _).sound.consistent _ _
  | takeOctal | query => cases h

/-- What an operation scans is in a slot after it. -/
theorem exists_slot_of_scanned? {s : Scanner σ} {op : Operation} {t : Token}
    (h : op.scanned? s = some t) : ∃ slot, t = (op.perform s).2.token slot := by
  cases op with
  | start =>
    cases h
    exact ⟨.next, rfl⟩
  | advance | tryAdvance =>
    obtain ⟨-, ht⟩ := Option.ite_none_left_eq_some.1 h
    cases ht
    exact ⟨.next, rfl⟩
  | peekAhead | peekAheadSpan | lineBreakAhead =>
    obtain ⟨-, ht⟩ := Option.ite_none_left_eq_some.1 h
    cases ht
    exact ⟨.afterNext, rfl⟩
  | continueTemplate =>
    obtain ⟨-, ht⟩ := Option.ite_none_right_eq_some.1 h
    cases ht
    exact ⟨.next, rfl⟩
  | takeOctal | query => cases h

end Operation

/-! ### Runs -/

namespace Scanner

/-- The tokens that a list of operations scans, in the order in which they are scanned. -/
def scanned (s : Scanner σ) : List Operation → List Token
  | [] => []
  | op :: ops => (op.scanned? s).toList ++ scanned (op.perform s).2 ops

/-- The tokens scanned since a literal was last asked for, if so many had been scanned before the
operations. -/
def sinceTaken (s : Scanner σ) (tokens : List Token) : List Operation → List Token
  | [] => tokens
  | op :: ops =>
    sinceTaken (op.perform s).2
      (if op = .takeOctal then [] else tokens ++ (op.scanned? s).toList) ops

/-- The literals that a list of operations hands over. -/
def taken (s : Scanner σ) : List Operation → List Diagnostic
  | [] => []
  | op :: ops => (op.perform s).1.taken ++ taken (op.perform s).2 ops

/-- Whether the literal that is kept is asked for before anything more is scanned. -/
def takesNext (s : Scanner σ) : List Operation → Bool
  | [] => false
  | op :: ops => op = .takeOctal || (op.scanned? s).isNone && takesNext (op.perform s).2 ops

/-- Whether it is asked for after every scan, before the next one. -/
def takesEach (s : Scanner σ) : List Operation → Bool
  | [] => true
  | op :: ops =>
    ((op.scanned? s).isNone || takesNext (op.perform s).2 ops) && takesEach (op.perform s).2 ops

/-- The literal that is kept is the last one of those scanned, whatever operations follow. -/
theorem octal?_run_of {s : Scanner σ} {tokens : List Token}
    (h : s.findings.octal? = (tokens.filterMap Token.strictDiagnostic?).getLast?)
    (ops : List Operation) :
    (s.run ops).findings.octal? =
      ((s.sinceTaken tokens ops).filterMap Token.strictDiagnostic?).getLast? := by
  induction ops generalizing s tokens with
  | nil => exact h
  | cons op ops ih =>
    rw [Scanner.run, sinceTaken]
    by_cases hop : op = .takeOctal
    · subst hop
      exact ih rfl
    · rw [if_neg hop]
      refine ih ?_
      rw [Operation.octal?_perform s hop, h, List.filterMap_append, List.getLast?_append]
      congr 1
      cases op.scanned? s with
      | none => rfl
      | some t => cases ht : t.strictDiagnostic? <;> simp [ht]

/-- The literal that is kept was in a slot when it was scanned.  The induction is on the operations,
the last one first. -/
theorem exists_octal?_eq {settings : Settings} {source : σ} {ops : List Operation}
    {d : Diagnostic} (h : ((ofSource settings source).run ops).findings.octal? = some d) :
    ∃ earlier slot,
      (((ofSource settings source).run earlier).token slot).strictDiagnostic? = some d := by
  induction ops using List.reverseRecOn with
  | nil => cases h
  | append_singleton ops op ih =>
    rw [run_append] at h
    have h : (op.perform ((ofSource settings source).run ops)).2.findings.octal? = some d := h
    by_cases hop : op = .takeOctal
    · subst hop
      cases h
    · rw [Operation.octal?_perform _ hop] at h
      rcases Option.or_eq_some_iff.1 h with hscan | ⟨-, hkept⟩
      · obtain ⟨t, ht, hd⟩ := Option.bind_eq_some_iff.1 hscan
        obtain ⟨slot, rfl⟩ := Operation.exists_slot_of_scanned? ht
        refine ⟨ops ++ [op], slot, ?_⟩
        rw [run_append]
        exact hd
      · exact ih hkept

/-- Asked after every scan, the scanner hands over what it keeps and then all that is scanned. -/
theorem taken_of_takesEach {s : Scanner σ} {ops : List Operation}
    (hnext : s.findings.octal? ≠ none → s.takesNext ops = true) (h : s.takesEach ops = true) :
    s.taken ops =
      s.findings.octal?.toList ++ (s.scanned ops).filterMap Token.strictDiagnostic? := by
  induction ops generalizing s with
  | nil =>
    -- nothing is kept, since nobody asks for it
    have hnone : s.findings.octal? = none := by
      by_contra hne
      cases hnext hne
    rw [hnone]
    rfl
  | cons op ops ih =>
    simp only [takesEach, Bool.and_eq_true, Bool.or_eq_true, Option.isNone_iff_eq_none] at h
    simp only [takesNext, Bool.and_eq_true, Bool.or_eq_true, Option.isNone_iff_eq_none,
      decide_eq_true_eq] at hnext
    rw [taken, scanned]
    by_cases hop : op = .takeOctal
    · subst hop
      -- what was kept is handed over, and nothing is kept after that
      rw [ih (fun hne => absurd rfl hne) h.2]
      rfl
    · have hkept := Operation.octal?_perform s hop
      rw [Operation.taken_perform s hop, List.nil_append]
      cases hscan : op.scanned? s with
      | none =>
        rw [hscan] at hkept
        have hkept : (op.perform s).2.findings.octal? = s.findings.octal? := hkept
        rw [ih (fun hne => ?_) h.2, hkept]
        · rfl
        · rw [hkept] at hne
          exact ((hnext hne).resolve_left hop).2
      | some t =>
        rw [hscan] at hkept h hnext
        -- nothing can have been kept when the token is scanned
        have hnone : s.findings.octal? = none := by
          by_contra hne
          cases ((hnext hne).resolve_left hop).1
        have hasked : takesNext (op.perform s).2 ops = true := h.1.resolve_left (by simp)
        rw [ih (fun _ => hasked) h.2, hkept, hnone]
        cases ht : t.strictDiagnostic? <;> simp [ht]

theorem consistent_of_mem_scanned {s : Scanner σ} {ops : List Operation} {t : Token}
    (ht : t ∈ s.scanned ops) : t.Consistent := by
  induction ops generalizing s with
  | nil => cases ht
  | cons op ops ih =>
    rw [scanned] at ht
    rcases List.mem_append.1 ht with ht | ht
    · exact Operation.consistent_of_scanned? (Option.mem_toList.1 ht)
    · exact ih ht

/-- **The literal kept is the last one scanned since the last was taken**, after any operations, and
nothing is kept if there is none.  If the scanner is asked after every scan, then it hands over all
the literals scanned that strict mode code may not hold, each once and in their order.  Text with an
error is none of them. -/
theorem octal?_run (settings : Settings) (source : σ) (ops : List Operation) :
    let s := ofSource settings source
    (s.run ops).findings.octal? =
        ((s.sinceTaken [] ops).filterMap Token.strictDiagnostic?).getLast? ∧
      (s.takesEach ops = true → s.taken ops = (s.scanned ops).filterMap Token.strictDiagnostic?) ∧
      ∀ t ∈ s.scanned ops, t.kind = .illegal → t.strictDiagnostic? = none := by
  intro s
  refine ⟨octal?_run_of rfl ops, fun h => ?_, fun t ht hk => ?_⟩
  · exact taken_of_takesEach (fun hne => absurd rfl hne) h
  · exact (consistent_of_mem_scanned ht).strictDiagnostic? hk

/-- Literals scanned by moving on and by looking ahead, with one that has an error among them. -/
theorem octal?_run_ahead :
    let s := ofSource {} (ByteCursor.ofString "01 08 1_ 07")
    let ops : List Operation := [.start, .takeOctal, .peekAhead, .takeOctal, .advance, .advance,
      .takeOctal, .peekAhead, .takeOctal]
    s.takesEach ops = true ∧ (s.taken ops).map (·.span) = [⟨0, 2⟩, ⟨3, 5⟩, ⟨9, 11⟩] ∧
      s.taken ops = (s.scanned ops).filterMap Token.strictDiagnostic? := by
  intro s ops
  have heach : s.takesEach ops = true := by decide +kernel
  have hspans : (s.taken ops).map (·.span) = [⟨0, 2⟩, ⟨3, 5⟩, ⟨9, 11⟩] := by decide +kernel
  exact ⟨heach, hspans, (octal?_run {} _ ops).2.1 heach⟩

end Scanner

end EcmaLex
