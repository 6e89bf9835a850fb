import EcmaLex.Proofs.Scanner.Passing
import EcmaLex.Proofs.Scanner.Place
import EcmaLex.Proofs.Source.ByteCursor

/-!
# What is recorded of a text

Magic comments are read where a scan passes the gap before its token.  Neither the token itself nor
any other operation records a value.  So what a scanner holds in the end was recorded by the
comments in the gaps that it has passed, in the order in which it has passed them.

A comment that assigns something that is no value counts as well.  It takes back the value that was
recorded before it.

## Main definitions

* `Operation.scan?`, `Scanner.scans` — where the scans begin that operations make.
* `Gap.PassedBy` — the row of pieces that a scan passes.

## Main results

* `notes_step` — a token records no value.
* `notes_scanToken` — a scan records what the comments in the gap before its token say.
* `Scanner.records_run` — **the last assignment decides**, after any operations.
-/

namespace EcmaLex

open Reader

variable {σ : Type}

/-! ### Tokens -/

/-- A rule that finds a lexeme records no value. -/
def Step.RecordsNothing (f : Findings) : Step σ → Prop
  | gap _ _ _ => True
  | lexeme _ f' _ => Gap.Notes [] f f'

theorem Findings.get_noteLegacyOctal (f : Findings) (form? : Option NumberForm) (span : Span)
    (name : Gap.MagicName) : name.get (f.noteLegacyOctal form? span) = name.get f := by
  unfold noteLegacyOctal
  split
  · cases name <;> rfl
  · rfl

section Steps

variable [SearchableSource σ]

theorem recordsNothing_htmlComment {f f' : Findings} (h : Gap.Notes [] f f') (settings : Settings)
    (lineBreak : Bool) (start : Nat) (r : Reader σ) :
    (htmlComment settings lineBreak f' start r).RecordsNothing f := by
  unfold htmlComment
  split
  · exact h
  · trivial

theorem recordsNothing_operator (settings : Settings) (lineBreak : Bool) (f : Findings)
    (start : Nat) (p : Punctuator) (r : Reader σ) :
    (operator settings lineBreak f start p r).RecordsNothing f := by
  have hsame : Gap.Notes [] f f := Gap.Notes.refl f
  have h := ofPunctuator_operator settings lineBreak f start p r
  generalize operator settings lineBreak f start p r = s at h ⊢
  cases h with
  | htmlOpening =>
    exact recordsNothing_htmlComment (Gap.Notes.of_get_eq fun name => by cases name <;> rfl) _ _ _ _
  | htmlClosing => exact recordsNothing_htmlComment hsame _ _ _ _
  | magicComment => trivial
  | lineComment => trivial
  | blockComment => trivial
  | _ => exact hsame

/-- **A token records no value.** -/
theorem notes_step {settings : Settings} {lineBreak lineBreak' : Bool} {f f' : Findings}
    {r : Reader σ} {l : Lexeme σ} (h : step settings lineBreak f r = .lexeme lineBreak' f' l) :
    Gap.Notes [] f f' := by
  have hstep : (step settings lineBreak f r).RecordsNothing f := by
    have hsame : Gap.Notes [] f f := Gap.Notes.refl f
    have h := chosen_step settings lineBreak f r
    generalize step settings lineBreak f r = s at h ⊢
    cases h with
    | blank => trivial
    | numeral => exact Gap.Notes.of_get_eq (f.get_noteLegacyOctal _ _)
    | operator => exact recordsNothing_operator _ _ _ _ _ _
    | _ => exact hsame
  rwa [h] at hstep

end Steps

/-! ### Scans -/

variable [ExactSource σ]

/-- Where no piece of a gap begins, the rule finds a lexeme. -/
theorem Gap.Ends.exists_lexeme {settings : Settings} {lineBreak : Bool} {rest : List Char}
    (h : Ends settings lineBreak rest) (f : Findings) (before : List Char) :
    ∃ lineBreak' f', ∃ l : Lexeme σ,
      step settings lineBreak f (between before rest) = .lexeme lineBreak' f' l := by
  cases hs : step settings lineBreak f (between before rest : Reader σ) with
  | lexeme lineBreak' f' l => exact ⟨lineBreak', f', l, rfl⟩
  | gap lineBreak' f' r' =>
    obtain ⟨gap, rest', rfl, rfl, hpieces, -⟩ := pieces_of_step hs
    cases hpieces with
    | nil =>
      -- a rule that finds a piece moves on
      have hlt := remaining_lt_of_step_eq_gap hs
      rw [List.append_nil, List.nil_append] at hlt
      exact absurd hlt (Nat.lt_irrefl _)
    | cons first others =>
      rw [List.append_assoc] at h
      exact absurd first (h _ _ rfl)

/-- **A scan records what the comments in the gap before its token say.** -/
theorem notes_scanToken {settings : Settings} {lineBreak : Bool} {row : List (List Char)}
    {rest : List Char} (hrow : Gap.Row settings false lineBreak row rest)
    (hends : Gap.Ends settings (lineBreak || row.flatten.any isLineTerminator) rest) (f : Findings)
    (before : List Char) :
    Gap.Notes (Gap.lineComments row) f
      (scanToken settings lineBreak f (between before (row.flatten ++ rest) : Reader σ)).findings := by
  obtain ⟨f₁, hscan, hnotes⟩ := scanToken_of_row (σ := σ) hrow f before
  obtain ⟨lineBreak', f₂, l, hstep⟩ := hends.exists_lexeme (σ := σ) f₁ (before ++ row.flatten)
  rw [hscan, scanToken_of_step_eq_lexeme hstep, ← List.append_nil (Gap.lineComments row)]
  exact hnotes.append (notes_step hstep)

/-- The row of pieces that a scan passes, given by the reader that it begins with and by whether its
token counts as after a line terminator in any case. -/
inductive Gap.PassedBy (settings : Settings) (text : List Char) :
    Bool × Reader σ → List (List Char) → Prop where
  /-- Before the text nothing is passed. -/
  | before (lineBreak : Bool) :
      PassedBy settings text (lineBreak, .ofSource (ExactSource.fresh text)) []
  /-- From a place in the text, all pieces of the gap that begins there. -/
  | between {passed rest : List Char} {lineBreak : Bool} {row : List (List Char)}
      (split : text = passed ++ (row.flatten ++ rest))
      (pieces : Row settings false lineBreak row rest)
      (ends : Ends settings (lineBreak || row.flatten.any isLineTerminator) rest) :
      PassedBy settings text (lineBreak, .between passed (row.flatten ++ rest)) row

/-- Every scan passes some row of pieces. -/
theorem Gap.exists_passedBy {text : List Char} {r : Reader σ} (h : Placed text r)
    (settings : Settings) (lineBreak : Bool) : ∃ row, PassedBy settings text (lineBreak, r) row := by
  rcases h with rfl | ⟨passed, after, rfl, rfl⟩
  · exact ⟨[], .before lineBreak⟩
  · obtain ⟨gap, rest, rfl, hpieces, hends⟩ := Gap.exists_whole settings lineBreak after
    obtain ⟨row, rfl, hrow⟩ := hpieces.exists_row
    exact ⟨row, .between rfl hrow hends⟩

theorem Gap.PassedBy.notes {settings : Settings} {text : List Char} {lineBreak : Bool}
    {r : Reader σ} {row : List (List Char)} (h : PassedBy settings text (lineBreak, r) row)
    (f : Findings) : Notes (lineComments row) f (scanToken settings lineBreak f r).findings := by
  cases h with
  | before =>
    rw [scanToken_of_step_eq_lexeme (step_of_char?_eq_none settings lineBreak f rfl)]
    exact Notes.refl f
  | between split pieces ends => exact notes_scanToken pieces ends f _

/-! ### Operations -/

/-- Where the scan begins that an operation makes, if it makes one, and whether its token counts as
after a line terminator in any case. -/
def Operation.scan? (s : Scanner σ) : Operation → Option (Bool × Reader σ)
  | start =>
    some (true, if s.settings.hashbang then Gap.hashbang s.reader.advance else s.reader.advance)
  | advance | tryAdvance | peekAhead | peekAheadSpan | lineBreakAhead =>
    if s.isAhead then none else some (false, s.reader)
  | continueTemplate | takeOctal | query _ => none

namespace Operation

variable {s : Scanner σ} {op : Operation} {lineBreak : Bool} {r : Reader σ}

/-- Every scan begins at a place in the text, or before it. -/
theorem placed_of_scan? {settings : Settings} {text : List Char} (h : s.Grounded settings text)
    (hscan : op.scan? s = some (lineBreak, r)) : Placed text r := by
  cases op with
  | start =>
    cases hscan
    exact .inr (h.placed.within_start s.settings)
  | advance | tryAdvance | peekAhead | peekAheadSpan | lineBreakAhead =>
    obtain ⟨-, hr⟩ := Option.ite_none_left_eq_some.1 hscan
    cases hr
    exact h.placed
  | continueTemplate | takeOctal | query => cases hscan

/-- An operation that makes a scan notes what the scan notes. -/
theorem findings_of_scan? (hscan : op.scan? s = some (lineBreak, r)) :
    (op.perform s).2.findings = (scanToken s.settings lineBreak s.findings r).findings := by
  cases op with
  | start =>
    cases hscan
    rfl
  | advance | tryAdvance =>
    obtain ⟨ha, hr⟩ := Option.ite_none_left_eq_some.1 hscan
    cases hr
    change s.advance.findings = _
    rw [Scanner.advance_of_not_isAhead (Bool.eq_false_iff.2 ha)]
    rfl
  | peekAhead | peekAheadSpan | lineBreakAhead =>
    obtain ⟨ha, hr⟩ := Option.ite_none_left_eq_some.1 hscan
    cases hr
    change s.peekAhead.findings = _
    rw [Scanner.peekAhead, if_neg ha]
    rfl
  | continueTemplate | takeOctal | query => cases hscan

/-- An operation that makes no scan records no value. -/
theorem notes_of_scan? (hscan : op.scan? s = none) :
    Gap.Notes [] s.findings (op.perform s).2.findings := by
  refine Gap.Notes.of_get_eq fun name => ?_
  cases op with
  | start => cases hscan
  | advance | tryAdvance =>
    have ha : s.isAhead = true := by simpa [scan?] using hscan
    change name.get s.advance.findings = _
    rw [Scanner.advance_of_isAhead ha]
  | peekAhead | peekAheadSpan | lineBreakAhead =>
    have ha : s.isAhead = true := by simpa [scan?] using hscan
    change name.get s.peekAhead.findings = _
    rw [Scanner.peekAhead, if_pos ha]
  | continueTemplate =>
    change name.get s.continueTemplate.2.findings = _
    unfold Scanner.continueTemplate
    split <;> rfl
  | takeOctal => cases name <;> rfl
  | query => rfl

end Operation

namespace Scanner

/-- Where the scans begin that a list of operations makes. -/
def scans (s : Scanner σ) : List Operation → List (Bool × Reader σ)
  | [] => []
  | op :: ops => (op.scan? s).toList ++ scans (op.perform s).2 ops

variable {settings : Settings} {text : List Char} {s : Scanner σ}

/-- Every scan that operations make passes some row of pieces. -/
theorem Grounded.exists_passedBy (h : s.Grounded settings text) (ops : List Operation) :
    ∃ rows, List.Forall₂ (Gap.PassedBy settings text) (s.scans ops) rows := by
  induction ops generalizing s with
  | nil => exact ⟨[], .nil⟩
  | cons op ops ih =>
    obtain ⟨rows, hrows⟩ := ih (h.perform op)
    rw [scans]
    cases hscan : op.scan? s with
    | none => exact ⟨rows, hrows⟩
    | some scan =>
      obtain ⟨row, hrow⟩ := Gap.exists_passedBy (Operation.placed_of_scan? h hscan) settings scan.1
      exact ⟨row :: rows, .cons hrow hrows⟩

/-- What operations record is what the comments say that their scans pass. -/
theorem Grounded.notes_run (h : s.Grounded settings text) (ops : List Operation)
    {rows : List (List (List Char))}
    (hrows : List.Forall₂ (Gap.PassedBy settings text) (s.scans ops) rows) :
    Gap.Notes (rows.flatMap Gap.lineComments) s.findings (s.run ops).findings := by
  induction ops generalizing s rows with
  | nil =>
    cases hrows
    exact Gap.Notes.refl s.findings
  | cons op ops ih =>
    have hsettings := h.settings_eq
    subst hsettings
    rw [scans] at hrows
    rw [Scanner.run]
    cases hscan : op.scan? s with
    | none =>
      rw [hscan] at hrows
      exact (Operation.notes_of_scan? hscan).append (ih (h.perform op) hrows)
    | some scan =>
      rw [hscan] at hrows
      cases hrows with
      | cons hrow hrows =>
        have hnotes := hrow.notes s.findings
        rw [← Operation.findings_of_scan? hscan] at hnotes
        rw [List.flatMap_cons]
        exact hnotes.append (ih (h.perform op) hrows)

/-- **The last assignment decides.**  Each scan that operations make passes a row of pieces.  Of the
comments on a line among all these, the last one that assigns something to a name decides what is
recorded under the name: the value, if what it assigns is one, and nothing otherwise.  Without such
a comment nothing is recorded. -/
theorem records_run (settings : Settings) (source : String) (ops : List Operation) :
    let s := ofSource settings (ByteCursor.ofString source)
    (∃ rows, List.Forall₂ (Gap.PassedBy settings source.toList) (s.scans ops) rows) ∧
    ∀ rows, List.Forall₂ (Gap.PassedBy settings source.toList) (s.scans ops) rows →
      ∀ name : Gap.MagicName,
        name.Records none (rows.flatMap Gap.lineComments) (name.get (s.run ops).findings) := by
  intro s
  have hgrounded : s.Grounded settings source.toList := by
    have h := Grounded.ofSource (σ := ByteCursor) settings source.toList
    rwa [← ByteCursor.ofString_eq_fresh] at h
  refine ⟨hgrounded.exists_passedBy ops, fun rows hrows name => ?_⟩
  have h := hgrounded.notes_run ops hrows name
  -- before the first operation nothing is recorded
  have hnone : name.get s.findings = none := by
    cases name <;> rfl
  rwa [hnone] at h

/-- A comment whose text is no value takes back the value before it. -/
example : let s := ofSource {} (ByteCursor.ofString "//# sourceURL=a\n//# sourceURL=b c")
    (s.run [.start]).findings.sourceUrl? = none := by
  decide +kernel

end Scanner

end EcmaLex
