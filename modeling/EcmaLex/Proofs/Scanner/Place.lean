import EcmaLex.Proofs.Lexeme.Invariant
import EcmaLex.Proofs.Scanner.Operation
import EcmaLex.Proofs.Source.Exact

/-!
# Where tokens come from

Over an exact source the reader of a scanner stands at a place in the text, or before
it, whatever the scanner was told to do.  Every token that the scanner holds is
then what some rule read from some place of the text.

## Main definitions

* `Reader.Placed` — the reader stands at a place in the text, or before it.
* `Token.ReadFrom` — the token is what some rule read from a place of the text.
* `Scanner.Grounded` — the reader is placed, and the tokens were read from the text.

## Main results

* `exists_step_of_scanToken` — a scan gives what a rule reads from a place of the text.
* `within_step` — a rule leaves the reader in the text after the character that it starts
  from.
* `Scanner.Grounded.run` — **every token comes from the text**, after any operations.
-/

namespace EcmaLex

variable {σ : Type} [ExactSource σ]

open Reader

theorem Reader.within_invariant (before after : List Char) :
    Invariant (Within before after : Reader σ → Prop) where
  advance := Within.advance
  skipTo l h := Within.skipTo h l
  pushBack c hc h := by rwa [Within.pushBack_advance h hc]

/-- A rule leaves the reader in the text after the character that it starts from. -/
theorem within_step (settings : Settings) (lineBreak : Bool) (findings : Findings)
    (before : List Char) (c : Char) (after : List Char) :
    Within (before ++ [c]) after
      (step settings lineBreak findings (between before (c :: after) : Reader σ)).reader := by
  refine (within_invariant (before ++ [c]) after).step settings lineBreak findings (c := c) rfl ?_
  rw [advance_between_cons]
  exact within_between _ _

/-- A rule does not leave the rest of the text. -/
theorem within_reader_step (settings : Settings) (lineBreak : Bool) (findings : Findings)
    (before after : List Char) :
    Within before after
      (step settings lineBreak findings (between before after : Reader σ)).reader := by
  cases after with
  | nil =>
    rw [step_of_char?_eq_none _ _ _ rfl]
    exact within_between _ _
  | cons c after =>
    have hw : Within before (c :: after) (between before (c :: after) : Reader σ) :=
      within_between _ _
    exact (within_invariant before (c :: after)).step settings lineBreak findings rfl hw.advance

/-! ### Places -/

/-- The reader stands at a place in the text, or before it. -/
def Reader.Placed (text : List Char) (r : Reader σ) : Prop :=
  r = .ofSource (ExactSource.fresh text) ∨ Within [] text r

namespace Reader.Placed

variable {text : List Char} {r : Reader σ}

/-- The first move is into the text. -/
theorem within_advance (h : Placed text r) : Within [] text r.advance := by
  rcases h with rfl | h
  · rw [advance_ofSource_fresh]
    exact within_between _ _
  · exact h.advance

/-- So it is when the line that names an interpreter is passed as well. -/
theorem within_start (h : Placed text r) (settings : Settings) :
    Within [] text (if settings.hashbang then Gap.hashbang r.advance else r.advance) := by
  split
  · exact (within_invariant [] text).hashbang h.within_advance
  · exact h.within_advance

/-- A reader with a character under its head stands in the text. -/
theorem within_of_char? {c : Char} (h : Placed text r) (hc : r.char? = some c) :
    Within [] text r := by
  rcases h with rfl | h
  · -- before the text there is no character under the head
    cases hc
  · exact h

theorem step (h : Placed text r) (settings : Settings) (lineBreak : Bool) (findings : Findings) :
    Placed text (step settings lineBreak findings r).reader := by
  cases hc : r.char? with
  | none =>
    rw [step_of_char?_eq_none _ _ _ hc]
    exact h
  | some c =>
    have hw := h.within_of_char? hc
    exact .inr ((within_invariant [] text).step settings lineBreak findings hc hw.advance)

theorem templatePiece (h : Placed text r) (start : Nat) :
    Placed text (templatePiece start r).reader := by
  rcases h with rfl | h
  · -- before the text there is nothing to read
    rw [EcmaLex.templatePiece, Template.body]
    exact .inl rfl
  · exact .inr ((within_invariant [] text).templatePiece start h)

end Reader.Placed

/-! ### Tokens from places -/

/-- The token is what some rule read from a place of the text. -/
inductive Token.ReadFrom (σ : Type) [ExactSource σ] (settings : Settings) (text : List Char) :
    Token → Prop where
  /-- Before the text, where nothing can be read. -/
  | before (lineBreak : Bool) : ReadFrom σ settings text
      ((Lexeme.ofKind .endOfInput (.ofSource (ExactSource.fresh text : σ))).toToken 0 lineBreak)
  /-- By one of the rules for tokens. -/
  | rule {passed rest : List Char} {lineBreak lineBreak' : Bool} {findings findings' : Findings}
      {l : Lexeme σ} (split : text = passed ++ rest)
      (read : step settings lineBreak findings (between passed rest) =
        .lexeme lineBreak' findings' l) :
      ReadFrom σ settings text (l.toToken (extent σ passed) lineBreak')
  /-- By the rule for the pieces of a template, after a closing brace. -/
  | template {r : Reader σ} (placed : Placed text r) (start : Nat) (lineBreak : Bool) :
      ReadFrom σ settings text ((templatePiece start r).toToken start lineBreak)

/-- A scan from a place of the text gives what some rule reads from a place of the text.  Before
the text it gives the end of input, and the reader stays there. -/
theorem exists_step_of_scanToken {text : List Char} {r : Reader σ} (h : Placed text r)
    (settings : Settings) (lineBreak : Bool) (findings : Findings) :
    (∃ lineBreak', (scanToken settings lineBreak findings r).token =
        (Lexeme.ofKind .endOfInput (.ofSource (ExactSource.fresh text : σ))).toToken 0 lineBreak' ∧
      (scanToken settings lineBreak findings r).reader = .ofSource (ExactSource.fresh text)) ∨
    ∃ passed rest lineBreak' findings' lineBreak₁ findings₁, ∃ l : Lexeme σ,
      text = passed ++ rest ∧
      step settings lineBreak' findings' (between passed rest) = .lexeme lineBreak₁ findings₁ l ∧
      (scanToken settings lineBreak findings r).token = l.toToken (extent σ passed) lineBreak₁ ∧
      (scanToken settings lineBreak findings r).reader = l.reader := by
  fun_induction scanToken settings lineBreak findings r with
  | case1 lineBreak findings r _ _ _ hs ih =>
    have hp := h.step settings lineBreak findings
    rw [hs] at hp
    exact ih hp
  | case2 lineBreak findings r lineBreak' findings' l hs =>
    rcases h with rfl | ⟨passed, rest, rfl, rfl⟩
    · -- before the text only the end of input is found
      left
      rw [step_of_char?_eq_none _ _ _ rfl] at hs
      cases hs
      have h0 := ExactSource.position_fresh (σ := σ) text
      change TextSource.position _ = _ at h0
      rw [Reader.position, Reader.ofSource, h0]
      exact ⟨lineBreak, rfl, rfl⟩
    · right
      rw [List.nil_append] at hs
      refine ⟨passed, rest, lineBreak, findings, lineBreak', findings', l, rfl, hs, ?_, rfl⟩
      rw [position_between, List.nil_append]

/-- The next token is read from the text, and the reader stays in it. -/
theorem readFrom_scanToken {settings : Settings} {text : List Char} {r : Reader σ}
    (h : Placed text r) (lineBreak : Bool) (findings : Findings) :
    (scanToken settings lineBreak findings r).token.ReadFrom σ settings text ∧
      Placed text (scanToken settings lineBreak findings r).reader := by
  rcases exists_step_of_scanToken h settings lineBreak findings with
    ⟨lineBreak', ht, hr⟩ | ⟨passed, rest, lineBreak', findings', _, _, l, rfl, hs, ht, hr⟩
  · rw [ht, hr]
    exact ⟨.before lineBreak', .inl rfl⟩
  · have hp : Placed (passed ++ rest) (between passed rest : Reader σ) :=
      .inr ⟨passed, rest, rfl, by rw [List.nil_append]⟩
    have hl := hp.step settings lineBreak' findings'
    rw [hs] at hl
    rw [ht, hr]
    exact ⟨.rule rfl hs, hl⟩

namespace Scanner

/-- The reader is placed in the text, and what the slots hold was read from it. -/
structure Grounded (settings : Settings) (text : List Char) (s : Scanner σ) : Prop where
  /-- The options are those that the tokens were read with. -/
  settings_eq : s.settings = settings
  /-- The reader stands at a place in the text, or before it. -/
  placed : Placed text s.reader
  /-- A slot that holds a token holds one that was read from the text. -/
  readFrom : ∀ slot, (s.token slot).kind ≠ .uninitialized →
    (s.token slot).ReadFrom σ settings text

namespace Grounded

variable {settings : Settings} {text : List Char} {s : Scanner σ}

theorem ofSource (settings : Settings) (text : List Char) :
    (ofSource settings (ExactSource.fresh text : σ)).Grounded settings text := by
  refine ⟨rfl, .inl rfl, fun slot h => ?_⟩
  cases slot <;> exact absurd rfl h

/-- Scanning a token into a slot. -/
theorem scan (h : s.Grounded settings text) (lineBreak : Bool) :
    (s.scan lineBreak).1.ReadFrom σ settings text ∧
      Placed text (s.scan lineBreak).2.reader := by
  have hs := h.settings_eq
  subst hs
  exact readFrom_scanToken h.placed lineBreak s.findings

theorem start (h : s.Grounded settings text) : s.start.Grounded settings text := by
  let r := if s.settings.hashbang then Gap.hashbang s.reader.advance else s.reader.advance
  have hw : Within [] text r := h.placed.within_start s.settings
  have hg : ({ s with reader := r } : Scanner σ).Grounded settings text :=
    ⟨h.settings_eq, .inr hw, h.readFrom⟩
  obtain ⟨ht, hp⟩ := hg.scan true
  refine ⟨h.settings_eq, hp, fun slot hk => ?_⟩
  cases slot with
  | current => exact h.readFrom .current hk
  | next => exact ht
  | afterNext => exact h.readFrom .afterNext hk

theorem advance (h : s.Grounded settings text) : s.advance.Grounded settings text := by
  cases ha : s.isAhead with
  | true =>
    -- the token that was scanned ahead is the next one now
    rw [advance_of_isAhead ha]
    refine ⟨h.settings_eq, h.placed, fun slot hk => ?_⟩
    cases slot with
    | current => exact h.readFrom .next hk
    | next => exact h.readFrom .afterNext hk
    | afterNext => exact absurd rfl hk
  | false =>
    obtain ⟨ht, hp⟩ := h.scan false
    -- the next token is scanned now, and the third slot stays as it is
    rw [advance_of_not_isAhead ha]
    refine ⟨h.settings_eq, hp, fun slot hk => ?_⟩
    cases slot with
    | current => exact h.readFrom .next hk
    | next => exact ht
    | afterNext => exact h.readFrom .afterNext hk

theorem peekAhead (h : s.Grounded settings text) : s.peekAhead.Grounded settings text := by
  obtain ⟨ht, hp⟩ := h.scan false
  unfold Scanner.peekAhead
  split
  · exact h
  · refine ⟨h.settings_eq, hp, fun slot hk => ?_⟩
    cases slot with
    | current => exact h.readFrom .current hk
    | next => exact h.readFrom .next hk
    | afterNext => exact ht

theorem continueTemplate (h : s.Grounded settings text) :
    s.continueTemplate.2.Grounded settings text := by
  unfold Scanner.continueTemplate
  split
  · refine ⟨h.settings_eq, h.placed.templatePiece _, fun slot hk => ?_⟩
    cases slot with
    | current => exact h.readFrom .current hk
    | next => exact .template h.placed _ _
    | afterNext => exact h.readFrom .afterNext hk
  · exact h

theorem dropOctal (h : s.Grounded settings text) : s.dropOctal.Grounded settings text :=
  ⟨h.settings_eq, h.placed, h.readFrom⟩

theorem perform (h : s.Grounded settings text) (op : Operation) :
    (op.perform s).2.Grounded settings text := by
  cases op with
  | start => exact h.start
  | advance => exact h.advance
  | tryAdvance => exact h.advance
  | peekAhead => exact h.peekAhead
  | peekAheadSpan => exact h.peekAhead
  | lineBreakAhead => exact h.peekAhead
  | continueTemplate => exact h.continueTemplate
  | takeOctal => exact h.dropOctal
  | query q => exact h

/-- **Every token comes from the text**, after any operations. -/
theorem run (h : s.Grounded settings text) (ops : List Operation) :
    (s.run ops).Grounded settings text := by
  induction ops generalizing s with
  | nil => exact h
  | cons op ops ih => exact ih (h.perform op)

end Grounded

end Scanner

end EcmaLex
