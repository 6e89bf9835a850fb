import EcmaLex.Proofs.Lexeme.Punctuator
import EcmaLex.Proofs.Scanner.Place

/-!
# What the slots keep

A token gets into a slot from a scan, or as the piece of a template that replaces a closing
brace.  After that it is moved from slot to slot, and in the end its kind is erased, while the
reader moves on.  So what is to be known of all tokens that a scanner holds, in view of where
its reader is, has to be shown for scans and for pieces of templates only.

One thing to be known is where punctuators are.  The brace that closes a substitution is one,
and its place is all that the rest of the template is read from.

## Main definitions

* `Reader.MovesTo` — the reader has moved on.
* `Scanner.SlotInvariant` — what scans give and moves of the reader keep.
* `Token.Stands` — the token is a punctuator of the text, and the reader is behind it.

## Main results

* `Scanner.SlotInvariant.run` — **it holds of every slot**, after any operations.
* `Scanner.slotInvariant_stands` — punctuators in slots stand in the text.
-/

namespace EcmaLex

open Reader

variable {σ : Type} [ExactSource σ]

/-! ### Moving on -/

/-- The second reader is still in every stretch of the text in which the first one is. -/
def Reader.MovesTo (r r' : Reader σ) : Prop :=
  ∀ before after, Within before after r → Within before after r'

namespace Reader.MovesTo

variable {r r' r'' : Reader σ}

theorem trans (h : r.MovesTo r') (h' : r'.MovesTo r'') : r.MovesTo r'' :=
  fun before after hr => h' before after (h before after hr)

theorem advance (r : Reader σ) : r.MovesTo r.advance := fun _ _ => Within.advance

theorem hashbang (r : Reader σ) : r.MovesTo (Gap.hashbang r) :=
  fun before after => (within_invariant before after).hashbang

theorem scanToken (settings : Settings) (lineBreak : Bool) (findings : Findings) (r : Reader σ) :
    r.MovesTo (scanToken settings lineBreak findings r).reader :=
  fun before after => (within_invariant before after).scanToken settings lineBreak findings

theorem templatePiece (start : Nat) (r : Reader σ) : r.MovesTo (templatePiece start r).reader :=
  fun before after => (within_invariant before after).templatePiece start

end Reader.MovesTo

/-! ### Slots -/

namespace Scanner

/-- A property of tokens, in view of where the reader is, that scans give and that stays as
long as the reader moves on. -/
structure SlotInvariant (settings : Settings) (text : List Char) (P : Reader σ → Token → Prop) :
    Prop where
  /-- A slot that has never held a token has it. -/
  absent : ∀ r, P r .absent
  /-- It does not depend on the kind still being there. -/
  erase : ∀ {r t}, P r t → P r { t with kind := .uninitialized }
  /-- It stays as the reader moves on. -/
  movesTo : ∀ {r r' t}, r.MovesTo r' → P r t → P r' t
  /-- What is scanned from a place of the text has it. -/
  scan : ∀ {r} lineBreak findings, Placed text r →
    P (scanToken settings lineBreak findings r).reader
      (scanToken settings lineBreak findings r).token
  /-- The piece of a template that replaces a closing brace has it. -/
  piece : ∀ {r t} lineBreak, Placed text r → t.kind = .punctuator .rightBrace → P r t →
    P (templatePiece t.span.start r).reader
      ((templatePiece t.span.start r).toToken t.span.start lineBreak)

namespace SlotInvariant

variable {settings : Settings} {text : List Char} {P : Reader σ → Token → Prop} {s : Scanner σ}
  (hP : SlotInvariant settings text P)
include hP

theorem start (hg : s.Grounded settings text) (h : ∀ slot, P s.reader (s.token slot)) :
    ∀ slot, P s.start.reader (s.start.token slot) := by
  let r := if s.settings.hashbang then Gap.hashbang s.reader.advance else s.reader.advance
  have hr : s.reader.advance.MovesTo r := by
    by_cases hb : s.settings.hashbang = true
    · simp only [r, if_pos hb]
      exact .hashbang _
    · simp only [r, if_neg hb]
      exact fun _ _ hw => hw
  -- from the first move on the reader is in the text
  have hplaced : Placed text r := .inr (hr [] text hg.placed.within_advance)
  have hmoves : s.reader.MovesTo s.start.reader :=
    ((MovesTo.advance _).trans hr).trans (MovesTo.scanToken _ true _ r)
  intro slot
  cases slot with
  | current => exact hP.movesTo hmoves (h .current)
  | next =>
    have hscan := hP.scan true s.findings hplaced
    rw [← hg.settings_eq] at hscan
    exact hscan
  | afterNext => exact hP.movesTo hmoves (h .afterNext)

theorem advance (hg : s.Grounded settings text) (h : ∀ slot, P s.reader (s.token slot)) :
    ∀ slot, P s.advance.reader (s.advance.token slot) := by
  intro slot
  cases ha : s.isAhead with
  | true =>
    -- the tokens change their slots, and the one that is left behind loses its kind
    rw [advance_of_isAhead ha]
    cases slot with
    | current => exact h .next
    | next => exact h .afterNext
    | afterNext => exact hP.erase (h .current)
  | false =>
    have hmoves : s.reader.MovesTo (s.scan false).2.reader := MovesTo.scanToken _ _ _ _
    rw [advance_of_not_isAhead ha]
    cases slot with
    | current => exact hP.movesTo hmoves (h .next)
    | next =>
      have hscan := hP.scan false s.findings hg.placed
      rw [← hg.settings_eq] at hscan
      exact hscan
    | afterNext => exact hP.movesTo hmoves (h .afterNext)

theorem peekAhead (hg : s.Grounded settings text) (h : ∀ slot, P s.reader (s.token slot)) :
    ∀ slot, P s.peekAhead.reader (s.peekAhead.token slot) := by
  intro slot
  unfold Scanner.peekAhead
  split
  · exact h slot
  · have hmoves : s.reader.MovesTo (s.scan false).2.reader := MovesTo.scanToken _ _ _ _
    cases slot with
    | current => exact hP.movesTo hmoves (h .current)
    | next => exact hP.movesTo hmoves (h .next)
    | afterNext =>
      have hscan := hP.scan false s.findings hg.placed
      rw [← hg.settings_eq] at hscan
      exact hscan

theorem continueTemplate (hg : s.Grounded settings text)
    (h : ∀ slot, P s.reader (s.token slot)) :
    ∀ slot, P s.continueTemplate.2.reader (s.continueTemplate.2.token slot) := by
  intro slot
  unfold Scanner.continueTemplate
  split
  · next hc =>
    have hmoves : s.reader.MovesTo (templatePiece s.next.span.start s.reader).reader :=
      MovesTo.templatePiece _ _
    have hbrace := (canContinueTemplate_iff.1 hc).1
    cases slot with
    | current => exact hP.movesTo hmoves (h .current)
    | next => exact hP.piece _ hg.placed hbrace (h .next)
    | afterNext => exact hP.movesTo hmoves (h .afterNext)
  · exact h slot

theorem perform (hg : s.Grounded settings text) (h : ∀ slot, P s.reader (s.token slot))
    (op : Operation) : ∀ slot, P (op.perform s).2.reader ((op.perform s).2.token slot) := by
  cases op with
  | start => exact hP.start hg h
  | advance => exact hP.advance hg h
  | tryAdvance => exact hP.advance hg h
  | peekAhead => exact hP.peekAhead hg h
  | peekAheadSpan => exact hP.peekAhead hg h
  | lineBreakAhead => exact hP.peekAhead hg h
  | continueTemplate => exact hP.continueTemplate hg h
  | takeOctal =>
    intro slot
    cases slot with
    | current => exact h .current
    | next => exact h .next
    | afterNext => exact h .afterNext
  | query q => exact h

/-- **What scans give holds of every slot**, after any operations. -/
theorem run (ops : List Operation) :
    let s := (ofSource settings (ExactSource.fresh text : σ)).run ops
    ∀ slot, P s.reader (s.token slot) := by
  have hrun : ∀ {s : Scanner σ}, s.Grounded settings text →
      (∀ slot, P s.reader (s.token slot)) →
      ∀ slot, P (s.run ops).reader ((s.run ops).token slot) := by
    induction ops with
    | nil => exact fun _ h => h
    | cons op ops ih => exact fun hg h => ih (hg.perform op) (hP.perform hg h op)
  refine hrun (Grounded.ofSource settings text) fun slot => ?_
  cases slot <;> exact hP.absent _

end SlotInvariant

end Scanner

/-! ### Punctuators -/

/-- The token takes up the spelling of a punctuator in the text, and the reader is behind it. -/
def Token.Stands (text : List Char) (p : Punctuator) (r : Reader σ) (t : Token) : Prop :=
  ∃ before after, text = before ++ p.lexeme.toList ++ after ∧
    t.span = ⟨extent σ before, extent σ (before ++ p.lexeme.toList)⟩ ∧
    Within (before ++ p.lexeme.toList) after r

theorem stands_scanToken {settings : Settings} {text : List Char} {p : Punctuator}
    {r : Reader σ} (h : Placed text r) (lineBreak : Bool) (findings : Findings)
    (hk : (scanToken settings lineBreak findings r).token.kind = .punctuator p) :
    (scanToken settings lineBreak findings r).token.Stands text p
      (scanToken settings lineBreak findings r).reader := by
  rcases exists_step_of_scanToken h settings lineBreak findings with
    ⟨_, ht, hr⟩ | ⟨passed, rest, _, _, _, _, l, rfl, hs, ht, hr⟩
  · -- before the text there is only the end of input
    rw [ht] at hk
    cases hk
  · rw [ht] at hk
    rw [ht, hr]
    obtain ⟨after, rfl, hl⟩ := spelled_of_step hs hk
    refine ⟨passed, after, by simp, ?_, hl ▸ within_between _ _⟩
    rw [Lexeme.toToken, hl]
    simp

/-- Punctuators in slots stand in the text, before the reader. -/
theorem Scanner.slotInvariant_stands (settings : Settings) (text : List Char) :
    SlotInvariant settings text fun (r : Reader σ) t =>
      ∀ p, t.kind = .punctuator p → t.Stands text p r where
  absent _ _ hk := nomatch hk
  erase _ _ hk := nomatch hk
  movesTo hr h p hk := by
    obtain ⟨before, after, ht, hs, hw⟩ := h p hk
    exact ⟨before, after, ht, hs, hr _ _ hw⟩
  scan _ _ hr _ hk := stands_scanToken hr _ _ hk
  piece {r t} _ _ _ _ p hk := by
    -- a piece of a template is no punctuator
    have hp := isPunctuator_templatePiece t.span.start r
    rw [show (templatePiece t.span.start r).kind = _ from hk] at hp
    cases hp

end EcmaLex
