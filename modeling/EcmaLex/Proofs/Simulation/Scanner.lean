import EcmaLex.Proofs.Scanner.Operation
import EcmaLex.Proofs.Simulation.Shift

/-!
# Scanners side by side

Two scanners whose readers go through the same text do the same on every operation.
Their slots hold the same tokens, at corresponding offsets, and they give the same
answers.

A slot that has never held a token is nowhere in both texts.  A slot that has lost its
token keeps the place of that token, so the two cases have to be told apart by what
the slot held and not by its kind.

## Main definitions

* `Token.Alike` — two slots hold the same token, or neither has ever held one.
* `Scanner.Simulation` — what the operations of two scanners keep true.
* `Scanner.Matches`, `Reply.Matches` — scanners, and answers, that correspond to each other.

## Main results

* `Scanner.Simulation.perform` — **every operation does the same to both scanners**, and
  they answer alike.
* `Scanner.Simulation.run` — so does every run of operations.
-/

namespace EcmaLex

/-- Two slots hold the same token, at corresponding offsets, or neither of them has ever
held one. -/
def Token.Alike (Q : Nat → Nat → Prop) (t t' : Token) : Prop :=
  t.Matches Q t' ∨ t = .absent ∧ t' = .absent

namespace Token.Alike

variable {Q : Nat → Nat → Prop} {t t' : Token}

theorem text (h : t.Alike Q t') : t'.toTokenText = t.toTokenText := by
  rcases h with h | ⟨rfl, rfl⟩
  · exact h.text
  · rfl

theorem kind (h : t.Alike Q t') : t'.kind = t.kind := by
  rcases h with h | ⟨rfl, rfl⟩
  · exact h.kind
  · rfl

theorem afterLineTerminator (h : t.Alike Q t') :
    t'.afterLineTerminator = t.afterLineTerminator := by
  rcases h with h | ⟨rfl, rfl⟩
  · exact h.afterLineTerminator
  · rfl

theorem span (h : t.Alike Q t') :
    t.span.Matches Q t'.span ∨ t.span = .unlocated ∧ t'.span = .unlocated := by
  rcases h with h | ⟨rfl, rfl⟩
  · exact .inl h.span
  · exact .inr ⟨rfl, rfl⟩

theorem error? (h : t.Alike Q t') : Option.Rel (Diagnostic.Matches Q) t.error? t'.error? := by
  rcases h with h | ⟨rfl, rfl⟩
  · exact h.error?
  · exact .none

/-- Slots that lose their tokens keep all but the kinds. -/
theorem erase (h : t.Alike Q t') :
    Alike Q { t with kind := .uninitialized } { t' with kind := .uninitialized } := by
  rcases h with h | ⟨rfl, rfl⟩
  · exact .inl ⟨h.text, rfl, h.afterLineTerminator, h.span, h.error?⟩
  · exact .inr ⟨rfl, rfl⟩

/-- Numbers are worked out of the texts. -/
theorem numericValue (h : t.Alike Q t') : t'.numericValue = t.numericValue := by
  unfold Token.numericValue
  rw [h.text]

end Token.Alike

/-- The same answers, with corresponding offsets. -/
inductive Reply.Matches (Q : Nat → Nat → Prop) : Reply → Reply → Prop where
  | done : Matches Q .done .done
  | kind (k : TokenKind) : Matches Q (.kind k) (.kind k)
  /-- A kind in place of an error. -/
  | ok (k : TokenKind) : Matches Q (.verdict (.ok k)) (.verdict (.ok k))
  /-- An error. -/
  | error {d d' : Diagnostic} (matching : d.Matches Q d') :
      Matches Q (.verdict (.error d)) (.verdict (.error d'))
  /-- A place, or none in both texts. -/
  | span {s s' : Span} (spans : s.Matches Q s' ∨ s = .unlocated ∧ s' = .unlocated) :
      Matches Q (.span s) (.span s')
  | flag (b : Bool) : Matches Q (.flag b) (.flag b)
  | token {t t' : Token} (tokens : t.Alike Q t') : Matches Q (.token t) (.token t')
  | number (v? : Option Float) : Matches Q (.number v?) (.number v?)
  | octal {d? d'? : Option Diagnostic} (noted : Diagnostic.NotedAlike Q d? d'?) :
      Matches Q (.octal d?) (.octal d'?)
  | findings {f f' : Findings} (matching : f.Matches Q f') : Matches Q (.findings f) (.findings f')
  | settings (s : Settings) : Matches Q (.settings s) (.settings s)

theorem Reply.Matches.of_kind_eq {Q : Nat → Nat → Prop} {k k' : TokenKind} (h : k' = k) :
    Matches Q (.kind k) (.kind k') := by
  rw [h]
  exact .kind k

theorem Reply.Matches.of_flag_eq {Q : Nat → Nat → Prop} {b b' : Bool} (h : b' = b) :
    Matches Q (.flag b) (.flag b') := by
  rw [h]
  exact .flag b

/-! ### Equal offsets -/

section Equal

variable {Q : Nat → Nat → Prop} (hQ : ∀ {p p'}, Q p p' → p' = p)
include hQ

theorem Findings.Matches.eq {f f' : Findings} (h : f.Matches Q f') : f' = f := by
  have hoctal := h.octal?.eq_shift (d := 0) hQ
  obtain ⟨html, octal, url, mapping⟩ := f
  obtain ⟨html', octal', url', mapping'⟩ := f'
  obtain ⟨hhtml, hurl, hmapping, -⟩ := h
  dsimp only at hhtml hurl hmapping hoctal
  rw [hhtml, hurl, hmapping, hoctal, Diagnostic.map_shift_zero]

theorem Token.Alike.eq {t t' : Token} (h : t.Alike Q t') : t' = t := by
  rcases h with h | ⟨rfl, rfl⟩
  · exact (h.eq_shift (d := 0) hQ).trans t.shift_zero
  · rfl

/-- Answers with equal offsets are equal. -/
theorem Reply.Matches.eq {reply reply' : Reply} (h : reply.Matches Q reply') : reply' = reply := by
  cases h with
  | @error d _ hd => rw [hd.eq_shift (d := 0) hQ, d.shift_zero]
  | @span s _ hs =>
    rcases hs with hs | ⟨rfl, rfl⟩
    · rw [hs.eq_shift (d := 0) hQ, s.shift_zero]
    · rfl
  | token ht => rw [ht.eq hQ]
  | octal hd => rw [hd.eq_shift (d := 0) hQ, Diagnostic.map_shift_zero]
  | findings hf => rw [hf.eq hQ]
  | _ => rfl

end Equal

namespace Scanner

variable {σ τ : Type}

/-- The scanners hold the same tokens, and their readers are at corresponding places. -/
structure Matches (Q : Nat → Nat → Prop) (R : Reader σ → Reader τ → Prop)
    (F : Findings → Findings → Prop) (s : Scanner σ) (s' : Scanner τ) : Prop where
  /-- The options are the same. -/
  settings : s'.settings = s.settings
  /-- The readers are at corresponding places. -/
  reader : R s.reader s'.reader
  /-- What is noted corresponds. -/
  findings : F s.findings s'.findings
  /-- The current tokens are the same. -/
  current : s.current.Alike Q s'.current
  /-- The next tokens are the same. -/
  next : s.next.Alike Q s'.next
  /-- The tokens after the next ones are the same. -/
  afterNext : s.afterNext.Alike Q s'.afterNext

namespace Matches

variable {Q : Nat → Nat → Prop} {R : Reader σ → Reader τ → Prop} {F : Findings → Findings → Prop}
  {s : Scanner σ} {s' : Scanner τ}

theorem token (h : s.Matches Q R F s') (slot : Slot) :
    (s.token slot).Alike Q (s'.token slot) := by
  cases slot with
  | current => exact h.current
  | next => exact h.next
  | afterNext => exact h.afterNext

theorem isAhead (h : s.Matches Q R F s') : s'.isAhead = s.isAhead := by
  rw [Scanner.isAhead, Scanner.isAhead, h.afterNext.kind]

/-- What a scanner answers from what it holds is the same. -/
theorem answer (h : s.Matches Q R (Findings.Matches Q) s') (q : Query) :
    (q.answer s).Matches Q (q.answer s') := by
  cases q with
  | token slot => exact .token (h.token slot)
  | numericValue =>
    show Reply.Matches Q (.number _) (.number s'.current.numericValue)
    rw [h.current.numericValue]
    exact .number _
  | currentIs text =>
    refine .of_flag_eq ?_
    rw [Scanner.currentIs, Scanner.currentIs, h.current.text]
  | nextIs text =>
    refine .of_flag_eq ?_
    rw [Scanner.nextIs, Scanner.nextIs, h.next.text]
  | findings => exact .findings h.findings
  | settings =>
    show Reply.Matches Q _ (.settings s'.settings)
    rw [h.settings]
    exact .settings _

theorem verdict (h : s.Matches Q R F s') :
    Reply.Matches Q (.verdict s.verdict) (.verdict s'.verdict) := by
  have he := h.current.error?
  unfold Scanner.verdict
  rw [h.current.kind]
  generalize s.current.error? = e at he
  generalize s'.current.error? = e' at he
  cases he with
  | none => exact .ok _
  | some hd => exact .error hd

end Matches

variable [SearchableSource σ] [SearchableSource τ]

/-- What scanning keeps true of two scanners over texts that end at the same place. -/
structure Simulation (Q : Nat → Nat → Prop) (R : Reader σ → Reader τ → Prop)
    (F : Findings → Findings → Prop) : Prop where
  /-- The moves of the readers keep them at corresponding places. -/
  moves : Reader.Simulation none Q R
  /-- Noting the same keeps the notes related. -/
  notes : Findings.Congruence Q F
  /-- Forgetting a literal does so, too. -/
  dropOctal : ∀ {f f'}, F f f' → F { f with octal? := none } { f' with octal? := none }

namespace Simulation

variable {Q : Nat → Nat → Prop} {R : Reader σ → Reader τ → Prop} {F : Findings → Findings → Prop}
  {s : Scanner σ} {s' : Scanner τ} (h : Simulation Q R F)
include h

/-- The same token is scanned. -/
theorem scan (hs : s.Matches Q R F s') (lineBreak : Bool) :
    (s.scan lineBreak).1.Matches Q (s'.scan lineBreak).1 ∧
      (s.scan lineBreak).2.Matches Q R F (s'.scan lineBreak).2 := by
  have hscanned := h.moves.scanToken h.notes hs.reader hs.findings s.settings lineBreak
  unfold Scanner.scan
  rw [hs.settings]
  generalize scanToken s.settings lineBreak s.findings s.reader = scanned at hscanned
  generalize scanToken s.settings lineBreak s'.findings s'.reader = scanned' at hscanned
  cases hscanned with
  | token ht _ hf hr => exact ⟨ht, rfl, hr, hf, hs.current, hs.next, hs.afterNext⟩
  | cut hb => exact absurd rfl hb
  | ends hb => exact absurd rfl hb

theorem advance (hs : s.Matches Q R F s') : s.advance.Matches Q R F s'.advance := by
  cases ha : s.isAhead with
  | true =>
    rw [advance_of_isAhead ha, advance_of_isAhead (hs.isAhead.trans ha)]
    exact ⟨hs.settings, hs.reader, hs.findings, hs.next, hs.afterNext, hs.current.erase⟩
  | false =>
    obtain ⟨ht, hs₁⟩ := h.scan hs false
    rw [advance_of_not_isAhead ha, advance_of_not_isAhead (hs.isAhead.trans ha)]
    exact ⟨hs₁.settings, hs₁.reader, hs₁.findings, hs.next, .inl ht, hs.afterNext⟩

theorem peekAhead (hs : s.Matches Q R F s') : s.peekAhead.Matches Q R F s'.peekAhead := by
  unfold Scanner.peekAhead
  rw [hs.isAhead]
  split
  · exact hs
  · obtain ⟨ht, hs₁⟩ := h.scan hs false
    exact ⟨hs₁.settings, hs₁.reader, hs₁.findings, hs.current, hs.next, .inl ht⟩

theorem forget (hs : s.Matches Q R F s') : s.dropOctal.Matches Q R F s'.dropOctal :=
  ⟨hs.settings, hs.reader, h.dropOctal hs.findings, hs.current, hs.next, hs.afterNext⟩

theorem continueTemplate (hs : s.Matches Q R F s') :
    s'.continueTemplate.1 = s.continueTemplate.1 ∧
      s.continueTemplate.2.Matches Q R F s'.continueTemplate.2 := by
  unfold Scanner.continueTemplate canContinueTemplate
  rw [hs.next.kind, hs.isAhead]
  split
  · next hcan =>
    have hbrace : s.next.kind = .punctuator .rightBrace :=
      beq_iff_eq.1 (Bool.and_eq_true_iff.1 hcan).1
    -- a brace has been scanned, so that it has a place
    have hnext : s.next.Matches Q s'.next := by
      rcases hs.next with hnext | ⟨habsent, -⟩
      · exact hnext
      · rw [habsent] at hbrace
        cases hbrace
    rw [hnext.afterLineTerminator]
    have hl := h.moves.templatePiece hs.reader hnext.span.start
    rcases h.moves.matches_toToken hl hnext.span.start s.next.afterLineTerminator
      with ⟨ht, hr⟩ | ⟨hb, -⟩
    · exact ⟨ht.kind, hs.settings, hr, hs.findings, hs.current, .inl ht, hs.afterNext⟩
    · exact absurd rfl hb
  · exact ⟨rfl, hs⟩

/-- The first token is the same if the readers are moved onto it alike, and if the beginning
of one text is at that of the other. -/
theorem start (hmove : ∀ {r r'}, R r r' → R r.advance r'.advance)
    (hzero : ∀ {p p'}, Q p p' → (p = 0 ↔ p' = 0)) (hs : s.Matches Q R F s') :
    s.start.Matches Q R F s'.start := by
  let r := if s.settings.hashbang then Gap.hashbang s.reader.advance else s.reader.advance
  let r' := if s'.settings.hashbang then Gap.hashbang s'.reader.advance else s'.reader.advance
  have hr : R r r' := by
    simp only [r, r', hs.settings]
    split
    · exact h.moves.hashbang hzero (hmove hs.reader)
    · exact hmove hs.reader
  have hmoved : Matches Q R F { s with reader := r } { s' with reader := r' } :=
    ⟨hs.settings, hr, hs.findings, hs.current, hs.next, hs.afterNext⟩
  obtain ⟨ht, hs₁⟩ := h.scan hmoved true
  exact ⟨hs₁.settings, hs₁.reader, hs₁.findings, hs₁.current, .inl ht, hs₁.afterNext⟩

end Simulation

/-! ### Operations -/

variable {Q : Nat → Nat → Prop} {R : Reader σ → Reader τ → Prop} {s : Scanner σ} {s' : Scanner τ}
  (h : Simulation Q R (Findings.Matches Q))
  (hmove : ∀ {r r'}, R r r' → R r.advance r'.advance)
  (hzero : ∀ {p p'}, Q p p' → (p = 0 ↔ p' = 0))
include h hmove hzero

/-- **Every operation does the same to both scanners**, and they answer alike. -/
theorem Simulation.perform (hs : s.Matches Q R (Findings.Matches Q) s') (op : Operation) :
    (op.perform s).1.Matches Q (op.perform s').1 ∧
      (op.perform s).2.Matches Q R (Findings.Matches Q) (op.perform s').2 := by
  have hadvance := h.advance hs
  have hpeek := h.peekAhead hs
  cases op with
  | start => exact ⟨.done, h.start hmove hzero hs⟩
  | advance => exact ⟨.of_kind_eq hadvance.current.kind, hadvance⟩
  | tryAdvance => exact ⟨hadvance.verdict, hadvance⟩
  | peekAhead => exact ⟨.of_kind_eq hpeek.afterNext.kind, hpeek⟩
  | peekAheadSpan => exact ⟨.span hpeek.afterNext.span, hpeek⟩
  | lineBreakAhead => exact ⟨.of_flag_eq hpeek.afterNext.afterLineTerminator, hpeek⟩
  | continueTemplate =>
    obtain ⟨hkind, hs₁⟩ := h.continueTemplate hs
    exact ⟨.of_kind_eq hkind, hs₁⟩
  | takeOctal => exact ⟨.octal hs.findings.octal?, h.forget hs⟩
  | query q => exact ⟨hs.answer q, hs⟩

/-- Every run of operations does the same to both scanners. -/
theorem Simulation.run (hs : s.Matches Q R (Findings.Matches Q) s') (ops : List Operation) :
    (s.run ops).Matches Q R (Findings.Matches Q) (s'.run ops) := by
  induction ops generalizing s s' with
  | nil => exact hs
  | cons op ops ih => exact ih (h.perform hmove hzero hs op).2

end Scanner

end EcmaLex
