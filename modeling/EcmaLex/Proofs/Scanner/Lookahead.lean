import EcmaLex.Proofs.Lexeme.Sound
import EcmaLex.Proofs.Scanner.Operation
import EcmaLex.Source.ByteCursor
import Mathlib.Logic.Function.Iterate

/-!
# Looking ahead

The tokens of a text are those that the scanner is moved onto one after the other.
Looking ahead scans a token sooner, and so does nothing but change when it is
scanned: what a rule finds depends on the options and on the reader, but not on
what has been noted before, and a scanner that is one token ahead is in step with
one that is not.

## Main definitions

* `Scanner.stream` — the tokens of a text.
* `tokensAfter` — the tokens after a given one.
* `Scanner.InStep` — the scanner is where another one is, or one token ahead of it.

## Main results

* `scanToken_congr_findings` — what is noted has no influence on the tokens.
* `Scanner.Plain.stream_eq` — what a scanner is moved onto is read from where its reader is.
* `Scanner.InStep.perform` — every operation but two keeps scanners in step.
* `Scanner.slots_of_lookahead` — **looking ahead never changes the tokens**.
-/

namespace EcmaLex

variable {σ : Type}

/-! ### What is noted does not matter -/

theorem Gap.magicAssignment_congr [TextSource σ] (f f' : Findings) (r : Reader σ) :
    (magicAssignment f r).2 = (magicAssignment f' r).2 := by
  unfold magicAssignment
  dsimp only
  split
  · split
    · rfl
    · split <;> rfl
  · rfl

/-- What a rule found, without what it noted. -/
def Step.found : Step σ → Bool × (Reader σ ⊕ Lexeme σ)
  | gap lineBreak _ r => (lineBreak, .inl r)
  | lexeme lineBreak _ l => (lineBreak, .inr l)

variable [SearchableSource σ]

theorem Gap.magicComment_congr (f f' : Findings) (r : Reader σ) :
    (magicComment f r).2 = (magicComment f' r).2 := by
  unfold magicComment
  dsimp only
  rw [magicAssignment_congr f f']

theorem found_htmlComment (settings : Settings) (lineBreak : Bool) (f f' : Findings)
    (start : Nat) (r : Reader σ) :
    (htmlComment settings lineBreak f start r).found =
      (htmlComment settings lineBreak f' start r).found := by
  unfold htmlComment
  split <;> rfl

theorem found_operator (settings : Settings) (lineBreak : Bool) (f f' : Findings) (start : Nat)
    (p : Punctuator) (r : Reader σ) :
    (operator settings lineBreak f start p r).found =
      (operator settings lineBreak f' start p r).found := by
  unfold operator
  dsimp only
  split
  · split
    · split
      · exact found_htmlComment _ _ _ _ _ _
      · rfl
    · rfl
  · split
    · exact found_htmlComment _ _ _ _ _ _
    · rfl
  · split
    · split
      · simp only [Step.found]
        rw [Gap.magicComment_congr f f']
      · rfl
    · split
      · split <;> rfl
      · rfl
  · split
    · rfl
    · split <;> rfl
  · split
    · split <;> rfl
    · rfl
  · rfl

/-- What a rule finds does not depend on what has been noted. -/
theorem found_step (settings : Settings) (lineBreak : Bool) (f f' : Findings) (r : Reader σ) :
    (step settings lineBreak f r).found = (step settings lineBreak f' r).found := by
  unfold step
  split
  · rfl
  · -- only the rules for punctuators note anything, those for magic comments
    repeat' split
    all_goals first | rfl | exact found_operator _ _ _ _ _ _ _

/-- **What has been noted has no influence on the tokens.** -/
theorem scanToken_congr_findings (settings : Settings) (lineBreak : Bool) (f f' : Findings)
    (r : Reader σ) :
    (scanToken settings lineBreak f r).token = (scanToken settings lineBreak f' r).token ∧
      (scanToken settings lineBreak f r).reader = (scanToken settings lineBreak f' r).reader := by
  fun_induction scanToken settings lineBreak f r generalizing f' with
  | case1 lineBreak f r lineBreak₁ f₁ r₁ h ih =>
    have hf := found_step settings lineBreak f f' r
    -- the other scan sees the same gap, and so goes on at the same place
    rw [h] at hf
    cases h' : step settings lineBreak f' r with
    | gap lineBreak₂ f₂ r₂ =>
      rw [h'] at hf
      cases hf
      rw [scanToken_of_step_eq_gap h']
      exact ih f₂
    | lexeme lineBreak₂ f₂ l₂ =>
      rw [h'] at hf
      cases hf
  | case2 lineBreak f r lineBreak₁ f₁ l₁ h =>
    have hf := found_step settings lineBreak f f' r
    rw [h] at hf
    cases h' : step settings lineBreak f' r with
    | gap lineBreak₂ f₂ r₂ =>
      rw [h'] at hf
      cases hf
    | lexeme lineBreak₂ f₂ l₂ =>
      rw [h'] at hf
      cases hf
      rw [scanToken_of_step_eq_lexeme h']
      exact ⟨rfl, rfl⟩

namespace Scanner

/-- The token that a scanner scans depends on the options and the reader alone. -/
theorem scan_congr {s s' : Scanner σ} (hs : s.settings = s'.settings) (hr : s.reader = s'.reader)
    (lineBreak : Bool) :
    (s.scan lineBreak).1 = (s'.scan lineBreak).1 ∧
      (s.scan lineBreak).2.reader = (s'.scan lineBreak).2.reader := by
  simp only [scan, hs, hr]
  exact scanToken_congr_findings _ _ _ _ _

theorem kind_scan_ne_uninitialized (s : Scanner σ) (lineBreak : Bool) :
    (s.scan lineBreak).1.kind ≠ .uninitialized :=
  (kind_scanToken _ _ _ _).2

/-! ### The tokens of a text -/

/-- The tokens that a scanner is moved onto one after the other. -/
def stream (s : Scanner σ) (n : Nat) : Token := (advance^[n + 1] s).current

theorem stream_eq_next (s : Scanner σ) (n : Nat) : s.stream n = (advance^[n] s).next := by
  rw [stream, Function.iterate_succ_apply', advance_current]

theorem stream_advance (s : Scanner σ) (n : Nat) : s.advance.stream n = s.stream (n + 1) := by
  rw [stream, stream, Function.iterate_succ_apply _ (n + 1)]

/-- A scanner that has not looked ahead since its start. -/
def Plain (s : Scanner σ) : Prop :=
  s.isAhead = false ∧ (s.next.kind = .endOfInput → s.reader.char? = none)

theorem plain_start (settings : Settings) (source : σ) : (ofSource settings source).start.Plain :=
  ⟨rfl, char?_of_scanToken_eq_endOfInput⟩

theorem Plain.advance {s : Scanner σ} (h : s.Plain) : s.advance.Plain := by
  rw [Plain, advance_of_not_isAhead h.1]
  exact ⟨h.1, char?_of_scanToken_eq_endOfInput⟩

theorem Plain.iterate_advance {s : Scanner σ} (h : s.Plain) (n : Nat) :
    (Scanner.advance^[n] s).Plain := by
  induction n with
  | zero => exact h
  | succ n ih =>
    rw [Function.iterate_succ_apply']
    exact ih.advance

/-- Only the end of input follows the end of input. -/
theorem Plain.stream_succ {s : Scanner σ} (h : s.Plain) {n : Nat}
    (hn : (s.stream n).kind = .endOfInput) : (s.stream (n + 1)).kind = .endOfInput := by
  have hp := h.iterate_advance n
  rw [stream_eq_next] at hn
  rw [stream_eq_next, Function.iterate_succ_apply', advance_of_not_isAhead hp.1]
  -- the reader of a scanner at the end of input is at the end as well
  show (scanToken _ _ _ _).token.kind = _
  rw [scanToken_of_step_eq_lexeme (step_of_char?_eq_none _ _ _ (hp.2 hn))]
  rfl

/-- After the end of input there are only ends of input. -/
theorem Plain.stream_of_le {s : Scanner σ} (h : s.Plain) {m n : Nat} (hmn : m ≤ n)
    (hm : (s.stream m).kind = .endOfInput) : (s.stream n).kind = .endOfInput := by
  induction hmn with
  | refl => exact hm
  | step _ ih => exact h.stream_succ ih

/-- A text has finitely many tokens, and ends of input after these.  The induction is
on the number of tokens still to come. -/
theorem Plain.exists_stream_eq_endOfInput_iff {s : Scanner σ} (h : s.Plain) :
    ∃ count, ∀ n, (s.stream n).kind = .endOfInput ↔ count ≤ n := by
  induction hm : s.pending using Nat.strongRecOn generalizing s with
  | ind m ih =>
    by_cases hk : s.advance.current.kind = .endOfInput
    · exact ⟨0, fun n => iff_of_true (h.stream_of_le n.zero_le hk) n.zero_le⟩
    · obtain ⟨count, hc⟩ := ih _ (hm ▸ pending_advance_lt hk) h.advance rfl
      refine ⟨count + 1, fun n => ?_⟩
      cases n with
      | zero => exact iff_of_false hk (Nat.not_succ_le_zero count)
      | succ n => rw [← stream_advance, hc, Nat.succ_le_succ_iff]

end Scanner

/-- The tokens from a given one on, the others of which are scanned from the reader on, one
after the other. -/
def tokensAfter (settings : Settings) (t : Token) (r : Reader σ) : Nat → Token
  | 0 => t
  | n + 1 =>
    let scanned := scanToken settings false {} r
    tokensAfter settings scanned.token scanned.reader n

namespace Scanner

/-- What a scanner is moved onto is its next token, and then what is read from where its
reader is. -/
theorem Plain.stream_eq {s : Scanner σ} (h : s.Plain) (n : Nat) :
    s.stream n = tokensAfter s.settings s.next s.reader n := by
  induction n generalizing s with
  | zero => exact stream_eq_next s 0
  | succ n ih =>
    obtain ⟨ht, hr⟩ := scanToken_congr_findings s.settings false s.findings {} s.reader
    rw [← stream_advance, ih h.advance, advance_of_not_isAhead h.1, tokensAfter, ← ht, ← hr]
    rfl

/-! ### Scanners in step -/

/-- The scanner `s` holds the tokens that `p` holds, and it has read as far as `p`, or one
token further. -/
structure InStep (p s : Scanner σ) : Prop where
  /-- They have the same options. -/
  settings : s.settings = p.settings
  /-- They hold the same current token. -/
  current : s.current = p.current
  /-- They hold the same next token. -/
  next : s.next = p.next
  /-- What `s` has scanned ahead is what `p` scans next. -/
  ahead : s.isAhead = false ∧ s.reader = p.reader ∨
    s.isAhead = true ∧ s.afterNext = (p.scan false).1 ∧ s.reader = (p.scan false).2.reader

namespace InStep

variable {p s : Scanner σ}

theorem refl (h : s.Plain) : InStep s s := ⟨rfl, rfl, rfl, .inl ⟨h.1, rfl⟩⟩

theorem isAhead_peekAhead (s : Scanner σ) : s.peekAhead.isAhead = true := by
  unfold Scanner.peekAhead
  split
  · assumption
  · have := s.kind_scan_ne_uninitialized false
    simpa [isAhead] using this

theorem peekAhead (h : InStep p s) : InStep p s.peekAhead := by
  rcases h.ahead with ⟨ha, hr⟩ | ⟨ha, -, -⟩
  · obtain ⟨ht, hr'⟩ := scan_congr h.settings hr false
    have hp := isAhead_peekAhead s
    unfold Scanner.peekAhead at hp ⊢
    rw [if_neg (by simp [ha])] at hp ⊢
    exact ⟨h.settings, h.current, h.next, .inr ⟨hp, ht, hr'⟩⟩
  · rwa [Scanner.peekAhead, if_pos ha]

theorem advance (hp : p.Plain) (h : InStep p s) : InStep p.advance s.advance := by
  rw [advance_of_not_isAhead hp.1]
  rcases h.ahead with ⟨ha, hr⟩ | ⟨ha, ht, hr⟩
  · -- neither is ahead: both scan the same token now
    obtain ⟨ht, hr'⟩ := scan_congr h.settings hr false
    rw [advance_of_not_isAhead ha]
    exact ⟨h.settings, h.next, ht, .inl ⟨ha, hr'⟩⟩
  · -- `s` is ahead: it takes the token that it scanned before
    rw [advance_of_isAhead ha]
    exact ⟨h.settings, h.next, ht, .inl ⟨rfl, hr⟩⟩

theorem dropOctal (h : InStep p s) : InStep p s.dropOctal :=
  ⟨h.settings, h.current, h.next, h.ahead⟩

/-- Every operation that has no say in what is scanned keeps scanners in step, if
the other one moves on whenever this one does. -/
theorem perform (hp : p.Plain) (h : InStep p s) {op : Operation} (hop : op.keepsStream = true) :
    InStep (if op.moves then p.advance else p) (op.perform s).2 := by
  cases op with
  | start => cases hop
  | advance => exact h.advance hp
  | tryAdvance => exact h.advance hp
  | peekAhead => exact h.peekAhead
  | peekAheadSpan => exact h.peekAhead
  | lineBreakAhead => exact h.peekAhead
  | continueTemplate => cases hop
  | takeOctal => exact h.dropOctal
  | query q => exact h

/-- A run keeps scanners in step, if the other one moves on as often. -/
theorem run (hp : p.Plain) (h : InStep p s) {ops : List Operation}
    (hops : ∀ op ∈ ops, op.keepsStream = true) :
    InStep (Scanner.advance^[moveCount ops] p) (s.run ops) := by
  induction ops generalizing p s with
  | nil => exact h
  | cons op ops ih =>
    obtain ⟨hop, hops⟩ := List.forall_mem_cons.1 hops
    have hop := h.perform hp hop
    rw [moveCount, List.countP_cons]
    by_cases hm : op.moves = true
    · rw [if_pos hm] at hop
      rw [if_pos hm, Function.iterate_succ_apply]
      exact ih hp.advance hop hops
    · rw [if_neg hm] at hop
      rw [if_neg hm, Nat.add_zero]
      exact ih hp hop hops

end InStep

/-! ### Looking ahead -/

/-- Looking ahead again changes nothing. -/
theorem peekAhead_of_isAhead {s : Scanner σ} (h : s.isAhead = true) : s.peekAhead = s :=
  if_pos h

/-- A scanner that has looked ahead stays ahead as long as it does not move on. -/
theorem isAhead_run_of_still {s : Scanner σ} (h : s.isAhead = true) {ops : List Operation}
    (hops : ∀ op ∈ ops, op.keepsStream = true ∧ op.moves = false) : (s.run ops).isAhead = true := by
  induction ops generalizing s with
  | nil => exact h
  | cons op ops ih =>
    obtain ⟨⟨hk, hm⟩, hops⟩ := List.forall_mem_cons.1 hops
    refine ih ?_ hops
    cases op with
    | start => cases hk
    | advance => cases hm
    | tryAdvance => cases hm
    | continueTemplate => cases hk
    | takeOctal => exact h
    | query q => exact h
    | _ => exact InStep.isAhead_peekAhead s

/-- **Looking ahead never changes the tokens.**  Of the stream that a scanner is moved
through by moving on alone, some finite part is the tokens of the text, and the
rest is ends of input.  After any run of operations that moves on `k` times, the
scanner holds the tokens number `k - 1` and `k` of that stream, and the one after
them if it holds a third.  Looking ahead a second time, without a move in
between, changes nothing. -/
theorem slots_of_lookahead (settings : Settings) (source : σ) (ops : List Operation)
    (hops : ∀ op ∈ ops, op.keepsStream = true) :
    let first := (ofSource settings source).start
    let s := first.run ops
    let k := moveCount ops
    (∃ count, ∀ n, (first.stream n).kind = .endOfInput ↔ count ≤ n) ∧
      (0 < k → s.current = first.stream (k - 1)) ∧
      s.next = first.stream k ∧
      (s.afterNext.kind = .uninitialized ∨ s.afterNext = first.stream (k + 1)) ∧
      ∀ still : List Operation, (∀ op ∈ still, op.keepsStream = true ∧ op.moves = false) →
        (s.peekAhead.run still).peekAhead = s.peekAhead.run still := by
  intro first s k
  -- the scanner that moves on alone, as often
  have hp : first.Plain := plain_start settings source
  have h : InStep (advance^[k] first) s := (InStep.refl hp).run hp hops
  have hpk : (advance^[k] first).Plain := hp.iterate_advance k
  refine ⟨hp.exists_stream_eq_endOfInput_iff, fun hk => ?_, ?_, ?_, fun still hstill => ?_⟩
  · rw [stream, Nat.sub_add_cancel hk]
    exact h.current
  · rw [stream_eq_next]
    exact h.next
  · rcases h.ahead with ⟨ha, -⟩ | ⟨-, ht, -⟩
    · -- nothing was scanned ahead
      exact .inl (by simpa [isAhead] using ha)
    · refine .inr ?_
      rw [ht, stream_eq_next, Function.iterate_succ_apply', advance_of_not_isAhead hpk.1]
  · exact peekAhead_of_isAhead (isAhead_run_of_still (InStep.isAhead_peekAhead s) hstill)

/-- Looking ahead before every move leads to the same tokens. -/
theorem slots_of_lookahead_before_moves :
    let ops : List Operation := [.peekAhead, .advance, .lineBreakAhead, .takeOctal, .advance]
    (∀ op ∈ ops, op.keepsStream = true) ∧
      let first := (ofSource {} (ByteCursor.ofString "if x")).start
      (first.run ops).current = first.stream 1 ∧ (first.run ops).next = first.stream 2 := by
  intro ops
  have hops : ∀ op ∈ ops, op.keepsStream = true := by decide
  obtain ⟨-, hc, hn, -⟩ := slots_of_lookahead {} (ByteCursor.ofString "if x") ops hops
  exact ⟨hops, hc (by decide), hn⟩

end Scanner

end EcmaLex
