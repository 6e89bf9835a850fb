import EcmaLex.Proofs.Lexeme.Sound
import EcmaLex.Proofs.Simulation.Gap
import EcmaLex.Proofs.Simulation.Lexeme
import EcmaLex.Proofs.Simulation.Numeral

/-!
# Tokens side by side

The rule that the first character decides on finds the same in both texts, and so
does a whole scan.  Where the second text goes on with a line feed beyond the end of
the first one, the scan of the first text gives the end of input, while that of
the second one goes on behind the line feed.  White space is followed one character
at a time for that, since a run of it may go on over the line feed.

Where the second text goes on with a space, this holds of tokens, but not of comments:
one that the first text ends in may go on in the second one.

## Main definitions

* `Step.Matches` — what a rule finds in two texts.
* `Token.Matches` — the same token at corresponding offsets.
* `Scanned.Matches` — the outcomes of two scans.

## Main results

* `Reader.Parallel.step_of_error?` — **tokens are the same in both texts**, whatever blank stands
  behind the first one.
* `Reader.Simulation.step` — **every rule finds the same in both texts**.
* `Reader.Simulation.scanToken` — **scanning finds the same tokens in both texts**.
-/

namespace EcmaLex

/-- Two rules find the same.  Nothing is said of the second one where the second text
goes on beyond the first and there is an error in the first. -/
inductive Step.Matches {σ τ : Type} (beyond : Option Char) (Q : Nat → Nat → Prop)
    (R : Reader σ → Reader τ → Prop) (F : Findings → Findings → Prop) :
    Step σ → Step τ → Prop where
  /-- A piece of a gap. -/
  | gap (lineBreak : Bool) {f f' : Findings} {r : Reader σ} {r' : Reader τ} (findings : F f f')
      (reader : R r r') : Matches beyond Q R F (.gap lineBreak f r) (.gap lineBreak f' r')
  /-- A lexeme. -/
  | lexeme (lineBreak : Bool) {f f' : Findings} {l : Lexeme σ} {l' : Lexeme τ}
      (findings : F f f') (lexeme : l.Matches beyond Q R l') :
      Matches beyond Q R F (.lexeme lineBreak f l) (.lexeme lineBreak f' l')
  /-- An error, and a second text that goes on. -/
  | cut {lineBreak : Bool} {f : Findings} {d : Diagnostic} {text : TokenText} {r : Reader σ}
      {s' : Step τ} (goesOn : beyond ≠ none) :
      Matches beyond Q R F (.lexeme lineBreak f ⟨.error d, text, r⟩) s'

/-- The same token at corresponding offsets. -/
structure Token.Matches (Q : Nat → Nat → Prop) (t t' : Token) : Prop where
  /-- The texts and values are the same. -/
  text : t'.toTokenText = t.toTokenText
  /-- The kinds are the same. -/
  kind : t'.kind = t.kind
  /-- Both stand after a line terminator, or none does. -/
  afterLineTerminator : t'.afterLineTerminator = t.afterLineTerminator
  /-- They are at corresponding places. -/
  span : t.span.Matches Q t'.span
  /-- The same is wrong with both, at corresponding places. -/
  error? : Option.Rel (Diagnostic.Matches Q) t.error? t'.error?

/-- The outcomes of two scans correspond to each other. -/
inductive Scanned.Matches {σ τ : Type} [SearchableSource τ] (beyond : Option Char)
    (Q : Nat → Nat → Prop) (R : Reader σ → Reader τ → Prop) (F : Findings → Findings → Prop)
    (settings : Settings) : Scanned σ → Scanned τ → Prop where
  /-- The tokens are the same, and they are not the end of a text that the other one goes
  on beyond. -/
  | token {t t' : Token} {f f' : Findings} {r : Reader σ} {r' : Reader τ} (tokens : t.Matches Q t')
      (text : beyond ≠ none → t.kind ≠ .endOfInput) (findings : F f f') (reader : R r r') :
      Matches beyond Q R F settings ⟨t, f, r⟩ ⟨t', f', r'⟩
  /-- An error, and a second text that goes on. -/
  | cut {t : Token} {f : Findings} {r : Reader σ} {s' : Scanned τ} (goesOn : beyond ≠ none)
      (error : t.error?.isSome = true) : Matches beyond Q R F settings ⟨t, f, r⟩ s'
  /-- The end of the first text, behind which the second scan goes on in a new line. -/
  | ends {t : Token} {f f' : Findings} {r : Reader σ} {r' : Reader τ} (goesOn : beyond ≠ none)
      (kind : t.kind = .endOfInput) (error : t.error? = none) (findings : F f f')
      (reader : R r r') (atEnd : r.char? = none) :
      Matches beyond Q R F settings ⟨t, f, r⟩ (scanToken settings true f' r'.advance)

/-- Punctuators are written in ASCII. -/
theorem Punctuator.isAscii_of_ofChar {p : Punctuator} {c : Char} (h : ofChar c = some p) :
    isAscii c = true := by
  unfold ofChar at h
  split at h <;> first | rfl | cases h

theorem Punctuator.isAscii_of_extend {p q : Punctuator} {c : Char} (h : p.extend c = some q) :
    isAscii c = true := by
  unfold extend at h
  split at h <;> first | rfl | cases h

/-- White space can be passed one character at a time. -/
theorem scanToken_of_isBlank {σ : Type} [SearchableSource σ] {r : Reader σ} {c : Char}
    (hc : r.char? = some c) (hb : isBlank c = true) (settings : Settings) (lineBreak : Bool)
    (f : Findings) :
    scanToken settings lineBreak f r =
      scanToken settings (lineBreak || isLineTerminator c) f r.advance := by
  have hstep : ∀ {lineBreak : Bool} {r : Reader σ} {c : Char}, r.char? = some c →
      isBlank c = true → step settings lineBreak f r =
        .gap (Gap.whiteSpace (lineBreak || isLineTerminator c) r.advance).1 f
          (Gap.whiteSpace (lineBreak || isLineTerminator c) r.advance).2 := by
    intro lineBreak r c hc hb
    rw [step, hc]
    dsimp only
    rw [if_pos hb, Gap.whiteSpace.eq_def, hc]
    dsimp only
    rw [if_pos hb]
  rw [scanToken_of_step_eq_gap (hstep hc hb)]
  generalize (lineBreak || isLineTerminator c) = lineBreak
  generalize r.advance = r
  -- the rest of the run is none at all, or what the next scan begins with
  rw [Gap.whiteSpace.eq_def]
  split
  · rfl
  · next d hd =>
    split
    · next hbd => rw [scanToken_of_step_eq_gap (hstep hd hbd)]
    · rfl

namespace Reader.Parallel

variable {σ τ : Type} [SearchableSource σ] [SearchableSource τ] {beyond : Option Char}
  {Q : Nat → Nat → Prop} {R : Reader σ → Reader τ → Prop} {F : Findings → Findings → Prop}
  {r : Reader σ} {r' : Reader τ} {f f' : Findings} {start start' : Nat}
  (h : Parallel beyond Q R)
include h

/-! ### Punctuators -/

/-- The longest punctuator is the same, and as long in both texts. -/
theorem munch (hr : R r r') (p : Punctuator)
    (hlength : ∃ k, r.position = start + k ∧ r'.position = start' + k) :
    (p.munch r').1 = (p.munch r).1 ∧ R (p.munch r).2 (p.munch r').2 ∧
      ∃ k, (p.munch r).2.position = start + k ∧ (p.munch r').2.position = start' + k := by
  fun_induction p.munch r generalizing r' with
  | case1 p r hc =>
    rw [Punctuator.munch]
    split
    · exact ⟨rfl, hr, hlength⟩
    · next c hc' =>
      have hnone : p.extend c = none := by
        obtain ⟨-, rfl | rfl⟩ := h.eq_blank hr hc hc' <;> cases p <;> rfl
      rw [hnone]
      exact ⟨rfl, hr, hlength⟩
  | case2 p r c hc q hq ih =>
    rw [Punctuator.munch.eq_def p r', h.char?_of_some hr hc]
    dsimp only
    rw [hq]
    obtain ⟨k, hk, hk'⟩ := hlength
    obtain ⟨n, hn, hn'⟩ := h.width hr hc (Punctuator.isAscii_of_extend hq)
    have hadvance : r.advance.position = start + (k + n) ∧
        r'.advance.position = start' + (k + n) := by
      constructor <;> omega
    exact ih (h.advance hr hc) ⟨k + n, hadvance⟩
  | case3 p r c hc hq =>
    rw [Punctuator.munch.eq_def p r', h.char?_of_some hr hc]
    dsimp only
    rw [hq]
    exact ⟨rfl, hr, hlength⟩

/-- A punctuator that opens no comment is the same in both texts. -/
theorem operator (hr : R r r') (hf : F f f') (hq : Q start start')
    (hlength : ∃ k, r.position = start + k ∧ r'.position = start' + k) (settings : Settings)
    (lineBreak : Bool) (p : Punctuator) (hopens : p.opensComment lineBreak r = false) :
    (operator settings lineBreak f start p r).Matches beyond Q R F
      (operator settings lineBreak f' start' p r') := by
  -- most punctuators are just what they are
  have plain : ∀ (p : Punctuator) {r : Reader σ} {r' : Reader τ}, R r r' →
      Step.Matches beyond Q R F (.lexeme lineBreak f (.ofKind (.punctuator p) r))
        (.lexeme lineBreak f' (.ofKind (.punctuator p) r')) :=
    fun p r r' hr => .lexeme lineBreak hf (.ok hr)
  unfold EcmaLex.operator
  dsimp only
  split
  · rw [h.isAt_eq hr (by decide)]
    split
    · next hmark =>
      have ha := h.advance_of_isAt hr hmark
      rw [h.isAt_and_peek_eq ha (by decide) (by decide)]
      rw [Punctuator.opensComment, hmark, Bool.true_and] at hopens
      rw [hopens]
      exact plain .lt (h.pushBack hr hmark)
    · exact plain .lt hr
  · rw [h.isAt_eq hr (by decide)]
    have hclose : (r.isAt '>' && lineBreak) = false := hopens
    rw [hclose]
    exact plain .dec hr
  · rw [h.isAt_eq hr (by decide), h.isAt_eq hr (by decide)]
    obtain ⟨hslash, hstar⟩ := Bool.or_eq_false_iff.1 hopens
    rw [hslash, hstar]
    exact plain .div hr
  · rw [h.isAtAny_eq hr (by decide), h.isAt_and_peek_eq hr (by decide) (by decide)]
    split
    · exact .lexeme lineBreak hf (h.fractionNumeral hr hq hlength settings)
    · split
      · next hdots =>
        obtain ⟨hdot, hpeek⟩ := Bool.and_eq_true_iff.1 hdots
        have hdot : r.char? = some '.' := beq_iff_eq.1 hdot
        have hlast : r.advance.char? = some '.' := by
          rw [← (h.peek hr hdot).1]
          exact beq_iff_eq.1 hpeek
        exact plain .ellipsis (h.advance (h.advance hr hdot) hlast)
      · exact plain .period hr
  · rw [h.isAt_eq hr (by decide)]
    split
    · next hdot =>
      rw [h.isAtAny_eq (h.advance_of_isAt hr hdot) (by decide)]
      split
      · exact plain .conditional (h.pushBack hr hdot)
      · exact plain .questionPeriod (h.advance_of_isAt hr hdot)
    · exact plain .conditional hr
  · exact plain _ hr

/-! ### Rules -/

/-- A rule finds the same in both texts, apart from white space, of which the second text
may hold more, if what it finds at a punctuator is the same. -/
theorem step_of_operator (hF : Findings.Congruence Q F) (hr : R r r') (hf : F f f') {c : Char}
    (hc : r.char? = some c) (hb : isBlank c = false) (settings : Settings) (lineBreak : Bool)
    (hop : ∀ {p : Punctuator} {r₁ : Reader σ} {r₁' : Reader τ}, R r₁ r₁' →
      (∃ k, r₁.position = r.position + k ∧ r₁'.position = r'.position + k) →
      EcmaLex.step settings lineBreak f r =
        EcmaLex.operator settings lineBreak f r.position p r₁ →
      (EcmaLex.operator settings lineBreak f r.position p r₁).Matches beyond Q R F
        (EcmaLex.operator settings lineBreak f' r'.position p r₁')) :
    (step settings lineBreak f r).Matches beyond Q R F (step settings lineBreak f' r') := by
  have ha := h.advance hr hc
  have hc' := h.char?_of_some hr hc
  cases hp : Punctuator.ofChar c with
  | some p =>
    have hwidth := h.width hr hc (Punctuator.isAscii_of_ofChar hp)
    obtain ⟨hm, hrm, hlength⟩ := h.munch ha p hwidth
    have hstep := step_eq_operator hc hp settings lineBreak f
    rw [step_eq_operator hc' hp settings lineBreak f', hm, hstep]
    exact hop hrm hlength hstep
  | none =>
    unfold EcmaLex.step
    rw [hc, hc']
    dsimp only
    have hblank : ¬isBlank c = true := by simp [hb]
    rw [if_neg hblank, if_neg hblank, hp]
    split
    · exact .lexeme lineBreak hf (h.word hr hc "")
    · split
      · next hd =>
        have hl := h.numeral hr hc hd settings
        generalize EcmaLex.numeral settings c r = l at hl
        generalize EcmaLex.numeral settings c r' = l' at hl
        cases hl with
        | ok hl =>
          exact .lexeme lineBreak (hF.noteLegacyOctal _ (h.position hr) (h.position hl) hf)
            (.ok hl)
        | illegal hd hl =>
          exact .lexeme lineBreak (hF.noteLegacyOctal _ (h.position hr) (h.position hl) hf)
            (.illegal hd hl)
        | cut hb => exact .cut hb
      · split
        · exact .lexeme lineBreak hf (h.stringLiteral hr hc c)
        · split
          · exact .lexeme lineBreak hf (h.templatePiece ha (h.position hr))
          · split
            · exact .lexeme lineBreak hf (h.privateName hr hc)
            · exact .lexeme lineBreak hf (.illegal (h.matches_charSpan hr hc _) ha)

/-- **A rule that finds a token in the first text finds the same in the second one.** -/
theorem step_of_error? (hF : Findings.Congruence Q F) (hr : R r r') (hf : F f f') {c : Char}
    (hc : r.char? = some c) (settings : Settings) {lineBreak lineBreak₁ : Bool} {f₁ : Findings}
    {l : Lexeme σ} (hl : EcmaLex.step settings lineBreak f r = .lexeme lineBreak₁ f₁ l)
    (hok : l.error? = none) :
    (step settings lineBreak f r).Matches beyond Q R F (step settings lineBreak f' r') := by
  have hb : isBlank c = false := by
    by_contra hb
    unfold EcmaLex.step at hl
    rw [hc] at hl
    dsimp only at hl
    rw [if_pos (eq_true_of_ne_false hb)] at hl
    cases hl
  refine h.step_of_operator hF hr hf hc hb settings lineBreak fun {p r₁ r₁'} hr₁ hlength hstep => ?_
  refine h.operator hr₁ hf (h.position hr) hlength settings lineBreak p ?_
  -- a comment would be no token
  by_contra hopens
  have herror := isGapOrError_of_opensComment (eq_true_of_ne_false hopens) settings f r.position
  rw [← hstep, hl, Step.IsGapOrError, hok] at herror
  cases herror

/-- The same lexeme gives the same token. -/
theorem matches_toToken {l : Lexeme σ} {l' : Lexeme τ} (hl : l.Matches beyond Q R l')
    (hq : Q start start') (lineBreak : Bool) :
    (l.toToken start lineBreak).Matches Q (l'.toToken start' lineBreak) ∧ R l.reader l'.reader ∨
      beyond ≠ none ∧ (l.toToken start lineBreak).error?.isSome = true := by
  cases hl with
  | ok hr => exact .inl ⟨⟨rfl, rfl, rfl, ⟨hq, h.position hr⟩, .none⟩, hr⟩
  | illegal hd hr => exact .inl ⟨⟨rfl, rfl, rfl, ⟨hq, h.position hr⟩, .some hd⟩, hr⟩
  | cut hb => exact .inr ⟨hb, rfl⟩

end Reader.Parallel

namespace Reader.Simulation

variable {σ τ : Type} [SearchableSource σ] [SearchableSource τ] {beyond : Option Char}
  {Q : Nat → Nat → Prop} {R : Reader σ → Reader τ → Prop} {F : Findings → Findings → Prop}
  {r : Reader σ} {r' : Reader τ} {f f' : Findings} {start start' : Nat}
  (h : Simulation beyond Q R)
include h

/-! ### Comments -/

theorem htmlComment (hr : R r r') (hf : F f f') {c : Char} (hc : r.char? = some c)
    (hq : Q start start') (settings : Settings) (lineBreak : Bool) :
    (htmlComment settings lineBreak f start r).Matches beyond Q R F
      (htmlComment settings lineBreak f' start' r') := by
  unfold EcmaLex.htmlComment
  split
  · exact .lexeme lineBreak hf (.illegal (h.matches_span hq hr _) hr)
  · exact .gap lineBreak hf (h.lineComment hr hc)

theorem operator (hF : Findings.Congruence Q F) (hr : R r r') (hf : F f f') (hq : Q start start')
    (hlength : ∃ k, r.position = start + k ∧ r'.position = start' + k) (settings : Settings)
    (lineBreak : Bool) (p : Punctuator) :
    (operator settings lineBreak f start p r).Matches beyond Q R F
      (operator settings lineBreak f' start' p r') := by
  cases hopens : p.opensComment lineBreak r with
  | false => exact h.toParallel.operator hr hf hq hlength settings lineBreak p hopens
  | true =>
    unfold EcmaLex.operator
    dsimp only
    cases p with
    | lt =>
      obtain ⟨hmark, hopen⟩ := Bool.and_eq_true_iff.1 hopens
      have ha := h.advance_of_isAt hr hmark
      obtain ⟨hdash, hpeek⟩ := Bool.and_eq_true_iff.1 hopen
      have hdash : r.advance.char? = some '-' := beq_iff_eq.1 hdash
      have hlast : r.advance.advance.char? = some '-' := by
        rw [← (h.peek ha hdash).1]
        exact beq_iff_eq.1 hpeek
      dsimp only
      rw [h.isAt_eq hr (by decide), h.isAt_and_peek_eq ha (by decide) (by decide), if_pos hmark,
        if_pos hopen, if_pos hmark, if_pos hopen]
      exact h.htmlComment (h.advance ha hdash) (hF.htmlComment hf) hlast hq settings lineBreak
    | dec =>
      have hclose : (r.isAt '>' && lineBreak) = true := hopens
      have hat : r.isAt '>' = true := (Bool.and_eq_true_iff.1 hclose).1
      dsimp only
      rw [h.isAt_eq hr (by decide), if_pos hclose, if_pos hclose]
      exact h.htmlComment hr hf (beq_iff_eq.1 hat) hq settings lineBreak
    | div =>
      dsimp only
      rw [h.isAt_eq hr (by decide), h.isAt_eq hr (by decide)]
      split
      · next hslash =>
        have hslash : r.char? = some '/' := beq_iff_eq.1 hslash
        have ha := h.advance hr hslash
        rw [h.peek_eq hr hslash (by decide), h.peek_eq hr hslash (by decide)]
        split
        · next hmark =>
          -- the third mark is a character, whichever of the two it is
          obtain ⟨c, hc⟩ : ∃ c, r.advance.char? = some c := by
            rw [← (h.peek hr hslash).1]
            rcases Bool.or_eq_true_iff.1 hmark with hmark | hmark
            · exact ⟨_, beq_iff_eq.1 hmark⟩
            · exact ⟨_, beq_iff_eq.1 hmark⟩
          obtain ⟨hf, hr⟩ := h.magicComment hF (h.advance ha hc) hf
          exact .gap lineBreak hf hr
        · exact .gap lineBreak hf (h.lineComment hr hslash)
      · next hslash =>
        have hstar : r.isAt '*' = true := (Bool.or_eq_true_iff.1 hopens).resolve_left hslash
        rw [if_pos hstar, if_pos hstar]
        have hcomment := h.blockComment hr lineBreak
        generalize Gap.blockComment lineBreak r = comment at hcomment
        generalize Gap.blockComment lineBreak r' = comment' at hcomment
        obtain ⟨closed, lineBreak₁, r₁⟩ := comment
        obtain ⟨closed', lineBreak₁', r₁'⟩ := comment'
        rcases hcomment with ⟨hclosed, hline, hr₁⟩ | ⟨hb, hclosed⟩
        · obtain rfl : closed' = closed := hclosed
          obtain rfl : lineBreak₁' = lineBreak₁ := hline
          dsimp only
          split
          · exact .gap _ hf hr₁
          · exact .lexeme _ hf (.illegal (h.matches_span hq hr₁ _) hr₁)
        · obtain rfl : closed = false := hclosed
          exact .cut hb
    | _ => cases hopens

/-! ### Tokens -/

/-- A rule finds the same in both texts, apart from white space, of which the second text
may hold more. -/
theorem step (hF : Findings.Congruence Q F) (hr : R r r') (hf : F f f') {c : Char}
    (hc : r.char? = some c) (hb : isBlank c = false) (settings : Settings) (lineBreak : Bool) :
    (step settings lineBreak f r).Matches beyond Q R F (step settings lineBreak f' r') :=
  h.step_of_operator hF hr hf hc hb settings lineBreak fun hr₁ hlength _ =>
    h.operator hF hr₁ hf (h.position hr) hlength settings lineBreak _

/-- The next token is the same in both texts, or the first text ends. -/
theorem scanToken (hF : Findings.Congruence Q F) (hr : R r r') (hf : F f f')
    (settings : Settings) (lineBreak : Bool) :
    (scanToken settings lineBreak f r).Matches beyond Q R F settings
      (scanToken settings lineBreak f' r') := by
  induction hn : r.remaining using Nat.strongRecOn generalizing r r' f f' lineBreak with
  | ind n ih =>
    subst hn
    cases hc : r.char? with
    | none =>
      rw [scanToken_of_step_eq_lexeme (step_of_char?_eq_none settings lineBreak f hc)]
      cases hc' : r'.char? with
      | none =>
        rw [scanToken_of_step_eq_lexeme (step_of_char?_eq_none settings lineBreak f' hc')]
        have hbeyond : beyond = none := (h.char?_of_none hr hc).symm.trans hc'
        exact .token ⟨rfl, rfl, rfl, ⟨h.position hr, h.position hr⟩, .none⟩
          (fun hb => absurd hbeyond hb) hf hr
      | some c =>
        obtain ⟨hb, rfl⟩ := h.eq_line hr hc hc'
        rw [scanToken_of_isBlank hc' rfl, show isLineTerminator '\n' = true from rfl, Bool.or_true]
        exact .ends hb rfl rfl hf hr hc
    | some c =>
      have hlt : r.advance.remaining < r.remaining := remaining_advance_lt (by rw [hc]; rfl)
      cases hb : isBlank c with
      | true =>
        rw [scanToken_of_isBlank hc hb, scanToken_of_isBlank (h.char?_of_some hr hc) hb]
        exact ih _ hlt (h.advance hr hc) hf _ rfl
      | false =>
        have hstep := h.step hF hr hf hc hb settings lineBreak
        generalize hs : EcmaLex.step settings lineBreak f r = s at hstep
        generalize hs' : EcmaLex.step settings lineBreak f' r' = s' at hstep
        cases hstep with
        | gap lineBreak₁ hf₁ hr₁ =>
          rw [scanToken_of_step_eq_gap hs, scanToken_of_step_eq_gap hs']
          exact ih _ (remaining_lt_of_step_eq_gap hs) hr₁ hf₁ _ rfl
        | lexeme lineBreak₁ hf₁ hl =>
          rw [scanToken_of_step_eq_lexeme hs, scanToken_of_step_eq_lexeme hs']
          rcases h.matches_toToken hl (h.position hr) lineBreak₁ with ⟨ht, hr₁⟩ | ⟨hbeyond, he⟩
          · exact .token ht (fun _ => (sound_step hs hc).kind_ne_endOfInput) hf₁ hr₁
          · exact .cut hbeyond he
        | cut hbeyond =>
          rw [scanToken_of_step_eq_lexeme hs]
          exact .cut hbeyond rfl

end Reader.Simulation

end EcmaLex
