import EcmaLex.Proofs.Lexeme.Cause
import EcmaLex.Proofs.Listing.Stream
import EcmaLex.Proofs.Listing.Strict
import EcmaLex.Proofs.Numeral.Separators

/-!
# One text under different settings

A rule reads the settings in two places only: where it comes to an HTML-like comment,
and in numbers.  So two settings lead to the same tokens as long as neither place makes a
difference, and each of the two that are looked at here makes one only by an error:
module code rejects the comments that script code passes, and a number with a separator
is rejected where there are no separators.

Up to the first such error both scans are in the same state, so the listings are the same
up to there.  The error of module code ends its listing; when there is no error at all,
nothing of the two listings is different.

## Main definitions

* `Settings.AgreeUnless` — under two settings every rule finds the same, unless the first ones
  make it reject the text with one of some causes.

## Main results

* `Settings.AgreeUnless.trail`, `Settings.AgreeUnless.ofSource_of_hasErrorOf` — the listings are the
  same up to the first such error.
* `Listing.tokenize_goal` — **script and module code differ only at HTML-like comments**.
* `Listing.tokenize_numericSeparators` — **separators change nothing that is right without
  them**.
-/

namespace EcmaLex

variable {σ : Type} [SearchableSource σ] {p : Cause → Bool} {s s' : Settings}

/-! ### Rules -/

/-- Whether what a rule found is a lexeme that is rejected with one of the causes. -/
def Step.hasErrorOf (p : Cause → Bool) : Step σ → Bool
  | gap _ _ _ => false
  | lexeme _ _ l => l.hasErrorOf p

/-- Under two settings every rule finds the same, unless the first ones make it reject the text
with one of the causes. -/
def Settings.AgreeUnless (σ : Type) [SearchableSource σ] (p : Cause → Bool)
    (s s' : Settings) : Prop :=
  ∀ (lineBreak : Bool) (f : Findings) (r : Reader σ),
    (step s lineBreak f r).hasErrorOf p = false → step s' lineBreak f r = step s lineBreak f r

/-- The two places where the settings are read. -/
structure Settings.SameUnless (σ : Type) [SearchableSource σ] (p : Cause → Bool)
    (s s' : Settings) : Prop where
  /-- An HTML-like comment is the same. -/
  htmlComment : ∀ (lineBreak : Bool) (f : Findings) (start : Nat) (r : Reader σ),
    (htmlComment s lineBreak f start r).hasErrorOf p = false →
      htmlComment s' lineBreak f start r = htmlComment s lineBreak f start r
  /-- So is a number that begins with a digit. -/
  numeral : ∀ (first : Char) (r : Reader σ), (numeral s first r).hasErrorOf p = false →
    numeral s' first r = numeral s first r
  /-- So is a number that begins with a point. -/
  fractionNumeral : ∀ (start : Nat) (r : Reader σ),
    (fractionNumeral s start r).hasErrorOf p = false →
      fractionNumeral s' start r = fractionNumeral s start r

namespace Settings.SameUnless

theorem operator (h : SameUnless σ p s s') (lineBreak : Bool) (f : Findings) (start : Nat)
    (q : Punctuator) (r : Reader σ)
    (he : (operator s lineBreak f start q r).hasErrorOf p = false) :
    operator s' lineBreak f start q r = operator s lineBreak f start q r := by
  unfold EcmaLex.operator at he ⊢
  dsimp only at he ⊢
  split
  · split
    · split
      · next hb hd =>
        rw [if_pos hb, if_pos hd] at he
        exact h.htmlComment _ _ _ _ he
      · rfl
    · rfl
  · split
    · next hb =>
      rw [if_pos hb] at he
      exact h.htmlComment _ _ _ _ he
    · rfl
  · rfl
  · split
    · next hb =>
      rw [if_pos hb] at he
      rw [h.fractionNumeral _ _ he]
    · rfl
  · rfl
  · rfl

/-- **Settings that are the same in these places agree.** -/
theorem agreeUnless (h : SameUnless σ p s s') : AgreeUnless σ p s s' := by
  intro lineBreak f r he
  cases hr : r.char? with
  | none => rw [step_of_char?_eq_none _ _ _ hr, step_of_char?_eq_none _ _ _ hr]
  | some c =>
    by_cases hd : isDecimalDigit c = true
    · rw [step_eq_numeral hr hd] at he
      rw [step_eq_numeral hr hd, step_eq_numeral hr hd, h.numeral c r he]
    · cases hq : Punctuator.ofChar c with
      | some q =>
        rw [step_eq_operator hr hq] at he
        rw [step_eq_operator hr hq, step_eq_operator hr hq]
        exact h.operator _ _ _ _ _ he
      | none =>
        -- no other rule reads the settings
        unfold step
        rw [hr]
        dsimp only
        rw [if_neg hd, if_neg hd, hq]

end Settings.SameUnless

/-- Script and module code differ at HTML-like comments, which module code rejects. -/
theorem sameUnless_goal (s : Settings) :
    Settings.SameUnless σ (· == .htmlCommentInModule) { s with goal := .module }
      { s with goal := .script } where
  htmlComment := by
    intro lineBreak f start r he
    cases he
  numeral := by
    intro first r _
    rfl
  fractionNumeral := by
    intro start r _
    rfl

omit [SearchableSource σ] in
/-- A lexeme that is not rejected has a kind. -/
theorem Lexeme.exists_verdict_of_hasErrorOf {l : Lexeme σ}
    (h : l.hasErrorOf (fun _ => true) = false) : ∃ k, l.verdict = .ok k := by
  unfold hasErrorOf error? at h
  split at h
  · next k hk => exact ⟨k, hk⟩
  · cases h

/-- Allowing separators makes a difference only where there is an error without them. -/
theorem sameUnless_numericSeparators (s : Settings) (separators : Bool) :
    Settings.SameUnless σ (fun _ => true) { s with numericSeparators := false }
      { s with numericSeparators := separators } where
  htmlComment := by
    intro lineBreak f start r _
    rfl
  numeral := by
    intro first r he
    obtain ⟨k, hk⟩ := Lexeme.exists_verdict_of_hasErrorOf he
    exact numeral_separators s separators first r hk
  fractionNumeral := by
    intro start r he
    obtain ⟨k, hk⟩ := Lexeme.exists_verdict_of_hasErrorOf he
    exact fractionNumeral_separators s separators start r hk

/-! ### Tokens -/

/-- A listing has a token, its last one at least. -/
theorem entries_trail_ne_nil (s : Settings) (lineBreak : Bool) (f : Findings) (r : Reader σ) :
    (trail s lineBreak f r).entries ≠ [] := by
  rw [trail]
  split
  · exact List.cons_ne_nil _ _
  · exact List.cons_ne_nil _ _

namespace Settings.AgreeUnless

variable {lineBreak : Bool} {f : Findings} {r : Reader σ}

/-- As long as there is no such error, the same tokens are scanned. -/
theorem scanToken (h : AgreeUnless σ p s s')
    (he : (scanToken s lineBreak f r).token.hasErrorOf p = false) :
    EcmaLex.scanToken s' lineBreak f r = EcmaLex.scanToken s lineBreak f r := by
  fun_induction EcmaLex.scanToken s lineBreak f r with
  | case1 lineBreak f r _ _ _ hs ih =>
    have hs' := h lineBreak f r (by rw [hs]; rfl)
    rw [scanToken_of_step_eq_gap (hs'.trans hs)]
    exact ih he
  | case2 lineBreak f r _ _ l hs =>
    have hs' := h lineBreak f r (by rw [hs]; exact he)
    exact scanToken_of_step_eq_lexeme (hs'.trans hs)

/-- As long as there is no such error, the same tokens are listed.  If no fatal error is
left, the listings also end at the same place, and the same comments are noted. -/
theorem trail (h : AgreeUnless σ p s s')
    (he : ∀ e ∈ (trail s lineBreak f r).entries, e.token.hasErrorOf p = false) :
    (EcmaLex.trail s' lineBreak f r).entries = (EcmaLex.trail s lineBreak f r).entries ∧
      ((∀ cause : Cause, cause.isFatal = true → p cause = true) →
        (EcmaLex.trail s' lineBreak f r).htmlComment =
          (EcmaLex.trail s lineBreak f r).htmlComment) := by
  fun_induction EcmaLex.trail s lineBreak f r with
  | case1 lineBreak f r scanned rest hlast =>
    have ht : scanned.token.hasErrorOf p = false := he _ (List.mem_singleton_self _)
    have hs : EcmaLex.scanToken s' lineBreak f r =
        ⟨scanned.token, scanned.findings, scanned.reader⟩ := h.scanToken ht
    rw [trail_of_isLast hs hlast]
    refine ⟨rfl, fun hfatal => ?_⟩
    -- the last token has no fatal error, so it is the end of input, and no comment follows
    have hk : scanned.token.kind = .endOfInput := by
      rcases Bool.or_eq_true_iff.1 hlast with hk | hf
      · exact beq_iff_eq.1 hk
      · obtain ⟨d, hd, hf⟩ := (Option.any_eq_true _ _).1 hf
        rw [Token.hasErrorOf, hd, Option.any_some, hfatal d.cause hf] at ht
        cases ht
    have hend : scanned.reader.char? = none := char?_of_scanToken_eq_endOfInput hk
    dsimp only
    rw [scanToken_of_step_eq_lexeme (step_of_char?_eq_none s' false _ hend),
      scanToken_of_step_eq_lexeme (step_of_char?_eq_none s false _ hend)]
  | case2 lineBreak f r scanned rest hlast ih =>
    have ht : scanned.token.hasErrorOf p = false := he _ List.mem_cons_self
    have hs : EcmaLex.scanToken s' lineBreak f r =
        ⟨scanned.token, scanned.findings, scanned.reader⟩ := h.scanToken ht
    obtain ⟨hentries, hhtml⟩ := ih fun e hm => he e (List.mem_cons_of_mem _ hm)
    rw [trail_of_not_isLast hs hlast]
    exact ⟨congrArg (_ :: ·) hentries, hhtml⟩

/-- A token with such an error ends the listing under the first settings, and under the others
something else comes in its place. -/
theorem trail_of_hasErrorOf (h : AgreeUnless σ p s s')
    (hp : ∀ cause : Cause, p cause = true → cause.isFatal = true) {e : Entry}
    (hm : e ∈ (EcmaLex.trail s lineBreak f r).entries) (he : e.token.hasErrorOf p = true) :
    ∃ front e' rest, (EcmaLex.trail s lineBreak f r).entries = front ++ [e] ∧
      (EcmaLex.trail s' lineBreak f r).entries = front ++ e' :: rest := by
  have hlast : ∀ {t : Token}, t.hasErrorOf p = true → Listing.isLast t = true := by
    intro t ht
    obtain ⟨d, hd, hc⟩ := (Option.any_eq_true _ _).1 ht
    refine Bool.or_eq_true_iff.2 (.inr ?_)
    rw [Token.isFatal, hd]
    exact hp _ hc
  fun_induction EcmaLex.trail s lineBreak f r with
  | case1 lineBreak f r scanned rest _ =>
    obtain rfl := List.mem_singleton.1 hm
    cases hr : (EcmaLex.trail s' lineBreak f r).entries with
    | nil => exact absurd hr (entries_trail_ne_nil _ _ _ _)
    | cons e' rest' => exact ⟨[], e', rest', rfl, rfl⟩
  | case2 lineBreak f r scanned rest hnot ih =>
    have ht : scanned.token.hasErrorOf p = false := by
      by_contra hb
      exact hnot (hlast (eq_true_of_ne_false hb))
    have hs : EcmaLex.scanToken s' lineBreak f r =
        ⟨scanned.token, scanned.findings, scanned.reader⟩ := h.scanToken ht
    have hrest : e ∈ (EcmaLex.trail s false rest scanned.reader).entries := by
      rcases List.mem_cons.1 hm with rfl | hm
      · rw [ht] at he
        cases he
      · exact hm
    obtain ⟨front, e', rest', hentries, hentries'⟩ := ih hrest
    rw [trail_of_not_isLast hs hnot]
    exact ⟨_ :: front, e', rest', congrArg (_ :: ·) hentries, congrArg (_ :: ·) hentries'⟩

end Settings.AgreeUnless

/-! ### Listings -/

omit [SearchableSource σ] in
/-- The errors of a listing are those of the tokens of its trail. -/
theorem Trail.exists_errors_iff (t : Trail) :
    (∃ d ∈ (t.appendTo {}).errors, p d.cause = true) ↔
      ∃ e ∈ t.entries, e.token.hasErrorOf p = true := by
  simp only [← Array.mem_toList_iff, Trail.errors_appendTo, List.mem_filterMap]
  constructor
  · rintro ⟨d, ⟨e, he, hd⟩, hp⟩
    exact ⟨e, he, by rw [Token.hasErrorOf, hd]; exact hp⟩
  · rintro ⟨e, he, hp⟩
    obtain ⟨d, hd, hp⟩ := (Option.any_eq_true _ _).1 hp
    exact ⟨d, ⟨e, he, hd⟩, hp⟩

omit [SearchableSource σ] in
theorem Trail.forall_errors_iff (t : Trail) :
    (∀ d ∈ (t.appendTo {}).errors, p d.cause = false) ↔
      ∀ e ∈ t.entries, e.token.hasErrorOf p = false := by
  have h := not_congr (t.exists_errors_iff (p := p))
  simpa only [not_exists, not_and, Bool.not_eq_true] using h

/-- A token with such an error is the last one under the first settings, and under the others
the tokens before it are followed by something else. -/
theorem Settings.AgreeUnless.ofSource_of_hasErrorOf (h : AgreeUnless σ p s s')
    (hbang : s'.hashbang = s.hashbang)
    (hp : ∀ cause : Cause, p cause = true → cause.isFatal = true) {source : σ}
    (he : ∃ d ∈ (Listing.ofSource s source).errors, p d.cause = true) :
    ∃ front t d next rest, (Listing.ofSource s source).tokens.toList = front ++ [t] ∧
      t.error? = some d ∧ p d.cause = true ∧
      (Listing.ofSource s' source).tokens.toList = front ++ next :: rest := by
  have hreader : Listing.firstReader s' source = Listing.firstReader s source := by
    unfold Listing.firstReader
    rw [hbang]
  rw [Listing.ofSource_eq] at he
  obtain ⟨e, hm, herror⟩ := (Trail.exists_errors_iff _).1 he
  obtain ⟨front, next, rest, hentries, hentries'⟩ := h.trail_of_hasErrorOf hp hm herror
  obtain ⟨d, hd, hc⟩ := (Option.any_eq_true _ _).1 herror
  refine ⟨front.map (·.token), e.token, d, next.token, rest.map (·.token), ?_, hd, hc, ?_⟩
  · rw [Listing.ofSource_eq, Trail.tokens_appendTo, hentries, List.map_append]
    rfl
  · rw [Listing.ofSource_eq, Trail.tokens_appendTo, hreader, hentries', List.map_append]
    rfl

namespace Listing

/-- **Script and module code differ only at HTML-like comments.**  If module code has no error
that is about one, both listings have the same tokens, errors and strict diagnostics.  If it
has one, its last token is the error, the tokens before that are the first ones of script
code, which has at least one more, and the other errors and the strict diagnostics are
those of these tokens. -/
theorem tokenize_goal (settings : Settings) (source : String) :
    let m := tokenize { settings with goal := .module } source
    let s := tokenize { settings with goal := .script } source
    ((∀ d ∈ m.errors, d.cause ≠ .htmlCommentInModule) →
      m.tokens = s.tokens ∧ m.errors = s.errors ∧ m.strictDiagnostics = s.strictDiagnostics) ∧
    ((∃ d ∈ m.errors, d.cause = .htmlCommentInModule) →
      let n := m.tokens.size - 1
      let shared := s.tokens.toList.take n
      n < s.tokens.size ∧ ∃ t d, t.kind = .illegal ∧ t.error? = some d ∧
        d.cause = .htmlCommentInModule ∧ m.tokens.toList = shared ++ [t] ∧
        m.errors.toList = shared.filterMap (·.error?) ++ [d] ∧
        m.strictDiagnostics.toList = shared.filterMap Token.strictDiagnostic?) := by
  intro m s
  have hagree := (sameUnless_goal (σ := ByteCursor) settings).agreeUnless
  have hm : m = _ := ofSource_eq _ _
  have hs : s = _ := ofSource_eq _ _
  constructor
  · intro he
    have hno := (Trail.forall_errors_iff (p := (· == .htmlCommentInModule)) _).1 fun d hd =>
      beq_eq_false_iff_ne.2 (he d (hm ▸ hd))
    obtain ⟨hentries, -⟩ := hagree.trail hno
    have hsame : s = { m with htmlComment := s.htmlComment } := by
      rw [hm, hs]
      unfold Trail.appendTo
      rw [← hentries]
      rfl
    rw [hsame]
    exact ⟨rfl, rfl, rfl⟩
  · rintro ⟨d, hd, hc⟩
    obtain ⟨front, t, d, next, rest, htokens, hd, hc, htokens'⟩ :=
      hagree.ofSource_of_hasErrorOf rfl (fun cause hcause => by rw [beq_iff_eq.1 hcause]; rfl)
        ⟨d, hd, beq_iff_eq.2 hc⟩
    have htokens : m.tokens.toList = front ++ [t] := htokens
    have htokens' : s.tokens.toList = front ++ next :: rest := htokens'
    have hmem : t ∈ m.tokens := by
      rw [← Array.mem_toList_iff, htokens]
      exact List.mem_append_right _ (List.mem_singleton_self _)
    have hkind : t.kind = .illegal :=
      (consistent_of_mem_ofSource hmem).illegal_iff.2 (by rw [hd]; rfl)
    have hn : m.tokens.size - 1 = front.length := by
      rw [← Array.length_toList, htokens]
      simp
    intro n shared
    have hshared : shared = front := by
      show s.tokens.toList.take (m.tokens.size - 1) = _
      rw [hn, htokens', List.take_left]
    refine ⟨?_, t, d, hkind, hd, beq_iff_eq.1 hc, ?_, ?_, ?_⟩
    · show m.tokens.size - 1 < s.tokens.size
      rw [hn, ← Array.length_toList, htokens', List.length_append, List.length_cons]
      omega
    · rw [htokens, hshared]
    · rw [show m.errors.toList = _ from errors_ofSource _ _]
      show m.tokens.toList.filterMap _ = _
      rw [htokens, List.filterMap_append, hshared, List.filterMap_cons_some hd]
      rfl
    · -- strict mode code has nothing to say to an error
      have hstrict := (consistent_of_mem_ofSource hmem).strictDiagnostic? hkind
      rw [show m.strictDiagnostics.toList = _ from strictDiagnostics_ofSource _ _]
      show m.tokens.toList.filterMap _ = _
      rw [htokens, List.filterMap_append, hshared, List.filterMap_cons_none hstrict]
      exact List.append_nil _

/-- A comment that script code passes and module code rejects, after the first token. -/
theorem tokenize_goal_opening :
    let m := tokenize { ({} : Settings) with goal := .module } "a<!--"
    let s := tokenize { ({} : Settings) with goal := .script } "a<!--"
    (∃ d ∈ m.errors, d.cause = .htmlCommentInModule) ∧
      ∃ t, t.kind = .illegal ∧
        m.tokens.toList = s.tokens.toList.take (m.tokens.size - 1) ++ [t] := by
  intro m s
  have h : ∃ d ∈ m.errors, d.cause = .htmlCommentInModule := by decide +kernel
  obtain ⟨-, t, d, hk, -, -, ht, -⟩ := (tokenize_goal {} "a<!--").2 h
  exact ⟨h, t, hk, ht⟩

/-- **Separators change nothing that is right without them.**  A text that has no error where
separators are not allowed has the same listing where they are. -/
theorem tokenize_numericSeparators (settings : Settings) (source : String)
    (h : (tokenize { settings with numericSeparators := false } source).hasErrors = false) :
    tokenize { settings with numericSeparators := true } source =
      tokenize { settings with numericSeparators := false } source := by
  have hagree := (sameUnless_numericSeparators (σ := ByteCursor) settings true).agreeUnless
  have hoff : tokenize { settings with numericSeparators := false } source = _ := ofSource_eq _ _
  have hon : tokenize { settings with numericSeparators := true } source = _ := ofSource_eq _ _
  have hnone := Trail.error?_of_hasErrors (hoff ▸ h)
  obtain ⟨hentries, hhtml⟩ := hagree.trail fun e he => by
    rw [Token.hasErrorOf, hnone e he]
    rfl
  rw [hon, hoff]
  unfold Trail.appendTo
  rw [← hentries, ← hhtml fun _ _ => rfl]
  rfl

/-- Numbers of several forms, and an identifier with an underscore. -/
theorem tokenize_numericSeparators_of_numbers :
    (tokenize { ({} : Settings) with numericSeparators := false }
        "0xF 1.5e3 _0").hasErrors = false ∧
      tokenize { ({} : Settings) with numericSeparators := true } "0xF 1.5e3 _0" =
        tokenize { ({} : Settings) with numericSeparators := false } "0xF 1.5e3 _0" := by
  have h : (tokenize { ({} : Settings) with numericSeparators := false }
      "0xF 1.5e3 _0").hasErrors = false := by
    decide +kernel
  exact ⟨h, tokenize_numericSeparators {} "0xF 1.5e3 _0" h⟩

end Listing

end EcmaLex
