import EcmaLex.Lexeme.Gap
import EcmaLex.Proofs.Simulation.Basic

/-!
# Gaps side by side

White space and comments are passed in both texts, and magic comments set the same.
A comment that runs to the end of a line ends where the first text does.  A block
comment does not: if the first text ends in it, the second one may still close it.

## Main results

* `Reader.Simulation.lineComment`, `Reader.Simulation.blockComment` — comments.
* `Reader.Simulation.magicComment` — comments that may set a URL.
-/

namespace EcmaLex

namespace Gap

variable {σ : Type}

/-- At the end of the text no comment is closed. -/
theorem commentClose_of_char?_eq_none [TextSource σ] {r : Reader σ} (hc : r.char? = none) :
    commentClose r = (false, r) := by
  rw [commentClose, hc]

/-- A comment that the text ends in is not closed. -/
theorem blockComment_of_char?_eq_none [SearchableSource σ] {r : Reader σ} (hc : r.char? = none)
    (lineBreak : Bool) : blockComment lineBreak r = (false, lineBreak, r) := by
  rw [blockComment, hc]

end Gap

namespace Reader.Simulation

variable {σ τ : Type} [SearchableSource σ] [SearchableSource τ] {beyond : Option Char}
  {Q : Nat → Nat → Prop} {R : Reader σ → Reader τ → Prop} {F : Findings → Findings → Prop}
  {r : Reader σ} {r' : Reader τ} {f f' : Findings}
  (h : Simulation beyond Q R)
include h

/-! ### Comments -/

theorem lineComment (hr : R r r') {c : Char} (hc : r.char? = some c) :
    R (Gap.lineComment r) (Gap.lineComment r') := by
  rcases h.skipTo .lineTerminator hr hc with hskip | ⟨-, hlines, -⟩
  · exact hskip
  · cases hlines

/-- A line that names an interpreter is passed in both texts, if the beginning of one text
is at that of the other. -/
theorem hashbang (hzero : ∀ {p p'}, Q p p' → (p = 0 ↔ p' = 0)) (hr : R r r') :
    R (Gap.hashbang r) (Gap.hashbang r') := by
  have hposition : (r'.position == 0) = (r.position == 0) := by
    rw [Bool.eq_iff_iff, beq_iff_eq, beq_iff_eq]
    exact (hzero (h.position hr)).symm
  unfold Gap.hashbang
  rw [h.isAt_and_peek_eq hr (by decide) (by decide), hposition]
  split
  · next hmark =>
    have hat : r.isAt '#' = true :=
      (Bool.and_eq_true_iff.1 (Bool.and_eq_true_iff.1 hmark).1).1
    exact h.lineComment hr (beq_iff_eq.1 hat)
  · exact hr

theorem commentClose (hr : R r r') :
    (Gap.commentClose r').1 = (Gap.commentClose r).1 ∧
      R (Gap.commentClose r).2 (Gap.commentClose r').2 := by
  fun_induction Gap.commentClose r generalizing r' with
  | case1 r hc =>
    rw [Gap.commentClose]
    split
    · exact ⟨rfl, hr⟩
    · next c hc' =>
      obtain ⟨-, rfl⟩ := h.eq_line hr hc hc'
      exact ⟨rfl, hr⟩
  | case2 r c hc hs ra =>
    rename_i hslash
    have ha := h.advance hr hc
    rw [Gap.commentClose.eq_def r', h.char?_of_some hr hc]
    dsimp only
    rw [if_pos hs, h.isAt_eq ha (by decide), if_pos hslash]
    exact ⟨rfl, h.advance_of_isAt ha hslash⟩
  | case3 r c hc hs ra hslash =>
    rename_i ih
    have ha := h.advance hr hc
    rw [Gap.commentClose.eq_def r', h.char?_of_some hr hc]
    dsimp only
    rw [if_pos hs, h.isAt_eq ha (by decide), if_neg hslash]
    exact ih ha
  | case4 r c hc hs =>
    rw [Gap.commentClose.eq_def r', h.char?_of_some hr hc]
    dsimp only
    rw [if_neg hs]
    exact ⟨rfl, hr⟩

/-- A block comment is passed in both texts, unless the first one ends in it. -/
theorem blockComment (hr : R r r') (lineBreak : Bool) :
    ((Gap.blockComment lineBreak r').1 = (Gap.blockComment lineBreak r).1 ∧
        (Gap.blockComment lineBreak r').2.1 = (Gap.blockComment lineBreak r).2.1 ∧
        R (Gap.blockComment lineBreak r).2.2 (Gap.blockComment lineBreak r').2.2) ∨
      beyond ≠ none ∧ (Gap.blockComment lineBreak r).1 = false := by
  fun_induction Gap.blockComment lineBreak r generalizing r' with
  | case1 lineBreak r hc =>
    cases hc' : r'.char? with
    | none =>
      rw [Gap.blockComment_of_char?_eq_none hc']
      exact .inl ⟨rfl, rfl, hr⟩
    | some c => exact .inr ⟨(h.eq_line hr hc hc').1, rfl⟩
  | case2 lineBreak r c hc r₁ hclose =>
    rcases h.skipTo (Gap.commentLandmark lineBreak) hr hc with hskip | ⟨-, -, hnone⟩
    · obtain ⟨hclosed, hr₁⟩ := h.commentClose hskip
      rw [hclose] at hclosed hr₁
      rw [Gap.blockComment.eq_def lineBreak r', h.char?_of_some hr hc]
      dsimp only
      split
      · next r₁' hclose' =>
        rw [hclose'] at hr₁
        exact .inl ⟨rfl, rfl, hr₁⟩
      · next r₁' hclose' =>
        rw [hclose'] at hclosed
        cases hclosed
    · -- at the end of the text the comment would not be closed
      rw [Gap.commentClose_of_char?_eq_none hnone] at hclose
      cases hclose
  | case3 lineBreak r c hc r₁ hclose ih =>
    rcases h.skipTo (Gap.commentLandmark lineBreak) hr hc with hskip | ⟨hb, -, hnone⟩
    · obtain ⟨hclosed, hr₁⟩ := h.commentClose hskip
      rw [hclose] at hclosed hr₁
      rw [Gap.blockComment.eq_def lineBreak r', h.char?_of_some hr hc]
      dsimp only
      split
      · next r₁' hclose' =>
        rw [hclose'] at hclosed
        cases hclosed
      · next r₁' hclose' =>
        rw [hclose'] at hr₁
        cases hd : r₁.char? with
        | some d =>
          rw [h.isAtAny_of_some hr₁ hd]
          exact ih hr₁
        | none =>
          cases hd' : r₁'.char? with
          | some d =>
            rw [Gap.blockComment_of_char?_eq_none hd]
            exact .inr ⟨(h.eq_line hr₁ hd hd').1, rfl⟩
          | none =>
            have hat : r₁'.isAtAny isLineTerminator = r₁.isAtAny isLineTerminator := by
              rw [isAtAny, isAtAny, hd, hd']
            rw [hat]
            exact ih hr₁
    · -- the search went past all line feeds to the end of the first text
      rw [Gap.commentClose_of_char?_eq_none hnone] at hclose
      obtain rfl : _ = r₁ := (Prod.mk.inj hclose).2
      rw [Gap.blockComment_of_char?_eq_none hnone]
      exact .inr ⟨hb, rfl⟩

/-! ### Magic comments -/

theorem magicValue (hr : R r r') :
    (Gap.magicValue r').1 = (Gap.magicValue r).1 ∧
      R (Gap.magicValue r).2 (Gap.magicValue r').2 := by
  obtain ⟨hvalue, hr₁⟩ := h.takeWhile hr (p := fun c => !Gap.isQuote c && !isBlank c) rfl ""
  have hr₂ := h.skipWhile hr₁ (p := isWhiteSpace) rfl
  unfold Gap.magicValue
  dsimp only
  rw [hvalue, h.isAtAny_eq hr₁ rfl, h.isAtAny_eq hr₂ rfl]
  split
  · exact ⟨rfl, hr₁⟩
  · split
    · exact ⟨rfl, hr₂⟩
    · exact ⟨rfl, hr₂⟩

theorem magicAssignment (hF : Findings.Congruence Q F) (hr : R r r') (hf : F f f') :
    F (Gap.magicAssignment f r).1 (Gap.magicAssignment f' r').1 ∧
      R (Gap.magicAssignment f r).2 (Gap.magicAssignment f' r').2 := by
  unfold Gap.magicAssignment
  dsimp only
  rw [h.isAtAny_eq hr rfl]
  split
  · next hs =>
    obtain ⟨hname, hr₁⟩ := h.takeWhile (h.advance_of_isAtAny hr hs)
      (p := fun c => c != '=' && !isBlank c) rfl ""
    rw [hname, h.isAt_eq hr₁ (by decide)]
    split
    · exact ⟨hf, hr₁⟩
    · next name _ =>
      split
      · next he =>
        obtain ⟨hvalue, hr₂⟩ := h.magicValue
          (h.skipWhile (h.advance_of_isAt hr₁ he) (p := isWhiteSpace) rfl)
        rw [hvalue]
        exact ⟨hF.set name _ hf, hr₂⟩
      · exact ⟨hf, hr₁⟩
  · exact ⟨hf, hr⟩

theorem magicComment (hF : Findings.Congruence Q F) (hr : R r r') (hf : F f f') :
    F (Gap.magicComment f r).1 (Gap.magicComment f' r').1 ∧
      R (Gap.magicComment f r).2 (Gap.magicComment f' r').2 := by
  obtain ⟨hf₁, hr₁⟩ := h.magicAssignment hF hr hf
  unfold Gap.magicComment
  dsimp only
  rw [h.isAtAny_eq hr₁ rfl]
  refine ⟨hf₁, ?_⟩
  split
  · next hline =>
    obtain ⟨c, hc, -⟩ := (Option.any_eq_true _ _).1 hline
    exact h.lineComment hr₁ hc
  · exact hr₁

end Reader.Simulation

end EcmaLex
