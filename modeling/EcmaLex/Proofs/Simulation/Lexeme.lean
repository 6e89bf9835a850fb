import EcmaLex.Lexeme.StringLiteral
import EcmaLex.Lexeme.Template
import EcmaLex.Lexeme.Word
import EcmaLex.Proofs.Simulation.Basic
import EcmaLex.Proofs.Word.Flags

/-!
# Words, strings and templates side by side

The rules for words, strings and templates find the same in both texts.  A word ends
at a line feed or a space as it ends at the end of the text: no keyword is ruled out by a
blank, and no escape goes on over one.  A string or a template that runs into the
end of the first text is an error there.

## Main results

* `Reader.Parallel.word`, `Reader.Parallel.privateName` — words.
* `Reader.Parallel.stringLiteral`, `Reader.Parallel.templatePiece` — strings and templates.
-/

namespace EcmaLex

/-- A word that ends at a line feed or a space is read like one that ends with the text. -/
theorem CharFlags.or_ofChar_blank (f : CharFlags) {c : Char} (hc : c = '\n' ∨ c = ' ') :
    (ofChar c).isWordEnd = true ∧ (f ||| ofChar c).isSpecial = f.isSpecial ∧
      (f ||| ofChar c).canBeKeyword = f.canBeKeyword := by
  have hflags : (ofChar c).isWordEnd = true ∧ (ofChar c).isSpecial = false ∧
      (ofChar c).canBeKeyword = true := by
    rw [isWordEnd_ofChar, isSpecial_ofChar, canBeKeyword_ofChar]
    rcases hc with rfl | rfl
    · exact ⟨rfl, rfl, rfl⟩
    · exact ⟨rfl, rfl, rfl⟩
  obtain ⟨hend, hs, hk⟩ := hflags
  rw [isSpecial_or, canBeKeyword_or, hs, hk, Bool.or_false, Bool.and_true]
  exact ⟨hend, rfl, rfl⟩

namespace Word

variable {σ τ : Type}

/-- As much is known of both words. -/
structure Progress.Matches (R : Reader σ → Reader τ → Prop) (w : Progress σ) (w' : Progress τ) :
    Prop where
  /-- Keywords are ruled out in both or in none. -/
  canBeKeyword : w'.canBeKeyword = w.canBeKeyword
  /-- Escapes are found in both or in none. -/
  escaped : w'.escaped = w.escaped
  /-- The characters are the same. -/
  text : w'.text = w.text
  /-- The readers are at corresponding places. -/
  reader : R w.reader w'.reader

end Word

/-- A string that the text ends in is not closed. -/
theorem StringLiteral.body_of_char?_eq_none {σ : Type} [TextSource σ] {r : Reader σ}
    (hc : r.char? = none) (quote : Char) (text : String) :
    body quote text r = (false, text, r) := by
  rw [body, hc]

/-- A piece of a template that the text ends in is not ended. -/
theorem Template.body_of_char?_eq_none {σ : Type} [TextSource σ] {r : Reader σ}
    (hc : r.char? = none) (text : String) : body text r = (.missing, text, r) := by
  rw [body, hc]

/-- Lexemes stay the same when their kinds are changed in the same way. -/
theorem Lexeme.Matches.mapKind {σ τ : Type} {beyond : Option Char} {Q : Nat → Nat → Prop}
    {R : Reader σ → Reader τ → Prop} {l : Lexeme σ} {l' : Lexeme τ} (h : l.Matches beyond Q R l')
    (f : TokenKind → TokenKind) :
    Matches beyond Q R { l with verdict := l.verdict.map f }
      { l' with verdict := l'.verdict.map f } := by
  cases h with
  | ok reader => exact .ok reader
  | illegal matching reader => exact .illegal matching reader
  | cut goesOn => exact .cut goesOn

namespace Reader.Parallel

variable {σ τ : Type} [SearchableSource σ] [SearchableSource τ] {beyond : Option Char}
  {Q : Nat → Nat → Prop} {R : Reader σ → Reader τ → Prop} {r : Reader σ} {r' : Reader τ}
  (h : Parallel beyond Q R)
include h

/-! ### Escapes -/

theorem bracedDigits (hr : R r r') (value : Option Nat) :
    (Word.bracedDigits value r').1 = (Word.bracedDigits value r).1 ∧
      R (Word.bracedDigits value r).2 (Word.bracedDigits value r').2 := by
  fun_induction Word.bracedDigits value r generalizing r' with
  | case1 value r hc =>
    rw [Word.bracedDigits]
    split
    · exact ⟨rfl, hr⟩
    · next c hc' =>
      obtain ⟨-, rfl | rfl⟩ := h.eq_blank hr hc hc'
      · exact ⟨rfl, hr⟩
      · exact ⟨rfl, hr⟩
  | case2 value r c hc hd =>
    rw [Word.bracedDigits.eq_def value r', h.char?_of_some hr hc]
    dsimp only
    rw [hd]
    exact ⟨rfl, hr⟩
  | case3 value r c hc d hd v =>
    rename_i hv
    rw [Word.bracedDigits.eq_def value r', h.char?_of_some hr hc]
    dsimp only
    rw [hd]
    dsimp only
    rw [if_pos hv]
    exact ⟨rfl, hr⟩
  | case4 value r c hc d hd v hv =>
    rename_i ih
    rw [Word.bracedDigits.eq_def value r', h.char?_of_some hr hc]
    dsimp only
    rw [hd]
    dsimp only
    rw [if_neg hv]
    exact ih (h.advance hr hc)

theorem fixedDigits (hr : R r r') (n value : Nat) :
    (Word.fixedDigits n value r').1 = (Word.fixedDigits n value r).1 ∧
      R (Word.fixedDigits n value r).2 (Word.fixedDigits n value r').2 := by
  -- a blank is no digit, and neither is the end of the text
  have hbind : ∀ {r r'}, R r r' → r'.char?.bind hexDigitValue = r.char?.bind hexDigitValue := by
    intro r r' hr
    cases hc : r.char? with
    | some c => rw [h.char?_of_some hr hc]
    | none =>
      cases hc' : r'.char? with
      | none => rfl
      | some c =>
        obtain ⟨-, rfl | rfl⟩ := h.eq_blank hr hc hc'
        · rfl
        · rfl
  induction n generalizing value r r' with
  | zero => exact ⟨rfl, hr⟩
  | succ n ih =>
    unfold Word.fixedDigits
    rw [hbind hr]
    split
    · exact ⟨rfl, hr⟩
    · next d hd =>
      obtain ⟨c, hc, -⟩ := Option.bind_eq_some_iff.1 hd
      exact ih (h.advance hr hc) _

theorem unicodeEscape (hr : R r r') {c : Char} (hc : r.char? = some c) :
    (Word.unicodeEscape r').1 = (Word.unicodeEscape r).1 ∧
      R (Word.unicodeEscape r).2 (Word.unicodeEscape r').2 := by
  have h₁ := h.advance hr hc
  unfold Word.unicodeEscape
  dsimp only
  rw [h.isAt_eq h₁ (by decide)]
  split
  · next hu =>
    have h₂ := h.advance_of_isAt h₁ hu
    rw [h.isAt_eq h₂ (by decide)]
    split
    · next hb =>
      obtain ⟨hv, h₃⟩ := h.bracedDigits (h.advance_of_isAt h₂ hb) none
      rw [hv]
      split
      · rw [h.isAt_eq h₃ (by decide)]
        split
        · next he => exact ⟨rfl, h.advance_of_isAt h₃ he⟩
        · exact ⟨rfl, h₃⟩
      · exact ⟨rfl, h₃⟩
    · obtain ⟨hv, h₃⟩ := h.fixedDigits h₂ 4 0
      exact ⟨congrArg (·.bind Word.scalar) hv, h₃⟩
  · exact ⟨rfl, h₁⟩

theorem allowedEscape (hr : R r r') {c : Char} (hc : r.char? = some c) (allowed : Char → Bool) :
    (Word.allowedEscape allowed r').1 = (Word.allowedEscape allowed r).1 ∧
      R (Word.allowedEscape allowed r).2 (Word.allowedEscape allowed r').2 := by
  obtain ⟨hv, hr⟩ := h.unicodeEscape hr hc
  exact ⟨congrArg (Option.filter _) hv, hr⟩

/-! ### Words -/

theorem plainRun (hr : R r r') (flags : CharFlags) (text : String) :
    (Word.plainRun flags text r').1.isSpecial = (Word.plainRun flags text r).1.isSpecial ∧
      (Word.plainRun flags text r').1.canBeKeyword =
        (Word.plainRun flags text r).1.canBeKeyword ∧
      (Word.plainRun flags text r').2.1 = (Word.plainRun flags text r).2.1 ∧
      R (Word.plainRun flags text r).2.2 (Word.plainRun flags text r').2.2 := by
  fun_induction Word.plainRun flags text r generalizing r' with
  | case1 flags text r hc =>
    rw [Word.plainRun]
    split
    · exact ⟨rfl, rfl, rfl, hr⟩
    · next c hc' =>
      -- the flags of the blank are gathered as well
      obtain ⟨-, hblank⟩ := h.eq_blank hr hc hc'
      obtain ⟨hend, hs, hk⟩ := CharFlags.or_ofChar_blank flags hblank
      rw [if_pos hend]
      exact ⟨hs, hk, rfl, hr⟩
  | case2 flags text r c hc f =>
    rename_i hf
    rw [Word.plainRun.eq_def flags text r', h.char?_of_some hr hc]
    dsimp only
    rw [if_pos hf]
    exact ⟨rfl, rfl, rfl, hr⟩
  | case3 flags text r c hc f hf =>
    rename_i ih
    rw [Word.plainRun.eq_def flags text r', h.char?_of_some hr hc]
    dsimp only
    rw [if_neg hf]
    exact ih (h.advance hr hc)

/-- The careful part of a word, and what is wrong with it. -/
theorem carefulRun {w : Word.Progress σ} {w' : Word.Progress τ} (hw : w.Matches R w') :
    (Word.carefulRun w).1.Matches R (Word.carefulRun w').1 ∧
      Option.Rel (Diagnostic.Matches Q) (Word.carefulRun w).2 (Word.carefulRun w').2 := by
  fun_induction Word.carefulRun w generalizing w' with
  | case1 w hc =>
    rw [Word.carefulRun]
    split
    · exact ⟨hw, .none⟩
    · next c hc' =>
      obtain ⟨-, rfl | rfl⟩ := h.eq_blank hw.reader hc hc'
      · exact ⟨hw, .none⟩
      · exact ⟨hw, .none⟩
  | case2 w c hc hs d r he ih =>
    obtain ⟨hd, hr⟩ := h.allowedEscape hw.reader hc isIdentifierPart
    rw [he] at hd hr
    rw [Word.carefulRun.eq_def w', h.char?_of_some hw.reader hc]
    dsimp only
    rw [if_pos hs]
    split
    · next d' r' he' =>
      rw [he'] at hd hr
      cases hd
      refine ih ⟨?_, rfl, ?_, hr⟩
      · rw [hw.canBeKeyword]
      · rw [hw.text]
    · next r' he' =>
      rw [he'] at hd
      cases hd
  | case3 w c hc hs r he =>
    obtain ⟨hd, hr⟩ := h.allowedEscape hw.reader hc isIdentifierPart
    rw [he] at hd hr
    rw [Word.carefulRun, h.char?_of_some hw.reader hc]
    dsimp only
    rw [if_pos hs]
    split
    · next d' r' he' =>
      rw [he'] at hd
      cases hd
    · next r' he' =>
      rw [he'] at hr
      -- the escape is wrong in both, from its backslash to where that was found out
      exact ⟨⟨hw.canBeKeyword, hw.escaped, hw.text, hr⟩,
        .some (h.matches_span (h.position hw.reader) hr _)⟩
  | case4 w c hc hs hp ih =>
    rw [Word.carefulRun.eq_def w', h.char?_of_some hw.reader hc]
    dsimp only
    rw [if_neg hs, if_pos hp]
    refine ih ⟨?_, hw.escaped, ?_, h.advance hw.reader hc⟩
    · rw [hw.canBeKeyword]
    · rw [hw.text]
  | case5 w c hc hs hp =>
    rw [Word.carefulRun, h.char?_of_some hw.reader hc]
    dsimp only
    rw [if_neg hs, if_neg hp]
    exact ⟨hw, .none⟩

theorem finish {w : Word.Progress σ} {w' : Word.Progress τ} (hw : w.Matches R w') :
    (Word.finish w).Matches beyond Q R (Word.finish w') := by
  obtain ⟨hp, he⟩ := h.carefulRun hw
  unfold Word.finish
  generalize Word.carefulRun w = read at hp he
  generalize Word.carefulRun w' = read' at hp he
  obtain ⟨w, e⟩ := read
  obtain ⟨w', e'⟩ := read'
  dsimp only at hp he ⊢
  rw [hp.canBeKeyword, hp.escaped, hp.text]
  cases he with
  | none => exact .ok hp.reader
  | some hd => exact .illegal hd hp.reader

/-- Words, of which the first character is under the heads. -/
theorem word (hr : R r r') {c : Char} (hc : r.char? = some c) (text : String) :
    (word text c r).Matches beyond Q R (word text c r') := by
  have ha := h.advance hr hc
  unfold EcmaLex.word
  split
  · obtain ⟨hd, hr'⟩ := h.allowedEscape hr hc isIdentifierStart
    generalize Word.allowedEscape isIdentifierStart r = escape at hd hr'
    generalize Word.allowedEscape isIdentifierStart r' = escape' at hd hr'
    obtain ⟨d, r₁⟩ := escape
    obtain ⟨d', r₁'⟩ := escape'
    obtain rfl : d' = d := hd
    cases d' with
    | some d => exact h.finish ⟨rfl, rfl, rfl, hr'⟩
    | none => exact .illegal (h.matches_span (h.position hr) hr' _) hr'
  · split
    · obtain ⟨hs, hk, ht, hr'⟩ := h.plainRun ha (CharFlags.ofFirst (CharFlags.ofChar c))
        (text.push c)
      dsimp only
      rw [hs, hk, ht]
      split
      · exact h.finish ⟨rfl, rfl, rfl, hr'⟩
      · exact .ok hr'
    · exact h.finish ⟨rfl, rfl, rfl, ha⟩

theorem privateName (hr : R r r') {c : Char} (hc : r.char? = some c) :
    (privateName r).Matches beyond Q R (privateName r') := by
  have ha := h.advance hr hc
  unfold EcmaLex.privateName
  rw [h.filter_peek hr hc (p := isIdentifierStart) (by decide +kernel)]
  split
  · next d hd =>
    -- the name begins with the character that was looked at
    obtain ⟨hp, -⟩ := h.peek hr hc
    obtain ⟨hd, -⟩ := Option.filter_eq_some_iff.1 hd
    exact (h.word ha (hp.symm.trans hd) "#").mapKind _
  · exact .illegal (h.matches_charSpan hr hc _) ha

/-! ### Strings -/

/-- The character after a backslash is the same, unless the first text ends there. -/
theorem stringEscaped (hr : R r r') (text : String) :
    ((StringLiteral.takeEscaped text r').1 = (StringLiteral.takeEscaped text r).1 ∧
        R (StringLiteral.takeEscaped text r).2 (StringLiteral.takeEscaped text r').2) ∨
      beyond ≠ none ∧ (StringLiteral.takeEscaped text r).2.char? = none := by
  cases hc : r.char? with
  | none =>
    unfold StringLiteral.takeEscaped
    rw [hc]
    cases hc' : r'.char? with
    | none => exact .inl ⟨rfl, hr⟩
    | some c => exact .inr ⟨(h.eq_blank hr hc hc').1, hc⟩
  | some c =>
    have ha := h.advance hr hc
    unfold StringLiteral.takeEscaped StringLiteral.take
    rw [hc, h.char?_of_some hr hc]
    dsimp only
    cases hd : r.advance.char? with
    | some d =>
      rw [isAt, isAt, h.char?_of_some ha hd, hd]
      split
      · exact .inl ⟨rfl, h.advance ha hd⟩
      · exact .inl ⟨rfl, ha⟩
    | none =>
      rw [isAt_of_char?_eq_none hd, Bool.and_false]
      cases hd' : r'.advance.char? with
      | none =>
        rw [isAt_of_char?_eq_none hd', Bool.and_false]
        exact .inl ⟨rfl, ha⟩
      | some d => exact .inr ⟨(h.eq_blank ha hd hd').1, hd⟩

/-- The inside of a string is the same, unless the first text ends in it. -/
theorem stringBody (hr : R r r') (quote : Char) (text : String) :
    ((StringLiteral.body quote text r').1 = (StringLiteral.body quote text r).1 ∧
        (StringLiteral.body quote text r').2.1 = (StringLiteral.body quote text r).2.1 ∧
        R (StringLiteral.body quote text r).2.2 (StringLiteral.body quote text r').2.2) ∨
      beyond ≠ none ∧ (StringLiteral.body quote text r).1 = false := by
  fun_induction StringLiteral.body quote text r generalizing r' with
  | case1 text r hc =>
    cases hc' : r'.char? with
    | none =>
      rw [StringLiteral.body_of_char?_eq_none hc']
      exact .inl ⟨rfl, rfl, hr⟩
    | some c => exact .inr ⟨(h.eq_blank hr hc hc').1, rfl⟩
  | case2 text r c hc hf ih =>
    rw [StringLiteral.body.eq_def quote text r', h.char?_of_some hr hc]
    dsimp only
    rw [if_pos hf]
    exact ih (h.advance hr hc)
  | case3 text r c hc hf hs text₁ r₁ he ih =>
    rw [StringLiteral.body.eq_def quote text r', h.char?_of_some hr hc]
    dsimp only
    rw [if_neg hf, if_pos hs]
    have ht := h.stringEscaped (h.advance hr hc) (text.push c)
    rw [he] at ht
    rcases ht with ⟨ht, hr₁⟩ | ⟨hb, hn⟩
    · obtain rfl : _ = text₁ := ht
      exact ih hr₁
    · -- the first text ends after the backslash
      rw [StringLiteral.body_of_char?_eq_none hn]
      exact .inr ⟨hb, rfl⟩
  | case4 text r c hc hf hs hq' =>
    rw [StringLiteral.body.eq_def quote text r', h.char?_of_some hr hc]
    dsimp only
    rw [if_neg hf, if_neg hs, if_pos hq']
    exact .inl ⟨rfl, rfl, h.advance hr hc⟩
  | case5 text r c hc hf hs hq' hl =>
    rw [StringLiteral.body.eq_def quote text r', h.char?_of_some hr hc]
    dsimp only
    rw [if_neg hf, if_neg hs, if_neg hq', if_pos hl]
    exact .inl ⟨rfl, rfl, hr⟩
  | case6 text r c hc hf hs hq' hl ih =>
    rw [StringLiteral.body.eq_def quote text r', h.char?_of_some hr hc]
    dsimp only
    rw [if_neg hf, if_neg hs, if_neg hq', if_neg hl]
    exact ih (h.advance hr hc)

theorem stringLiteral (hr : R r r') {c : Char} (hc : r.char? = some c) (quote : Char) :
    (stringLiteral quote r).Matches beyond Q R (stringLiteral quote r') := by
  have hbody := h.stringBody (h.advance hr hc) quote ""
  unfold EcmaLex.stringLiteral
  generalize StringLiteral.body quote "" r.advance = inside at hbody
  generalize StringLiteral.body quote "" r'.advance = inside' at hbody
  obtain ⟨closed, text, r₁⟩ := inside
  obtain ⟨closed', text', r₁'⟩ := inside'
  rcases hbody with ⟨hclosed, htext, hr₁⟩ | ⟨hb, hclosed⟩
  · obtain rfl : closed' = closed := hclosed
    obtain rfl : text' = text := htext
    dsimp only
    split
    · exact .ok hr₁
    · exact .illegal ⟨rfl, h.position hr, .of (h.position hr) 1⟩ hr₁
  · -- the first text ends in the string
    obtain rfl : closed = false := hclosed
    exact .cut hb

/-! ### Templates -/

/-- A line end in a template is the same, unless the first text ends after a carriage
return. -/
theorem templateNormalized (hr : R r r') {c : Char} (hc : r.char? = some c) (text : String) :
    ((Template.takeNormalized text c r').1 = (Template.takeNormalized text c r).1 ∧
        R (Template.takeNormalized text c r).2 (Template.takeNormalized text c r').2) ∨
      beyond ≠ none ∧ (Template.takeNormalized text c r).2.char? = none := by
  have ha := h.advance hr hc
  unfold Template.takeNormalized
  dsimp only
  split
  · cases hd : r.advance.char? with
    | some d =>
      rw [isAt, isAt, h.char?_of_some ha hd, hd]
      split
      · exact .inl ⟨rfl, h.advance ha hd⟩
      · exact .inl ⟨rfl, ha⟩
    | none =>
      have hat := isAt_of_char?_eq_none hd '\n'
      simp only [hat, Bool.false_eq_true, if_false]
      cases hd' : r'.advance.char? with
      | none =>
        have hat' := isAt_of_char?_eq_none hd' '\n'
        simp only [hat', Bool.false_eq_true, if_false]
        exact .inl ⟨trivial, ha⟩
      | some d => exact .inr ⟨(h.eq_blank ha hd hd').1, hd⟩
  · exact .inl ⟨rfl, ha⟩

theorem templateEscaped (hr : R r r') (text : String) :
    ((Template.takeEscaped text r').1 = (Template.takeEscaped text r).1 ∧
        R (Template.takeEscaped text r).2 (Template.takeEscaped text r').2) ∨
      beyond ≠ none ∧ (Template.takeEscaped text r).2.char? = none := by
  unfold Template.takeEscaped
  cases hc : r.char? with
  | some c =>
    rw [h.char?_of_some hr hc]
    exact h.templateNormalized hr hc text
  | none =>
    cases hc' : r'.char? with
    | none => exact .inl ⟨rfl, hr⟩
    | some c => exact .inr ⟨(h.eq_blank hr hc hc').1, hc⟩

/-- The inside of a piece of a template is the same, unless the first text ends in it. -/
theorem templateBody (hr : R r r') (text : String) :
    ((Template.body text r').1 = (Template.body text r).1 ∧
        (Template.body text r').2.1 = (Template.body text r).2.1 ∧
        R (Template.body text r).2.2 (Template.body text r').2.2) ∨
      beyond ≠ none ∧ (Template.body text r).1 = .missing := by
  fun_induction Template.body text r generalizing r' with
  | case1 text r hc =>
    cases hc' : r'.char? with
    | none =>
      rw [Template.body_of_char?_eq_none hc']
      exact .inl ⟨rfl, rfl, hr⟩
    | some c => exact .inr ⟨(h.eq_blank hr hc hc').1, rfl⟩
  | case2 text r c hc hb =>
    rw [Template.body.eq_def text r', h.char?_of_some hr hc]
    dsimp only
    rw [if_pos hb]
    exact .inl ⟨rfl, rfl, h.advance hr hc⟩
  | case3 text r c hc hb hs =>
    rw [Template.body.eq_def text r', h.char?_of_some hr hc]
    dsimp only
    rw [h.peek_eq hr hc (by decide), if_neg hb, if_pos hs]
    -- the brace is the character that was looked at
    have hbrace : r.advance.char? = some '\x7b' := by
      obtain ⟨-, hpeek⟩ := Bool.and_eq_true_iff.1 hs
      rw [← (h.peek hr hc).1]
      exact beq_iff_eq.1 hpeek
    exact .inl ⟨rfl, rfl, h.advance (h.advance hr hc) hbrace⟩
  | case4 text r c hc hb hs hbs text₁ r₁ he ih =>
    rw [Template.body.eq_def text r', h.char?_of_some hr hc]
    dsimp only
    rw [h.peek_eq hr hc (by decide), if_neg hb, if_neg hs, if_pos hbs]
    have ht := h.templateEscaped (h.advance hr hc) (text.push c)
    rw [he] at ht
    rcases ht with ⟨ht, hr₁⟩ | ⟨hbeyond, hn⟩
    · obtain rfl : _ = text₁ := ht
      exact ih hr₁
    · rw [Template.body_of_char?_eq_none hn]
      exact .inr ⟨hbeyond, rfl⟩
  | case5 text r c hc hb hs hbs text₁ r₁ he ih =>
    rw [Template.body.eq_def text r', h.char?_of_some hr hc]
    dsimp only
    rw [h.peek_eq hr hc (by decide), if_neg hb, if_neg hs, if_neg hbs]
    have ht := h.templateNormalized hr hc text
    rw [he] at ht
    rcases ht with ⟨ht, hr₁⟩ | ⟨hbeyond, hn⟩
    · obtain rfl : _ = text₁ := ht
      exact ih hr₁
    · rw [Template.body_of_char?_eq_none hn]
      exact .inr ⟨hbeyond, rfl⟩

/-- Pieces of a template, opened at corresponding offsets. -/
theorem templatePiece (hr : R r r') {opening opening' : Nat} (ho : Q opening opening') :
    (templatePiece opening r).Matches beyond Q R (templatePiece opening' r') := by
  have hbody := h.templateBody hr ""
  unfold EcmaLex.templatePiece
  generalize Template.body "" r = inside at hbody
  generalize Template.body "" r' = inside' at hbody
  obtain ⟨ending, text, r₁⟩ := inside
  obtain ⟨ending', text', r₁'⟩ := inside'
  rcases hbody with ⟨hending, htext, hr₁⟩ | ⟨hb, hending⟩
  · obtain rfl : ending' = ending := hending
    obtain rfl : text' = text := htext
    dsimp only
    cases ending' with
    | tail => exact .ok hr₁
    | substitution => exact .ok hr₁
    | missing => exact .illegal ⟨rfl, ho, .of ho 1⟩ hr₁
  · obtain rfl : ending = .missing := hending
    exact .cut hb

end Reader.Parallel

end EcmaLex
