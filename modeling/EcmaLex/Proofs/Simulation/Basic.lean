import EcmaLex.Lexeme.Basic
import EcmaLex.Lexeme.Findings
import EcmaLex.Lexeme.Gap
import EcmaLex.Proofs.Character.Class

/-!
# Readers side by side

Two readers go through the same characters, at offsets that correspond to each other.
Their sources may count positions in different units, or the texts behind the heads
may differ.  As long as the rules of the grammar only move the heads and look at
what is under them, they find the same in both texts, at corresponding places.

The second text may also go on where the first one ends, with a line feed or a space.  The two
then agree on every lexeme in which no error is found in the first text, because no lexeme
ends at the end of the text that would not end at a blank as well.  This is why there is no
statement about the second text once the first one holds an error.  A comment on a line
goes on over a space, so that gaps are the same only where it is a line feed that comes
next.

## Main definitions

* `Reader.Parallel` — a relation that single moves of two readers keep true.
* `Reader.Simulation` — a relation that their searches keep true as well.
* `Span.Matches`, `Diagnostic.Matches`, `Findings.Matches`, `Lexeme.Matches` — the same found at
  corresponding offsets.
* `Findings.Congruence` — a relation that noting the same in both texts keeps true.
-/

namespace EcmaLex

/-- Offsets as far behind corresponding ones.  The end of an error of one character
counts bytes, whatever the source counts. -/
def Behind (Q : Nat → Nat → Prop) (p p' : Nat) : Prop :=
  ∃ a a' n, Q a a' ∧ p = a + n ∧ p' = a' + n

theorem Behind.of {Q : Nat → Nat → Prop} {p p' : Nat} (h : Q p p') (n : Nat) :
    Behind Q (p + n) (p' + n) :=
  ⟨p, p', n, h, rfl, rfl⟩

/-- Spans whose ends correspond to each other. -/
structure Span.Matches (Q : Nat → Nat → Prop) (s s' : Span) : Prop where
  /-- They start at corresponding offsets. -/
  start : Q s.start s'.start
  /-- They stop at corresponding offsets. -/
  stop : Q s.stop s'.stop

/-- The same cause, at places that start at corresponding offsets. -/
structure Diagnostic.Matches (Q : Nat → Nat → Prop) (d d' : Diagnostic) : Prop where
  /-- The causes are the same. -/
  cause : d'.cause = d.cause
  /-- The places start at corresponding offsets. -/
  start : Q d.span.start d'.span.start
  /-- They end as far behind corresponding offsets. -/
  stop : Behind Q d.span.stop d'.span.stop

/-- A literal for strict mode code is noted in both texts for the same cause, or in
neither. -/
def Diagnostic.NotedAlike (Q : Nat → Nat → Prop) (d? d'? : Option Diagnostic) : Prop :=
  Option.Rel (fun d d' => d'.cause = d.cause ∧ d.span.Matches Q d'.span) d? d'?

/-- The same is noted of both texts, at corresponding offsets. -/
structure Findings.Matches (Q : Nat → Nat → Prop) (f f' : Findings) : Prop where
  /-- The opening of an HTML-like comment is found in both texts or in none. -/
  htmlComment : f'.htmlComment = f.htmlComment
  /-- The URLs of the sources are the same. -/
  sourceUrl? : f'.sourceUrl? = f.sourceUrl?
  /-- The URLs of the source maps are the same. -/
  sourceMappingUrl? : f'.sourceMappingUrl? = f.sourceMappingUrl?
  /-- The same literal is noted for strict mode code. -/
  octal? : Diagnostic.NotedAlike Q f.octal? f'.octal?

/-- What is noted in the two texts stays related when the same is noted in both. -/
structure Findings.Congruence (Q : Nat → Nat → Prop) (F : Findings → Findings → Prop) :
    Prop where
  /-- The opening of an HTML-like comment is found in both. -/
  htmlComment : ∀ {f f'}, F f f' → F { f with htmlComment := true } { f' with htmlComment := true }
  /-- A magic comment sets the same. -/
  set : ∀ {f f'} (name : Gap.MagicName) (value? : Option String),
    F f f' → F (name.set value? f) (name.set value? f')
  /-- A literal is noted in both, at corresponding offsets. -/
  noteLegacyOctal : ∀ {f f' : Findings} (form? : Option NumberForm) {s s' : Span},
    Q s.start s'.start → Q s.stop s'.stop → F f f' →
      F (f.noteLegacyOctal form? s) (f'.noteLegacyOctal form? s')

theorem Findings.congruence_matches (Q : Nat → Nat → Prop) : Congruence Q (Matches Q) where
  htmlComment h := ⟨rfl, h.sourceUrl?, h.sourceMappingUrl?, h.octal?⟩
  set name value? h := by
    cases name with
    | sourceUrl => exact ⟨h.htmlComment, rfl, h.sourceMappingUrl?, h.octal?⟩
    | sourceMappingUrl => exact ⟨h.htmlComment, h.sourceUrl?, rfl, h.octal?⟩
  noteLegacyOctal := by
    intro f f' form? s s' hstart hstop h
    unfold Findings.noteLegacyOctal
    cases form?.bind NumberForm.strictCause with
    | none => exact h
    | some cause =>
      exact ⟨h.htmlComment, h.sourceUrl?, h.sourceMappingUrl?, .some ⟨rfl, hstart, hstop⟩⟩

/-- A relation between two readers that single moves keep true.  `beyond` is what stands
in the second text where the first one ends, if anything, and `Q` tells which
offsets correspond to each other. -/
structure Reader.Parallel {σ τ : Type} [SearchableSource σ] [SearchableSource τ]
    (beyond : Option Char) (Q : Nat → Nat → Prop) (R : Reader σ → Reader τ → Prop) : Prop where
  /-- The first text ends where the second one does, or at a line feed or a space of the
  second. -/
  blank : ∀ c, beyond = some c → c = '\n' ∨ c = ' '
  /-- The same character is under both heads. -/
  char? : ∀ {r r'}, R r r' → r'.char? = r.char?.or beyond
  /-- The heads are at corresponding offsets. -/
  position : ∀ {r r'}, R r r' → Q r.position r'.position
  /-- A character is passed in both texts. -/
  advance : ∀ {r r' c}, R r r' → r.char? = some c → R r.advance r'.advance
  /-- An ASCII character takes as many positions in both. -/
  width : ∀ {r r' c}, R r r' → r.char? = some c → isAscii c = true →
    ∃ n, r.advance.position = r.position + n ∧ r'.advance.position = r'.position + n
  /-- What comes after a character is what is under the head once the character is passed. -/
  peek : ∀ {r r' c}, R r r' → r.char? = some c →
    r.peek = r.advance.char? ∧ r'.peek = r'.advance.char?
  /-- A character is passed in both texts, and given back. -/
  pushBack : ∀ {r r' c}, R r r' → r.isAt c = true →
    R (r.advance.pushBack c) (r'.advance.pushBack c)

/-- A relation between two readers that all their moves keep true.  The second text may go on
beyond the first one with a line feed only, since a search for the end of the line goes on
over everything else. -/
structure Reader.Simulation {σ τ : Type} [SearchableSource σ] [SearchableSource τ]
    (beyond : Option Char) (Q : Nat → Nat → Prop) (R : Reader σ → Reader τ → Prop) : Prop
    extends Reader.Parallel beyond Q R where
  /-- The first text ends where the second one does, or at a line feed of the second. -/
  line : ∀ c, beyond = some c → c = '\n'
  /-- A search leads to the same place, unless it passes line feeds and the first text ends. -/
  skipTo : ∀ {r r' c} l, R r r' → r.char? = some c → R (r.skipTo l) (r'.skipTo l) ∨
    beyond ≠ none ∧ l.stopsAtLines = false ∧ (r.skipTo l).char? = none

/-- The same lexeme at corresponding offsets.  Nothing is said of the second one where
the second text goes on beyond the first and the first one holds an error. -/
inductive Lexeme.Matches {σ τ : Type} (beyond : Option Char) (Q : Nat → Nat → Prop)
    (R : Reader σ → Reader τ → Prop) : Lexeme σ → Lexeme τ → Prop where
  /-- Text of the same kind. -/
  | ok {kind : TokenKind} {text : TokenText} {r : Reader σ} {r' : Reader τ} (reader : R r r') :
      Matches beyond Q R ⟨.ok kind, text, r⟩ ⟨.ok kind, text, r'⟩
  /-- Text with the same error. -/
  | illegal {d d' : Diagnostic} {text : TokenText} {r : Reader σ} {r' : Reader τ}
      (matching : d.Matches Q d') (reader : R r r') :
      Matches beyond Q R ⟨.error d, text, r⟩ ⟨.error d', text, r'⟩
  /-- Text with an error, and a second text that goes on. -/
  | cut {d : Diagnostic} {text : TokenText} {r : Reader σ} {l' : Lexeme τ}
      (goesOn : beyond ≠ none) : Matches beyond Q R ⟨.error d, text, r⟩ l'

/-- At the end of the text no character is under the head. -/
theorem Reader.isAt_of_char?_eq_none {σ : Type} {r : Reader σ} (hc : r.char? = none) (c : Char) :
    r.isAt c = false := by
  rw [isAt, hc]
  rfl

namespace Reader.Parallel

variable {σ τ : Type} [SearchableSource σ] [SearchableSource τ] {beyond : Option Char}
  {Q : Nat → Nat → Prop} {R : Reader σ → Reader τ → Prop} {r : Reader σ} {r' : Reader τ}
  (h : Parallel beyond Q R)
include h

/-! ### What is under the heads -/

theorem char?_of_some (hr : R r r') {c : Char} (hc : r.char? = some c) : r'.char? = some c := by
  rw [h.char? hr, hc]
  rfl

/-- Where the first text ends the second one ends, or it goes on. -/
theorem char?_of_none (hr : R r r') (hc : r.char? = none) : r'.char? = beyond := by
  rw [h.char? hr, hc]
  rfl

theorem eq_blank (hr : R r r') (hc : r.char? = none) {c : Char} (hc' : r'.char? = some c) :
    beyond ≠ none ∧ (c = '\n' ∨ c = ' ') := by
  rw [h.char?_of_none hr hc] at hc'
  refine ⟨?_, h.blank c hc'⟩
  rw [hc']
  exact Option.some_ne_none c

/-- A property that what is behind the first text does not have is found in both texts or in
none. -/
theorem isAtAny_of_beyond (hr : R r r') {p : Char → Bool}
    (hp : ∀ c, beyond = some c → p c = false) : r'.isAtAny p = r.isAtAny p := by
  unfold isAtAny
  cases hc : r.char? with
  | some c => rw [h.char?_of_some hr hc]
  | none =>
    rw [h.char?_of_none hr hc]
    cases hb : beyond with
    | none => rfl
    | some c => exact hp c hb

theorem isAtAny_eq (hr : R r r') {p : Char → Bool} (hp : (p '\n' || p ' ') = false) :
    r'.isAtAny p = r.isAtAny p := by
  obtain ⟨hline, hspace⟩ := Bool.or_eq_false_iff.1 hp
  refine h.isAtAny_of_beyond hr fun c hb => ?_
  rcases h.blank c hb with rfl | rfl
  · exact hline
  · exact hspace

theorem isAt_eq (hr : R r r') {c : Char} (hc : isBlank c = false) : r'.isAt c = r.isAt c := by
  have hp : ('\n' == c || ' ' == c) = false := by
    by_contra hcon
    rcases Bool.or_eq_true_iff.1 (eq_true_of_ne_false hcon) with he | he
    · rw [← beq_iff_eq.1 he] at hc
      cases hc
    · rw [← beq_iff_eq.1 he] at hc
      cases hc
  -- a character is under the head just if some character equal to it is
  have hat : ∀ d? : Option Char, (d? == some c) = d?.any (· == c) := by
    intro d?
    cases d? <;> rfl
  rw [isAt, isAt, hat, hat]
  exact h.isAtAny_eq hr hp

/-- With a character under the first head, both see the same, also at line feeds. -/
theorem isAtAny_of_some (hr : R r r') {c : Char} (hc : r.char? = some c) (p : Char → Bool) :
    r'.isAtAny p = r.isAtAny p := by
  rw [isAtAny, isAtAny, h.char?_of_some hr hc, hc]

theorem advance_of_isAt (hr : R r r') {c : Char} (hc : r.isAt c = true) :
    R r.advance r'.advance :=
  h.advance hr (beq_iff_eq.1 hc)

theorem advance_of_isAtAny (hr : R r r') {p : Char → Bool} (hp : r.isAtAny p = true) :
    R r.advance r'.advance := by
  obtain ⟨c, hc, -⟩ := (Option.any_eq_true _ _).1 hp
  exact h.advance hr hc

/-- What comes after a character is the same, apart from a blank. -/
theorem peek_eq (hr : R r r') {c d : Char} (hc : r.char? = some c) (hd : isBlank d = false) :
    (r'.peek == some d) = (r.peek == some d) := by
  obtain ⟨hp, hp'⟩ := h.peek hr hc
  rw [hp, hp']
  exact h.isAt_eq (h.advance hr hc) hd

/-- Two characters in a row are found in both texts or in none. -/
theorem isAt_and_peek_eq (hr : R r r') {c d : Char} (hc : isBlank c = false)
    (hd : isBlank d = false) :
    (r'.isAt c && r'.peek == some d) = (r.isAt c && r.peek == some d) := by
  rw [h.isAt_eq hr hc]
  cases hat : r.isAt c with
  | false => rfl
  | true => rw [h.peek_eq hr (beq_iff_eq.1 hat) hd]

theorem filter_peek (hr : R r r') {c : Char} (hc : r.char? = some c) {p : Char → Bool}
    (hp : (p '\n' || p ' ') = false) : r'.peek.filter p = r.peek.filter p := by
  obtain ⟨hpeek, hpeek'⟩ := h.peek hr hc
  obtain ⟨hline, hspace⟩ := Bool.or_eq_false_iff.1 hp
  rw [hpeek, hpeek']
  have hra := h.advance hr hc
  cases hd : r.advance.char? with
  | some d => rw [h.char?_of_some hra hd]
  | none =>
    cases hd' : r'.advance.char? with
    | none => rfl
    | some d =>
      obtain ⟨-, rfl | rfl⟩ := h.eq_blank hra hd hd'
      · simp [hline]
      · simp [hspace]

/-! ### Places -/

/-- The character under the heads is at corresponding places. -/
theorem matches_charSpan (hr : R r r') {c : Char} (hc : r.char? = some c) (cause : Cause) :
    Diagnostic.Matches Q ⟨r.charSpan, cause⟩ ⟨r'.charSpan, cause⟩ := by
  refine ⟨rfl, h.position hr, ?_⟩
  unfold charSpan
  rw [hc, h.char?_of_some hr hc]
  exact .of (h.position hr) _

theorem matches_span {start start' : Nat} (hs : Q start start') (hr : R r r') (cause : Cause) :
    Diagnostic.Matches Q ⟨⟨start, r.position⟩, cause⟩ ⟨⟨start', r'.position⟩, cause⟩ :=
  ⟨rfl, hs, .of (h.position hr) 0⟩

end Reader.Parallel

namespace Reader.Simulation

variable {σ τ : Type} [SearchableSource σ] [SearchableSource τ] {beyond : Option Char}
  {Q : Nat → Nat → Prop} {R : Reader σ → Reader τ → Prop} {r : Reader σ} {r' : Reader τ}
  (h : Simulation beyond Q R)
include h

/-! ### Line feeds behind the first text -/

theorem eq_line (hr : R r r') (hc : r.char? = none) {c : Char} (hc' : r'.char? = some c) :
    beyond ≠ none ∧ c = '\n' := by
  rw [h.char?_of_none hr hc] at hc'
  refine ⟨?_, h.line c hc'⟩
  rw [hc']
  exact Option.some_ne_none c

theorem isAtAny_eq (hr : R r r') {p : Char → Bool} (hp : p '\n' = false) :
    r'.isAtAny p = r.isAtAny p := by
  refine h.isAtAny_of_beyond hr fun c hb => ?_
  rw [h.line c hb]
  exact hp

/-! ### Runs of characters -/

theorem skipWhile (hr : R r r') {p : Char → Bool} (hp : p '\n' = false) :
    R (r.skipWhile p) (r'.skipWhile p) := by
  fun_induction r.skipWhile p generalizing r' with
  | case1 r hc =>
    rw [Reader.skipWhile]
    split
    · exact hr
    · next c hc' =>
      obtain ⟨-, rfl⟩ := h.eq_line hr hc hc'
      rwa [if_neg (by simp [hp])]
  | case2 r c hc hpc ih =>
    rw [Reader.skipWhile.eq_def p r', h.char?_of_some hr hc]
    dsimp only
    rw [if_pos hpc]
    exact ih (h.advance hr hc)
  | case3 r c hc hpc =>
    rw [Reader.skipWhile.eq_def p r', h.char?_of_some hr hc]
    dsimp only
    rwa [if_neg hpc]

theorem takeWhile (hr : R r r') {p : Char → Bool} (hp : p '\n' = false) (text : String) :
    (r'.takeWhile p text).1 = (r.takeWhile p text).1 ∧
      R (r.takeWhile p text).2 (r'.takeWhile p text).2 := by
  fun_induction r.takeWhile p text generalizing r' with
  | case1 text r hc =>
    rw [Reader.takeWhile]
    split
    · exact ⟨rfl, hr⟩
    · next c hc' =>
      obtain ⟨-, rfl⟩ := h.eq_line hr hc hc'
      rw [if_neg (by simp [hp])]
      exact ⟨rfl, hr⟩
  | case2 text r c hc hpc ih =>
    rw [Reader.takeWhile.eq_def p text r', h.char?_of_some hr hc]
    dsimp only
    rw [if_pos hpc]
    exact ih (h.advance hr hc)
  | case3 text r c hc hpc =>
    rw [Reader.takeWhile.eq_def p text r', h.char?_of_some hr hc]
    dsimp only
    rw [if_neg hpc]
    exact ⟨rfl, hr⟩

end Reader.Simulation

end EcmaLex
