import EcmaLex.Proofs.Quoted.Items
import EcmaLex.Proofs.Scanner.TemplateContinuation

/-!
# Where the pieces of templates end

A piece of a template ends with the first backquote, or the first `$` and opening brace, that no
backslash escapes.  Which characters are escaped is told by the items that the text before them
is made of.  What is kept of a piece is its text with line feeds for its carriage returns, which
is made up as the piece is read, item by item; no item parts a carriage return from a line feed
after it.

## Main definitions

* `Template.foldReturns` — the text with line feeds for carriage returns.
* `Template.First` — the first end of a piece.
* `Token.IsPiece` — the token is a piece of a template.

## Main results

* `Template.body_between` — **a piece ends with the first end that is not escaped**.
* `isPiece_of_opening` — so do the pieces after a backquote and those after a closing brace.
-/

namespace EcmaLex

open Reader Quoted

namespace Template

/-- The text with line feeds for carriage returns.  A line feed after a carriage return goes
with it. -/
def foldReturns : List Char → List Char
  | [] => []
  | '\r' :: '\n' :: w => '\n' :: foldReturns w
  | '\r' :: w => '\n' :: foldReturns w
  | c :: w => c :: foldReturns w

/-- What a piece may end with: a backquote, or a dollar sign and an opening brace. -/
def closings : List (List Char) := [['\x60'], ['$', '\x7b']]

/-- After `inside` stands an end of a piece that is not escaped. -/
structure Delimited (after inside closing behind : List Char) : Prop where
  /-- The text is what is inside, the end, and what is behind it. -/
  split : after = inside ++ (closing ++ behind)
  /-- The end is one of the two. -/
  mem : closing ∈ closings
  /-- No backslash before it is left over. -/
  unescaped : Items (fun _ => true) inside

/-- The first end of a piece that is not escaped. -/
structure First (after inside closing behind : List Char) : Prop
    extends Delimited after inside closing behind where
  /-- No other end stands before it. -/
  first : ∀ p d b, Delimited after p d b → inside.length ≤ p.length

/-- How a piece ends, what is inside, what ends it, and what is behind it. -/
inductive Ends (after : List Char) : Ending → List Char → List Char → List Char → Prop where
  /-- A backquote comes first. -/
  | tail {inside behind : List Char} (h : First after inside ['\x60'] behind) :
      Ends after .tail inside ['\x60'] behind
  /-- A dollar sign and an opening brace come first. -/
  | substitution {inside behind : List Char} (h : First after inside ['$', '\x7b'] behind) :
      Ends after .substitution inside ['$', '\x7b'] behind
  /-- There is no end. -/
  | missing (h : ∀ p d b, ¬ Delimited after p d b) : Ends after .missing after [] []

variable {after a p w : List Char} {c : Char}

/-! ### Carriage returns -/

theorem foldReturns_cons (h : c ≠ '\r') : foldReturns (c :: w) = c :: foldReturns w := by
  rw [foldReturns.eq_def]
  split
  · next he => cases he
  · next he => exact absurd (List.cons.inj he).1 h
  · next he => exact absurd (List.cons.inj he).1 h
  · next he =>
    cases he
    rfl

theorem foldReturns_return (h : w.head? ≠ some '\n') :
    foldReturns ('\r' :: w) = '\n' :: foldReturns w := by
  rw [foldReturns.eq_def]
  split
  · next he => cases he
  · next he =>
    cases he
    exact absurd rfl h
  · next he =>
    cases he
    rfl
  · next hne he =>
    cases he
    exact absurd rfl hne

/-- A character is folded by itself unless it is the first of a line break of two. -/
theorem foldReturns_cons_append (h : c = '\r' → w.head? ≠ some '\n') :
    foldReturns (c :: w) = foldReturns [c] ++ foldReturns w := by
  by_cases hc : c = '\r'
  · subst hc
    exact foldReturns_return (h rfl)
  · rw [foldReturns_cons hc, foldReturns_cons hc]
    rfl

/-- What a text begins with does not begin with a character that the text does not begin with. -/
theorem head?_ne_of_prefix (h : p <+: a) (ha : a.head? ≠ some c) : p.head? ≠ some c := by
  rintro hp
  obtain ⟨p, rfl⟩ := List.head?_eq_some_iff.1 hp
  obtain ⟨b, rfl⟩ := h
  exact ha rfl

/-! ### Ends -/

theorem eq_of_mem_closings {d : List Char} (h : d ∈ closings) :
    d = ['\x60'] ∨ d = ['$', '\x7b'] := by
  simpa [closings] using h

/-- An end after `w` and some text is one after the text. -/
structure Passes (w a : List Char) : Prop where
  /-- No end is in what is passed. -/
  delimited : ∀ p d b, Delimited (w ++ a) p d b → ∃ p', p = w ++ p' ∧ Delimited a p' d b
  /-- What is passed leaves no backslash over. -/
  items : ∀ p, Items (fun _ => true) p → Items (fun _ => true) (w ++ p)

theorem Passes.append {w' : List Char} (h : Passes w (w' ++ a)) (h' : Passes w' a) :
    Passes (w ++ w') a where
  items p hp := by
    rw [List.append_assoc]
    exact h.items _ (h'.items p hp)
  delimited := by
    intro p d b hp
    rw [List.append_assoc] at hp
    obtain ⟨x, rfl, hx⟩ := h.delimited p d b hp
    obtain ⟨y, rfl, hy⟩ := h'.delimited x d b hx
    exact ⟨y, (List.append_assoc _ _ _).symm, hy⟩

/-- A character that neither is a backslash nor begins an end. -/
theorem passes_plain (hb : c ≠ '\\') (hq : c ≠ '\x60') (hd : c = '$' → a.head? ≠ some '\x7b') :
    Passes [c] a where
  items p hp := .plain rfl hb hp
  delimited := by
    rintro p d b ⟨hs, hmem, hp⟩
    cases p with
    | nil =>
      rcases eq_of_mem_closings hmem with rfl | rfl
      · exact absurd (List.cons.inj hs).1 hq
      · obtain ⟨rfl, rfl⟩ := List.cons.inj hs
        exact absurd rfl (hd rfl)
    | cons e p =>
      obtain ⟨rfl, rfl⟩ := List.cons.inj hs
      exact ⟨p, rfl, rfl, hmem, (hp.plain_of_cons hb).2⟩

/-- Line breaks of two characters. -/
theorem passes_lineBreak (a : List Char) : Passes ['\r', '\n'] a :=
  Passes.append (passes_plain (by decide) (by decide) (by simp))
    (passes_plain (by decide) (by decide) (by simp))

/-- A backslash and the character after it. -/
theorem passes_escape (c : Char) (a : List Char) : Passes ['\\', c] a where
  items p hp := .escape hp
  delimited := by
    rintro p d b ⟨hs, hd, hp⟩
    cases p with
    | nil =>
      -- no end begins with a backslash
      rcases eq_of_mem_closings hd with rfl | rfl <;> cases hs
    | cons e p =>
      obtain ⟨rfl, hsplit⟩ := List.cons.inj hs
      obtain ⟨e, x, rfl, hx⟩ := hp.of_backslash
      obtain ⟨rfl, rfl⟩ := List.cons.inj hsplit
      refine ⟨x, rfl, rfl, hd, ?_⟩
      rcases hx with hx | ⟨-, y, rfl, hy⟩
      · exact hx
      · exact .plain rfl (by decide) hy

/-- What has been passed goes before the first end. -/
theorem Ends.passes {ending : Ending} {inside closing behind : List Char} (hw : Passes w a)
    (h : Ends a ending inside closing behind) :
    Ends (w ++ a) ending (w ++ inside) closing behind := by
  have hfirst : ∀ {d b : List Char}, First a inside d b → First (w ++ a) (w ++ inside) d b := by
    intro d b h
    refine ⟨⟨?_, h.mem, hw.items _ h.unescaped⟩, fun p d' b' hp => ?_⟩
    · rw [h.split, List.append_assoc]
    · obtain ⟨p, rfl, hp'⟩ := hw.delimited p d' b' hp
      rw [List.length_append, List.length_append]
      exact Nat.add_le_add_left (h.first p d' b' hp') _
  cases h with
  | tail h => exact .tail (hfirst h)
  | substitution h => exact .substitution (hfirst h)
  | missing h =>
    refine .missing fun p d b hp => ?_
    obtain ⟨p', -, hp'⟩ := hw.delimited p d b hp
    exact h p' d b hp'

theorem Ends.split {ending : Ending} {inside closing behind : List Char}
    (h : Ends a ending inside closing behind) : a = inside ++ (closing ++ behind) := by
  cases h with
  | tail h => exact h.split
  | substitution h => exact h.split
  | missing => simp

/-- Where an end comes at once it is the first. -/
theorem first_nil {d b : List Char} (hd : d ∈ closings) : First (d ++ b) [] d b where
  split := rfl
  mem := hd
  unescaped := .nil
  first _ _ _ _ := Nat.zero_le _

/-! ### Reading a piece -/

variable {σ : Type} [ExactSource σ] {before : List Char} {text : String}

/-- How a piece is read: up to the first end, with its carriage returns folded. -/
def Outcome (σ : Type) [ExactSource σ] (before after : List Char) (text : String)
    (result : Ending × String × Reader σ) : Prop :=
  ∃ ending inside closing behind, Ends after ending inside closing behind ∧
    result = (ending, text ++ .ofList (foldReturns inside),
      between (before ++ (inside ++ closing)) behind)

/-- What is read after some text that was passed is read after all of it. -/
theorem Outcome.passes {result : Ending × String × Reader σ} (hw : Passes w a)
    (hf : ∀ p, p <+: a → foldReturns (w ++ p) = foldReturns w ++ foldReturns p)
    (h : Outcome σ (before ++ w) a (text ++ .ofList (foldReturns w)) result) :
    Outcome σ before (w ++ a) text result := by
  obtain ⟨ending, inside, closing, behind, hends, rfl⟩ := h
  refine ⟨ending, w ++ inside, closing, behind, hends.passes hw, ?_⟩
  rw [hf inside ⟨closing ++ behind, hends.split.symm⟩]
  simp [String.append_assoc]

/-- A character is taken, or a line break of two, and folded. -/
theorem takeNormalized_between (text : String) (before : List Char) (c : Char) (a : List Char) :
    (∃ rest, c = '\r' ∧ a = '\n' :: rest ∧
      takeNormalized text c (between before (c :: a) : Reader σ) =
        (text ++ .ofList ['\n'], between (before ++ ['\r', '\n']) rest)) ∨
    (c = '\r' → a.head? ≠ some '\n') ∧
      takeNormalized text c (between before (c :: a) : Reader σ) =
        (text ++ .ofList (foldReturns [c]), between (before ++ [c]) a) := by
  unfold takeNormalized
  dsimp only
  rw [advance_between_cons, isAt_between]
  by_cases hc : c = '\r'
  · subst hc
    rw [if_pos (beq_self_eq_true '\r')]
    by_cases ha : a.head? = some '\n'
    · obtain ⟨rest, rfl⟩ := List.head?_eq_some_iff.1 ha
      refine .inl ⟨rest, rfl, rfl, ?_⟩
      simp [String.ext_iff]
    · refine .inr ⟨fun _ => ha, ?_⟩
      rw [if_neg (by simpa using ha)]
      simp [foldReturns, String.ext_iff]
  · refine .inr ⟨fun h => absurd h hc, ?_⟩
    rw [if_neg (by simpa using hc), foldReturns_cons hc]
    simp [foldReturns]

theorem body_between_nil (text : String) (before : List Char) :
    body text (between before [] : Reader σ) = (.missing, text, between before []) := by
  rw [body]
  split
  · rfl
  · next h => cases h

/-- Where nothing is left, or only a backslash, there is no end. -/
theorem ends_missing (h : a = [] ∨ a = ['\\']) : Ends a .missing a [] [] := by
  refine .missing ?_
  rintro p d b ⟨hs, hd, hp⟩
  have hne : d ++ b ≠ [] := by rcases eq_of_mem_closings hd with rfl | rfl <;> simp
  rcases h with rfl | rfl
  · exact hne (List.append_eq_nil_iff.1 hs.symm).2
  · cases p with
    | nil => rcases eq_of_mem_closings hd with rfl | rfl <;> cases hs
    | cons e p =>
      obtain ⟨-, hs⟩ := List.cons.inj hs
      exact hne (List.append_eq_nil_iff.1 hs.symm).2

/-- Passing a backslash and what it escapes. -/
theorem Outcome.escaped {a : List Char} {text text' : String} {r' : Reader σ}
    (he : takeEscaped (text.push '\\') (between (before ++ ['\\']) a) = (text', r'))
    (h : ∀ before after, r' = between before after → Outcome σ before after text' (body text' r')) :
    Outcome σ before ('\\' :: a) text (body text' r') := by
  have hpush : ∀ w, text.push '\\' ++ .ofList w = text ++ .ofList ('\\' :: w) := by
    simp [String.ext_iff]
  cases a with
  | nil =>
    -- nothing is escaped, and nothing is left
    obtain ⟨rfl, rfl⟩ := Prod.mk.inj he
    rw [body_between_nil]
    refine ⟨.missing, ['\\'], [], [], ends_missing (.inr rfl), ?_⟩
    simp [foldReturns, String.ext_iff]
  | cons d a =>
    replace he : takeNormalized (text.push '\\') d (between (before ++ ['\\']) (d :: a)) =
      (text', r') := he
    rcases takeNormalized_between (σ := σ) (text.push '\\') (before ++ ['\\']) d a with
      ⟨rest, rfl, rfl, ht⟩ | ⟨hn, ht⟩
    · rw [ht, hpush, List.append_assoc] at he
      cases he
      have hpass : Passes ['\\', '\r', '\n'] rest :=
        (passes_escape '\r' ('\n' :: rest)).append
          (passes_plain (by decide) (by decide) (by simp))
      exact Outcome.passes hpass (fun p _ => by simp [foldReturns]) (h _ _ rfl)
    · rw [ht, hpush, List.append_assoc] at he
      cases he
      refine Outcome.passes (passes_escape d a) (fun p hp => ?_) (h _ _ rfl)
      exact congrArg ('\\' :: ·) (foldReturns_cons_append fun hc => head?_ne_of_prefix hp (hn hc))

/-- **A piece ends with the first end that is not escaped**, and its carriage returns are
folded. -/
theorem body_between (text : String) (r : Reader σ) :
    ∀ before after, r = between before after → Outcome σ before after text (body text r) := by
  fun_induction body text r with
  | case1 text r h =>
    rintro before after rfl
    obtain rfl : after = [] := List.head?_eq_none_iff.1 h
    exact ⟨.missing, [], [], [], ends_missing (.inl rfl), by simp [foldReturns]⟩
  | case2 text r c hr hc =>
    rintro before after rfl
    obtain ⟨a, rfl⟩ := List.head?_eq_some_iff.1 hr
    obtain rfl : c = '\x60' := by simpa using hc
    have hfirst : First ('\x60' :: a) [] ['\x60'] a := first_nil (d := ['\x60']) (by decide)
    exact ⟨.tail, [], ['\x60'], a, .tail hfirst, by simp [foldReturns]⟩
  | case3 text r c hr hc hd =>
    rintro before after rfl
    obtain ⟨a, rfl⟩ := List.head?_eq_some_iff.1 hr
    obtain ⟨rfl, hpeek⟩ : c = '$' ∧ a.head? = some '\x7b' := by simpa using hd
    obtain ⟨a, rfl⟩ := List.head?_eq_some_iff.1 hpeek
    have hfirst : First ('$' :: '\x7b' :: a) [] ['$', '\x7b'] a :=
      first_nil (d := ['$', '\x7b']) (by decide)
    exact ⟨.substitution, [], ['$', '\x7b'], a, .substitution hfirst, by simp [foldReturns]⟩
  | case4 text r c hr hc hd hb text' r' he ih =>
    rintro before after rfl
    obtain ⟨a, rfl⟩ := List.head?_eq_some_iff.1 hr
    obtain rfl : c = '\\' := by simpa using hb
    rw [advance_between_cons] at he
    exact Outcome.escaped he ih
  | case5 text r c hr hc hd hb text' r' he ih =>
    rintro before after rfl
    obtain ⟨a, rfl⟩ := List.head?_eq_some_iff.1 hr
    have hquote : c ≠ '\x60' := by simpa using hc
    have hdollar : c = '$' → a.head? ≠ some '\x7b' := by
      rintro rfl
      simpa using hd
    have hb : c ≠ '\\' := by simpa using hb
    rcases takeNormalized_between (σ := σ) text before c a with ⟨rest, rfl, rfl, ht⟩ | ⟨hn, ht⟩
    · rw [ht] at he
      cases he
      exact Outcome.passes (passes_lineBreak rest) (fun p _ => by simp [foldReturns]) (ih _ _ rfl)
    · rw [ht] at he
      cases he
      refine Outcome.passes (passes_plain hb hquote hdollar) (fun p hp => ?_) (ih _ _ rfl)
      exact foldReturns_cons_append fun hc => head?_ne_of_prefix hp (hn hc)

end Template

/-! ### The pieces of a text -/

open Template

/-- The token is a piece of a template that was opened by the given character after `before`,
with what is inside and what ends it, and the reader is after it. -/
structure Token.Holds (σ : Type) [ExactSource σ] (t : Token) (r : Reader σ) (before : List Char)
    (opening : Char) (inside closing behind : List Char) : Prop where
  /-- It stands where the piece stands. -/
  span : t.span = ⟨extent σ before, extent σ (before ++ opening :: (inside ++ closing))⟩
  /-- Its text is what is inside, with line feeds for carriage returns. -/
  cooked : t.cooked = .ofList (foldReturns inside)
  /-- Its raw text is the same. -/
  raw : t.raw = .ofList (foldReturns inside)
  /-- The reader is after what ends it. -/
  reader : r = between (before ++ opening :: (inside ++ closing)) behind

/-- The token is the piece of a template that was opened by the given character after `before`,
with `after` to follow, and the reader is after it. -/
inductive Token.IsPiece (σ : Type) [ExactSource σ] (t : Token) (r : Reader σ)
    (before : List Char) (opening : Char) (after : List Char) : Prop where
  /-- The first end is a backquote. -/
  | tail {inside behind : List Char} (first : First after inside ['\x60'] behind)
      (kind : t.kind = .templateTail) (error : t.error? = none)
      (holds : t.Holds σ r before opening inside ['\x60'] behind)
  /-- The first end is the opening of a substitution. -/
  | substitution {inside behind : List Char} (first : First after inside ['$', '\x7b'] behind)
      (kind : t.kind = .templateSpan) (error : t.error? = none)
      (holds : t.Holds σ r before opening inside ['$', '\x7b'] behind)
  /-- There is no end, and the rest of the text is taken. -/
  | missing (endless : ∀ p d b, ¬ Delimited after p d b) (kind : t.kind = .illegal)
      (error : t.error? = some ⟨⟨extent σ before, extent σ before + 1⟩, .unterminatedTemplate⟩)
      (holds : t.Holds σ r before opening after [] [])

variable {σ : Type} [ExactSource σ] {before after : List Char}

theorem isPiece_templatePiece (before : List Char) (opening : Char) (after : List Char)
    (lineBreak : Bool) :
    let l := templatePiece (extent σ before) (between (before ++ [opening]) after : Reader σ)
    (l.toToken (extent σ before) lineBreak).IsPiece σ l.reader before opening after := by
  obtain ⟨ending, inside, closing, behind, hends, h⟩ :=
    body_between (σ := σ) "" _ (before ++ [opening]) after rfl
  rw [String.empty_append, List.append_assoc, List.singleton_append] at h
  unfold templatePiece
  rw [h]
  have hspan : Span.mk (extent σ before)
      (between (before ++ opening :: (inside ++ closing)) behind : Reader σ).position =
        ⟨extent σ before, extent σ (before ++ opening :: (inside ++ closing))⟩ :=
    congrArg (Span.mk _) (position_between _ _)
  cases hends with
  | tail hf => exact .tail hf rfl rfl ⟨hspan, rfl, rfl, rfl⟩
  | substitution hf => exact .substitution hf rfl rfl ⟨hspan, rfl, rfl, rfl⟩
  | missing hn => exact .missing hn rfl rfl ⟨hspan, rfl, rfl, rfl⟩

/-- At a backquote a piece of a template is read. -/
theorem step_of_backquote (settings : Settings) (lineBreak : Bool) (findings : Findings)
    {r : Reader σ} (hr : r.char? = some '\x60') :
    step settings lineBreak findings r =
      .lexeme lineBreak findings (templatePiece r.position r.advance) := by
  rw [step, hr]
  rfl

/-- **The pieces of a template end with the first end that is not escaped**, and their text is
what is inside with line feeds for carriage returns.  The first part is about the piece after a
backquote, at any place of the text, the second one about the piece after a closing brace, when
a scanner that was started once is asked to go on with the template. -/
theorem isPiece_of_opening (settings : Settings) :
    (∀ (lineBreak : Bool) (findings : Findings) (before after : List Char),
      let scanned :=
        scanToken settings lineBreak findings (between before ('\x60' :: after) : Reader σ)
      scanned.token.IsPiece σ scanned.reader before '\x60' after) ∧
    ∀ (text : List Char) (ops : List Operation), (∀ op ∈ ops, op ≠ .start) →
      let s := (Scanner.ofSource settings (ExactSource.fresh text : σ)).start.run ops
      s.next.kind = .punctuator .rightBrace → s.afterNext.kind = .uninitialized →
        ∃ before after, text = before ++ '\x7d' :: after ∧
          s.next.span = ⟨extent σ before, extent σ (before ++ ['\x7d'])⟩ ∧
          s.continueTemplate.1 = s.continueTemplate.2.next.kind ∧
          s.continueTemplate.2.next.IsPiece σ s.continueTemplate.2.reader before '\x7d' after := by
  refine ⟨fun lineBreak findings before after => ?_, fun text ops hops => ?_⟩
  · rw [scanToken_of_step_eq_lexeme (step_of_backquote settings lineBreak findings rfl),
      advance_between_cons, position_between]
    exact isPiece_templatePiece before '\x60' after lineBreak
  · intro s hk ha
    obtain ⟨before, after, htext, hspan, hreader⟩ :=
      Scanner.between_of_rightBrace settings text hops hk ha
    refine ⟨before, after, htext, hspan, ?_⟩
    rw [Scanner.continueTemplate, if_pos (Scanner.canContinueTemplate_iff.2 ⟨hk, ha⟩), hspan,
      hreader]
    exact ⟨rfl, isPiece_templatePiece before '\x7d' after s.next.afterLineTerminator⟩

/-- A template whose second piece has a line break of two characters and an escaped backquote. -/
theorem isPiece_of_opening_escaped :
    let text := ['\x60', '$', '\x7b', 'b', '\x7d', '\r', '\n', '\\', '\x60', '\x60']
    let ops : List Operation := [.advance, .advance]
    let s := (Scanner.ofSource {} (ExactSource.fresh text : ByteCursor)).start.run ops
    let scanned := scanToken {} true {} (between [] text : Reader ByteCursor)
    scanned.token.IsPiece ByteCursor scanned.reader [] '\x60' text.tail ∧
      (∀ op ∈ ops, op ≠ .start) ∧ s.next.kind = .punctuator .rightBrace ∧
      s.afterNext.kind = .uninitialized ∧ s.continueTemplate.2.next.cooked = "\n\\\x60" ∧
      ∃ before after, text = before ++ '\x7d' :: after ∧
        s.continueTemplate.2.next.IsPiece ByteCursor s.continueTemplate.2.reader before '\x7d'
          after := by
  intro text ops s scanned
  obtain ⟨hscan, hgo⟩ := isPiece_of_opening (σ := ByteCursor) {}
  have hops : ∀ op ∈ ops, op ≠ .start := by decide
  have hk : s.next.kind = .punctuator .rightBrace := by decide +kernel
  have ha : s.afterNext.kind = .uninitialized := by decide +kernel
  obtain ⟨before, after, htext, -, -, hpiece⟩ := hgo text ops hops hk ha
  refine ⟨hscan true {} [] text.tail, hops, hk, ha, ?_, before, after, htext, hpiece⟩
  decide +kernel

end EcmaLex
