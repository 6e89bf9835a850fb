import EcmaLex.Proofs.Listing.HtmlComment
import EcmaLex.Proofs.Listing.LineBreak

/-!
# Texts put together at a space

If nothing is wrong with a text, a space and any other text can be put behind it, and its tokens
stay what they are.  Nothing ends at the end of the text that would not end at a space as well,
other than a comment on a line.

So unlike at a line break, the scan of the whole text does not always go on at the end of the
first text.  If that text ends in a comment on a line, or is nothing but the line that names an
interpreter, the rest of the line belongs to it.  Which of the two happens depends on the first
text alone.

## Main definitions

* `Abreast` — scans of a text and of a longer one that are at the same place.
* `Reader.behind` — the place where the scan of the longer text goes on.
* `Scanned.GoesOn` — what becomes of a scan when the text is made longer.

## Main results

* `goesOn_scanToken` — **a token is the same**, and in place of the end of input the scan goes on.
* `trail_goesOn`, `Listing.trail_firstReader_goesOn` — **the listing of the longer text begins like
  that of the first one**.
-/

namespace EcmaLex

open Reader

/-! ### Side by side -/

/-- A text without a given character begins another text up to that character, or not at all. -/
theorem prefix_append_cons_iff {text before after : List Char} {c : Char} (hc : c ∉ text) :
    text <+: before ++ c :: after ↔ text <+: before := by
  refine ⟨fun h => ?_, fun h => h.trans (List.prefix_append _ _)⟩
  rcases List.prefix_or_prefix_of_prefix h (List.prefix_append before _) with h' | ⟨t, rfl⟩
  · exact h'
  · cases t with
    | nil => rw [List.append_nil]
    | cons d t =>
      -- the text would go on with that character
      rw [List.prefix_append_right_inj, List.cons_prefix_cons] at h
      exact absurd (List.mem_append_right _ (h.1 ▸ List.mem_cons_self)) hc

variable {σ : Type} [ExactSource σ] {settings : Settings} {lineBreak : Bool}
  {f f' f₁ : Findings} {r r' r₁ : Reader σ} {a before after : List Char}

theorem parallel_space (a back : List Char) :
    Parallel (some ' ') (SamePlace σ σ [] a)
      (Alongside [] a (' ' :: back) : Reader σ → Reader σ → Prop) :=
  parallel_alongside [] a (' ' :: back) (fun _ hd => .inr (Option.some.inj hd).symm) fun _ _ => rfl

/-- A scan of a text and one of the text with a space and more text behind it are at the same
place, and have noted the same. -/
structure Abreast (a back : List Char) (f f' : Findings) (r r' : Reader σ) : Prop where
  /-- The same is noted. -/
  findings : f.Continues (SamePlace σ σ [] a) false f'
  /-- The readers are at the same place. -/
  reader : Alongside [] a (' ' :: back) r r'

/-- Literals that are noted at the same place are the same. -/
theorem Findings.Continues.octal?_eq {html : Bool} (h : f.Continues (SamePlace σ σ [] a) html f') :
    f'.octal? = f.octal? := by
  rw [h.octal?.eq_shift (d := 0) fun hp => hp.eq_add, Diagnostic.map_shift_zero]

/-- In a gap the same is noted whether a space and more text stand behind or not. -/
theorem Findings.Continues.of_gap {Q : Nat → Nat → Prop} {lineBreak₁ lineBreak₁' : Bool}
    {f₁' : Findings} {r₁' : Reader σ} {back : List Char} (hf : f.Continues Q false f')
    (h : step settings lineBreak f (between before after) = .gap lineBreak₁ f₁ r₁)
    (h' : step settings lineBreak f' (between before (after ++ ' ' :: back)) =
      .gap lineBreak₁' f₁' r₁') : f₁.Continues Q false f₁' := by
  have hhtml := htmlComment_step (σ := σ) settings lineBreak f before after
  have hhtml' := htmlComment_step (σ := σ) settings lineBreak f' before (after ++ ' ' :: back)
  rw [h] at hhtml
  rw [h', prefix_append_cons_iff (by decide), hf.htmlComment, Bool.or_false, ← hhtml] at hhtml'
  refine ⟨?_, ?_⟩
  · rw [Bool.or_false]
    exact Bool.eq_iff_iff.2 hhtml'
  · rw [octal?_of_step_eq_gap h, octal?_of_step_eq_gap h']
    exact hf.octal?

/-! ### Tokens -/

/-- The reader behind a text where another text follows, or at the end of the line that the first
text ends in. -/
def Reader.behind (inLine : Bool) (text back : List Char) : Reader σ :=
  if inLine then
    between (text ++ back.takeWhile (!isLineTerminator ·)) (back.dropWhile (!isLineTerminator ·))
  else between text back

/-- What becomes of a scan when a space and more text are put behind the text.  A token is
the same.  In place of the end of input a scan goes on behind the text, at the end of a line if
the text ends in a comment on that line. -/
inductive Scanned.GoesOn (settings : Settings) (lineBreak : Bool) (f : Findings) (a : List Char)
    (r : Reader σ) : Scanned σ → Prop where
  /-- A token. -/
  | token {t : Token} {f₁ : Findings} {r₁ : Reader σ} (kind : t.kind ≠ .endOfInput)
      (same : ∀ {back f' r'}, Abreast a back f f' r r' → ∃ f₁' r₁', Abreast a back f₁ f₁' r₁ r₁' ∧
        scanToken settings lineBreak f' r' = ⟨t, f₁', r₁'⟩) :
      GoesOn settings lineBreak f a r ⟨t, f₁, r₁⟩
  /-- The end of input. -/
  | ends (inLine : Bool) {t : Token} {f₁ : Findings} (kind : t.kind = .endOfInput)
      (same : ∀ {back f' r'}, Abreast a back f f' r r' →
        ∃ f₁', f₁.Continues (SamePlace σ σ [] a) false f₁' ∧
          scanToken settings lineBreak f' r' =
            scanToken settings t.afterLineTerminator f₁' (behind inLine a (' ' :: back))) :
      GoesOn settings lineBreak f a r ⟨t, f₁, between a []⟩

/-- What becomes of the rest of a scan becomes of the scan, if its beginning is the same. -/
theorem Scanned.GoesOn.of_scanToken {lineBreak₁ : Bool} {s : Scanned σ}
    (h : s.GoesOn settings lineBreak₁ f₁ a r₁)
    (hs : ∀ {back f' r'}, Abreast a back f f' r r' → ∃ f₁' r₁', Abreast a back f₁ f₁' r₁ r₁' ∧
      scanToken settings lineBreak f' r' = scanToken settings lineBreak₁ f₁' r₁') :
    s.GoesOn settings lineBreak f a r := by
  cases h with
  | token kind same =>
    refine .token kind fun hr => ?_
    obtain ⟨f₁', r₁', hr₁, hscan⟩ := hs hr
    obtain ⟨f₂', r₂', hr₂, hsame⟩ := same hr₁
    exact ⟨f₂', r₂', hr₂, hscan.trans hsame⟩
  | ends inLine kind same =>
    refine .ends inLine kind fun hr => ?_
    obtain ⟨f₁', r₁', hr₁, hscan⟩ := hs hr
    obtain ⟨f₂', hf₂, hsame⟩ := same hr₁
    exact ⟨f₂', hf₂, hscan.trans hsame⟩

/-- A scan that starts at the end of the text goes on from there. -/
theorem goesOn_scanToken_nil (settings : Settings) (lineBreak : Bool) (f : Findings)
    (a : List Char) :
    (scanToken settings lineBreak f (between a [] : Reader σ)).GoesOn settings lineBreak f a
      (between a []) := by
  rw [scanToken_of_step_eq_lexeme (step_of_char?_eq_none settings lineBreak f rfl)]
  refine .ends false rfl fun {back f' r'} hr => ⟨f', hr.findings, ?_⟩
  obtain ⟨-, rfl⟩ := hr.reader.of_none rfl
  rfl

/-- A blank is passed in both texts. -/
theorem goesOn_scanToken_of_isBlank {c : Char} (hc : r.char? = some c) (hb : isBlank c = true)
    (h : (scanToken settings lineBreak f r).GoesOn settings (lineBreak || isLineTerminator c) f a
      r.advance) : (scanToken settings lineBreak f r).GoesOn settings lineBreak f a r := by
  refine h.of_scanToken fun {back f' r'} hr => ?_
  have hr₁ : Abreast a back f f' r.advance r'.advance := ⟨hr.findings, hr.reader.advance hc⟩
  refine ⟨f', r'.advance, hr₁, scanToken_of_isBlank ?_ hb settings lineBreak f'⟩
  exact (parallel_space a back).char?_of_some hr.reader hc

/-- A lexeme without an error is the same in both texts. -/
theorem goesOn_scanToken_of_lexeme {lineBreak₁ : Bool} {c : Char} {l : Lexeme σ}
    (hc : r.char? = some c) (h : step settings lineBreak f r = .lexeme lineBreak₁ f₁ l)
    (hok : l.error? = none) :
    (scanToken settings lineBreak f r).GoesOn settings lineBreak f a r := by
  rw [scanToken_of_step_eq_lexeme h]
  refine .token (sound_step h hc).kind_ne_endOfInput fun {back f' r'} hr => ?_
  have hparallel := parallel_space (σ := σ) a back
  have hstep := hparallel.step_of_error? (Findings.congruence_continues _ false) hr.reader
    hr.findings hc settings h hok
  rw [h] at hstep
  generalize hs' : step settings lineBreak f' r' = s' at hstep
  cases hstep with
  | @lexeme _ _ f₁' _ l' hf₁ hl =>
    rw [scanToken_of_step_eq_lexeme hs']
    rcases hparallel.matches_toToken hl (hparallel.position hr.reader) lineBreak₁
      with ⟨ht, hr₁⟩ | ⟨-, herror⟩
    · have htoken := ht.eq_shift (d := 0) fun hp => hp.eq_add
      refine ⟨f₁', l'.reader, ⟨hf₁, hr₁⟩, ?_⟩
      rw [htoken, Token.shift_zero]
    · rw [show (l.toToken r.position lineBreak₁).error? = l.error? from rfl, hok] at herror
      cases herror
  | cut => cases hok

/-- A piece of a gap is passed in both texts.  At the end of the text it may run on to the end of
the line. -/
theorem goesOn_scanToken_of_gap {lineBreak₁ : Bool} {c : Char} (hc : isBlank c = false)
    (h : step settings lineBreak f (between before (c :: after)) = .gap lineBreak₁ f₁ r₁)
    (hrest : (scanToken settings lineBreak₁ f₁ r₁).GoesOn settings lineBreak₁ f₁
      (before ++ c :: after) r₁) :
    (scanToken settings lineBreak f (between before (c :: after) : Reader σ)).GoesOn settings
      lineBreak f (before ++ c :: after) (between before (c :: after)) := by
  rw [scanToken_of_step_eq_gap h]
  obtain ⟨piece, rest, hsplit, rfl, hpiece, rfl⟩ := piece_of_step hc h
  obtain ⟨d, piece, rfl⟩ := List.exists_cons_of_ne_nil hpiece.ne_nil
  rw [List.cons_append] at hsplit
  obtain ⟨rfl, rfl⟩ := List.cons_eq_cons.1 hsplit
  rcases hpiece.append with hmore | ⟨rfl, hmore⟩
  · refine hrest.of_scanToken fun {back f' r'} hr => ?_
    obtain rfl := hr.reader.eq_between
    obtain ⟨f₁', hs'⟩ := step_of_piece_of_head (σ := σ) f' rfl hc (hmore (' ' :: back)) before
    rw [← List.append_assoc, List.cons_append] at hs'
    rw [List.nil_append, scanToken_of_step_eq_gap hs']
    refine ⟨f₁', _, ⟨hr.findings.of_gap h hs', before ++ c :: piece, rest, ?_, rfl, rfl⟩, rfl⟩
    simp
  · -- the text ends in the middle of a line
    rw [List.append_nil] at h ⊢
    rw [scanToken_of_step_eq_lexeme (step_of_char?_eq_none settings _ _ rfl)]
    refine .ends true rfl fun {back f' r'} hr => ?_
    obtain rfl := hr.reader.eq_between
    obtain ⟨f₁', hs'⟩ := step_of_piece_of_head (σ := σ) f' rfl hc (hmore (' ' :: back)) before
    rw [List.append_assoc, List.takeWhile_append_dropWhile, List.any_append,
      Gap.any_isLineTerminator (Gap.line_takeWhile _), Bool.or_false] at hs'
    rw [List.nil_append, scanToken_of_step_eq_gap hs']
    refine ⟨f₁', hr.findings.of_gap h hs', ?_⟩
    rw [← List.append_assoc]
    rfl

/-- **What becomes of a scan** without an error when a space and more text are put behind the
text. -/
theorem goesOn_scanToken (settings : Settings) (lineBreak : Bool) (f : Findings)
    (before after : List Char)
    (hok : (scanToken settings lineBreak f (between before after : Reader σ)).token.error? = none) :
    (scanToken settings lineBreak f (between before after : Reader σ)).GoesOn settings lineBreak f
      (before ++ after) (between before after) := by
  induction hn : after.length using Nat.strongRecOn generalizing lineBreak f before after with
  | ind n ih =>
    subst hn
    cases after with
    | nil =>
      rw [List.append_nil]
      exact goesOn_scanToken_nil settings lineBreak f before
    | cons c after =>
      cases hb : isBlank c with
      | true =>
        rw [scanToken_of_isBlank rfl hb, advance_between_cons] at hok
        have hrest := ih after.length (Nat.lt_succ_self _) _ _ _ _ hok rfl
        rw [List.append_assoc, List.singleton_append] at hrest
        apply goesOn_scanToken_of_isBlank rfl hb
        rw [scanToken_of_isBlank rfl hb, advance_between_cons]
        exact hrest
      | false =>
        cases h : step settings lineBreak f (between before (c :: after) : Reader σ) with
        | gap lineBreak₁ f₁ r₁ =>
          rw [scanToken_of_step_eq_gap h] at hok
          apply goesOn_scanToken_of_gap hb h
          obtain ⟨piece, rest, hsplit, rfl, hpiece, -⟩ := piece_of_step hb h
          have hlt : rest.length < (c :: after).length := by
            have := List.length_pos_of_ne_nil hpiece.ne_nil
            rw [hsplit, List.length_append]
            omega
          rw [hsplit, ← List.append_assoc]
          exact ih rest.length hlt _ _ _ _ hok rfl
        | lexeme lineBreak₁ f₁ l =>
          rw [scanToken_of_step_eq_lexeme h] at hok
          exact goesOn_scanToken_of_lexeme rfl h hok

/-! ### Trails -/

/-- What becomes of a trail when a space and more text are put behind the text.  Its entries are
the same, but for the end of input, in place of which the scan goes on. -/
def Trail.GoesOn (settings : Settings) (lineBreak : Bool) (f : Findings) (a : List Char)
    (r : Reader σ) (first : Trail) : Prop :=
  ∃ (front : List Entry) (last : Entry) (inLine : Bool), first.entries = front ++ [last] ∧
    ∀ {back f' r'}, Abreast a back f f' r r' →
      ∃ f₁', f₁'.octal? = none ∧ f₁'.htmlComment = first.htmlComment ∧
        trail settings lineBreak f' r' =
          (trail settings last.token.afterLineTerminator f₁'
            (behind inLine a (' ' :: back) : Reader σ)).prepend front

variable {t : Token}

theorem trail_goesOn_of_isLast (hf : f.octal? = none)
    (hs : scanToken settings lineBreak f r = ⟨t, f₁, r₁⟩) (hlast : Listing.isLast t = true)
    (herror : t.error? = none) (h : Scanned.GoesOn settings lineBreak f a r ⟨t, f₁, r₁⟩) :
    (trail settings lineBreak f r).GoesOn settings lineBreak f a r := by
  have hkind := (Listing.isLast_iff herror).1 hlast
  have hoctal := octal?_scanToken settings lineBreak f r
  rw [hs] at hoctal
  rw [trail_of_isLast hs hlast]
  cases h with
  | token hne => exact absurd hkind hne
  | ends inLine _ same =>
    refine ⟨[], ⟨t, f₁.octal?⟩, inLine, rfl, fun {back f' r'} hr => ?_⟩
    obtain ⟨f₁', hf₁, hscan⟩ := same hr
    refine ⟨f₁', ?_, ?_, trail_congr hscan⟩
    · rw [hf₁.octal?_eq, hoctal hkind, hf]
    · -- another scan at the end of the text finds nothing more
      rw [scanToken_of_step_eq_lexeme (step_of_char?_eq_none settings false _ rfl),
        hf₁.htmlComment, Bool.or_false]
      rfl

theorem trail_goesOn_of_not_isLast (hs : scanToken settings lineBreak f r = ⟨t, f₁, r₁⟩)
    (hlast : ¬Listing.isLast t = true) (herror : t.error? = none)
    (h : Scanned.GoesOn settings lineBreak f a r ⟨t, f₁, r₁⟩)
    (hrest : (trail settings false f₁.forget r₁).GoesOn settings false f₁.forget a r₁) :
    (trail settings lineBreak f r).GoesOn settings lineBreak f a r := by
  rw [trail_of_not_isLast hs hlast]
  cases h with
  | ends _ hkind => exact absurd ((Listing.isLast_iff herror).2 hkind) hlast
  | token _ same =>
    obtain ⟨front, last, inLine, hentries, hgoes⟩ := hrest
    refine ⟨⟨t, f₁.octal?⟩ :: front, last, inLine, ?_, fun {back f' r'} hr => ?_⟩
    · exact congrArg (List.cons _) hentries
    · obtain ⟨f₁', r₁', hr₁, hscan⟩ := same hr
      have hforget : Abreast a back f₁.forget f₁'.forget r₁ r₁' :=
        ⟨⟨hr₁.findings.htmlComment, .none⟩, hr₁.reader⟩
      obtain ⟨f₂', hoctal, hhtml, htrail⟩ := hgoes hforget
      refine ⟨f₂', hoctal, hhtml, ?_⟩
      rw [trail_of_not_isLast hscan hlast, htrail, Trail.cons_prepend, hr₁.findings.octal?_eq]

/-- **What becomes of a trail** without errors when a space and more text are put behind the
text. -/
theorem trail_goesOn (hf : f.octal? = none)
    (hok : ∀ e ∈ (trail settings lineBreak f (between before after : Reader σ)).entries,
      e.token.error? = none) :
    (trail settings lineBreak f (between before after : Reader σ)).GoesOn settings lineBreak f
      (before ++ after) (between before after : Reader σ) := by
  induction hn : after.length using Nat.strongRecOn generalizing lineBreak f before after with
  | ind n ih =>
    subst hn
    have hgoes := goesOn_scanToken (σ := σ) settings lineBreak f before after
    -- the token is not empty, unless it is the end of input
    obtain ⟨gap, lexeme, rest, hsplit, -, -, hreader, hlexeme, -⟩ :=
      covers_scanToken (σ := σ) settings lineBreak f before after
    generalize hs : scanToken settings lineBreak f (between before after : Reader σ) = scanned
      at hgoes hreader hlexeme
    obtain ⟨t, f₁, r₁⟩ := scanned
    by_cases hlast : Listing.isLast t = true
    · rw [trail_of_isLast hs hlast] at hok
      have herror : t.error? = none := hok _ (List.mem_singleton.2 rfl)
      exact trail_goesOn_of_isLast hf hs hlast herror (hgoes herror)
    · rw [trail_of_not_isLast hs hlast] at hok
      have herror : t.error? = none := hok _ List.mem_cons_self
      obtain rfl : r₁ = between (before ++ gap ++ lexeme) rest := hreader
      have hkind := mt (Listing.isLast_iff herror).2 hlast
      have hlt : rest.length < after.length := by
        have := List.length_pos_of_ne_nil (mt hlexeme.2 hkind)
        rw [hsplit]
        simp only [List.length_append]
        omega
      have hrest := ih rest.length hlt rfl (fun e he => hok e (List.mem_cons_of_mem _ he)) rfl
      have htext : before ++ gap ++ lexeme ++ rest = before ++ after := by
        rw [hsplit]
        simp
      rw [htext] at hrest
      exact trail_goesOn_of_not_isLast hs hlast herror (hgoes herror) hrest

namespace Listing

/-- The first scan begins at the same place, or the text is nothing but the line that names an
interpreter, and this line runs on. -/
theorem firstReader_append (settings : Settings) (a : List Char) :
    (∃ before after, a = before ++ after ∧
      firstReader settings (ExactSource.fresh a : σ) = between before after ∧
      ∀ back, firstReader settings (ExactSource.fresh (a ++ ' ' :: back) : σ) =
        between before (after ++ ' ' :: back)) ∨
      firstReader settings (ExactSource.fresh a : σ) = between a [] ∧
        ∀ back, firstReader settings (ExactSource.fresh (a ++ ' ' :: back) : σ) =
          behind true a (' ' :: back) := by
  by_cases hbang : settings.hashbang = true ∧ ['#', '!'] <+: a
  · obtain ⟨hallowed, text, rfl⟩ := hbang
    have hline := Gap.line_takeWhile text
    have hsplit := (List.takeWhile_append_dropWhile (p := (!isLineTerminator ·)) (l := text)).symm
    generalize text.takeWhile (!isLineTerminator ·) = body at hline hsplit
    generalize text.dropWhile (!isLineTerminator ·) = rest at hline hsplit
    subst hsplit
    rcases hline.append with hmore | ⟨rfl, hmore⟩
    · refine .inl ⟨'#' :: '!' :: body, rest, rfl, firstReader_of_hashbang hallowed hline, ?_⟩
      intro back
      have hr := firstReader_of_hashbang (σ := σ) hallowed (hmore (' ' :: back))
      rw [← List.append_assoc] at hr
      exact hr
    · right
      have hr := firstReader_of_hashbang (σ := σ) hallowed hline
      rw [List.append_nil] at hr ⊢
      refine ⟨hr, fun back => ?_⟩
      have hr' := firstReader_of_hashbang (σ := σ) hallowed (hmore (' ' :: back))
      rw [List.append_assoc, List.takeWhile_append_dropWhile] at hr'
      exact hr'
  · refine .inl ⟨[], a, rfl, firstReader_of_not_hashbang fun h hp => hbang ⟨h, hp⟩, fun back => ?_⟩
    refine firstReader_of_not_hashbang fun h hp => hbang ⟨h, ?_⟩
    exact (prefix_append_cons_iff (by decide)).1 hp

/-- Up to the end of the first text the listing is the same, and behind it the scan goes on. -/
theorem trail_firstReader_goesOn
    (hok : (ofSource settings (ExactSource.fresh a : σ)).hasErrors = false) :
    let first := ofSource settings (ExactSource.fresh a : σ)
    ∃ (front : List Entry) (last : Token) (inLine : Bool),
      first.tokens.toList = front.map (·.token) ++ [last] ∧
      ∀ back, ∃ f', f'.octal? = none ∧ f'.htmlComment = first.htmlComment ∧
        trail settings true {} (firstReader settings (ExactSource.fresh (a ++ ' ' :: back) : σ)) =
          (trail settings last.afterLineTerminator f'
            (behind inLine a (' ' :: back) : Reader σ)).prepend front := by
  intro first
  have hfirst : first = _ := ofSource_eq settings _
  rw [hfirst, Trail.tokens_appendTo]
  have hnone := Trail.error?_of_hasErrors ((congrArg hasErrors hfirst).symm.trans hok)
  unfold Trail.appendTo
  dsimp only
  rcases firstReader_append (σ := σ) settings a with ⟨before, after, rfl, hr, hr'⟩ | ⟨hr, hr'⟩
  · rw [hr] at hnone ⊢
    obtain ⟨front, last, inLine, hentries, hgoes⟩ := trail_goesOn rfl hnone
    refine ⟨front, last.token, inLine, ?_, fun back => ?_⟩
    · rw [hentries, List.map_append]
      rfl
    · have hstart : Abreast (before ++ after) back {} {} (between before after : Reader σ)
          (between before (after ++ ' ' :: back)) :=
        ⟨⟨rfl, .none⟩, before, after, rfl, rfl, rfl⟩
      obtain ⟨f', hoctal, hhtml, htrail⟩ := hgoes hstart
      rw [hr' back]
      exact ⟨f', hoctal, hhtml, htrail⟩
  · rw [hr]
    rw [trail_of_isLast (scanToken_of_step_eq_lexeme (step_of_char?_eq_none settings true {} rfl))
      rfl]
    refine ⟨[], _, true, rfl, fun back => ⟨{}, rfl, ?_, ?_⟩⟩
    · rw [scanToken_of_step_eq_lexeme (step_of_char?_eq_none settings false _ rfl)]
      rfl
    · rw [hr' back]
      rfl

end Listing

end EcmaLex
