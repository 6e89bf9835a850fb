import EcmaLex.Proofs.Listing.Stream
import EcmaLex.Proofs.Scanner.Passing

/-!
# Where HTML-like comments are noted

The scanner notes that the opening of an HTML-like comment was found.  It does so when it
comes to the mark of such a comment where a token or a piece of a gap begins, so what has been
noted by the time a token is scanned says whether there is a mark before or in that token.

A listing takes what the scanner has noted in the end.  By then the scanner has scanned the
token after the last one that is listed.  That makes no difference at the end of the text, but
after a fatal error a mark may be noted that stands behind all that is listed.

## Main definitions

* `Gap.Opens` — a text begins with a gap and the mark of an HTML-like comment.
* `OpensBefore` — such a mark comes before a given token, or begins it.

## Main results

* `htmlComment_step`, `htmlComment_scanToken` — a rule and a scan note the mark just if they come
  to one.
* `Scanner.htmlComment_iterate` — **marks are noted exactly** as a scanner moves on.
* `htmlComment_tokenize` — **what a listing notes**, and one token more.
-/

namespace EcmaLex

open Reader

/-! ### Rules -/

/-- The mark that opens an HTML-like comment. -/
def htmlMark : List Char := "<!--".toList

section Searches

variable {σ : Type}

theorem htmlComment_noteLegacyOctal (f : Findings) (form? : Option NumberForm) (s : Span) :
    (f.noteLegacyOctal form? s).htmlComment = f.htmlComment := by
  unfold Findings.noteLegacyOctal
  split <;> rfl

variable [SearchableSource σ]

/-- The rules for other tokens do not look for the mark. -/
theorem htmlComment_step_of_ofChar_eq_none {r : Reader σ} {c : Char} (hc : r.char? = some c)
    (hp : Punctuator.ofChar c = none) (settings : Settings) (lineBreak : Bool) (f : Findings) :
    (step settings lineBreak f r).findings.htmlComment = f.htmlComment := by
  have hs := chosen_step settings lineBreak f r
  generalize step settings lineBreak f r = s at hs ⊢
  cases hs with
  | numeral => exact htmlComment_noteLegacyOctal _ _ _
  | operator hd hq =>
    rw [hc] at hd
    cases hd
    rw [hp] at hq
    cases hq
  | _ => rfl

end Searches

variable {σ : Type} [ExactSource σ]

/-- No other punctuator begins as the mark does. -/
theorem not_htmlMark_prefix_of_ne {p : Punctuator} (hp : p ≠ .lt) (after : List Char) :
    ¬ htmlMark <+: p.lexeme.toList ++ after := by
  rintro ⟨rest, h⟩
  cases p with
  | lt => exact hp rfl
  | _ => simp [htmlMark, Punctuator.lexeme] at h

theorem htmlComment_operator (settings : Settings) (lineBreak : Bool) (f : Findings) (start : Nat)
    (p : Punctuator) (before after : List Char) :
    (operator settings lineBreak f start p
        (between (before ++ p.lexeme.toList) after : Reader σ)).findings.htmlComment = true ↔
      f.htmlComment = true ∨ htmlMark <+: p.lexeme.toList ++ after := by
  by_cases hp : p = .lt
  · subst hp
    -- after the first character of the mark, its other characters are looked for
    change _ ↔ _ ∨ htmlMark <+: '<' :: after
    have hs := ofPunctuator_operator settings lineBreak f start .lt
      (between (before ++ Punctuator.lt.lexeme.toList) after : Reader σ)
    have hplain : Punctuator.lt.opensComment lineBreak
        (between (before ++ Punctuator.lt.lexeme.toList) after : Reader σ) = false →
          (f.htmlComment = true ↔ f.htmlComment = true ∨ htmlMark <+: '<' :: after) := by
      intro hcomment
      refine (or_iff_left ?_).symm
      rintro ⟨rest, h⟩
      obtain rfl : '!' :: '-' :: '-' :: rest = after := by simpa [htmlMark] using h
      simp [Punctuator.opensComment] at hcomment
    generalize operator settings lineBreak f start .lt
      (between (before ++ Punctuator.lt.lexeme.toList) after : Reader σ) = s at hs ⊢
    cases hs with
    | htmlOpening hmark hdash hdash' =>
      obtain ⟨after, rfl⟩ := exists_cons_of_htmlOpening hmark hdash hdash'
      rw [findings_htmlComment]
      exact iff_of_true rfl (.inr ⟨after, rfl⟩)
    | givenBack _ hcomment => exact hplain hcomment
    | plain hcomment => exact hplain hcomment
  · rw [htmlComment_operator_of_ne hp]
    exact (or_iff_left (not_htmlMark_prefix_of_ne hp after)).symm

/-- **A rule notes the mark just if it starts from one.** -/
theorem htmlComment_step (settings : Settings) (lineBreak : Bool) (f : Findings)
    (before after : List Char) :
    (step settings lineBreak f (between before after : Reader σ)).findings.htmlComment = true ↔
      f.htmlComment = true ∨ htmlMark <+: after := by
  cases after with
  | nil =>
    rw [step_of_char?_eq_none _ _ _ rfl]
    exact (or_iff_left (by decide)).symm
  | cons c after =>
    cases hp : Punctuator.ofChar c with
    | none =>
      rw [htmlComment_step_of_ofChar_eq_none rfl hp]
      refine (or_iff_left ?_).symm
      rintro ⟨rest, h⟩
      cases h
      cases hp
    | some p =>
      -- the text was read as far as the punctuator
      obtain ⟨run, rest, rfl, hr, hl⟩ := p.munch_between (σ := σ) (before ++ [c]) after
      rw [Punctuator.lexeme_of_ofChar hp, String.toList_singleton] at hl
      rw [step_of_ofChar hp, hr, List.append_assoc, ← hl, htmlComment_operator, hl]
      rfl

/-! ### Scans -/

/-- The text begins with a gap, after which the mark of an HTML-like comment comes. -/
def Gap.Opens (settings : Settings) (atStart lineStart : Bool) (text : List Char) : Prop :=
  ∃ gap rest, text = gap ++ htmlMark ++ rest ∧
    Pieces settings atStart lineStart gap (htmlMark ++ rest)

/-- What a scan comes to in the end has been noted if what it starts from has. -/
theorem htmlComment_scanToken_of_step {settings : Settings} {lineBreak : Bool} {f : Findings}
    {before after : List Char}
    (h : (step settings lineBreak f
      (between before after : Reader σ)).findings.htmlComment = true) :
    (scanToken settings lineBreak f (between before after : Reader σ)).findings.htmlComment =
      true := by
  generalize hr : (between before after : Reader σ) = r at h
  fun_induction scanToken settings lineBreak f r generalizing before after with
  | case1 lineBreak f r lineBreak₁ f₁ r₁ hs ih =>
    subst hr
    obtain ⟨gap, rest, -, rfl, -⟩ := pieces_of_step hs
    rw [hs] at h
    exact ih rfl ((htmlComment_step _ _ _ _ _).2 (.inl h))
  | case2 lineBreak f r lineBreak₁ f₁ l hs =>
    rw [hs] at h
    exact h

/-- **A scan notes the mark just if there is one**, behind the gap that it begins with. -/
theorem htmlComment_scanToken (settings : Settings) (lineBreak : Bool) (f : Findings)
    (before after : List Char) :
    (scanToken settings lineBreak f (between before after : Reader σ)).findings.htmlComment =
        true ↔
      f.htmlComment = true ∨ Gap.Opens settings false lineBreak after := by
  constructor
  · generalize hr : (between before after : Reader σ) = r
    fun_induction scanToken settings lineBreak f r generalizing before after with
    | case1 lineBreak f r lineBreak₁ f₁ r₁ hs ih =>
      intro h
      subst hr
      have hstep := htmlComment_step (σ := σ) settings lineBreak f before after
      rw [hs] at hstep
      obtain ⟨gap, rest, rfl, rfl, hpieces, rfl⟩ := pieces_of_step hs
      rcases ih _ _ rfl h with hf | ⟨gap', rest', rfl, hpieces'⟩
      · rcases hstep.1 hf with hf | ⟨rest', hsplit⟩
        · exact .inl hf
        · exact .inr ⟨[], rest', hsplit.symm, .nil⟩
      · -- the mark is behind what this rule passed and what the rest of the scan passed
        right
        rw [List.append_assoc gap'] at hpieces
        exact ⟨gap ++ gap', rest', by simp, hpieces.append hpieces'⟩
    | case2 lineBreak f r lineBreak₁ f₁ l hs =>
      intro h
      subst hr
      have hstep := htmlComment_step (σ := σ) settings lineBreak f before after
      rw [hs] at hstep
      rcases hstep.1 h with hf | ⟨rest, hsplit⟩
      · exact .inl hf
      · exact .inr ⟨[], rest, hsplit.symm, .nil⟩
  · rintro (hf | ⟨gap, rest, rfl, hpieces⟩)
    · exact htmlComment_scanToken_of_step ((htmlComment_step _ _ _ _ _).2 (.inl hf))
    · obtain ⟨f', hscan⟩ := scanToken_of_pieces (σ := σ) hpieces f before
      rw [List.append_assoc, hscan]
      exact htmlComment_scanToken_of_step ((htmlComment_step _ _ _ _ _).2 (.inr ⟨rest, rfl⟩))

/-! ### The beginning of the text -/

/-- The line that names an interpreter is told by its first character. -/
theorem Gap.Piece.hashbang_or {settings : Settings} {lineStart : Bool} {piece rest : List Char}
    (h : Piece settings true lineStart piece rest) :
    (∃ body, piece = '#' :: '!' :: body ∧ settings.hashbang = true ∧ Line body rest) ∨
      (∃ c t, piece = c :: t ∧ c ≠ '#') ∧ Piece settings false lineStart piece rest := by
  cases h with
  | @blank _ _ c _ hb =>
    refine .inr ⟨⟨c, [], rfl, ?_⟩, .blank hb⟩
    rintro rfl
    cases hb
  | lineComment line => exact .inr ⟨⟨_, _, rfl, by decide⟩, .lineComment line⟩
  | blockComment first => exact .inr ⟨⟨_, _, rfl, by decide⟩, .blockComment first⟩
  | htmlOpening script line => exact .inr ⟨⟨_, _, rfl, by decide⟩, .htmlOpening script line⟩
  | htmlClosing script line => exact .inr ⟨⟨_, _, rfl, by decide⟩, .htmlClosing script line⟩
  | @hashbang _ body _ allowed line => exact .inl ⟨body, rfl, allowed, line⟩

/-- The first scan begins behind the line that names an interpreter. -/
theorem Listing.firstReader_of_hashbang {settings : Settings} (h : settings.hashbang = true)
    {body rest : List Char} (hline : Gap.Line body rest) :
    firstReader settings (ExactSource.fresh ('#' :: '!' :: (body ++ rest)) : σ) =
      between ('#' :: '!' :: body) rest := by
  have hline : Gap.Line ('!' :: body) rest := by
    refine ⟨fun d hd => ?_, hline.2⟩
    rcases List.mem_cons.1 hd with rfl | hd
    · rfl
    · exact hline.1 d hd
  unfold firstReader
  rw [advance_ofSource_fresh]
  dsimp only
  rw [if_pos h, Gap.hashbang, if_pos (by simp)]
  exact Gap.lineComment_of_line hline [] '#'

/-- Without such a line it begins on the first character. -/
theorem Listing.firstReader_of_not_hashbang {settings : Settings} {text : List Char}
    (h : settings.hashbang = true → ¬ ['#', '!'] <+: text) :
    firstReader settings (ExactSource.fresh text : σ) = between [] text := by
  unfold firstReader
  rw [advance_ofSource_fresh]
  dsimp only
  split
  · next hallowed =>
    rw [Gap.hashbang, if_neg]
    rw [isAt_between, peek_between, Bool.and_eq_true, Bool.and_eq_true, beq_iff_eq, beq_iff_eq]
    rintro ⟨⟨hsign, hmark⟩, -⟩
    obtain ⟨text, rfl⟩ := List.head?_eq_some_iff.1 hsign
    obtain ⟨text, rfl⟩ := List.head?_eq_some_iff.1 hmark
    exact h hallowed ⟨text, rfl⟩
  · rfl

theorem Listing.firstReader_of_head {settings : Settings} {text : List Char}
    (h : text.head? ≠ some '#') :
    firstReader settings (ExactSource.fresh text : σ) = between [] text := by
  refine firstReader_of_not_hashbang fun _ => ?_
  rintro ⟨rest, rfl⟩
  exact h rfl

/-- What is passed before the first scan is the first piece of every row at the start of the
text, if that is the line that names an interpreter. -/
theorem Listing.firstReader_of_pieces {settings : Settings} {gap rest : List Char}
    (h : Gap.Pieces settings true true gap rest) (hrest : rest.head? ≠ some '#') :
    ∃ line others, gap = line ++ others ∧
      firstReader settings (ExactSource.fresh (gap ++ rest) : σ) = between line (others ++ rest) ∧
      Gap.Pieces settings false true others rest := by
  cases h with
  | nil => exact ⟨[], [], rfl, firstReader_of_head hrest, .nil⟩
  | @cons _ _ piece gap _ first others =>
    rw [Bool.true_or] at others
    rcases first.hashbang_or with ⟨body, rfl, hallowed, hline⟩ | ⟨⟨c, t, rfl, hc⟩, first⟩
    · refine ⟨'#' :: '!' :: body, gap, rfl, ?_, others⟩
      rw [List.append_assoc]
      exact firstReader_of_hashbang hallowed hline
    · refine ⟨[], c :: t ++ gap, rfl, ?_, ?_⟩
      · apply firstReader_of_head
        simpa using hc
      · exact .cons first (by rwa [Bool.true_or])

namespace Scanner

/-- **The first scan notes the mark just if there is one**, behind the gap at the start of the
text. -/
theorem htmlComment_start (settings : Settings) (text : List Char) :
    (ofSource settings (ExactSource.fresh text : σ)).start.findings.htmlComment = true ↔
      Gap.Opens settings true true text := by
  have hstart : (ofSource settings (ExactSource.fresh text : σ)).start.findings =
      (scanToken settings true {}
        (Listing.firstReader settings (ExactSource.fresh text : σ))).findings := rfl
  rw [hstart]
  constructor
  · intro h
    obtain ⟨gap, rest, rfl, hr, hpieces⟩ := hashbang_between (σ := σ) settings text
    rw [Listing.firstReader, advance_ofSource_fresh, hr, htmlComment_scanToken] at h
    rcases h with h | ⟨gap', rest', rfl, hpieces'⟩
    · cases h
    · rw [List.append_assoc gap'] at hpieces
      exact ⟨gap ++ gap', rest', by simp, hpieces.append hpieces'⟩
  · rintro ⟨gap, rest, rfl, hpieces⟩
    obtain ⟨line, others, rfl, hr, hothers⟩ :=
      Listing.firstReader_of_pieces (σ := σ) hpieces (by simp [htmlMark])
    rw [List.append_assoc, hr, htmlComment_scanToken]
    exact .inr ⟨others, rest, by simp, hothers⟩

/-- **Moving on notes the mark just if there is one**, behind the gap after the token that was
scanned last. -/
theorem htmlComment_advance {settings : Settings} {text passed rest : List Char} {s : Scanner σ}
    (h : s.UpTo settings text passed rest) :
    s.advance.findings.htmlComment = true ↔
      s.findings.htmlComment = true ∨ Gap.Opens settings false false rest := by
  rw [advance_of_not_isAhead h.isAhead_eq]
  change (scanToken s.settings false s.findings s.reader).findings.htmlComment = true ↔ _
  rw [h.settings_eq, h.reader_eq, htmlComment_scanToken]

end Scanner

/-! ### Tokens of a text -/

/-- The mark of an HTML-like comment comes before the token with the given number or begins it:
behind the token before, or at the start of the text, there is a gap and then the mark.  In
script code it opens a comment that belongs to the gap.  In module code it is that token. -/
def OpensBefore (σ : Type) [ExactSource σ] (settings : Settings) (text : List Char)
    (token : Nat → Token) (k : Nat) : Prop :=
  ∃ before after, text = before ++ after ∧
    extent σ before = (if k = 0 then 0 else (token (k - 1)).span.stop) ∧
    Gap.Opens settings (k == 0) (k == 0) after

namespace Scanner

/-- What has been noted when a token has been scanned are the marks before that token and in
it. -/
theorem htmlComment_iterate (settings : Settings) (text : List Char) (k : Nat) :
    let first := (ofSource settings (ExactSource.fresh text : σ)).start
    (advance^[k] first).findings.htmlComment = true ↔
      ∃ j ≤ k, OpensBefore σ settings text first.stream j := by
  intro first
  induction k with
  | zero =>
    refine (htmlComment_start settings text).trans ⟨fun h => ?_, ?_⟩
    · exact ⟨0, Nat.le_refl 0, [], text, rfl, rfl, h⟩
    · rintro ⟨j, hj, before, after, rfl, he, h⟩
      obtain rfl := Nat.le_zero.1 hj
      -- nothing is before the start of the text
      have hbefore : before = [] := by
        by_contra hne
        exact (extent_pos (σ := σ) hne).ne' he
      subst hbefore
      exact h
  | succ k ih =>
    -- the token number `k` ends where the scanner goes on
    obtain ⟨_, _, -, ⟨gap, lexeme, rest, -, -, -, -, -, hup⟩, -⟩ :=
      exists_follows_iterate (σ := σ) settings text k
    have hstop := hup.stop_eq
    rw [← stream_eq_next] at hstop
    have hopens : OpensBefore σ settings text first.stream (k + 1) ↔
        Gap.Opens settings false false rest := by
      constructor
      · rintro ⟨before, after, hsplit, he, h⟩
        obtain ⟨-, rfl⟩ := append_inj_of_extent_eq (σ := σ) (hsplit.symm.trans hup.text_eq)
          (he.trans hstop)
        exact h
      · intro h
        exact ⟨_, rest, hup.text_eq, hstop.symm, h⟩
    rw [Function.iterate_succ_apply', htmlComment_advance hup, ih, ← hopens]
    constructor
    · rintro (⟨j, hj, h⟩ | h)
      · exact ⟨j, Nat.le_succ_of_le hj, h⟩
      · exact ⟨k + 1, Nat.le_refl _, h⟩
    · rintro ⟨j, hj, h⟩
      rcases Nat.le_succ_iff.1 hj with hj | rfl
      · exact .inl ⟨j, hj, h⟩
      · exact .inr h

end Scanner

/-! ### Listings -/

/-- A scan of the trail and a scanner that moves on give the same token, are at the same place
after it, and note the same marks. -/
theorem scanToken_forget {settings : Settings} {f : Findings} {text passed rest : List Char}
    {s : Scanner σ} (hf : s.findings.htmlComment = f.htmlComment)
    (hup : s.UpTo settings text passed rest) :
    ∃ f', scanToken settings false f.forget s.reader = ⟨s.advance.next, f', s.advance.reader⟩ ∧
      s.advance.findings.htmlComment = f'.htmlComment := by
  obtain ⟨ht, hr⟩ := scanToken_congr_findings settings false f.forget s.findings s.reader
  have hadvance : s.advance.next = (scanToken s.settings false s.findings s.reader).token ∧
      s.advance.reader = (scanToken s.settings false s.findings s.reader).reader := by
    rw [Scanner.advance_of_not_isAhead hup.isAhead_eq]
    exact ⟨rfl, rfl⟩
  refine ⟨(scanToken settings false f.forget s.reader).findings, ?_, ?_⟩
  · rw [hadvance.1, hadvance.2, hup.settings_eq, ← ht, ← hr]
  · rw [Bool.eq_iff_iff, Scanner.htmlComment_advance hup, hf, hup.reader_eq, htmlComment_scanToken]
    rfl

/-- A trail notes what a scanner notes that has been moved past the last token of it. -/
theorem htmlComment_trail {settings : Settings} {lineBreak : Bool} {f f₁ : Findings}
    {r : Reader σ} {text passed rest : List Char} {s : Scanner σ}
    (hs : scanToken settings lineBreak f r = ⟨s.next, f₁, s.reader⟩)
    (hf : s.findings.htmlComment = f₁.htmlComment) (hup : s.UpTo settings text passed rest) :
    (trail settings lineBreak f r).htmlComment =
      (Scanner.advance^[(trail settings lineBreak f r).entries.length] s).findings.htmlComment := by
  fun_induction trail settings lineBreak f r generalizing s f₁ passed rest with
  | case1 lineBreak f r scanned =>
    have hscanned : scanned = ⟨s.next, f₁, s.reader⟩ := hs
    obtain ⟨f', hnext, hf'⟩ := scanToken_forget hf hup
    change (scanToken settings false scanned.findings.forget scanned.reader).findings.htmlComment =
      s.advance.findings.htmlComment
    rw [hscanned, hnext, hf']
  | case2 lineBreak f r scanned forgotten =>
    rename_i ih
    have hscanned : scanned = ⟨s.next, f₁, s.reader⟩ := hs
    have hforgotten : forgotten = f₁.forget := congrArg (·.findings.forget) hscanned
    obtain ⟨f', hnext, hf'⟩ := scanToken_forget hf hup
    -- the scanner moves on over the token that the trail goes on with
    obtain ⟨_, _, _, -, -, -, -, -, hup'⟩ := Scanner.follows_advance hup
    rw [hscanned, hforgotten] at ih
    rw [hscanned, hforgotten]
    exact ih hnext hf' hup'

namespace Listing

/-- A listing notes what a scanner notes that has been moved past the last token of it. -/
theorem htmlComment_ofSource (settings : Settings) (text : List Char) :
    let first := (Scanner.ofSource settings (ExactSource.fresh text : σ)).start
    let listing := ofSource settings (ExactSource.fresh text : σ)
    listing.htmlComment =
      (Scanner.advance^[listing.tokens.toList.length] first).findings.htmlComment := by
  intro first listing
  obtain ⟨_, _, _, -, -, -, -, -, hup⟩ := Scanner.follows_start (σ := σ) settings text
  have hlisting : listing = _ := ofSource_eq settings _
  rw [hlisting, Trail.tokens_appendTo, List.length_map]
  exact htmlComment_trail (s := first) rfl rfl hup

end Listing

/-- There is no mark behind the end of input. -/
theorem not_opensBefore_of_endOfInput (settings : Settings) (text : List Char) {n : Nat} :
    let token := (Scanner.ofSource settings (ExactSource.fresh text : σ)).start.stream
    (token n).kind = .endOfInput → ¬ OpensBefore σ settings text token (n + 1) := by
  rintro token hk ⟨before, after, rfl, he, gap, rest, rfl, -⟩
  have hspan := (Scanner.span_stream (σ := σ) settings _ n).2.2.2 hk
  -- the end of input is at the end of the text, after the mark
  have hstop : (token n).span.stop = _ := congrArg Span.stop hspan
  have hmark := extent_pos (σ := σ) (show htmlMark ≠ [] by decide)
  rw [if_neg (Nat.succ_ne_zero n), Nat.add_sub_cancel, hstop] at he
  simp only [extent_append] at he
  omega

/-- A listing notes the marks up to its last token, and after a fatal one also those that come
before the token that is not listed any more. -/
theorem Listing.htmlComment_ofSource_iff (settings : Settings) (text : List Char) :
    let token := (Scanner.ofSource settings (ExactSource.fresh text : σ)).start.stream
    let listing := ofSource settings (ExactSource.fresh text : σ)
    ∃ n, listing.tokens.toList = (List.range (n + 1)).map token ∧
      ((token n).kind = .endOfInput ∨ (token n).isFatal = true) ∧
      (listing.htmlComment = true ↔
        (∃ k ≤ n, OpensBefore σ settings text token k) ∨
          (token n).isFatal = true ∧ OpensBefore σ settings text token (n + 1)) := by
  intro token listing
  obtain ⟨n, htokens, hlast, -⟩ := tokens_ofSource settings (ExactSource.fresh text : σ)
  have hend : (token n).kind = .endOfInput ∨ (token n).isFatal = true := by
    rwa [isLast, Bool.or_eq_true, beq_iff_eq] at hlast
  refine ⟨n, htokens, hend, ?_⟩
  -- what has been noted is what a scanner notes up to the token after the last one
  have hflag : listing.htmlComment = true ↔ ∃ k ≤ n + 1, OpensBefore σ settings text token k := by
    have hlength : listing.tokens.toList.length = n + 1 := by
      rw [htokens, List.length_map, List.length_range]
    rw [htmlComment_ofSource settings text, hlength]
    exact Scanner.htmlComment_iterate settings text (n + 1)
  rw [hflag]
  constructor
  · rintro ⟨k, hk, hopen⟩
    rcases Nat.le_succ_iff.1 hk with hk | rfl
    · exact .inl ⟨k, hk, hopen⟩
    · refine .inr ⟨hend.resolve_left fun hk => ?_, hopen⟩
      exact not_opensBefore_of_endOfInput settings text hk hopen
  · rintro (⟨k, hk, hopen⟩ | ⟨-, hopen⟩)
    · exact ⟨k, Nat.le_succ_of_le hk, hopen⟩
    · exact ⟨n + 1, Nat.le_refl _, hopen⟩

/-- **What a listing notes**, and one token more.  When a scanner has scanned a token it has
noted that an HTML-like comment is opened just if the mark of one comes before that token or
begins it.  A listing notes what the scanner has noted when it has scanned one token more than
are listed.  So if the text is listed to its end, the listing notes the marks in it.  If a
fatal error ends the listing, it also notes a mark behind the last token that is listed. -/
theorem htmlComment_tokenize (settings : Settings) (source : String) :
    let first := (Scanner.ofSource settings (ByteCursor.ofString source)).start
    let token := first.stream
    let listing := tokenize settings source
    (∀ k, (Scanner.advance^[k] first).findings.htmlComment = true ↔
      ∃ j ≤ k, OpensBefore ByteCursor settings source.toList token j) ∧
    ∃ n, listing.tokens.toList = (List.range (n + 1)).map token ∧
      ((token n).kind = .endOfInput ∨ (token n).isFatal = true) ∧
      (listing.htmlComment = true ↔
        (∃ k ≤ n, OpensBefore ByteCursor settings source.toList token k) ∨
          (token n).isFatal = true ∧
            OpensBefore ByteCursor settings source.toList token (n + 1)) := by
  have hnoted := Scanner.htmlComment_iterate (σ := ByteCursor) settings source.toList
  have hlisted := Listing.htmlComment_ofSource_iff (σ := ByteCursor) settings source.toList
  rw [← ByteCursor.ofString_eq_fresh] at hnoted hlisted
  exact ⟨hnoted, hlisted⟩

/-- A comment is noted that comes after all that is listed. -/
example : (tokenize {} "#\n<!--").tokens.toList.map (·.kind) = [.illegal] ∧
    (tokenize {} "#\n<!--").htmlComment = true := by
  decide +kernel

end EcmaLex
