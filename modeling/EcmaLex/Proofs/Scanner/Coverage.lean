import EcmaLex.Proofs.Gap.Pieces
import EcmaLex.Proofs.Lexeme.Sound
import EcmaLex.Proofs.Scanner.Lookahead
import EcmaLex.Proofs.Scanner.Place
import EcmaLex.Proofs.Source.ByteCursor

/-!
# Nothing of the text is lost

Scanning a token passes a gap and a lexeme.  The gap is a row of pieces, the lexeme is
not empty as long as anything is left, and the reader is right after it.  So the
tokens of a text, one after the other, with the gaps between them, are the text.

## Main definitions

* `Scanned.Covers` — a scan has passed a gap and a lexeme, and is right after these.

## Main results

* `pieces_of_step` — what a rule passes as a piece of a gap is one.
* `exists_lexeme_of_scanToken` — a scan passes a gap, and then a rule finds a lexeme.
* `covers_scanToken` — **a scan passes a gap and a lexeme**.
* `Scanner.span_stream` — the tokens of a text are in order.
* `Scanner.count_le_extent` — a text has no more tokens than positions.
-/

namespace EcmaLex

open Reader

variable {σ : Type} [ExactSource σ]

/-! ### Gaps after the first characters of a punctuator -/

/-- Reading a punctuator passes its lexeme. -/
theorem Punctuator.munch_between (p : Punctuator) (before after : List Char) :
    ∃ run rest, after = run ++ rest ∧
      (p.munch (between before after : Reader σ)).2 = between (before ++ run) rest ∧
      (p.munch (between before after : Reader σ)).1.lexeme.toList = p.lexeme.toList ++ run := by
  generalize hr : (between before after : Reader σ) = r
  fun_induction p.munch r generalizing before after with
  | case1 p r hc =>
    exact ⟨[], after, rfl, by rw [← hr, List.append_nil], by rw [List.append_nil]⟩
  | case2 p r c hc q hq ih =>
    subst hr
    obtain ⟨after, rfl⟩ := List.head?_eq_some_iff.1 hc
    obtain ⟨run, rest, rfl, hm, hl⟩ := ih _ _ (advance_between_cons before c after).symm
    refine ⟨c :: run, rest, rfl, ?_, ?_⟩
    · rw [hm]
      simp
    · rw [hl, lexeme_of_extend hq]
      simp
  | case3 p r c hc hq =>
    exact ⟨[], after, rfl, by rw [← hr, List.append_nil], by rw [List.append_nil]⟩

theorem line_of_htmlComment {settings : Settings} {lineBreak lineBreak' : Bool}
    {findings findings' : Findings} {start : Nat} {before after : List Char} {c : Char}
    {r' : Reader σ}
    (h : htmlComment settings lineBreak findings start (between before (c :: after)) =
      .gap lineBreak' findings' r') :
    settings.isModule = false ∧ lineBreak' = lineBreak ∧
      ∃ body rest, after = body ++ rest ∧ Gap.Line body rest ∧
        r' = between (before ++ c :: body) rest := by
  obtain ⟨body, rest, hs, hline, hr⟩ := Gap.lineComment_between (σ := σ) before c after
  unfold htmlComment at h
  split at h
  · cases h
  · -- modules have no HTML-like comments
    next hm =>
    cases h
    exact ⟨by simpa using hm, rfl, body, rest, hs, hline, hr⟩

/-- The characters after a punctuator that make it the opening of an HTML-like comment. -/
theorem exists_cons_of_htmlOpening {before after : List Char}
    (hmark : (between before after : Reader σ).isAt '!' = true)
    (hdash : (between before after : Reader σ).advance.isAt '-' = true)
    (hdash' : (between before after : Reader σ).advance.peek = some '-') :
    ∃ rest, after = '!' :: '-' :: '-' :: rest := by
  obtain ⟨after, rfl⟩ := List.head?_eq_some_iff.1 (beq_iff_eq.1 hmark)
  rw [advance_between_cons] at hdash hdash'
  obtain ⟨after, rfl⟩ := List.head?_eq_some_iff.1 (beq_iff_eq.1 hdash)
  rw [peek_between] at hdash'
  obtain ⟨after, rfl⟩ := List.head?_eq_some_iff.1 hdash'
  exact ⟨after, rfl⟩

/-- What a punctuator turns out to open, if it opens a piece of a gap. -/
theorem piece_of_operator {settings : Settings} {lineBreak lineBreak' : Bool}
    {findings findings' : Findings} {start : Nat} {p : Punctuator} {before after : List Char}
    {r' : Reader σ}
    (h : operator settings lineBreak findings start p
      (between (before ++ p.lexeme.toList) after) = .gap lineBreak' findings' r') :
    ∃ piece rest, p.lexeme.toList ++ after = piece ++ rest ∧
      r' = between (before ++ piece) rest ∧
      Gap.Piece settings false lineBreak piece rest ∧
      lineBreak' = (lineBreak || piece.any isLineTerminator) := by
  have hs := ofPunctuator_operator settings lineBreak findings start p
    (between (before ++ p.lexeme.toList) after : Reader σ)
  generalize operator settings lineBreak findings start p
    (between (before ++ p.lexeme.toList) after : Reader σ) = s at h hs
  cases hs with
  | htmlOpening hmark hdash hdash' =>
    obtain ⟨after, rfl⟩ := exists_cons_of_htmlOpening hmark hdash hdash'
    rw [advance_between_cons, advance_between_cons] at h
    obtain ⟨hm, rfl, body, rest, rfl, hline, rfl⟩ := line_of_htmlComment h
    refine ⟨'<' :: '!' :: '-' :: '-' :: body, rest, rfl, ?_, .htmlOpening hm hline, ?_⟩
    · simp [Punctuator.lexeme]
    · rw [List.any_cons, List.any_cons, List.any_cons, List.any_cons,
        Gap.any_isLineTerminator hline]
      exact (Bool.or_false _).symm
  | htmlClosing hmark hbreak =>
    obtain ⟨after, rfl⟩ := List.head?_eq_some_iff.1 (beq_iff_eq.1 hmark)
    obtain ⟨hm, rfl, body, rest, rfl, hline, rfl⟩ := line_of_htmlComment h
    obtain rfl : lineBreak' = true := hbreak
    refine ⟨'-' :: '-' :: '>' :: body, rest, rfl, ?_, .htmlClosing hm hline, rfl⟩
    simp [Punctuator.lexeme]
  | magicComment hslash hmark =>
    -- it is looked at sooner than other comments, but ends at the same place
    obtain ⟨after, rfl⟩ := List.head?_eq_some_iff.1 (beq_iff_eq.1 hslash)
    rw [peek_between, List.tail_cons] at hmark
    obtain ⟨c, after, rfl, hc⟩ : ∃ c t, after = c :: t ∧ isLineTerminator c = false := by
      rcases hmark with hmark | hmark <;> obtain ⟨t, rfl⟩ := List.head?_eq_some_iff.1 hmark
      · exact ⟨'#', t, rfl, rfl⟩
      · exact ⟨'@', t, rfl, rfl⟩
    rw [advance_between_cons, advance_between_cons] at h
    obtain ⟨body, rest, rfl, hline, hr⟩ := Gap.magicComment_between (σ := σ) findings
      (before ++ Punctuator.div.lexeme.toList ++ ['/'] ++ [c]) after
    cases h
    have hline' : Gap.Line (c :: body) rest := ⟨List.forall_mem_cons.2 ⟨hc, hline.1⟩, hline.2⟩
    refine ⟨'/' :: '/' :: c :: body, rest, rfl, hr.trans ?_, .lineComment hline', ?_⟩
    · simp [Punctuator.lexeme]
    · rw [List.any_cons, List.any_cons, Gap.any_isLineTerminator hline']
      exact (Bool.or_false _).symm
  | lineComment hslash =>
    obtain ⟨after, rfl⟩ := List.head?_eq_some_iff.1 (beq_iff_eq.1 hslash)
    obtain ⟨body, rest, rfl, hline, hr⟩ :=
      Gap.lineComment_between (σ := σ) (before ++ Punctuator.div.lexeme.toList) '/' after
    cases h
    refine ⟨'/' :: '/' :: body, rest, rfl, hr.trans ?_, .lineComment hline, ?_⟩
    · simp [Punctuator.lexeme]
    · rw [List.any_cons, List.any_cons, Gap.any_isLineTerminator hline]
      exact (Bool.or_false _).symm
  | blockComment hstar hclosed =>
    obtain ⟨after, rfl⟩ := List.head?_eq_some_iff.1 (beq_iff_eq.1 hstar)
    rw [Gap.blockComment_between] at hclosed h
    cases hc : closeComment after with
    | none =>
      rw [hc] at hclosed
      cases hclosed
    | some p =>
      obtain ⟨inside, rest⟩ := p
      rw [hc] at h
      cases h
      refine ⟨'/' :: '*' :: (inside ++ ['*', '/']), rest, ?_, ?_,
        .blockComment (not_infix_of_closeComment hc), ?_⟩
      · rw [eq_of_closeComment hc]
        simp [Punctuator.lexeme]
      · simp [Punctuator.lexeme]
      · rw [List.any_cons, List.any_cons, List.any_append]
        exact congrArg (lineBreak || ·) (Bool.or_false _).symm
  | _ => cases h

/-! ### One step -/

/-- What a rule passes that does not start from white space is a single piece. -/
theorem piece_of_step {settings : Settings} {lineBreak lineBreak' : Bool}
    {findings findings' : Findings} {before : List Char} {c : Char} {after : List Char}
    {r' : Reader σ} (hc : isBlank c = false)
    (h : step settings lineBreak findings (between before (c :: after)) =
      .gap lineBreak' findings' r') :
    ∃ piece rest, c :: after = piece ++ rest ∧ r' = between (before ++ piece) rest ∧
      Gap.Piece settings false lineBreak piece rest ∧
      lineBreak' = (lineBreak || piece.any isLineTerminator) := by
  obtain ⟨_, hchar, ⟨hb, -⟩ | ⟨p, hp, ho⟩⟩ := gap_of_step h
  · cases hchar
    rw [hc] at hb
    cases hb
  · cases hchar
    rw [advance_between_cons] at ho
    -- the text was read as far as the punctuator, of which the first character is `c`
    obtain ⟨run, rest, rfl, hr, hl⟩ := p.munch_between (σ := σ) (before ++ [c]) after
    rw [Punctuator.lexeme_of_ofChar hp, String.toList_singleton] at hl
    rw [hr, List.append_assoc, ← hl] at ho
    obtain ⟨piece, rest', hs, hr', hpiece, hlb⟩ := piece_of_operator ho
    rw [hl] at hs
    exact ⟨piece, rest', hs, hr', hpiece, hlb⟩

/-- **What a rule passes as a piece of a gap is a row of pieces**, and the line
terminators in it are noted. -/
theorem pieces_of_step {settings : Settings} {lineBreak lineBreak' : Bool}
    {findings findings' : Findings} {before after : List Char} {r' : Reader σ}
    (h : step settings lineBreak findings (between before after) =
      .gap lineBreak' findings' r') :
    ∃ gap rest, after = gap ++ rest ∧ r' = between (before ++ gap) rest ∧
      Gap.Pieces settings false lineBreak gap rest ∧
      lineBreak' = (lineBreak || gap.any isLineTerminator) := by
  cases after with
  | nil =>
    rw [step_of_char?_eq_none _ _ _ rfl] at h
    cases h
  | cons c after =>
    cases hb : isBlank c with
    | true =>
      unfold step at h
      rw [char?_between, List.head?_cons] at h
      dsimp only at h
      rw [if_pos hb, Gap.whiteSpace_between] at h
      cases h
      exact ⟨_, _, List.takeWhile_append_dropWhile.symm, rfl,
        Gap.pieces_of_isBlank (fun d hd => List.mem_takeWhile_imp hd) _, rfl⟩
    | false =>
      obtain ⟨piece, rest, hsplit, hr, hpiece, hlb⟩ := piece_of_step hb h
      exact ⟨piece, rest, hsplit, hr, hpiece.pieces, hlb⟩

/-- **A scan passes a row of pieces, and then a rule finds a lexeme.** -/
theorem exists_lexeme_of_scanToken (settings : Settings) (lineBreak : Bool) (findings : Findings)
    (before after : List Char) :
    ∃ gap rest findings₁ lineBreak' findings', ∃ l : Lexeme σ, after = gap ++ rest ∧
      Gap.Pieces settings false lineBreak gap rest ∧
      step settings (lineBreak || gap.any isLineTerminator) findings₁
        (between (before ++ gap) rest) = .lexeme lineBreak' findings' l ∧
      scanToken settings lineBreak findings (between before after) =
        ⟨l.toToken (extent σ (before ++ gap)) lineBreak', findings', l.reader⟩ := by
  generalize hr : (between before after : Reader σ) = r
  fun_induction scanToken settings lineBreak findings r generalizing before after with
  | case1 lineBreak findings r lineBreak₁ findings₁ r₁ h ih =>
    subst hr
    obtain ⟨gap, rest, rfl, rfl, hpieces, rfl⟩ := pieces_of_step h
    -- the rest of the scan begins where this gap ends
    obtain ⟨gap', rest, findings₂, lineBreak', findings', l, rfl, hpieces', hl, hs⟩ := ih _ _ rfl
    rw [Bool.or_assoc, ← List.any_append, List.append_assoc] at hl
    rw [List.append_assoc] at hs
    exact ⟨gap ++ gap', rest, findings₂, lineBreak', findings', l, (List.append_assoc ..).symm,
      hpieces.append hpieces', hl, hs⟩
  | case2 lineBreak findings r lineBreak' findings' l h =>
    subst hr
    refine ⟨[], after, findings, lineBreak', findings', l, rfl, .nil, ?_, ?_⟩
    · rw [List.any_nil, Bool.or_false, List.append_nil]
      exact h
    · rw [position_between, List.append_nil]

/-- A scan has passed a gap and a lexeme, and is right after these.  The lexeme is that
of the end of input when nothing is left, and is not empty otherwise. -/
def Scanned.Covers (settings : Settings) (lineStart : Bool) (before after : List Char)
    (s : Scanned σ) : Prop :=
  ∃ gap lexeme rest, after = gap ++ lexeme ++ rest ∧
    Gap.Pieces settings false lineStart gap (lexeme ++ rest) ∧
    s.token.span = ⟨extent σ (before ++ gap), extent σ (before ++ gap ++ lexeme)⟩ ∧
    s.reader = between (before ++ gap ++ lexeme) rest ∧
    (s.token.kind = .endOfInput ↔ lexeme = []) ∧ (lexeme = [] → rest = [])

/-- **A scan passes a gap and a lexeme.** -/
theorem covers_scanToken (settings : Settings) (lineBreak : Bool) (findings : Findings)
    (before after : List Char) :
    (scanToken settings lineBreak findings (between before after : Reader σ)).Covers settings
      lineBreak before after := by
  obtain ⟨gap, rest, findings₁, lineBreak', findings', l, rfl, hpieces, hl, hs⟩ :=
    exists_lexeme_of_scanToken (σ := σ) settings lineBreak findings before after
  rw [hs]
  cases rest with
  | nil =>
    rw [step_of_char?_eq_none _ _ _ rfl] at hl
    cases hl
    exact ⟨gap, [], [], (List.append_nil _).symm, hpieces, by simp [Lexeme.toToken, Lexeme.ofKind],
      by simp [Lexeme.ofKind], iff_of_true rfl rfl, fun _ => rfl⟩
  | cons c rest =>
    -- a rule of the grammar goes on at least by the first character
    have hsound : l.Sound := sound_step hl rfl
    have hw := within_step (σ := σ) settings (lineBreak || gap.any isLineTerminator) findings₁
      (before ++ gap) c rest
    rw [hl] at hw
    obtain ⟨run, rest, rfl, hreader⟩ := hw
    have hreader : l.reader = between (before ++ gap ++ c :: run) rest :=
      hreader.trans (by simp)
    refine ⟨gap, c :: run, rest, by simp, hpieces, ?_, hreader,
      iff_of_false hsound.kind_ne_endOfInput (List.cons_ne_nil c run),
      fun he => absurd he (List.cons_ne_nil c run)⟩
    rw [Lexeme.toToken, hreader, position_between]

/-! ### A text from end to end -/

namespace Scanner

/-- The scanner has not looked ahead, and its next token ends where its reader is. -/
structure UpTo (settings : Settings) (text passed rest : List Char) (s : Scanner σ) : Prop where
  /-- The options are the given ones. -/
  settings_eq : s.settings = settings
  /-- What is passed and what is left are the text. -/
  text_eq : text = passed ++ rest
  /-- The reader is after what is passed. -/
  reader_eq : s.reader = between passed rest
  /-- So is the end of the next token. -/
  stop_eq : s.next.span.stop = extent σ passed
  /-- No further token is scanned. -/
  isAhead_eq : s.isAhead = false

/-- The next token of the scanner comes after a gap, which is passed from `before`. -/
def Follows (settings : Settings) (atStart : Bool) (text before after : List Char)
    (s : Scanner σ) : Prop :=
  ∃ gap lexeme rest, after = gap ++ lexeme ++ rest ∧
    Gap.Pieces settings atStart atStart gap (lexeme ++ rest) ∧
    s.next.span = ⟨extent σ (before ++ gap), extent σ (before ++ gap ++ lexeme)⟩ ∧
    (s.next.kind = .endOfInput ↔ lexeme = []) ∧ (lexeme = [] → rest = []) ∧
    s.UpTo settings text (before ++ gap ++ lexeme) rest

theorem follows_advance {settings : Settings} {text passed rest : List Char} {s : Scanner σ}
    (h : s.UpTo settings text passed rest) :
    s.advance.Follows settings false text passed rest := by
  obtain ⟨gap, lexeme, rest', rfl, hpieces, hspan, hreader, hkind, hrest⟩ :=
    covers_scanToken (σ := σ) s.settings false s.findings passed rest
  rw [← h.reader_eq] at hspan hreader hkind
  rw [h.settings_eq] at hpieces
  rw [advance_of_not_isAhead h.isAhead_eq]
  refine ⟨gap, lexeme, rest', rfl, hpieces, hspan, hkind, hrest, h.settings_eq, ?_, hreader, ?_,
    h.isAhead_eq⟩
  · rw [h.text_eq]
    simp
  · exact congrArg Span.stop hspan

/-- What is passed before the first scan is the line that names an interpreter, if the
settings allow one and the text begins with one. -/
theorem hashbang_between (settings : Settings) (text : List Char) :
    ∃ gap rest, text = gap ++ rest ∧
      (if settings.hashbang then Gap.hashbang (between [] text : Reader σ) else between [] text) =
        between gap rest ∧ Gap.Pieces settings true true gap rest := by
  by_cases hs : settings.hashbang = true
  · rw [if_pos hs, Gap.hashbang]
    split
    · next h =>
      rw [isAt_between, peek_between, Bool.and_eq_true, Bool.and_eq_true, beq_iff_eq,
        beq_iff_eq] at h
      obtain ⟨text, rfl⟩ := List.head?_eq_some_iff.1 h.1.1
      obtain ⟨text, rfl⟩ := List.head?_eq_some_iff.1 h.1.2
      obtain ⟨body, rest, hsplit, hline, hr⟩ :=
        Gap.lineComment_between (σ := σ) [] '#' ('!' :: text)
      cases body with
      | nil =>
        -- the exclamation mark ends no line
        rw [List.nil_append] at hsplit
        cases hline.2 '!' (by rw [← hsplit, List.head?_cons])
      | cons c body =>
        obtain ⟨rfl, hsplit⟩ := List.cons_eq_cons.1 hsplit
        refine ⟨'#' :: '!' :: body, rest, by rw [hsplit]; rfl, hr, ?_⟩
        exact (Gap.Piece.hashbang hs hline.of_cons).pieces
    · exact ⟨[], text, rfl, rfl, .nil⟩
  · rw [if_neg hs]
    exact ⟨[], text, rfl, rfl, .nil⟩

theorem follows_start (settings : Settings) (text : List Char) :
    (ofSource settings (ExactSource.fresh text : σ)).start.Follows settings true text [] text := by
  obtain ⟨gap, rest, hsplit, hr, hpieces⟩ := hashbang_between (σ := σ) settings text
  obtain ⟨gap', lexeme, rest', rfl, hpieces', hspan, hreader, hkind, hrest⟩ :=
    covers_scanToken (σ := σ) settings true {} gap rest
  have hstart : (ofSource settings (ExactSource.fresh text : σ)).start.next =
      (scanToken settings true {} (between gap (gap' ++ lexeme ++ rest') : Reader σ)).token ∧
    (ofSource settings (ExactSource.fresh text : σ)).start.reader =
      (scanToken settings true {} (between gap (gap' ++ lexeme ++ rest') : Reader σ)).reader := by
    -- the first scan counts as after a line terminator
    rw [← hr, ← advance_ofSource_fresh]
    exact ⟨rfl, rfl⟩
  rw [List.append_assoc gap'] at hpieces
  refine ⟨gap ++ gap', lexeme, rest', by rw [hsplit]; simp, hpieces.append hpieces', ?_, ?_,
    hrest, rfl, ?_, ?_, ?_, rfl⟩
  · rw [hstart.1, hspan]
    simp
  · rw [hstart.1, hkind]
  · rw [hsplit]
    simp
  · rw [hstart.2, hreader]
    simp
  · rw [hstart.1, hspan]
    simp

/-- Every token of a text comes after a gap, and the gap after the token before. -/
theorem exists_follows_iterate (settings : Settings) (text : List Char) (n : Nat) :
    ∃ before after, text = before ++ after ∧
      (advance^[n] (ofSource settings (ExactSource.fresh text : σ)).start).Follows settings
        (n == 0) text before after ∧
      extent σ before = if n = 0 then 0 else
        ((ofSource settings (ExactSource.fresh text : σ)).start.stream (n - 1)).span.stop := by
  induction n with
  | zero => exact ⟨[], text, rfl, follows_start settings text, rfl⟩
  | succ n ih =>
    obtain ⟨_, _, -, ⟨gap, lexeme, rest, -, -, -, -, -, h⟩, -⟩ := ih
    refine ⟨_, _, h.text_eq, ?_, ?_⟩
    · rw [Function.iterate_succ_apply']
      exact follows_advance h
    · rw [if_neg (Nat.succ_ne_zero n), Nat.add_sub_cancel, stream_eq_next, h.stop_eq]

/-- The tokens of a text are in order, and the last one is at the end of the text. -/
theorem span_stream (settings : Settings) (text : List Char) (n : Nat) :
    let token := (ofSource settings (ExactSource.fresh text : σ)).start.stream
    (token n).span.stop ≤ extent σ text ∧
      (token n).span.stop ≤ (token (n + 1)).span.start ∧
      ((token n).kind ≠ .endOfInput → (token n).span.start < (token n).span.stop) ∧
      ((token n).kind = .endOfInput → (token n).span = ⟨extent σ text, extent σ text⟩) := by
  intro token
  obtain ⟨before, after, htext, ⟨gap, lexeme, rest, rfl, -, hspan, hkind, hrest, h⟩, -⟩ :=
    exists_follows_iterate (σ := σ) settings text n
  -- the gap after a token is passed when the scanner moves on
  obtain ⟨gap', lexeme', rest', -, -, hspan', -⟩ := follows_advance h
  rw [← Function.iterate_succ_apply' advance, ← stream_eq_next] at hspan'
  rw [← stream_eq_next] at hspan hkind
  change (token n).span = _ at hspan
  change (token (n + 1)).span = _ at hspan'
  rw [hspan, hspan', htext]
  refine ⟨?_, ?_, fun hk => ?_, fun hk => ?_⟩
  · simp only [extent_append]
    omega
  · simp only [extent_append]
    omega
  · -- only the lexeme of the end of input is empty
    have := extent_pos (σ := σ) fun hl => hk (hkind.2 hl)
    simp only [extent_append]
    omega
  · obtain rfl := hkind.1 hk
    obtain rfl := hrest rfl
    simp

/-- A text has no more tokens than positions. -/
theorem count_le_extent (settings : Settings) (text : List Char) (count : Nat)
    (h : ∀ n < count,
      ((ofSource settings (ExactSource.fresh text : σ)).start.stream n).kind ≠ .endOfInput) :
    count ≤ extent σ text := by
  -- every token takes at least one position
  have hstop : ∀ n < count,
      n < ((ofSource settings (ExactSource.fresh text : σ)).start.stream n).span.stop := by
    intro n
    induction n with
    | zero =>
      intro hn
      obtain ⟨-, -, hlt, -⟩ := span_stream (σ := σ) settings text 0
      exact Nat.lt_of_le_of_lt (Nat.zero_le _) (hlt (h 0 hn))
    | succ n ih =>
      intro hn
      obtain ⟨-, hle, -⟩ := span_stream (σ := σ) settings text n
      obtain ⟨-, -, hlt, -⟩ := span_stream (σ := σ) settings text (n + 1)
      have := ih (Nat.lt_of_succ_lt hn)
      have := hlt (h (n + 1) hn)
      omega
  cases count with
  | zero => exact Nat.zero_le _
  | succ n =>
    obtain ⟨hle, -⟩ := span_stream (σ := σ) settings text n
    exact Nat.le_trans (hstop n (Nat.lt_succ_self n)) hle

end Scanner

end EcmaLex
