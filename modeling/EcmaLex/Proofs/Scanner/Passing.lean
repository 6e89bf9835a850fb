import EcmaLex.Proofs.Gap.MagicComment
import EcmaLex.Proofs.Scanner.Coverage
import EcmaLex.Proofs.Simulation.Token

/-!
# Gaps are passed

What a scan passes before a lexeme is a row of pieces.  The other way round, a scan that begins
where a row of pieces stands passes this row: its outcome is that of a scan that begins after
the row.  A piece is told by its first characters, and it ends where these say that it does.
What is recorded on the way is what the comments among the pieces say.

## Main results

* `Gap.Line.unique`, `closeComment_of_not_infix` — a comment ends at one place only.
* `step_of_piece` — a rule passes the piece that it starts from, and no more.
* `scanToken_of_row`, `scanToken_of_pieces` — **a scan passes every row of pieces**.
-/

namespace EcmaLex

open Reader

/-! ### Where comments end -/

/-- A line ends at the first line terminator. -/
theorem Gap.Line.eq_takeWhile {body rest : List Char} (h : Line body rest) :
    body = (body ++ rest).takeWhile (!isLineTerminator ·) ∧
      rest = (body ++ rest).dropWhile (!isLineTerminator ·) := by
  have hbody : ∀ c ∈ body, (!isLineTerminator c) = true := fun c hc => by simp [h.1 c hc]
  rw [List.takeWhile_append_of_pos hbody, List.dropWhile_append_of_pos hbody]
  cases rest with
  | nil => simp
  | cons c rest =>
    have hc := h.2 c rfl
    simp [hc]

/-- There is one way only to split a text at the end of a line. -/
theorem Gap.Line.unique {body rest body' rest' : List Char} (h : Line body rest)
    (h' : Line body' rest') (he : body ++ rest = body' ++ rest') : body = body' ∧ rest = rest' := by
  obtain ⟨hbody, hrest⟩ := h.eq_takeWhile
  obtain ⟨hbody', hrest'⟩ := h'.eq_takeWhile
  rw [he] at hbody hrest
  exact ⟨hbody.trans hbody'.symm, hrest.trans hrest'.symm⟩

/-- A closing that is the first one closes the comment. -/
theorem closeComment_of_not_infix {inside : List Char} (h : ¬ ['*', '/'] <:+: inside ++ ['*'])
    (rest : List Char) : closeComment (inside ++ '*' :: '/' :: rest) = some (inside, rest) := by
  induction inside with
  | nil => rfl
  | cons c inside ih =>
    rw [List.cons_append, closing_infix_cons, not_or] at h
    rw [List.cons_append, closeComment, if_neg, ih h.2]
    · rfl
    · rintro ⟨hc, hhead⟩
      apply h.1
      refine ⟨hc, ?_⟩
      -- the character after `c` is the same with the rest of the text and without
      cases inside with
      | nil => cases hhead
      | cons d inside => exact hhead

/-! ### Punctuators that open comments -/

variable {σ : Type} [ExactSource σ]

/-- At the first character of a punctuator the rule for punctuators is chosen. -/
theorem step_of_ofChar {c : Char} {p : Punctuator} (h : Punctuator.ofChar c = some p)
    (settings : Settings) (lineBreak : Bool) (f : Findings) (before after : List Char) :
    step settings lineBreak f (between before (c :: after) : Reader σ) =
      operator settings lineBreak f (extent σ before)
        (p.munch (between (before ++ [c]) after : Reader σ)).1
        (p.munch (between (before ++ [c]) after)).2 := by
  rw [step_eq_operator rfl h, advance_between_cons, position_between]

theorem Punctuator.munch_of_extend_eq_none {p : Punctuator} {before after : List Char}
    (h : after.head?.bind p.extend = none) :
    p.munch (between before after : Reader σ) = (p, between before after) := by
  rw [Punctuator.munch]
  split
  · rfl
  · next c hc =>
    rw [char?_between] at hc
    rw [hc] at h
    split
    · next hq =>
      rw [Option.bind_some, hq] at h
      cases h
    · rfl

theorem Punctuator.munch_of_extend {p q : Punctuator} {c : Char} (h : p.extend c = some q)
    (before after : List Char) :
    p.munch (between before (c :: after) : Reader σ) = q.munch (between (before ++ [c]) after) := by
  rw [Punctuator.munch]
  split
  · next hc => cases hc
  · next hc =>
    cases hc
    split
    · next hq =>
      rw [h] at hq
      cases hq
      rw [advance_between_cons]
    · next hq =>
      rw [h] at hq
      cases hq

/-- A comment on a line that begins behind a mark goes on to the end of the line. -/
theorem Gap.lineComment_of_line {body rest : List Char} (h : Line body rest) (before : List Char)
    (c : Char) : lineComment (between before (c :: (body ++ rest)) : Reader σ) =
      between (before ++ c :: body) rest := by
  obtain ⟨body', rest', hs, hline, hr⟩ := lineComment_between (σ := σ) before c (body ++ rest)
  obtain ⟨rfl, rfl⟩ := h.unique hline hs
  exact hr

theorem Gap.magicComment_of_line (f : Findings) {body rest : List Char} (h : Line body rest)
    (before : List Char) : (magicComment f (between before (body ++ rest) : Reader σ)).2 =
      between (before ++ body) rest := by
  obtain ⟨body', rest', hs, hline, hr⟩ := magicComment_between (σ := σ) f before (body ++ rest)
  obtain ⟨rfl, rfl⟩ := h.unique hline hs
  exact hr

/-! ### Pieces -/

variable (settings : Settings) (lineBreak : Bool) (f : Findings)

/-- A comment on a line is passed, and what it says is recorded. -/
theorem step_lineComment {body rest : List Char} (h : Gap.Line body rest) (before : List Char) :
    ∃ f', step settings lineBreak f (between before ('/' :: '/' :: (body ++ rest)) : Reader σ) =
      .gap lineBreak f' (between (before ++ '/' :: '/' :: body) rest) ∧ Gap.Notes [body] f f' := by
  rw [step_of_ofChar (p := .div) rfl, Punctuator.munch_of_extend_eq_none rfl]
  unfold operator
  dsimp only
  rw [if_pos (by simp)]
  split
  · next hm =>
    -- the third mark is part of the line
    rw [peek_between, List.tail_cons, Bool.or_eq_true, beq_iff_eq, beq_iff_eq] at hm
    obtain ⟨c, body, rfl⟩ : ∃ c t, body = c :: t := by
      cases body with
      | cons c body => exact ⟨c, body, rfl⟩
      | nil => rcases hm with hm | hm <;> cases h.2 _ hm
    have hline : Gap.Line body rest := h.of_cons
    rw [advance_between_cons, List.cons_append, advance_between_cons,
      Gap.magicComment_of_line f hline]
    refine ⟨_, congrArg (Step.gap lineBreak _) ?_, ?_⟩
    · simp
    · refine Gap.notes_magicComment ?_ hline f _
      simpa using hm
  · next hm =>
    rw [Gap.lineComment_of_line h]
    refine ⟨f, congrArg (Step.gap lineBreak _) ?_, Gap.Notes.of_head? ?_ f⟩
    · simp
    · rw [peek_between, List.tail_cons, Bool.or_eq_true, not_or, beq_iff_eq, beq_iff_eq] at hm
      cases body with
      | nil => exact ⟨nofun, nofun⟩
      | cons c body => exact hm

theorem step_blockComment {inside : List Char} (h : ¬ ['*', '/'] <:+: inside ++ ['*'])
    (before rest : List Char) :
    step settings lineBreak f
        (between before ('/' :: '*' :: (inside ++ '*' :: '/' :: rest)) : Reader σ) =
      .gap (lineBreak || inside.any isLineTerminator) f
        (between (before ++ '/' :: '*' :: (inside ++ ['*', '/'])) rest) := by
  rw [step_of_ofChar (p := .div) rfl, Punctuator.munch_of_extend_eq_none rfl]
  unfold operator
  dsimp only
  rw [if_neg (by simp), if_pos (by simp), Gap.blockComment_between, closeComment_of_not_infix h]
  simp

theorem step_htmlOpening {settings : Settings} (script : settings.isModule = false)
    {body rest : List Char}
    (h : Gap.Line body rest) (before : List Char) :
    step settings lineBreak f
        (between before ('<' :: '!' :: '-' :: '-' :: (body ++ rest)) : Reader σ) =
      .gap lineBreak { f with htmlComment := true }
        (between (before ++ '<' :: '!' :: '-' :: '-' :: body) rest) := by
  rw [step_of_ofChar (p := .lt) rfl, Punctuator.munch_of_extend_eq_none rfl]
  unfold operator
  dsimp only
  rw [if_pos (by simp), advance_between_cons, if_pos (by simp), advance_between_cons, htmlComment,
    if_neg (by simp [script]), Gap.lineComment_of_line h]
  simp

theorem step_htmlClosing {settings : Settings} (script : settings.isModule = false)
    {body rest : List Char}
    (h : Gap.Line body rest) (before : List Char) :
    step settings true f (between before ('-' :: '-' :: '>' :: (body ++ rest)) : Reader σ) =
      .gap true f (between (before ++ '-' :: '-' :: '>' :: body) rest) := by
  rw [step_of_ofChar (p := .sub) rfl, Punctuator.munch_of_extend (q := .dec) rfl,
    Punctuator.munch_of_extend_eq_none rfl]
  unfold operator
  dsimp only
  rw [if_pos (by simp), htmlComment, if_neg (by simp [script]), Gap.lineComment_of_line h]
  simp

/-- A rule passes the piece that it starts from, and no more, unless that is a blank.  What the
piece says is recorded, if it is a comment on a line. -/
theorem step_of_piece {settings : Settings} {lineBreak : Bool} {piece rest : List Char}
    (h : Gap.Piece settings false lineBreak piece rest) (before : List Char) :
    (∃ c, isBlank c = true ∧ piece = [c]) ∨
      ∃ f', step settings lineBreak f (between before (piece ++ rest) : Reader σ) =
          .gap (lineBreak || piece.any isLineTerminator) f' (between (before ++ piece) rest) ∧
        Gap.Notes (Gap.lineComments [piece]) f f' := by
  cases h with
  | blank hb => exact .inl ⟨_, hb, rfl⟩
  | lineComment line =>
    right
    obtain ⟨f', hs, hnotes⟩ := step_lineComment (σ := σ) settings lineBreak f line before
    refine ⟨f', hs.trans ?_, hnotes⟩
    rw [List.any_cons, List.any_cons, Gap.any_isLineTerminator line]
    exact congrArg (Step.gap · f' _) (Bool.or_false _).symm
  | @blockComment _ _ inside _ first =>
    right
    have hs := step_blockComment (σ := σ) settings lineBreak f first before rest
    refine ⟨f, ?_, Gap.Notes.refl f⟩
    rw [List.cons_append, List.cons_append, List.append_assoc]
    refine hs.trans ?_
    rw [List.any_cons, List.any_cons, List.any_append]
    exact congrArg (fun b => Step.gap (lineBreak || b) f _) (Bool.or_false _).symm
  | htmlOpening script line =>
    right
    have hs := step_htmlOpening (σ := σ) lineBreak f script line before
    refine ⟨{ f with htmlComment := true }, hs.trans ?_,
      Gap.Notes.of_get_eq fun name => by cases name <;> rfl⟩
    simp only [List.any_cons, Gap.any_isLineTerminator line]
    exact congrArg (Step.gap · { f with htmlComment := true } _) (Bool.or_false _).symm
  | htmlClosing script line =>
    exact .inr ⟨f, step_htmlClosing f script line before, Gap.Notes.refl f⟩

/-- So it does with every piece that does not begin with a blank. -/
theorem step_of_piece_of_head {settings : Settings} {lineBreak : Bool} {c : Char}
    {piece rest : List Char} (hhead : piece.head? = some c) (hc : isBlank c = false)
    (h : Gap.Piece settings false lineBreak piece rest) (before : List Char) :
    ∃ f', step settings lineBreak f (between before (piece ++ rest) : Reader σ) =
      .gap (lineBreak || piece.any isLineTerminator) f' (between (before ++ piece) rest) := by
  rcases step_of_piece (σ := σ) f h before with ⟨d, hd, rfl⟩ | ⟨f', hs, -⟩
  · cases hhead
    rw [hc] at hd
    cases hd
  · exact ⟨f', hs⟩

/-- **A scan passes every row of pieces**, and goes on as a scan that begins after the row.  What
is recorded in between is what the comments in the row say. -/
theorem scanToken_of_row {settings : Settings} {lineBreak : Bool} {pieces : List (List Char)}
    {rest : List Char} (h : Gap.Row settings false lineBreak pieces rest) (f : Findings)
    (before : List Char) :
    ∃ f', scanToken settings lineBreak f (between before (pieces.flatten ++ rest) : Reader σ) =
        scanToken settings (lineBreak || pieces.flatten.any isLineTerminator) f'
          (between (before ++ pieces.flatten) rest) ∧
      Gap.Notes (Gap.lineComments pieces) f f' := by
  induction pieces generalizing lineBreak f before with
  | nil => exact ⟨f, by simp, Gap.Notes.refl f⟩
  | cons piece pieces ih =>
    obtain ⟨first, others⟩ := h
    rw [List.flatten_cons, List.append_assoc piece, List.any_append, ← Bool.or_assoc,
      ← List.append_assoc before, Gap.lineComments_cons]
    rcases step_of_piece (σ := σ) f first before with ⟨c, hb, rfl⟩ | ⟨f₁, hs, hnotes⟩
    · obtain ⟨f', hscan, hnotes⟩ := ih others f (before ++ [c])
      refine ⟨f', ?_, ?_⟩
      · rw [← hscan, List.singleton_append, scanToken_of_isBlank rfl hb, advance_between_cons]
        simp
      · rwa [← Gap.lineComments_cons, Gap.lineComments_singleton]
    · obtain ⟨f', hscan, hnotes'⟩ := ih others f₁ (before ++ piece)
      exact ⟨f', (scanToken_of_step_eq_gap hs).trans hscan, hnotes.append hnotes'⟩

/-- So it does where the row is given as one gap. -/
theorem scanToken_of_pieces {settings : Settings} {lineBreak : Bool} {gap rest : List Char}
    (h : Gap.Pieces settings false lineBreak gap rest) (f : Findings) (before : List Char) :
    ∃ f', scanToken settings lineBreak f (between before (gap ++ rest) : Reader σ) =
      scanToken settings (lineBreak || gap.any isLineTerminator) f'
        (between (before ++ gap) rest) := by
  obtain ⟨pieces, rfl, hrow⟩ := h.exists_row
  obtain ⟨f', hscan, -⟩ := scanToken_of_row (σ := σ) hrow f before
  exact ⟨f', hscan⟩

end EcmaLex
