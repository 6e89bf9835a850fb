import EcmaLex.Proofs.Character.Class
import EcmaLex.Proofs.Gap.BlockComment
import EcmaLex.Settings

/-!
# What gaps are made of

The text between two tokens is a row of pieces: blanks, comments, and at the very
start of the text the line that names an interpreter.  Whether a piece is one can
depend on what stands before it, since the closing of an HTML-like comment counts
only after a line terminator or at the start, and on what stands after it, since
a comment on a line goes on to the end of that line.

## Main definitions

* `Gap.Line` — a text without line terminators that goes on to the end of its line.
* `Gap.Piece`, `Gap.Pieces` — a piece of a gap, and a row of pieces.
* `Gap.OnLine` — the reader has passed no line terminator.

## Main results

* `Gap.Piece.append` — a piece ends where it did when more text is put behind it, or runs on to the
  end of its line.
* `Gap.whiteSpace_between` — what is passed as white space.
* `Gap.lineComment_between`, `Gap.magicComment_between` — comments go on to the end of the
  line, whether they set a URL or not.
-/

namespace EcmaLex

namespace Gap

/-! ### Pieces -/

/-- A text without line terminators that goes on to the end of its line. -/
def Line (body rest : List Char) : Prop :=
  (∀ c ∈ body, isLineTerminator c = false) ∧ ∀ c, rest.head? = some c → isLineTerminator c = true

/-- A piece of a gap.  `atStart` says whether it stands at the very start of the text,
`lineStart` whether the gap is the first one or a line terminator comes before
the piece in it, and the last text is what comes after the piece. -/
inductive Piece (settings : Settings) : Bool → Bool → List Char → List Char → Prop where
  /-- A white space character or a line terminator. -/
  | blank {atStart lineStart c rest} (blank : isBlank c = true) :
    Piece settings atStart lineStart [c] rest
  /-- A comment to the end of the line. -/
  | lineComment {atStart lineStart body rest} (line : Line body rest) :
    Piece settings atStart lineStart ('/' :: '/' :: body) rest
  /-- A comment to the first closing. -/
  | blockComment {atStart lineStart inside rest} (first : ¬ ['*', '/'] <:+: inside ++ ['*']) :
    Piece settings atStart lineStart ('/' :: '*' :: (inside ++ ['*', '/'])) rest
  /-- In script code, an HTML-like comment that is opened. -/
  | htmlOpening {atStart lineStart body rest} (script : settings.isModule = false)
      (line : Line body rest) :
    Piece settings atStart lineStart ('<' :: '!' :: '-' :: '-' :: body) rest
  /-- In script code, an HTML-like comment that is closed, at the start of a line. -/
  | htmlClosing {atStart body rest} (script : settings.isModule = false)
      (line : Line body rest) :
    Piece settings atStart true ('-' :: '-' :: '>' :: body) rest
  /-- The line that names an interpreter, if the settings allow one. -/
  | hashbang {lineStart body rest} (allowed : settings.hashbang = true) (line : Line body rest) :
    Piece settings true lineStart ('#' :: '!' :: body) rest

/-- A row of pieces. -/
inductive Pieces (settings : Settings) : Bool → Bool → List Char → List Char → Prop where
  /-- There is no piece. -/
  | nil {atStart lineStart rest} : Pieces settings atStart lineStart [] rest
  /-- There is a first piece, and others after it. -/
  | cons {atStart lineStart piece gap rest}
      (first : Piece settings atStart lineStart piece (gap ++ rest))
      (others : Pieces settings false (lineStart || piece.any isLineTerminator) gap rest) :
    Pieces settings atStart lineStart (piece ++ gap) rest

variable {settings : Settings} {atStart lineStart : Bool}

theorem Piece.pieces {piece rest : List Char} (h : Piece settings atStart lineStart piece rest) :
    Pieces settings atStart lineStart piece rest := by
  rw [← List.append_nil piece]
  exact .cons h .nil

theorem Piece.ne_nil {piece rest : List Char} (h : Piece settings atStart lineStart piece rest) :
    piece ≠ [] := by
  cases h <;> exact List.cons_ne_nil _ _

/-- What may stand anywhere in the text may stand at its start. -/
theorem Pieces.of_false {gap rest : List Char} (h : Pieces settings false lineStart gap rest) :
    Pieces settings atStart lineStart gap rest := by
  cases h with
  | nil => exact .nil
  | cons first others =>
    refine .cons ?_ others
    cases first with
    | blank blank => exact .blank blank
    | lineComment line => exact .lineComment line
    | blockComment first => exact .blockComment first
    | htmlOpening script line => exact .htmlOpening script line
    | htmlClosing script line => exact .htmlClosing script line

theorem Pieces.append {gap gap' rest : List Char}
    (h : Pieces settings atStart lineStart gap (gap' ++ rest))
    (h' : Pieces settings false (lineStart || gap.any isLineTerminator) gap' rest) :
    Pieces settings atStart lineStart (gap ++ gap') rest := by
  generalize hr : gap' ++ rest = rest' at h
  -- on the first row, which may contain the line terminators that the second one needs
  induction h with
  | nil =>
    rw [List.any_nil, Bool.or_false] at h'
    exact h'.of_false
  | cons first others ih =>
    subst hr
    rw [List.append_assoc]
    rw [← List.append_assoc] at first
    rw [List.any_append, ← Bool.or_assoc] at h'
    exact .cons first (ih h' rfl)

/-- Blanks are pieces of a gap. -/
theorem pieces_of_isBlank {gap : List Char} (h : ∀ c ∈ gap, isBlank c = true)
    (rest : List Char) : Pieces settings atStart lineStart gap rest := by
  induction gap generalizing atStart lineStart with
  | nil => exact .nil
  | cons c gap ih =>
    obtain ⟨hc, hgap⟩ := List.forall_mem_cons.1 h
    have hpiece : Piece settings atStart lineStart [c] (gap ++ rest) := .blank hc
    exact .cons hpiece (ih hgap)

/-- What is left of a line, and what comes after it. -/
theorem line_takeWhile (text : List Char) :
    Line (text.takeWhile (!isLineTerminator ·)) (text.dropWhile (!isLineTerminator ·)) := by
  refine ⟨fun c hc => by simpa using List.mem_takeWhile_imp hc, fun c hc => ?_⟩
  have := List.head?_dropWhile_not (!isLineTerminator ·) text
  rw [hc] at this
  simpa using this

theorem any_isLineTerminator {body rest : List Char} (h : Line body rest) :
    body.any isLineTerminator = false :=
  List.any_eq_false.2 fun c hc => by simp [h.1 c hc]

/-- From any of its characters on, a line goes on to the same end. -/
theorem Line.of_cons {c : Char} {body rest : List Char} (h : Line (c :: body) rest) :
    Line body rest :=
  ⟨fun d hd => h.1 d (List.mem_cons_of_mem c hd), h.2⟩

/-! ### Text behind a piece -/

/-- With more text behind it a line ends where it did, or it was the end of the text and runs
on. -/
theorem Line.append {body rest : List Char} (h : Line body rest) :
    (∀ back, Line body (rest ++ back)) ∨
      rest = [] ∧ ∀ back : List Char,
        Line (body ++ back.takeWhile (!isLineTerminator ·))
          (back.dropWhile (!isLineTerminator ·)) := by
  cases rest with
  | cons c rest => exact .inl fun back => ⟨h.1, h.2⟩
  | nil =>
    refine .inr ⟨rfl, fun back => ⟨fun c hc => ?_, (line_takeWhile back).2⟩⟩
    rcases List.mem_append.1 hc with hc | hc
    · exact h.1 c hc
    · exact (line_takeWhile back).1 c hc

/-- With more text behind it a piece ends where it did, or it ended the text in the middle of a
line and runs on to the end of that line. -/
theorem Piece.append {piece rest : List Char} (h : Piece settings atStart lineStart piece rest) :
    (∀ back, Piece settings atStart lineStart piece (rest ++ back)) ∨
      rest = [] ∧ ∀ back : List Char,
        Piece settings atStart lineStart (piece ++ back.takeWhile (!isLineTerminator ·))
          (back.dropWhile (!isLineTerminator ·)) := by
  cases h with
  | blank hb => exact .inl fun _ => .blank hb
  | blockComment first => exact .inl fun _ => .blockComment first
  | lineComment line =>
    exact line.append.imp (fun h back => .lineComment (h back))
      (.imp_right fun h back => .lineComment (h back))
  | htmlOpening script line =>
    exact line.append.imp (fun h back => .htmlOpening script (h back))
      (.imp_right fun h back => .htmlOpening script (h back))
  | htmlClosing script line =>
    exact line.append.imp (fun h back => .htmlClosing script (h back))
      (.imp_right fun h back => .htmlClosing script (h back))
  | hashbang allowed line =>
    exact line.append.imp (fun h back => .hashbang allowed (h back))
      (.imp_right fun h back => .hashbang allowed (h back))

/-! ### White space -/

open Reader

variable {σ : Type} [ExactSource σ]

/-- Blanks are passed, and the line terminators among them noted. -/
theorem whiteSpace_between (lineBreak : Bool) (before after : List Char) :
    whiteSpace lineBreak (between before after : Reader σ) =
      (lineBreak || (after.takeWhile isBlank).any isLineTerminator,
        between (before ++ after.takeWhile isBlank) (after.dropWhile isBlank)) := by
  induction after generalizing lineBreak before with
  | nil =>
    rw [whiteSpace]
    split
    · simp
    · next h => cases h
  | cons c after ih =>
    rw [whiteSpace]
    split
    · next h => cases h
    · next h =>
      cases h
      by_cases hc : isBlank c = true
      · rw [if_pos hc, advance_between_cons, ih, List.takeWhile_cons_of_pos hc,
          List.dropWhile_cons_of_pos hc]
        simp [Bool.or_assoc]
      · rw [if_neg hc, List.takeWhile_cons_of_neg hc, List.dropWhile_cons_of_neg hc]
        simp

/-! ### Comments on a line -/

/-- A comment passes the character under the head and goes on to the end of the
line. -/
theorem lineComment_between (before : List Char) (c : Char) (after : List Char) :
    ∃ body rest, after = body ++ rest ∧ Line body rest ∧
      lineComment (between before (c :: after) : Reader σ) =
        between (before ++ c :: body) rest := by
  refine ⟨_, _, List.takeWhile_append_dropWhile.symm, line_takeWhile after, ?_⟩
  rw [lineComment, skipTo_between_cons]
  rfl

/-- The reader has passed no line terminator since `before`. -/
def OnLine (before after : List Char) (r : Reader σ) : Prop :=
  ∃ passed rest, after = passed ++ rest ∧ (∀ c ∈ passed, isLineTerminator c = false) ∧
    r = between (before ++ passed) rest

namespace OnLine

variable {before after : List Char} {r : Reader σ}

theorem refl (before after : List Char) : OnLine before after (between before after : Reader σ) :=
  ⟨[], after, rfl, nofun, by rw [List.append_nil]⟩

theorem takeWhile (h : OnLine before after r) {p : Char → Bool}
    (hp : ∀ c, p c = true → isLineTerminator c = false) (text : String) :
    OnLine before after (r.takeWhile p text).2 := by
  obtain ⟨passed, rest, rfl, hpassed, rfl⟩ := h
  refine ⟨passed ++ rest.takeWhile p, rest.dropWhile p, by simp, fun c hc => ?_, by simp⟩
  rcases List.mem_append.1 hc with hc | hc
  · exact hpassed c hc
  · exact hp c (List.mem_takeWhile_imp hc)

theorem skipWhile (h : OnLine before after r) {p : Char → Bool}
    (hp : ∀ c, p c = true → isLineTerminator c = false) :
    OnLine before after (r.skipWhile p) := by
  have ht := h.takeWhile hp ""
  obtain ⟨passed, rest, rfl, -, rfl⟩ := h
  rw [takeWhile_between] at ht
  rw [skipWhile_between]
  exact ht

theorem advance (h : OnLine before after r) {c : Char} (hr : r.char? = some c)
    (hc : isLineTerminator c = false) : OnLine before after r.advance := by
  obtain ⟨passed, rest, rfl, hpassed, rfl⟩ := h
  obtain ⟨rest, rfl⟩ := List.head?_eq_some_iff.1 hr
  refine ⟨passed ++ [c], rest, by simp, fun d hd => ?_, by simp⟩
  rcases List.mem_append.1 hd with hd | hd
  · exact hpassed d hd
  · rwa [List.mem_singleton.1 hd]

end OnLine

/-- Reading a value does not leave the line. -/
theorem onLine_magicValue {before after : List Char} {r : Reader σ} (h : OnLine before after r) :
    OnLine before after (magicValue r).2 := by
  have hv : OnLine before after (r.takeWhile (fun c => !isQuote c && !isBlank c) "").2 :=
    h.takeWhile (fun _ => isLineTerminator_of_and_not_isBlank) ""
  unfold magicValue
  dsimp only
  split
  · exact hv
  · -- after the end of the value white space is passed, and what follows decides whether it counts
    have hs := hv.skipWhile fun c => isLineTerminator_of_isWhiteSpace (c := c)
    split <;> exact hs

/-- Reading a name and a value does not leave the line. -/
theorem onLine_magicAssignment {before after : List Char} {r : Reader σ}
    (h : OnLine before after r) (f : Findings) :
    OnLine before after (magicAssignment f r).2 := by
  unfold magicAssignment
  dsimp only
  split
  · next hw =>
    obtain ⟨c, hc, hw⟩ := (Option.any_eq_true _ _).1 hw
    have hn : OnLine before after
        (r.advance.takeWhile (fun c => c != '=' && !isBlank c) "").2 :=
      (h.advance hc (isLineTerminator_of_isWhiteSpace hw)).takeWhile
        (fun _ => isLineTerminator_of_and_not_isBlank) ""
    split
    · exact hn
    · split
      · next he =>
        have he := hn.advance (by simpa [isAt] using he) rfl
        exact onLine_magicValue (he.skipWhile fun c => isLineTerminator_of_isWhiteSpace (c := c))
      · exact hn
  · exact h

/-- A comment that may set a URL goes on to the end of the line as well. -/
theorem magicComment_between (f : Findings) (before after : List Char) :
    ∃ body rest, after = body ++ rest ∧ Line body rest ∧
      (magicComment f (between before after : Reader σ)).2 = between (before ++ body) rest := by
  obtain ⟨passed, rest, rfl, hpassed, hr⟩ := onLine_magicAssignment
    (OnLine.refl (σ := σ) before after) f
  unfold magicComment
  dsimp only
  -- the rest of the line is passed like the rest of any other comment
  rw [hr, isAtAny_between]
  cases rest with
  | nil => exact ⟨passed, [], rfl, ⟨hpassed, nofun⟩, rfl⟩
  | cons c rest =>
    by_cases hc : isLineTerminator c = true
    · refine ⟨passed, c :: rest, rfl, ⟨hpassed, fun d hd => ?_⟩, ?_⟩
      · cases hd
        exact hc
      · rw [List.head?_cons, Option.any_some, hc]
        rfl
    · have hc : isLineTerminator c = false := by simpa using hc
      obtain ⟨body, rest, rfl, hline, hl⟩ := lineComment_between (σ := σ) (before ++ passed) c rest
      refine ⟨passed ++ c :: body, rest, by simp, ⟨fun d hd => ?_, hline.2⟩, ?_⟩
      · rcases List.mem_append.1 hd with hd | hd
        · exact hpassed d hd
        · rcases List.mem_cons.1 hd with rfl | hd
          · exact hc
          · exact hline.1 d hd
      · rw [List.head?_cons, Option.any_some, hc, Bool.not_false, if_pos rfl, hl]
        simp

end Gap

end EcmaLex
