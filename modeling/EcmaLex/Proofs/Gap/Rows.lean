import EcmaLex.Proofs.Gap.Pieces

/-!
# Rows of pieces

A gap may be given piece by piece.  It is whole where no further piece follows, and every text
begins with such a gap, which may be empty.

## Main definitions

* `Gap.Ends` — no piece of a gap begins here.
* `Gap.Whole` — a gap that does not go on.
* `Gap.Row` — a row of pieces, one by one.
* `Gap.lineComments` — the comments on a line among pieces.

## Main results

* `Gap.Pieces.exists_row` — every gap is a row.
* `Gap.exists_whole` — **every text begins with a gap that does not go on**.
-/

namespace EcmaLex

namespace Gap

variable {settings : Settings} {atStart lineStart : Bool}

/-- No piece of a gap begins here, behind the start of the text. -/
def Ends (settings : Settings) (lineStart : Bool) (text : List Char) : Prop :=
  ∀ piece rest, text = piece ++ rest → ¬ Piece settings false lineStart piece rest

/-- A gap before a text that begins with no further piece of it. -/
structure Whole (settings : Settings) (lineStart : Bool) (gap text : List Char) : Prop where
  /-- The gap is a row of pieces. -/
  pieces : Pieces settings false lineStart gap text
  /-- No piece stands behind it. -/
  ends : Ends settings (lineStart || gap.any isLineTerminator) text

/-- **Every text begins with a gap that does not go on.**  The induction is on the length of the
text, which every piece makes shorter. -/
theorem exists_whole (settings : Settings) (lineStart : Bool) (text : List Char) :
    ∃ gap rest, text = gap ++ rest ∧ Whole settings lineStart gap rest := by
  induction hn : text.length using Nat.strongRecOn generalizing lineStart text with
  | ind n ih =>
    by_cases h : Ends settings lineStart text
    · refine ⟨[], text, rfl, .nil, ?_⟩
      rwa [List.any_nil, Bool.or_false]
    · simp only [Ends, not_forall, not_not] at h
      obtain ⟨piece, rest, rfl, hpiece⟩ := h
      have hpos : 0 < piece.length := List.length_pos_of_ne_nil hpiece.ne_nil
      have hlt : rest.length < n := by
        rw [← hn, List.length_append]
        omega
      obtain ⟨gap, rest, rfl, hpieces, hends⟩ :=
        ih rest.length hlt (lineStart || piece.any isLineTerminator) rest rfl
      refine ⟨piece ++ gap, rest, (List.append_assoc ..).symm, .cons hpiece hpieces, ?_⟩
      rwa [List.any_append, ← Bool.or_assoc]

/-! ### Piece by piece -/

/-- A row of pieces, with the last text behind them. -/
def Row (settings : Settings) : Bool → Bool → List (List Char) → List Char → Prop
  | _, _, [], _ => True
  | atStart, lineStart, piece :: pieces, rest =>
    Piece settings atStart lineStart piece (pieces.flatten ++ rest) ∧
      Row settings false (lineStart || piece.any isLineTerminator) pieces rest

/-- Every gap is a row. -/
theorem Pieces.exists_row {gap rest : List Char} (h : Pieces settings atStart lineStart gap rest) :
    ∃ pieces, pieces.flatten = gap ∧ Row settings atStart lineStart pieces rest := by
  induction h with
  | nil => exact ⟨[], rfl, trivial⟩
  | @cons _ _ piece _ _ first _ ih =>
    obtain ⟨pieces, rfl, hrow⟩ := ih
    exact ⟨piece :: pieces, List.flatten_cons, first, hrow⟩

/-- The comments on a line among pieces, each without the slashes that it begins with. -/
def lineComments (pieces : List (List Char)) : List (List Char) :=
  pieces.filterMap fun
    | '/' :: '/' :: body => some body
    | _ => none

theorem lineComments_cons (piece : List Char) (pieces : List (List Char)) :
    lineComments (piece :: pieces) = lineComments [piece] ++ lineComments pieces :=
  List.filterMap_append (l := [piece])

/-- One character is no comment. -/
theorem lineComments_singleton (c : Char) (pieces : List (List Char)) :
    lineComments ([c] :: pieces) = lineComments pieces := by
  simp [lineComments]

end Gap

end EcmaLex
