import EcmaLex.Proofs.Source.ByteCursor

/-!
# Searches from every state

A byte cursor can be told to take back a character that is not the one before it.  It
then stands somewhere inside a character, and reads the bytes there as characters of
their own.  Its offsets stay inside the text all the same, and its searches keep finding
what reading on would find.

## Main definitions

* `SourceMove` — what can be done to a source.
* `SourceMove.run` — the source after a list of moves.
* `ByteCursor.Inside` — the offsets of the cursor are inside its text.

## Main results

* `ByteCursor.Inside.run` — no moves lead out of the text.
* `ByteCursor.Inside.skipTo_eq` — inside the text a search finds what reading on finds.
-/

namespace EcmaLex

/-- What can be done to a source. -/
inductive SourceMove where
  /-- Consume a character. -/
  | advance
  /-- Look at the next character. -/
  | peek
  /-- Consume characters up to the first one with a property. -/
  | advanceUntil (stop : Char → Bool)
  /-- Take a move back, on the word that the given character stands before. -/
  | pushBack (previous : Char)
  /-- Search for a landmark. -/
  | skipTo (l : Landmark)

namespace SourceMove

variable {σ : Type} [SearchableSource σ]

/-- The source after a move. -/
def perform (s : σ) : SourceMove → σ
  | advance => (TextSource.advance s).2
  | peek => s
  | advanceUntil stop => (TextSource.advanceUntil stop s).2
  | pushBack previous => TextSource.pushBack previous s
  | skipTo l => (SearchableSource.skipTo l s).2

/-- The source after a list of moves. -/
def run (s : σ) : List SourceMove → σ
  | [] => s
  | move :: moves => run (move.perform s) moves

end SourceMove

namespace ByteCursor

open PaddedText

/-- The cursor is over the given text, and its offsets are inside it. -/
structure Inside (text : List Char) (s : ByteCursor) : Prop where
  /-- The text is the given one. -/
  text_eq : s.text = ofChars text
  /-- The next unread byte is in the text, or the text ends there. -/
  next_le : s.next ≤ s.text.size
  /-- So is the current character. -/
  current_le : s.current ≤ s.text.size

namespace Inside

variable {text : List Char} {s : ByteCursor}

theorem ofString (source : String) : (ofString source).Inside source.toList := by
  refine ⟨?_, Nat.zero_le _, Nat.zero_le _⟩
  show PaddedText.ofString source = PaddedText.ofString (String.ofList source.toList)
  rw [String.ofList_toList]

/-- What is read as one character ends inside the text. -/
theorem advance (h : s.Inside text) : (advance s).2.Inside text := by
  rcases Nat.eq_or_lt_of_le h.next_le with hend | hlt
  · have hnone : s.text.decodeAt s.next = none := by
      rw [hend, h.text_eq, size_ofChars]
      exact decodeAt_of_size_le (Nat.le_refl _)
    rw [advance_of_decodeAt_eq_none hnone]
    exact ⟨h.text_eq, h.next_le, h.next_le⟩
  · have hread := hlt
    rw [h.text_eq] at hread
    obtain ⟨c, w, hdecode, hstop, -, -⟩ := read_of_lt_size hread .asterisk
    rw [← h.text_eq] at hdecode hstop
    rw [advance_of_decodeAt_eq_some hdecode]
    exact ⟨h.text_eq, hstop, h.next_le⟩

theorem advanceUntil (h : s.Inside text) (stop : Char → Bool) :
    (TextSource.advanceUntil stop s).2.Inside text := by
  fun_induction TextSource.advanceUntil stop s with
  | case1 s s' hread =>
    have ha : (TextSource.advance s).2.Inside text := h.advance
    rwa [hread] at ha
  | case2 s c s' hread hstop =>
    have ha : (TextSource.advance s).2.Inside text := h.advance
    rwa [hread] at ha
  | case3 s c s' hread hstop ih =>
    have ha : (TextSource.advance s).2.Inside text := h.advance
    rw [hread] at ha
    exact ih ha

theorem pushBack (h : s.Inside text) (previous : Char) : (pushBack previous s).Inside text :=
  ⟨h.text_eq, h.current_le, Nat.le_trans (Nat.sub_le _ _) h.current_le⟩

/-- Inside the text a search finds what reading on finds. -/
theorem skipTo_eq (h : s.Inside text) (l : Landmark) :
    skipTo l s = TextSource.advanceUntil l.isAt s :=
  skipTo_eq_advanceUntil h.text_eq h.next_le l

/-- No move leads out of the text. -/
theorem perform (h : s.Inside text) (move : SourceMove) : (move.perform s).Inside text := by
  cases move with
  | advance => exact h.advance
  | peek => exact h
  | advanceUntil stop => exact h.advanceUntil stop
  | pushBack previous => exact h.pushBack previous
  | skipTo l =>
    show (skipTo l s).2.Inside text
    rw [h.skipTo_eq l]
    exact h.advanceUntil l.isAt

/-- No moves lead out of the text. -/
theorem run (h : s.Inside text) (moves : List SourceMove) :
    (SourceMove.run s moves).Inside text := by
  induction moves generalizing s with
  | nil => exact h
  | cons move moves ih => exact ih (h.perform move)

end Inside

end ByteCursor

end EcmaLex
