import EcmaLex.Proofs.Source.Searches

/-!
# The byte cursor as a zipper

A zipper over a text holds the characters that have been passed, the current one, and those still
unread.  It knows nothing of bytes: to read on moves a character from the unread ones to the passed
ones, and to take a step back moves one the other way, whatever it is said to be.

The byte cursor keeps two offsets instead.  It finds a character by the width that its lead byte
announces, and it takes a step back by the width of the character that it is told.  As long as it is
told the right one, the offsets are those of a zipper.

## Main definitions

* `Zipper` — a text that is being read, as a source of its own.
* `Zipper.cursor` — the byte cursor that stands where a zipper does.
* `Zipper.Faithful` — every step back is told the character that stands before.

## Main results

* `Zipper.run_cursor` — faithful moves of the cursor are those of the zipper.
* `ByteCursor.run_zipper` — **the cursor is a zipper over the characters of its text**.
-/

namespace EcmaLex

/-- A text that is being read.  Before the first character is read there is no current one, and at
the end there is none either. -/
structure Zipper where
  /-- The characters before the current one, in their order. -/
  passed : List Char
  /-- The current character. -/
  current? : Option Char
  /-- The characters after the current one. -/
  unread : List Char

namespace Zipper

/-- All characters of the text. -/
def text (z : Zipper) : List Char := z.passed ++ z.current?.toList ++ z.unread

/-- The zipper before the first character of a string. -/
def ofString (s : String) : Zipper := ⟨[], none, s.toList⟩

/-- Passes the current character and takes an unread one, if there is one. -/
def advance (z : Zipper) : Option Char × Zipper :=
  (z.unread.head?, ⟨z.passed ++ z.current?.toList, z.unread.head?, z.unread.tail⟩)

/-- Makes the current character unread again, and the last one passed the current one. -/
def pushBack (z : Zipper) : Zipper :=
  ⟨z.passed.dropLast, z.passed.getLast?, z.current?.toList ++ z.unread⟩

theorem toList_head?_append_tail (l : List Char) : l.head?.toList ++ l.tail = l := by
  cases l <;> rfl

/-- To read on loses nothing. -/
theorem text_advance (z : Zipper) : z.advance.2.text = z.text := by
  rw [advance, text, List.append_assoc, toList_head?_append_tail]
  rfl

/-- To step back loses nothing. -/
theorem text_pushBack (z : Zipper) : z.pushBack.text = z.text := by
  have hlast : z.passed.dropLast ++ z.passed.getLast?.toList = z.passed := by
    rcases List.eq_nil_or_concat z.passed with h | ⟨before, q, h⟩ <;> simp [h]
  rw [pushBack, text, text, hlast, List.append_assoc]

/-- A step back after a step on is where the zipper was, if there was a current character. -/
theorem pushBack_advance {z : Zipper} {p : Char} (hp : z.current? = some p) :
    z.advance.2.pushBack = z := by
  obtain ⟨passed, current?, unread⟩ := z
  obtain rfl : current? = some p := hp
  simp [advance, pushBack, toList_head?_append_tail]

instance : TextSource Zipper where
  advance := advance
  peek z := z.unread.head?
  pushBack _ := pushBack
  position z := ByteCursor.byteLength z.passed
  remaining z := z.unread.length
  remaining_advance z := by
    obtain ⟨passed, current?, unread⟩ := z
    cases unread <;> simp [advance]
  remaining_pushBack _ z := by
    simp [advance, pushBack, toList_head?_append_tail]

instance : SearchableSource Zipper where
  skipTo l z := TextSource.advanceUntil l.isAt z
  remaining_skipTo l z := TextSource.remaining_advanceUntil l.isAt z

theorem text_advanceUntil (stop : Char → Bool) (z : Zipper) :
    (TextSource.advanceUntil stop z).2.text = z.text := by
  fun_induction TextSource.advanceUntil stop z with
  | case1 z z' hread =>
    have ht := z.text_advance
    rwa [show z.advance = (none, z') from hread] at ht
  | case2 z c z' hread hstop =>
    have ht := z.text_advance
    rwa [show z.advance = (some c, z') from hread] at ht
  | case3 z c z' hread hstop ih =>
    have ht := z.text_advance
    rw [show z.advance = (some c, z') from hread] at ht
    exact ih.trans ht

/-- No move loses a character. -/
theorem text_perform (z : Zipper) (move : SourceMove) : (move.perform z).text = z.text := by
  cases move with
  | advance => exact z.text_advance
  | peek => rfl
  | advanceUntil stop => exact z.text_advanceUntil stop
  | pushBack previous => exact z.text_pushBack
  | skipTo l => exact z.text_advanceUntil l.isAt

theorem text_run (z : Zipper) (moves : List SourceMove) : (SourceMove.run z moves).text = z.text := by
  induction moves generalizing z with
  | nil => rfl
  | cons move moves ih => exact (ih _).trans (z.text_perform move)

/-! ### Where the cursor stands -/

/-- The byte cursor that stands where the zipper does. -/
def cursor (z : Zipper) : ByteCursor where
  text := PaddedText.ofChars z.text
  next := ByteCursor.byteLength (z.passed ++ z.current?.toList)
  current := ByteCursor.byteLength z.passed

theorem cursor_ofString (s : String) : (ofString s).cursor = ByteCursor.ofString s := by
  rw [ByteCursor.ofString_eq_fresh]
  rfl

theorem place_eq_cursor (before after : List Char) :
    ByteCursor.place before after = cursor ⟨before, after.head?, after.tail⟩ := by
  cases after <;> simp [ByteCursor.place, cursor, text]

theorem advance_cursor (z : Zipper) :
    TextSource.advance z.cursor = (z.advance.1, z.advance.2.cursor) := by
  have h := ByteCursor.advance_append (z.passed ++ z.current?.toList) z.unread
    (ByteCursor.byteLength z.passed)
  rw [place_eq_cursor] at h
  exact h

theorem peek_cursor (z : Zipper) : TextSource.peek z.cursor = z.unread.head? :=
  ByteCursor.peek_append (z.passed ++ z.current?.toList) z.unread (ByteCursor.byteLength z.passed)

theorem position_cursor (z : Zipper) :
    TextSource.position z.cursor = (String.ofList z.passed).utf8ByteSize :=
  ByteCursor.extent_eq_utf8ByteSize z.passed

/-- A step back is right if it is told the character before, or if there is none. -/
theorem pushBack_cursor {z : Zipper} {p : Char} (hp : ∀ q ∈ z.passed.getLast?, q = p) :
    TextSource.pushBack p z.cursor = z.pushBack.cursor := by
  have htext := z.text_pushBack
  obtain ⟨passed, current?, unread⟩ := z
  show ByteCursor.pushBack p _ = _
  rw [ByteCursor.pushBack, cursor, cursor, htext]
  rcases List.eq_nil_or_concat passed with rfl | ⟨before, q, rfl⟩
  · -- before the first character the offsets stay at the start of the text
    simp [pushBack, ByteCursor.byteLength]
  · obtain rfl : q = p := hp q (by simp)
    simp [pushBack, ByteCursor.byteLength_concat, -ByteCursor.byteLength_append]

theorem advanceUntil_cursor (stop : Char → Bool) (z : Zipper) :
    TextSource.advanceUntil stop z.cursor =
      ((TextSource.advanceUntil stop z).1, (TextSource.advanceUntil stop z).2.cursor) := by
  fun_induction TextSource.advanceUntil stop z with
  | case1 z z' hread =>
    have ha := z.advance_cursor
    rw [show z.advance = (none, z') from hread] at ha
    exact TextSource.advanceUntil_of_advance_eq_none ha
  | case2 z c z' hread hstop =>
    have ha := z.advance_cursor
    rw [show z.advance = (some c, z') from hread] at ha
    rw [TextSource.advanceUntil_of_advance_eq_some ha, if_pos hstop]
  | case3 z c z' hread hstop ih =>
    have ha := z.advance_cursor
    rw [show z.advance = (some c, z') from hread] at ha
    rw [TextSource.advanceUntil_of_advance_eq_some ha, if_neg hstop, ih]

theorem inside_cursor (z : Zipper) : z.cursor.Inside z.text where
  text_eq := rfl
  next_le := by
    show _ ≤ (PaddedText.ofChars z.text).size
    rw [PaddedText.size_ofChars, ByteCursor.size_utf8Encode_eq, text, ByteCursor.byteLength_append]
    exact Nat.le_add_right _ _
  current_le := by
    show _ ≤ (PaddedText.ofChars z.text).size
    rw [PaddedText.size_ofChars, ByteCursor.size_utf8Encode_eq, text, List.append_assoc,
      ByteCursor.byteLength_append]
    exact Nat.le_add_right _ _

theorem skipTo_cursor (l : Landmark) (z : Zipper) :
    (SearchableSource.skipTo l z.cursor).2 = (SearchableSource.skipTo l z).2.cursor := by
  show (ByteCursor.skipTo l z.cursor).2 = _
  rw [z.inside_cursor.skipTo_eq l, advanceUntil_cursor]
  rfl

/-! ### Moves -/

/-- Every step back is told the character that stands before, if there is one. -/
def Faithful (z : Zipper) : List SourceMove → Prop
  | [] => True
  | .pushBack p :: moves =>
    (∀ q ∈ z.passed.getLast?, q = p) ∧ Faithful (SourceMove.perform z (.pushBack p)) moves
  | move :: moves => Faithful (move.perform z) moves

/-- **Faithful moves of the cursor are those of the zipper.** -/
theorem run_cursor {z : Zipper} {moves : List SourceMove} (h : z.Faithful moves) :
    SourceMove.run z.cursor moves = (SourceMove.run z moves).cursor := by
  induction moves generalizing z with
  | nil => rfl
  | cons move moves ih =>
    rw [SourceMove.run, SourceMove.run]
    cases move with
    | advance =>
      rw [← ih h]
      exact congrArg (SourceMove.run ·.2 moves) z.advance_cursor
    | peek => exact ih h
    | advanceUntil stop =>
      rw [← ih h]
      exact congrArg (SourceMove.run ·.2 moves) (z.advanceUntil_cursor stop)
    | pushBack p =>
      rw [← ih h.2]
      exact congrArg (SourceMove.run · moves) (pushBack_cursor h.1)
    | skipTo l =>
      rw [← ih h]
      exact congrArg (SourceMove.run · moves) (z.skipTo_cursor l)

theorem faithful_advance (z : Zipper) (k : Nat) : z.Faithful (List.replicate k .advance) := by
  induction k generalizing z with
  | zero => trivial
  | succ k ih => exact ih z.advance.2

/-- What is read after so many characters have been asked for. -/
theorem advance_run_advance (z : Zipper) (k : Nat) :
    (SourceMove.run z (List.replicate k .advance)).advance =
      (z.unread[k]?,
        ⟨z.passed ++ z.current?.toList ++ z.unread.take k, z.unread[k]?, z.unread.drop (k + 1)⟩) := by
  induction k generalizing z with
  | zero =>
    show z.advance = _
    cases hu : z.unread <;> simp [advance, hu]
  | succ k ih =>
    rw [List.replicate_succ, SourceMove.run, ih]
    cases hu : z.unread <;> simp [SourceMove.perform, TextSource.advance, advance, hu]

end Zipper

namespace ByteCursor

/-- Wherever it stands, the cursor sees the character that it would give next. -/
theorem peek_eq (c : ByteCursor) : TextSource.peek c = (TextSource.advance c).1 := by
  show peek c = (advance c).1
  unfold peek advance
  cases c.text.decodeAt c.next <;> rfl

/-- What is read after so many characters have been asked for. -/
theorem advance_run_advance (s : String) (k : Nat) :
    TextSource.advance (SourceMove.run (ofString s) (List.replicate k .advance)) =
      (s.toList[k]?, Zipper.cursor ⟨s.toList.take k, s.toList[k]?, s.toList.drop (k + 1)⟩) := by
  rw [← Zipper.cursor_ofString, Zipper.run_cursor (Zipper.faithful_advance _ _),
    Zipper.advance_cursor, Zipper.advance_run_advance]
  simp [Zipper.ofString]

/-- **The cursor is a zipper over the characters of its text.**  Asked for characters one after the
other, it gives those of the text in their order, and its position is the offset of each in bytes;
then it gives none any more, and its position is the length of the text.  Wherever it stands, also
when it has been misused, it sees the character that it would give next.  And as long as it is
not misused, it stands where a zipper stands that holds the same text, and a step on and a step back
leave it just as it was. -/
theorem run_zipper (s : String) :
    (∀ k, let c := SourceMove.run (ofString s) (List.replicate k .advance)
      (TextSource.advance c).1 = s.toList[k]? ∧
        TextSource.position (TextSource.advance c).2 =
          (String.ofList (s.toList.take k)).utf8ByteSize ∧
        (s.length ≤ k → (TextSource.advance c).1 = none ∧
          TextSource.position (TextSource.advance c).2 = s.utf8ByteSize)) ∧
    (∀ moves, let c := SourceMove.run (ofString s) moves
      TextSource.peek c = (TextSource.advance c).1) ∧
    ∀ moves, (Zipper.ofString s).Faithful moves →
      let c := SourceMove.run (ofString s) moves
      let z := SourceMove.run (Zipper.ofString s) moves
      c = z.cursor ∧ z.text = s.toList ∧ TextSource.peek c = z.unread.head? ∧
        TextSource.position c = (String.ofList z.passed).utf8ByteSize ∧
        ∀ p, z.current? = some p →
          TextSource.pushBack p (TextSource.advance c).2 = c := by
  refine ⟨fun k => ?_, fun moves => peek_eq _, fun moves hmoves => ?_⟩
  · intro c
    rw [advance_run_advance, Zipper.position_cursor]
    refine ⟨rfl, rfl, fun hk => ?_⟩
    have hk : s.toList.length ≤ k := hk
    rw [List.getElem?_eq_none hk, List.take_of_length_le hk, String.ofList_toList]
    exact ⟨rfl, rfl⟩
  · intro c z
    have hc : c = z.cursor := by
      have h := Zipper.run_cursor hmoves
      rwa [Zipper.cursor_ofString] at h
    refine ⟨hc, Zipper.text_run (.ofString s) moves, ?_, ?_, fun p hp => ?_⟩
    · rw [hc, Zipper.peek_cursor]
    · rw [hc, Zipper.position_cursor]
    · -- the step on has made `p` the last character passed
      have hlast : ∀ q ∈ z.advance.2.passed.getLast?, q = p := by
        intro q hq
        simpa [Zipper.advance, hp, eq_comm] using hq
      rw [hc, Zipper.advance_cursor, Zipper.pushBack_cursor hlast, Zipper.pushBack_advance hp]

/-- A null character inside a text does not end it. -/
example : (TextSource.advance (SourceMove.run (ofString "a\x00b") [.advance])).1 = some '\x00' := by
  decide +kernel

end ByteCursor

end EcmaLex
