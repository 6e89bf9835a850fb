import EcmaLex.Proofs.Source.Exact
import EcmaLex.Proofs.Source.Utf8

/-!
# The byte cursor is an exact source

The byte cursor reads the characters of its text one after the other, at the
offsets where their encodings start.  Its searches find what reading on would
find, wherever the cursor stands: also inside a character, where a step back with
the wrong character may have left it.

## Main results

* `ByteCursor.skipTo_eq_advanceUntil` — the byte search and the plain one agree.
* the instance `ExactSource ByteCursor`.
-/

namespace EcmaLex

namespace ByteCursor

open PaddedText

theorem advance_of_decodeAt_eq_none {s : ByteCursor} (h : s.text.decodeAt s.next = none) :
    advance s = (none, { s with current := s.next }) := by
  rw [advance, h]

theorem advance_of_decodeAt_eq_some {s : ByteCursor} {c : Char} {w : Nat}
    (h : s.text.decodeAt s.next = some (c, w)) :
    advance s = (some c, { s with current := s.next, next := s.next + w }) := by
  rw [advance, h]

/-- A search forgets where it started: only the next unread byte counts. -/
theorem skipTo_congr {s s' : ByteCursor} {l : Landmark} (ht : s.text = s'.text)
    (h : s.text.findLandmark l s.next = s'.text.findLandmark l s'.next) :
    skipTo l s = skipTo l s' := by
  rw [skipTo, skipTo, advance, advance, h, ht]

/-- **The byte search agrees with reading on**, wherever the cursor stands.  The
induction is on the bytes that are left: no landmark begins inside what is read
as one character, so the search passes it as well. -/
theorem skipTo_eq_advanceUntil {text : List Char} {s : ByteCursor} (ht : s.text = ofChars text)
    (hs : s.next ≤ s.text.size) (l : Landmark) :
    skipTo l s = TextSource.advanceUntil l.isAt s := by
  induction hn : s.text.size - s.next using Nat.strong_induction_on generalizing s with
  | _ n ih =>
    rcases Nat.eq_or_lt_of_le hs with he | hlt
    · -- nothing is left to search
      have hd : s.text.decodeAt s.next = none := by
        rw [he, ht, size_ofChars]
        exact decodeAt_of_size_le (Nat.le_refl _)
      have hf : s.text.findLandmark l s.next = s.next :=
        findLandmark_of_size_le (Nat.le_of_eq he.symm)
      rw [TextSource.advanceUntil_of_advance_eq_none (advance_of_decodeAt_eq_none hd), skipTo, hf,
        advance_of_decodeAt_eq_none hd]
    · rw [ht] at hlt
      obtain ⟨c, w, hd, hw, hl, hin⟩ := read_of_lt_size hlt l
      rw [← ht] at hd hw hl hin hlt
      rw [TextSource.advanceUntil_of_advance_eq_some (advance_of_decodeAt_eq_some hd)]
      split
      · -- a landmark comes next: both stop at it
        next hc =>
        rw [skipTo, findLandmark_eq_self (hl.trans hc) hlt]
        exact advance_of_decodeAt_eq_some hd
      · next hc =>
        -- none comes next: the search passes its bytes, and reading on passes it
        have hpos := decodeAt_width_pos hd
        have hf : s.text.findLandmark l s.next = s.text.findLandmark l (s.next + w) := by
          refine findLandmark_add w (fun k hk => ?_) hw
          rcases Nat.eq_zero_or_pos k with rfl | hk0
          · rw [Nat.add_zero, hl]
            simpa using hc
          · exact hin k hk0 hk
        rw [← ih (s.text.size - (s.next + w)) (by omega)
          (s := { s with current := s.next, next := s.next + w }) ht hw rfl]
        exact skipTo_congr rfl hf

/-! ### The places of the cursor -/

/-- The number of bytes of a text. -/
def byteLength (text : List Char) : Nat := totalWidth Char.utf8Size text

theorem size_utf8Encode_eq (text : List Char) : text.utf8Encode.size = byteLength text := by
  induction text with
  | nil => rfl
  | cons c text ih => rw [size_utf8Encode_cons, ih, byteLength, byteLength, totalWidth_cons]

@[simp] theorem byteLength_append (a b : List Char) :
    byteLength (a ++ b) = byteLength a + byteLength b := by
  simp [byteLength]

/-- One more character takes its width. -/
theorem byteLength_concat (text : List Char) (c : Char) :
    byteLength (text ++ [c]) = byteLength text + c.utf8Size :=
  byteLength_append text [c]

/-- The cursor with the first characters read, and the first of the others the current
one. -/
def place (before after : List Char) : ByteCursor where
  text := ofChars (before ++ after)
  next := byteLength (before ++ after.take 1)
  current := byteLength before

theorem place_nil (before : List Char) :
    place before [] = ⟨ofChars before, byteLength before, byteLength before⟩ := by
  simp [place]

/-- The next unread character comes after the current one. -/
theorem place_cons (before : List Char) (c : Char) (after : List Char) :
    place before (c :: after) =
      ⟨ofChars ((before ++ [c]) ++ after), byteLength (before ++ [c]), byteLength before⟩ := by
  simp [place]

/-- What is decoded after some characters is the first of the others. -/
theorem decodeAt_byteLength (before after : List Char) :
    (ofChars (before ++ after)).decodeAt (byteLength before) =
      after.head?.map fun c => (c, c.utf8Size) := by
  rw [← size_utf8Encode_eq]
  cases after with
  | nil =>
    rw [List.append_nil, decodeAt_of_size_le (Nat.le_refl _), List.head?_nil, Option.map_none]
  | cons c after => rw [decodeAt_append_cons, List.head?_cons, Option.map_some]

/-- Reading on from the end of some characters reads the first of the others. -/
theorem advance_append (before after : List Char) (current : Nat) :
    advance ⟨ofChars (before ++ after), byteLength before, current⟩ =
      (after.head?, place before after) := by
  rw [advance]
  dsimp only
  rw [decodeAt_byteLength]
  cases after with
  | nil => simp [place_nil]
  | cons c after => simp [place_cons, byteLength_concat, -byteLength_append]

theorem peek_append (before after : List Char) (current : Nat) :
    peek ⟨ofChars (before ++ after), byteLength before, current⟩ = after.head? := by
  show Option.map _ ((ofChars (before ++ after)).decodeAt (byteLength before)) = _
  rw [decodeAt_byteLength]
  cases after <;> rfl

theorem peek_place (before after : List Char) : peek (place before after) = after.tail.head? := by
  cases after with
  | nil =>
    have := peek_append before [] (byteLength before)
    rwa [List.append_nil, ← place_nil] at this
  | cons c after => rw [place_cons, peek_append, List.tail_cons]

theorem pushBack_place (before : List Char) (c : Char) (after : List Char) :
    pushBack c (place (before ++ [c]) after) = place before (c :: after) := by
  simp [pushBack, place, byteLength_concat, -byteLength_append]

theorem next_place_le (before after : List Char) :
    (place before after).next ≤ (place before after).text.size := by
  show byteLength _ ≤ (ofChars _).size
  rw [size_ofChars, size_utf8Encode_eq]
  -- the cursor has read no more than one character of the others
  conv_rhs => rw [← List.take_append_drop 1 after, ← List.append_assoc, byteLength_append]
  exact Nat.le_add_right _ _

instance : ExactSource ByteCursor where
  width := Char.utf8Size
  width_pos := Char.utf8Size_pos
  fresh text := ofString (String.ofList text)
  between := place
  advance_fresh text := advance_append [] text 0
  position_fresh _ := rfl
  advance_cons before c after := by
    rw [place_cons]
    exact advance_append (before ++ [c]) after _
  advance_nil before := by
    have := advance_append before [] (byteLength before)
    rwa [List.append_nil, ← place_nil] at this
  peek_between := peek_place
  pushBack_between := pushBack_place
  position_between _ _ := rfl
  skipTo_between l before after := skipTo_eq_advanceUntil rfl (next_place_le before after) l

/-- The cursor before a string is the one before its characters. -/
theorem ofString_eq_fresh (s : String) : ofString s = ExactSource.fresh s.toList := by
  show ofString s = ofString (String.ofList s.toList)
  rw [String.ofList_toList]

/-- The extent of a text is its length in bytes. -/
theorem extent_eq_utf8ByteSize (text : List Char) :
    extent ByteCursor text = (String.ofList text).utf8ByteSize := by
  rw [← String.size_toByteArray, String.toByteArray_ofList, size_utf8Encode_eq]
  rfl

end ByteCursor

end EcmaLex
