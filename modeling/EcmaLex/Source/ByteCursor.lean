import EcmaLex.Source.Basic
import EcmaLex.Source.PaddedText

/-!
# The byte cursor

The source that counts its positions in UTF-8 bytes.  It decodes one character
at a time from a padded text.  A byte below 128 is a character by itself; any
other byte is taken as the lead of a sequence whose width its high bits tell.
When the bytes there are no such sequence, because the cursor was pushed back
into the middle of a character, they read as the replacement character.

A comment is skipped by searching the bytes.  Asterisks, line feeds and carriage
returns are single bytes, found first; then the bytes before that hit are
searched for the lead of a line or paragraph separator, which is three bytes
long and may reach past the hit.

## Main definitions

* `ByteCursor` — a padded text, the offset of the next unread character, and that of the
  current one.
* `ByteCursor.decodeAt` — the character at an offset and its width.
* `ByteCursor.findLandmark` — the byte search.
-/

namespace EcmaLex

/-- The number of bytes in the UTF-8 sequence that a lead byte announces.
Continuation bytes and bytes that lead no sequence count as one. -/
def leadWidth (lead : UInt8) : Nat :=
  if 0xC0 ≤ lead && lead ≤ 0xDF then 2
  else if 0xE0 ≤ lead && lead ≤ 0xEF then 3
  else if 0xF0 ≤ lead && lead ≤ 0xF7 then 4
  else 1

theorem leadWidth_pos (lead : UInt8) : 0 < leadWidth lead := by
  unfold leadWidth
  split <;> try split <;> try split
  all_goals decide

/-- The character that stands for bytes which are no character. -/
def replacementCharacter : Char := '\ufffd'

/-- Whether the byte is a landmark by itself. -/
def Landmark.isAtByte (l : Landmark) (b : UInt8) : Bool :=
  (l.stopsAtAsterisk && b == 0x2A) || (l.stopsAtLines && (b == 0x0A || b == 0x0D))

namespace PaddedText

/-- The character that starts at an offset, and its width in bytes.  There is none
where a zero byte stands at or past the end of the text. -/
def decodeAt (t : PaddedText) (offset : Nat) : Option (Char × Nat) :=
  let lead := t.byteAt offset
  if lead < 0x80 then
    if lead == 0 && t.size ≤ offset then none else some (Char.ofUInt8 lead, 1)
  else
    some ((t.bytes.utf8DecodeChar? offset).getD replacementCharacter, leadWidth lead)

/-- The offset of the first byte in `[offset, stop)` that satisfies `p`; where there
is none, the search ends at `stop`, or where it began if that lies beyond. -/
def findByte (t : PaddedText) (p : UInt8 → Bool) (offset stop : Nat) : Nat :=
  if offset < stop then
    if p (t.byteAt offset) then offset else t.findByte p (offset + 1) stop
  else offset
  termination_by stop - offset

/-- Whether the encoding of a line or paragraph separator starts at an offset. -/
def separatorAt (t : PaddedText) (offset : Nat) : Bool :=
  t.byteAt offset == 0xE2 && t.byteAt (offset + 1) == 0x80 &&
    (t.byteAt (offset + 2) == 0xA8 || t.byteAt (offset + 2) == 0xA9)

/-- The offset of the first separator that starts in `[offset, stop)`; where there is
none, the search ends as that of `findByte` does. -/
def findSeparator (t : PaddedText) (offset stop : Nat) : Nat :=
  if offset < stop then
    if t.separatorAt offset then offset else t.findSeparator (offset + 1) stop
  else offset
  termination_by stop - offset

/-- The offset of the first landmark at or after `offset`, or the end of the text. -/
def findLandmark (t : PaddedText) (l : Landmark) (offset : Nat) : Nat :=
  let hit := t.findByte l.isAtByte offset t.size
  -- a separator counts only where it starts before the byte that was found
  if l.stopsAtLines then t.findSeparator offset hit else hit

theorem le_findByte (t : PaddedText) (p : UInt8 → Bool) (offset stop : Nat) :
    offset ≤ t.findByte p offset stop := by
  fun_induction t.findByte p offset stop with
  | case1 => exact Nat.le_refl _
  | case2 offset _ _ ih => exact Nat.le_trans (Nat.le_succ _) ih
  | case3 => exact Nat.le_refl _

theorem le_findSeparator (t : PaddedText) (offset stop : Nat) :
    offset ≤ t.findSeparator offset stop := by
  fun_induction t.findSeparator offset stop with
  | case1 => exact Nat.le_refl _
  | case2 offset _ _ ih => exact Nat.le_trans (Nat.le_succ _) ih
  | case3 => exact Nat.le_refl _

theorem le_findLandmark (t : PaddedText) (l : Landmark) (offset : Nat) :
    offset ≤ t.findLandmark l offset := by
  unfold findLandmark
  dsimp only
  split
  · exact t.le_findSeparator _ _
  · exact t.le_findByte _ _ _

theorem decodeAt_width_pos {t : PaddedText} {offset width : Nat} {c : Char}
    (h : t.decodeAt offset = some (c, width)) : 0 < width := by
  unfold decodeAt at h
  dsimp only at h
  split at h
  · split at h
    · cases h
    · cases h
      exact Nat.one_pos
  · cases h
    exact leadWidth_pos _

/-- A character is only read where the padded text has bytes left, or where the
text does. -/
theorem lt_of_decodeAt {t : PaddedText} {offset width : Nat} {c : Char}
    (h : t.decodeAt offset = some (c, width)) : offset < max t.bytes.size t.size := by
  rcases Nat.lt_or_ge offset t.bytes.size with hb | hb
  · omega
  · unfold decodeAt at h
    rw [byteAt_of_size_le hb] at h
    rcases Nat.lt_or_ge offset t.size with hs | hs
    · omega
    · simp [hs] at h

end PaddedText

/-- A cursor over a padded text. -/
structure ByteCursor where
  /-- The text. -/
  text : PaddedText
  /-- The offset of the next unread character. -/
  next : Nat
  /-- The offset of the current character. -/
  current : Nat

namespace ByteCursor

/-- The cursor before the first character of a text. -/
def ofText (text : PaddedText) : ByteCursor := ⟨text, 0, 0⟩

/-- The cursor before the first character of a string. -/
def ofString (s : String) : ByteCursor := ofText (.ofString s)

/-- Consumes the character at `next`, if there is one.  The current offset moves
there even at the end of the text. -/
def advance (s : ByteCursor) : Option Char × ByteCursor :=
  match s.text.decodeAt s.next with
  | none => (none, { s with current := s.next })
  | some (c, width) => (some c, { s with current := s.next, next := s.next + width })

/-- The character at `next`. -/
def peek (s : ByteCursor) : Option Char := (s.text.decodeAt s.next).map (·.1)

/-- Makes the current character unread again and the given one current, on the
word of the caller that it stands right before. -/
def pushBack (previous : Char) (s : ByteCursor) : ByteCursor :=
  { s with next := s.current, current := s.current - previous.utf8Size }

/-- The number of bytes between the next unread character and the end of the
padded text. -/
def remaining (s : ByteCursor) : Nat := max s.text.bytes.size s.text.size - s.next

theorem remaining_advance (s : ByteCursor) :
    s.advance.2.remaining + s.advance.1.isSome.toNat ≤ s.remaining := by
  unfold advance
  split
  · simp [remaining]
  · next h =>
    have := PaddedText.lt_of_decodeAt h
    have := PaddedText.decodeAt_width_pos h
    simp only [remaining, Option.isSome_some, Bool.toNat_true]
    omega

theorem remaining_pushBack (c : Char) (s : ByteCursor) :
    (pushBack c s.advance.2).remaining ≤ s.remaining := by
  unfold advance pushBack
  split <;> simp [remaining]

instance : TextSource ByteCursor where
  advance := advance
  peek := peek
  pushBack := pushBack
  position s := s.current
  remaining := remaining
  remaining_advance := remaining_advance
  remaining_pushBack := remaining_pushBack

/-- Moves on to the first landmark among the unread bytes and reads it. -/
def skipTo (l : Landmark) (s : ByteCursor) : Option Char × ByteCursor :=
  advance { s with next := s.text.findLandmark l s.next }

theorem remaining_skipTo (l : Landmark) (s : ByteCursor) :
    (skipTo l s).2.remaining + (skipTo l s).1.isSome.toNat ≤ s.remaining := by
  have := remaining_advance { s with next := s.text.findLandmark l s.next }
  have := s.text.le_findLandmark l s.next
  unfold skipTo
  simp only [remaining] at *
  omega

instance : SearchableSource ByteCursor where
  skipTo := skipTo
  remaining_skipTo := remaining_skipTo

end ByteCursor

end EcmaLex
