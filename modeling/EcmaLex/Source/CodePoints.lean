import EcmaLex.Source.Basic

/-!
# A source of code points

A source that counts its positions in characters.  It has no searches of its
own.

## Main definitions

* `CodePoints` — an array of characters, the index of the next unread one, and that of the
  current one.
-/

namespace EcmaLex

/-- A cursor over an array of characters. -/
structure CodePoints where
  /-- The text. -/
  text : Array Char
  /-- The index of the next unread character. -/
  next : Nat
  /-- The index of the current character. -/
  current : Nat

namespace CodePoints

/-- The cursor before the first character of a string. -/
def ofString (s : String) : CodePoints := ⟨s.toList.toArray, 0, 0⟩

/-- Consumes the character at `next`, if there is one.  The current index moves there
even at the end of the text. -/
def advance (s : CodePoints) : Option Char × CodePoints :=
  match s.text[s.next]? with
  | none => (none, { s with current := s.next })
  | some c => (some c, { s with current := s.next, next := s.next + 1 })

/-- Makes the current character unread again and the one before it current. -/
def pushBack (_previous : Char) (s : CodePoints) : CodePoints :=
  { s with next := s.current, current := s.current - 1 }

/-- The number of characters still unread. -/
def remaining (s : CodePoints) : Nat := s.text.size - s.next

theorem remaining_advance (s : CodePoints) :
    s.advance.2.remaining + s.advance.1.isSome.toNat ≤ s.remaining := by
  unfold advance
  split
  · simp [remaining]
  · next h =>
    obtain ⟨hlt, -⟩ := Array.getElem?_eq_some_iff.1 h
    simp only [remaining, Option.isSome_some, Bool.toNat_true]
    omega

theorem remaining_pushBack (c : Char) (s : CodePoints) :
    (pushBack c s.advance.2).remaining ≤ s.remaining := by
  unfold advance pushBack
  split <;> simp [remaining]

instance : TextSource CodePoints where
  advance := advance
  peek s := s.text[s.next]?
  pushBack := pushBack
  position s := s.current
  remaining := remaining
  remaining_advance := remaining_advance
  remaining_pushBack := remaining_pushBack

instance : SearchableSource CodePoints where
  skipTo l s := TextSource.advanceUntil l.isAt s
  remaining_skipTo l s := TextSource.remaining_advanceUntil l.isAt s

end CodePoints

end EcmaLex
