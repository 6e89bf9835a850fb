import EcmaLex.Character.Class

/-!
# Sources of text

A scanner does not care how its text is stored.  It reads through a *source*: a
cursor with a current character, the one most recently returned by `advance`,
and a position, the offset of that character in whatever unit the source
counts.  Once the text is exhausted `advance` keeps returning nothing and the
position is the length of the text.

Every source bounds what is left of it by a natural number that each character
costs at least one of.  That bound is what makes every loop of the scanner end.

Comments are skipped by searching for a *landmark*.  A source that can search
faster than character by character says so with `SearchableSource`.

## Main definitions

* `TextSource` — reading forward one character at a time, and one step back.
* `TextSource.advanceUntil` — reading up to the first character with a property.
* `Landmark` — what a search through a comment stops at.
* `SearchableSource` — a source with searches of its own.
-/

namespace EcmaLex

/-- A cursor over a text. -/
class TextSource (σ : Type) where
  /-- Consumes the next character and makes it the current one. -/
  advance : σ → Option Char × σ
  /-- The character after the current one, left unread. -/
  peek : σ → Option Char
  /-- Takes one `advance` back; the given character becomes the current one again. -/
  pushBack : Char → σ → σ
  /-- The offset of the current character. -/
  position : σ → Nat
  /-- A bound on the number of characters still to be read. -/
  remaining : σ → Nat
  /-- Each character read costs at least one. -/
  remaining_advance : ∀ s, remaining (advance s).2 + (advance s).1.isSome.toNat ≤ remaining s
  /-- Taking back an `advance` gives back no more than it cost. -/
  remaining_pushBack : ∀ c s, remaining (pushBack c (advance s).2) ≤ remaining s

namespace TextSource

variable {σ : Type} [TextSource σ]

theorem remaining_advance_le (s : σ) : remaining (advance s).2 ≤ remaining s :=
  Nat.le_trans (Nat.le_add_right _ _) (remaining_advance s)

/-- Reads on until a character satisfies `stop`; that character becomes the current
one.  The current character itself is not tested.  Nothing is returned when the
text runs out first. -/
def advanceUntil (stop : Char → Bool) (s : σ) : Option Char × σ :=
  match _h : advance s with
  | (none, s') => (none, s')
  | (some c, s') => if stop c then (some c, s') else advanceUntil stop s'
  termination_by remaining s
  decreasing_by
    have := remaining_advance s
    rw [_h] at this
    exact this

theorem remaining_advanceUntil (stop : Char → Bool) (s : σ) :
    remaining (advanceUntil stop s).2 + (advanceUntil stop s).1.isSome.toNat ≤ remaining s := by
  fun_induction advanceUntil stop s with
  | case1 s s' h =>
    have := remaining_advance s
    rw [h] at this
    exact this
  | case2 s c s' h hc =>
    have := remaining_advance s
    rw [h] at this
    exact this
  | case3 s c s' h hc ih =>
    have := remaining_advance_le s
    rw [h] at this
    exact Nat.le_trans ih this

end TextSource

/-- What a search through a comment stops at. -/
inductive Landmark where
  /-- The end of a line. -/
  | lineTerminator
  /-- The end of a line, or an asterisk. -/
  | commentDelimiter
  /-- An asterisk. -/
  | asterisk
  deriving DecidableEq, Repr

namespace Landmark

/-- Whether the search stops at a line terminator. -/
def stopsAtLines : Landmark → Bool
  | lineTerminator | commentDelimiter => true
  | asterisk => false

/-- Whether the search stops at an asterisk. -/
def stopsAtAsterisk : Landmark → Bool
  | lineTerminator => false
  | commentDelimiter | asterisk => true

/-- Whether the search stops at the character. -/
def isAt (l : Landmark) (c : Char) : Bool :=
  (l.stopsAtAsterisk && c == '*') || (l.stopsAtLines && isLineTerminator c)

end Landmark

/-- A source with searches of its own for the landmarks of comments. -/
class SearchableSource (σ : Type) extends TextSource σ where
  /-- Reads on until the landmark is reached; the character found becomes the current
  one. -/
  skipTo : Landmark → σ → Option Char × σ
  /-- A search costs no less than the character it returns. -/
  remaining_skipTo : ∀ l s,
    remaining (skipTo l s).2 + (skipTo l s).1.isSome.toNat ≤ remaining s

end EcmaLex
