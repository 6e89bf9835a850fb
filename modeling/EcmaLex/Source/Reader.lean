import EcmaLex.Source.Basic
import EcmaLex.Span

/-!
# Readers

A reader is a source together with the character under its head, the first one
that no token has taken yet.  The grammar is written on readers: a rule looks at
the character under the head, moves the head on, and leaves it on the first
character that is not its own.

Before the first move there is no character under the head, and there is none at
the end of the text.

## Main definitions

* `Reader` — a source and the character under the head.
* `Reader.advance`, `Reader.pushBack`, `Reader.skipTo` — moves of the head.
* `Reader.skipWhile`, `Reader.takeWhile` — runs of characters of one class.
* `Reader.remaining` — the bound that every move on lowers.
-/

namespace EcmaLex

/-- A source and the character under the head. -/
structure Reader (σ : Type) where
  /-- The source, of which the character under the head is already read. -/
  source : σ
  /-- The character under the head, if there is one. -/
  char? : Option Char

namespace Reader

variable {σ : Type}

/-- A reader that has not been moved onto the first character yet. -/
def ofSource (s : σ) : Reader σ := ⟨s, none⟩

/-- Whether the given character is under the head. -/
def isAt (r : Reader σ) (c : Char) : Bool := r.char? == some c

/-- Whether a character with the property is under the head. -/
def isAtAny (r : Reader σ) (p : Char → Bool) : Bool := r.char?.any p

theorem char?_isSome_of_isAt {r : Reader σ} {c : Char} (h : r.isAt c = true) :
    r.char?.isSome = true := by
  rw [isAt, beq_iff_eq] at h
  rw [h]
  rfl

section Steps

variable [TextSource σ]

/-- Moves the head on by one character. -/
def advance (r : Reader σ) : Reader σ :=
  ⟨(TextSource.advance r.source).2, (TextSource.advance r.source).1⟩

/-- The character after the one under the head. -/
def peek (r : Reader σ) : Option Char := TextSource.peek r.source

/-- The offset of the head, which is the length of the text once that is used up. -/
def position (r : Reader σ) : Nat := TextSource.position r.source

/-- Moves the head back onto the character before it. -/
def pushBack (previous : Char) (r : Reader σ) : Reader σ :=
  ⟨TextSource.pushBack previous r.source, some previous⟩

/-- The span of the character under the head, one offset for each byte of its UTF-8
encoding.  At the end of the text it is empty. -/
def charSpan (r : Reader σ) : Span :=
  ⟨r.position, r.position + r.char?.elim 0 Char.utf8Size⟩

/-- A bound on the number of characters that the head can still pass. -/
def remaining (r : Reader σ) : Nat :=
  TextSource.remaining r.source + r.char?.isSome.toNat

theorem remaining_advance_le (r : Reader σ) : r.advance.remaining ≤ r.remaining :=
  Nat.le_trans (TextSource.remaining_advance r.source) (Nat.le_add_right _ _)

theorem remaining_advance_lt {r : Reader σ} (h : r.char?.isSome = true) :
    r.advance.remaining < r.remaining := by
  have := TextSource.remaining_advance r.source
  simp only [remaining, advance, h, Bool.toNat_true]
  omega

theorem remaining_pushBack_advance {r : Reader σ} (h : r.char?.isSome = true) (c : Char) :
    (r.advance.pushBack c).remaining ≤ r.remaining := by
  have := TextSource.remaining_pushBack c r.source
  simp only [remaining, advance, pushBack, h, Option.isSome_some, Bool.toNat_true]
  omega

/-! ### Runs of characters -/

/-- Moves the head past the characters that satisfy `p`. -/
def skipWhile (p : Char → Bool) (r : Reader σ) : Reader σ :=
  match _h : r.char? with
  | none => r
  | some c => if p c then r.advance.skipWhile p else r
  termination_by r.remaining
  decreasing_by exact remaining_advance_lt (by rw [_h]; rfl)

/-- Moves the head past the characters that satisfy `p`, and appends them to a text. -/
def takeWhile (p : Char → Bool) (text : String) (r : Reader σ) : String × Reader σ :=
  match _h : r.char? with
  | none => (text, r)
  | some c => if p c then r.advance.takeWhile p (text.push c) else (text, r)
  termination_by r.remaining
  decreasing_by exact remaining_advance_lt (by rw [_h]; rfl)

theorem remaining_skipWhile_le (p : Char → Bool) (r : Reader σ) :
    (r.skipWhile p).remaining ≤ r.remaining := by
  fun_induction r.skipWhile p with
  | case1 => exact Nat.le_refl _
  | case2 r _ _ _ ih => exact Nat.le_trans ih r.remaining_advance_le
  | case3 => exact Nat.le_refl _

theorem remaining_takeWhile_le (p : Char → Bool) (text : String) (r : Reader σ) :
    (r.takeWhile p text).2.remaining ≤ r.remaining := by
  fun_induction r.takeWhile p text with
  | case1 => exact Nat.le_refl _
  | case2 _ r _ _ _ ih => exact Nat.le_trans ih r.remaining_advance_le
  | case3 => exact Nat.le_refl _

end Steps

section Searches

variable [SearchableSource σ]

/-- Moves the head on to the next landmark, or to the end of the text.  The character
under the head is not looked at. -/
def skipTo (l : Landmark) (r : Reader σ) : Reader σ :=
  ⟨(SearchableSource.skipTo l r.source).2, (SearchableSource.skipTo l r.source).1⟩

theorem remaining_skipTo_le (l : Landmark) (r : Reader σ) :
    (r.skipTo l).remaining ≤ r.remaining :=
  Nat.le_trans (SearchableSource.remaining_skipTo l r.source) (Nat.le_add_right _ _)

theorem remaining_skipTo_lt {r : Reader σ} (h : r.char?.isSome = true) (l : Landmark) :
    (r.skipTo l).remaining < r.remaining := by
  have := SearchableSource.remaining_skipTo l r.source
  simp only [remaining, skipTo, h, Bool.toNat_true]
  omega

end Searches

end Reader

end EcmaLex
