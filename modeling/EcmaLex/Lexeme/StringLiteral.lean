import EcmaLex.Lexeme.Basic
import EcmaLex.Lexeme.CharFlags

/-!
# String literals

A string literal runs from a quote to the next quote of the same sort that no
backslash escapes.  Its text is kept as it is written: a backslash stays, and so
does the character after it, both characters if these are a carriage return and
a line feed.  A line feed or carriage return that is not escaped leaves the
literal unterminated, while the other line terminators may stand in it.

## Main definitions

* `StringLiteral.body` — the text up to the closing quote.
* `stringLiteral` — a string literal.
-/

namespace EcmaLex

namespace StringLiteral

variable {σ : Type} [TextSource σ]

/-- Appends the character under the head to a text and moves on. -/
def take (text : String) (r : Reader σ) : String × Reader σ :=
  (r.char?.elim text text.push, r.advance)

/-- Takes the character after a backslash, if there is one.  A carriage return takes a
line feed after it along. -/
def takeEscaped (text : String) (r : Reader σ) : String × Reader σ :=
  match r.char? with
  | none => (text, r)
  | some c =>
    let (text, r) := take text r
    if c == '\r' && r.isAt '\n' then take text r else (text, r)

theorem remaining_takeEscaped_le (text : String) (r : Reader σ) :
    (takeEscaped text r).2.remaining ≤ r.remaining := by
  have h₁ := r.remaining_advance_le
  have h₂ := r.advance.remaining_advance_le
  unfold takeEscaped
  split
  · exact Nat.le_refl _
  · dsimp only [take]
    split
    · exact Nat.le_trans h₂ h₁
    · exact h₁

/-- Reads the inside of a literal on.  Says whether the closing quote was found; the
head then stands after it.  Otherwise it stands on the line feed or carriage
return that cuts the literal off, or at the end of the text. -/
def body (quote : Char) (text : String) (r : Reader σ) : Bool × String × Reader σ :=
  match _h : r.char? with
  | none => (false, text, r)
  | some c =>
    if !(CharFlags.ofChar c).isStringRunEnd then body quote (text.push c) r.advance
    else if c == '\\' then
      match _he : takeEscaped (text.push c) r.advance with
      | (text', r') => body quote text' r'
    else if c == quote then (true, text, r.advance)
    -- what is left is a line end, or the quote of the other sort
    else if c == '\n' || c == '\r' then (false, text, r)
    else body quote (text.push c) r.advance
  termination_by r.remaining
  decreasing_by
    all_goals have hlt := Reader.remaining_advance_lt (r := r) (by rw [_h]; rfl)
    · exact hlt
    · have hle := remaining_takeEscaped_le (text.push c) r.advance
      rw [_he] at hle
      exact Nat.lt_of_le_of_lt hle hlt
    · exact hlt

theorem remaining_body_le (quote : Char) (text : String) (r : Reader σ) :
    (body quote text r).2.2.remaining ≤ r.remaining := by
  fun_induction body quote text r with
  | case1 => exact Nat.le_refl _
  | case2 _ r _ _ _ ih => exact Nat.le_trans ih r.remaining_advance_le
  | case3 text r c _ _ _ text' r' he ih =>
    have hle := remaining_takeEscaped_le (text.push c) r.advance
    rw [he] at hle
    exact Nat.le_trans ih (Nat.le_trans hle r.remaining_advance_le)
  | case4 _ r => exact r.remaining_advance_le
  | case5 => exact Nat.le_refl _
  | case6 _ r _ _ _ _ _ _ ih => exact Nat.le_trans ih r.remaining_advance_le

end StringLiteral

variable {σ : Type} [TextSource σ]

/-- Reads a string literal, with the head on its opening quote.  An unterminated one
is reported at that quote. -/
def stringLiteral (quote : Char) (r : Reader σ) : Lexeme σ :=
  let (closed, text, r') := StringLiteral.body quote "" r.advance
  if closed then ⟨.ok .string, { cooked := text }, r'⟩
  else .illegal ⟨⟨r.position, r.position + 1⟩, .unterminatedString⟩ { cooked := text } r'

theorem remaining_stringLiteral_le (quote : Char) (r : Reader σ) :
    (stringLiteral quote r).reader.remaining ≤ r.advance.remaining := by
  have h := StringLiteral.remaining_body_le quote "" r.advance
  unfold stringLiteral
  dsimp only
  split <;> exact h

end EcmaLex
