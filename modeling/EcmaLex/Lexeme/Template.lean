import EcmaLex.Lexeme.Basic

/-!
# Templates

A template is read in pieces.  A piece starts after a backquote, or after the
brace that closes a substitution, and ends with the next backquote or the next
`$` and opening brace.  Escapes stay as they are written, and a backslash keeps
the character after it from ending the piece.  Carriage returns, with a line feed
after them or without, become line feeds.

## Main definitions

* `Template.body` — the text of a piece.
* `templatePiece` — a piece of a template.
-/

namespace EcmaLex

namespace Template

variable {σ : Type} [TextSource σ]

/-- How a piece of a template ends. -/
inductive Ending where
  /-- With a backquote. -/
  | tail
  /-- With the opening of a substitution. -/
  | substitution
  /-- With the end of the text. -/
  | missing
  deriving DecidableEq, Repr

/-- Takes the given character, the one under the head; a carriage return becomes a
line feed, together with a line feed after it. -/
def takeNormalized (text : String) (c : Char) (r : Reader σ) : String × Reader σ :=
  let r := r.advance
  if c == '\r' then (text.push '\n', if r.isAt '\n' then r.advance else r)
  else (text.push c, r)

/-- Takes the character after a backslash, if there is one. -/
def takeEscaped (text : String) (r : Reader σ) : String × Reader σ :=
  match r.char? with
  | none => (text, r)
  | some c => takeNormalized text c r

theorem remaining_takeNormalized_le (text : String) (c : Char) (r : Reader σ) :
    (takeNormalized text c r).2.remaining ≤ r.advance.remaining := by
  have h := r.advance.remaining_advance_le
  unfold takeNormalized
  dsimp only
  split
  · dsimp only
    split
    · exact h
    · exact Nat.le_refl _
  · exact Nat.le_refl _

theorem remaining_takeEscaped_le (text : String) (r : Reader σ) :
    (takeEscaped text r).2.remaining ≤ r.remaining := by
  unfold takeEscaped
  split
  · exact Nat.le_refl _
  · exact Nat.le_trans (remaining_takeNormalized_le _ _ _) r.remaining_advance_le

/-- Reads the inside of a piece on, up to and including what ends it. -/
def body (text : String) (r : Reader σ) : Ending × String × Reader σ :=
  match _h : r.char? with
  | none => (.missing, text, r)
  | some c =>
    if c == '\x60' then (.tail, text, r.advance)
    else if c == '$' && r.peek == some '\x7b' then (.substitution, text, r.advance.advance)
    else if c == '\\' then
      match _he : takeEscaped (text.push c) r.advance with
      | (text', r') => body text' r'
    else
      match _he : takeNormalized text c r with
      | (text', r') => body text' r'
  termination_by r.remaining
  decreasing_by
    all_goals have hlt := Reader.remaining_advance_lt (r := r) (by rw [_h]; rfl)
    · have hle := remaining_takeEscaped_le (text.push c) r.advance
      rw [_he] at hle
      exact Nat.lt_of_le_of_lt hle hlt
    · have hle := remaining_takeNormalized_le text c r
      rw [_he] at hle
      exact Nat.lt_of_le_of_lt hle hlt

theorem remaining_body_le (text : String) (r : Reader σ) :
    (body text r).2.2.remaining ≤ r.remaining := by
  fun_induction body text r with
  | case1 => exact Nat.le_refl _
  | case2 _ r => exact r.remaining_advance_le
  | case3 _ r => exact Nat.le_trans r.advance.remaining_advance_le r.remaining_advance_le
  | case4 text r c _ _ _ _ text' r' he ih =>
    have hle := remaining_takeEscaped_le (text.push c) r.advance
    rw [he] at hle
    exact Nat.le_trans ih (Nat.le_trans hle r.remaining_advance_le)
  | case5 text r c _ _ _ _ text' r' he ih =>
    have hle := remaining_takeNormalized_le text c r
    rw [he] at hle
    exact Nat.le_trans ih (Nat.le_trans hle r.remaining_advance_le)

end Template

variable {σ : Type} [TextSource σ]

/-- Reads a piece of a template, with the head on its first character.  A piece that
is not ended is reported at what opened it, the character at `opening`. -/
def templatePiece (opening : Nat) (r : Reader σ) : Lexeme σ :=
  let (ending, text, r) := Template.body "" r
  let text : TokenText := { cooked := text, raw := text }
  match ending with
  | .tail => ⟨.ok .templateTail, text, r⟩
  | .substitution => ⟨.ok .templateSpan, text, r⟩
  | .missing => .illegal ⟨⟨opening, opening + 1⟩, .unterminatedTemplate⟩ text r

theorem remaining_templatePiece_le (opening : Nat) (r : Reader σ) :
    (templatePiece opening r).reader.remaining ≤ r.remaining := by
  have h := Template.remaining_body_le "" r
  unfold templatePiece
  dsimp only
  split <;> exact h

end EcmaLex
