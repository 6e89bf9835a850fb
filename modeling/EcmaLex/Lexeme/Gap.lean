import EcmaLex.Lexeme.Findings
import EcmaLex.Settings
import EcmaLex.Source.Reader

/-!
# Gaps between tokens

White space, line terminators and comments separate tokens.  All that a later
token learns about the gap before it is whether there is a line terminator in
it, inside a block comment or not.

A block comment is searched for line terminators only until the first is found;
from then on only asterisks matter.

A line comment that begins with `//#` or `//@` may set the URL of the source or of
its source map.  After one white space character come a name, an equals sign and
a value.  The value of a known name is recorded even when it is not a valid one,
as no value at all.

## Main definitions

* `Gap.whiteSpace` — a run of blanks.
* `Gap.lineComment`, `Gap.blockComment` — the two sorts of comments.
* `Gap.magicComment` — a line comment that may set a URL.
* `Gap.hashbang` — the line that names an interpreter.
-/

namespace EcmaLex

namespace Gap

variable {σ : Type}

section Steps

variable [TextSource σ]

/-- Moves past white space and line terminators, and adds to `lineBreak` whether any of
them is a line terminator. -/
def whiteSpace (lineBreak : Bool) (r : Reader σ) : Bool × Reader σ :=
  match _h : r.char? with
  | none => (lineBreak, r)
  | some c =>
    if isBlank c then whiteSpace (lineBreak || isLineTerminator c) r.advance
    else (lineBreak, r)
  termination_by r.remaining
  decreasing_by exact Reader.remaining_advance_lt (by rw [_h]; rfl)

theorem remaining_whiteSpace_le (lineBreak : Bool) (r : Reader σ) :
    (whiteSpace lineBreak r).2.remaining ≤ r.remaining := by
  fun_induction whiteSpace lineBreak r with
  | case1 => exact Nat.le_refl _
  | case2 _ r _ _ _ ih => exact Nat.le_trans ih r.remaining_advance_le
  | case3 => exact Nat.le_refl _

/-- Moves past a run of asterisks, and past a slash after it.  Says whether there is
such a slash after an asterisk. -/
def commentClose (r : Reader σ) : Bool × Reader σ :=
  match _h : r.char? with
  | none => (false, r)
  | some c =>
    if c == '*' then
      let r' := r.advance
      if r'.isAt '/' then (true, r'.advance) else commentClose r'
    else (false, r)
  termination_by r.remaining
  decreasing_by exact Reader.remaining_advance_lt (by rw [_h]; rfl)

theorem remaining_commentClose_le (r : Reader σ) :
    (commentClose r).2.remaining ≤ r.remaining := by
  fun_induction commentClose r with
  | case1 => exact Nat.le_refl _
  | case2 r => exact Nat.le_trans r.advance.remaining_advance_le r.remaining_advance_le
  | case3 r _ _ _ _ _ ih => exact Nat.le_trans ih r.remaining_advance_le
  | case4 => exact Nat.le_refl _

/-! ### Values of magic comments -/

/-- What a magic comment may set. -/
inductive MagicName where
  | sourceUrl
  | sourceMappingUrl
  deriving DecidableEq, Repr

/-- What a name in a magic comment sets. -/
def MagicName.ofText (text : String) : Option MagicName :=
  if text = "sourceURL" then some .sourceUrl
  else if text = "sourceMappingURL" then some .sourceMappingUrl
  else none

/-- Records a value, or that there is no valid one. -/
def MagicName.set (name : MagicName) (value? : Option String) (f : Findings) : Findings :=
  match name with
  | .sourceUrl => { f with sourceUrl? := value? }
  | .sourceMappingUrl => { f with sourceMappingUrl? := value? }

/-- Whether the character is a quote, which no value holds. -/
def isQuote (c : Char) : Bool := c == '"' || c == '\''

/-- Reads a value: a run of characters that are neither blank nor quotes, and white
space up to the end of the line.  Anything else makes it invalid, and so does
its absence. -/
def magicValue (r : Reader σ) : Option String × Reader σ :=
  let (value, r) := r.takeWhile (fun c => !isQuote c && !isBlank c) ""
  if r.isAtAny isQuote then (none, r)
  else
    let r := r.skipWhile isWhiteSpace
    if r.isAtAny (!isLineTerminator ·) || value.isEmpty then (none, r) else (some value, r)

/-- Reads the name and the value of a magic comment, with the head after its opening.
The head stays where the comment turns out not to be one. -/
def magicAssignment (f : Findings) (r : Reader σ) : Findings × Reader σ :=
  if r.isAtAny isWhiteSpace then
    let (name, r) := r.advance.takeWhile (fun c => c != '=' && !isBlank c) ""
    match MagicName.ofText name with
    | none => (f, r)
    | some name =>
      if r.isAt '=' then
        let (value?, r) := magicValue (r.advance.skipWhile isWhiteSpace)
        (name.set value? f, r)
      else (f, r)
  else (f, r)

theorem remaining_magicValue_le (r : Reader σ) :
    (magicValue r).2.remaining ≤ r.remaining := by
  have h₁ := r.remaining_takeWhile_le (fun c => !isQuote c && !isBlank c) ""
  have h₂ := (r.takeWhile (fun c => !isQuote c && !isBlank c) "").2.remaining_skipWhile_le
    isWhiteSpace
  unfold magicValue
  dsimp only
  split
  · exact h₁
  · split <;> exact Nat.le_trans h₂ h₁

theorem remaining_magicAssignment_le (f : Findings) (r : Reader σ) :
    (magicAssignment f r).2.remaining ≤ r.remaining := by
  unfold magicAssignment
  dsimp only
  split
  · have h₁ := r.remaining_advance_le
    have h₂ := r.advance.remaining_takeWhile_le (fun c => c != '=' && !isBlank c) ""
    generalize r.advance.takeWhile (fun c => c != '=' && !isBlank c) "" = taken at h₂
    split
    · exact Nat.le_trans h₂ h₁
    · split
      · have h₃ := taken.2.remaining_advance_le
        have h₄ := taken.2.advance.remaining_skipWhile_le isWhiteSpace
        have h₅ := remaining_magicValue_le (taken.2.advance.skipWhile isWhiteSpace)
        dsimp only
        omega
      · exact Nat.le_trans h₂ h₁
  · exact Nat.le_refl _

end Steps

/-! ### Comments -/

section Searches

variable [SearchableSource σ]

/-- Moves to the end of the line. -/
def lineComment (r : Reader σ) : Reader σ := r.skipTo .lineTerminator

/-- Moves past a line comment that may set a URL, with the head after its opening. -/
def magicComment (f : Findings) (r : Reader σ) : Findings × Reader σ :=
  let (f, r) := magicAssignment f r
  (f, if r.isAtAny (!isLineTerminator ·) then lineComment r else r)

theorem remaining_magicComment_le (f : Findings) (r : Reader σ) :
    (magicComment f r).2.remaining ≤ r.remaining := by
  have h₁ := remaining_magicAssignment_le f r
  have h₂ := (magicAssignment f r).2.remaining_skipTo_le .lineTerminator
  unfold magicComment lineComment
  dsimp only
  split
  · exact Nat.le_trans h₂ h₁
  · exact h₁

/-- What to search for in a block comment: line terminators no longer matter once one
was found. -/
def commentLandmark (lineBreak : Bool) : Landmark :=
  if lineBreak then .asterisk else .commentDelimiter

/-- Moves past the rest of a block comment, with the head on a character inside it.
Says whether the comment is closed, and adds to `lineBreak` whether it holds a
line terminator. -/
def blockComment (lineBreak : Bool) (r : Reader σ) : Bool × Bool × Reader σ :=
  match _h : r.char? with
  | none => (false, lineBreak, r)
  | some _ =>
    match _hc : commentClose (r.skipTo (commentLandmark lineBreak)) with
    | (true, r') => (true, lineBreak, r')
    -- the head is past the asterisks, on a character that may be a line terminator
    | (false, r') => blockComment (lineBreak || r'.isAtAny isLineTerminator) r'
  termination_by r.remaining
  decreasing_by
    have hlt := Reader.remaining_skipTo_lt (r := r) (by rw [_h]; rfl)
      (commentLandmark lineBreak)
    have hle := remaining_commentClose_le
      (r.skipTo (commentLandmark lineBreak))
    rw [_hc] at hle
    exact Nat.lt_of_le_of_lt hle hlt

theorem remaining_blockComment_le (lineBreak : Bool) (r : Reader σ) :
    (blockComment lineBreak r).2.2.remaining ≤ r.remaining := by
  fun_induction blockComment lineBreak r with
  | case1 => exact Nat.le_refl _
  | case2 lineBreak r _ _ r' hc =>
    have hle := remaining_commentClose_le
      (r.skipTo (commentLandmark lineBreak))
    rw [hc] at hle
    exact Nat.le_trans hle (r.remaining_skipTo_le _)
  | case3 lineBreak r _ _ r' hc ih =>
    have hle := remaining_commentClose_le
      (r.skipTo (commentLandmark lineBreak))
    rw [hc] at hle
    exact Nat.le_trans ih (Nat.le_trans hle (r.remaining_skipTo_le _))

/-- Moves past a line that names an interpreter.  It begins with a number sign and an
exclamation mark, and stands at the very start of the text. -/
def hashbang (r : Reader σ) : Reader σ :=
  if r.isAt '#' && r.peek == some '!' && r.position == 0 then lineComment r else r

end Searches

end Gap

end EcmaLex
