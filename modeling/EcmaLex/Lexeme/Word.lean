import EcmaLex.Lexeme.Basic
import EcmaLex.Lexeme.CharFlags

/-!
# Words

Identifiers, keywords and private names.

A word of ASCII identifier characters is read in one run, which gathers the
flags of all its characters and of the character that ends it.  Unless these
flags say that no keyword is possible, its text is compared with the keywords.
If the run ends at a backslash or at a character that is not ASCII, the word is
read on with care: escapes are decoded, and identifier characters of all scripts
are accepted.

A keyword spelled with an escape is not that keyword.  It is an escaped keyword,
of one of two sorts, unless the keyword is a contextual one.

## Main definitions

* `Word.unicodeEscape` — the character that an escape spells.
* `Word.plainRun`, `Word.carefulRun` — the two ways to read a word on.
* `word` — an identifier or a keyword.
* `privateName` — a number sign and a name.
-/

namespace EcmaLex

namespace Word

variable {σ : Type} [TextSource σ]

/-! ### Escapes -/

/-- The character with a given code point, if it is one that characters have. -/
def scalar (n : Nat) : Option Char :=
  if h : n.isValidChar then some (Char.ofNatAux n h) else none

/-- The greatest code point. -/
def maxCodePoint : Nat := 0x10FFFF

/-- Reads a run of hexadecimal digits, of which those before the head have the given
value.  There is no value as long as there are no digits, and none any more once
it would pass the greatest code point; the head then stays on the digit. -/
def bracedDigits (value : Option Nat) (r : Reader σ) : Option Nat × Reader σ :=
  match _h : r.char? with
  | none => (value, r)
  | some c =>
    match hexDigitValue c with
    | none => (value, r)
    | some d =>
      let value := value.getD 0 * 16 + d
      if maxCodePoint < value then (none, r) else bracedDigits (some value) r.advance
  termination_by r.remaining
  decreasing_by exact Reader.remaining_advance_lt (by rw [_h]; rfl)

/-- Reads the given number of hexadecimal digits; the head stays on the first
character that is none. -/
def fixedDigits : Nat → Nat → Reader σ → Option Nat × Reader σ
  | 0, value, r => (some value, r)
  | n + 1, value, r =>
    match r.char?.bind hexDigitValue with
    | none => (none, r)
    | some d => fixedDigits n (value * 16 + d) r.advance

/-- Reads an escape, which is `u` and four digits or `u` and digits in braces, with
the head on its backslash.  If it is malformed or spells no character, the head
stays where that was found out. -/
def unicodeEscape (r : Reader σ) : Option Char × Reader σ :=
  let r := r.advance
  if r.isAt 'u' then
    let r := r.advance
    if r.isAt '\x7b' then
      let (value, r) := bracedDigits none r.advance
      match value with
      | some n => if r.isAt '\x7d' then (scalar n, r.advance) else (none, r)
      | none => (none, r)
    else
      let (value, r) := fixedDigits 4 0 r
      (value.bind scalar, r)
  else (none, r)

/-- Reads an escape that has to spell a character accepted by `allowed`, other than
the backslash. -/
def allowedEscape (allowed : Char → Bool) (r : Reader σ) : Option Char × Reader σ :=
  let (c?, r) := unicodeEscape r
  (c?.filter fun c => c != '\\' && allowed c, r)

/-! ### Runs -/

/-- What is known of a word while it is read. -/
structure Progress (σ : Type) where
  /-- Whether the characters so far all occur in keywords. -/
  canBeKeyword : Bool
  /-- Whether some of them were escaped. -/
  escaped : Bool
  /-- The characters so far, decoded. -/
  text : String
  /-- The reader, on the next character. -/
  reader : Reader σ

/-- Reads ASCII identifier characters on, and gathers the flags of all of them and of
the character that ends the run. -/
def plainRun (flags : CharFlags) (text : String) (r : Reader σ) :
    CharFlags × String × Reader σ :=
  match _h : r.char? with
  | none => (flags, text, r)
  | some c =>
    let f := CharFlags.ofChar c
    if f.isWordEnd then (flags ||| f, text, r)
    else plainRun (flags ||| f) (text.push c) r.advance
  termination_by r.remaining
  decreasing_by exact Reader.remaining_advance_lt (by rw [_h]; rfl)

theorem remaining_bracedDigits_le (value : Option Nat) (r : Reader σ) :
    (bracedDigits value r).2.remaining ≤ r.remaining := by
  fun_induction bracedDigits value r with
  | case1 => exact Nat.le_refl _
  | case2 => exact Nat.le_refl _
  | case3 => exact Nat.le_refl _
  | case4 _ r _ _ _ _ _ _ ih => exact Nat.le_trans ih r.remaining_advance_le

theorem remaining_fixedDigits_le (n value : Nat) (r : Reader σ) :
    (fixedDigits n value r).2.remaining ≤ r.remaining := by
  fun_induction fixedDigits n value r with
  | case1 => exact Nat.le_refl _
  | case2 => exact Nat.le_refl _
  | case3 _ _ r _ _ ih => exact Nat.le_trans ih r.remaining_advance_le

theorem remaining_unicodeEscape_le (r : Reader σ) :
    (unicodeEscape r).2.remaining ≤ r.advance.remaining := by
  unfold unicodeEscape
  have h₁ := r.advance.remaining_advance_le
  have h₂ := r.advance.advance.remaining_advance_le
  have h₃ := remaining_bracedDigits_le none r.advance.advance.advance
  have h₄ := remaining_fixedDigits_le 4 0 r.advance.advance
  have h₅ := (bracedDigits none r.advance.advance.advance).2.remaining_advance_le
  dsimp only
  split
  · split
    · split
      · split <;> (dsimp only; omega)
      · dsimp only; omega
    · exact Nat.le_trans h₄ h₁
  · exact Nat.le_refl _

theorem remaining_allowedEscape_le (allowed : Char → Bool) (r : Reader σ) :
    (allowedEscape allowed r).2.remaining ≤ r.advance.remaining :=
  remaining_unicodeEscape_le r

theorem remaining_plainRun_le (flags : CharFlags) (text : String) (r : Reader σ) :
    (plainRun flags text r).2.2.remaining ≤ r.remaining := by
  fun_induction plainRun flags text r with
  | case1 => exact Nat.le_refl _
  | case2 => exact Nat.le_refl _
  | case3 _ _ r _ _ _ _ ih => exact Nat.le_trans ih r.remaining_advance_le

/-- Reads identifier characters of all scripts and escapes on.  An escape that spells
no identifier character is an error, from its backslash to where the head was
left. -/
def carefulRun (w : Progress σ) : Progress σ × Option Diagnostic :=
  match _h : w.reader.char? with
  | none => (w, none)
  | some c =>
    if c == '\\' then
      match _he : allowedEscape isIdentifierPart w.reader with
      | (some d, r) =>
        carefulRun
          { canBeKeyword := w.canBeKeyword && CharFlags.isInKeyword d
            escaped := true
            text := w.text.push d
            reader := r }
      | (none, r) =>
        ({ w with reader := r }, some ⟨⟨w.reader.position, r.position⟩, .invalidUnicodeEscape⟩)
    else if isIdentifierPart c then
      carefulRun
        { w with
          canBeKeyword := w.canBeKeyword && CharFlags.isInKeyword c
          text := w.text.push c
          reader := w.reader.advance }
    else (w, none)
  termination_by w.reader.remaining
  decreasing_by
    · have hlt : w.reader.advance.remaining < w.reader.remaining :=
        Reader.remaining_advance_lt (by rw [_h]; rfl)
      have hle := remaining_allowedEscape_le isIdentifierPart w.reader
      rw [_he] at hle
      exact Nat.lt_of_le_of_lt hle hlt
    · exact Reader.remaining_advance_lt (by rw [_h]; rfl)

theorem remaining_carefulRun_le (w : Progress σ) :
    (carefulRun w).1.reader.remaining ≤ w.reader.remaining := by
  fun_induction carefulRun w with
  | case1 => exact Nat.le_refl _
  | case2 w _ _ _ d r he ih =>
    have hle := remaining_allowedEscape_le isIdentifierPart w.reader
    rw [he] at hle
    exact Nat.le_trans ih (Nat.le_trans hle w.reader.remaining_advance_le)
  | case3 w _ _ _ r he =>
    have hle := remaining_allowedEscape_le isIdentifierPart w.reader
    rw [he] at hle
    exact Nat.le_trans hle w.reader.remaining_advance_le
  | case4 w _ _ _ _ ih => exact Nat.le_trans ih w.reader.remaining_advance_le
  | case5 => exact Nat.le_refl _

/-! ### Kinds -/

/-- The kind of a word with the given text.  A text that cannot be a keyword is not
compared with them. -/
def kind (canBeKeyword escaped : Bool) (text : String) : TokenKind :=
  if canBeKeyword then
    match Keyword.ofText text with
    | none => .identifier
    | some k =>
      if !escaped || k.isContextual then .keyword k
      else if k.isStrictReserved then .escapedStrictReservedWord
      else .escapedKeyword
  else .identifier

/-- Reads a word on with care and tells its kind. -/
def finish (w : Progress σ) : Lexeme σ :=
  let (w, error?) := carefulRun w
  let text : TokenText := { cooked := w.text, escaped := w.escaped }
  match error? with
  | some d => .illegal d text w.reader
  | none => ⟨.ok (kind w.canBeKeyword w.escaped w.text), text, w.reader⟩

theorem reader_finish (w : Progress σ) : (finish w).reader = (carefulRun w).1.reader := by
  unfold finish
  dsimp only
  split <;> rfl

end Word

variable {σ : Type} [TextSource σ]

open Word in
/-- Reads an identifier or a keyword whose first character, the one under the head, is
`first`.  The text of the token begins with `text`. -/
def word (text : String) (first : Char) (r : Reader σ) : Lexeme σ :=
  if first == '\\' then
    match allowedEscape isIdentifierStart r with
    | (some c, r') => finish ⟨CharFlags.isInKeyword c, true, text.push c, r'⟩
    | (none, r') =>
      .illegal ⟨⟨r.position, r'.position⟩, .invalidUnicodeEscape⟩ { cooked := text } r'
  else if isAscii first then
    let (flags, text, r) :=
      plainRun (CharFlags.ofFirst (CharFlags.ofChar first)) (text.push first) r.advance
    -- the flags include those of the character that ended the run
    if flags.isSpecial then finish ⟨flags.canBeKeyword, false, text, r⟩
    else ⟨.ok (kind flags.canBeKeyword false text), { cooked := text }, r⟩
  else finish ⟨false, false, text.push first, r.advance⟩

theorem remaining_word_le (text : String) (first : Char) (r : Reader σ) :
    (word text first r).reader.remaining ≤ r.advance.remaining := by
  unfold word
  split
  · have h := Word.remaining_allowedEscape_le isIdentifierStart r
    split
    · next he =>
      rw [he] at h
      rw [Word.reader_finish]
      exact Nat.le_trans (Word.remaining_carefulRun_le _) h
    · next he =>
      rw [he] at h
      exact h
  · split
    · have h := Word.remaining_plainRun_le
        (CharFlags.ofFirst (CharFlags.ofChar first)) (text.push first) r.advance
      dsimp only
      split
      · rw [Word.reader_finish]
        exact Nat.le_trans (Word.remaining_carefulRun_le _) h
      · exact h
    · rw [Word.reader_finish]
      exact Word.remaining_carefulRun_le _

/-- Reads a private name, with the head on its number sign, which is the first
character of its text.  A number sign that no identifier follows is an error. -/
def privateName (r : Reader σ) : Lexeme σ :=
  match r.peek.filter isIdentifierStart with
  | some first =>
    let name := word "#" first r.advance
    { name with verdict := name.verdict.map fun _ => .privateName }
  | none => .illegal ⟨r.charSpan, .invalidPrivateName⟩ {} r.advance

theorem remaining_privateName_le (r : Reader σ) :
    (privateName r).reader.remaining ≤ r.advance.remaining := by
  unfold privateName
  split
  · exact Nat.le_trans (remaining_word_le _ _ _) r.advance.remaining_advance_le
  · exact Nat.le_refl _

end EcmaLex
