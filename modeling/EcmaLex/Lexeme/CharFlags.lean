import EcmaLex.Character.Class
import EcmaLex.Token.Keyword

/-!
# What one character says about a word

While a word is read, the facts about its characters that matter later are
gathered by a bitwise or.  If the union says that some character occurs in no
keyword, or that the first one starts none, the word need not be compared with
the keywords at all.

The flag of characters that start no keyword sits one bit above the flag of
those that occur in none.  Shifting the flags of the first character down by one
turns the one into the other and drops the lowest flag.

## Main definitions

* `CharFlags` — a set of facts about characters.
* `CharFlags.ofChar` — the facts about one character.
* `CharFlags.ofFirst` — the facts about the first character of a word, in terms of the word.
-/

namespace EcmaLex

/-- A set of facts about characters, one bit for each. -/
structure CharFlags where
  /-- The bits. -/
  bits : UInt8
  deriving DecidableEq, Repr

namespace CharFlags

/-- No fact. -/
def empty : CharFlags := ⟨0⟩

/-- The character is no ASCII identifier character, so that it ends a plain word. -/
def endsWord : CharFlags := ⟨1⟩

/-- The character occurs in no keyword. -/
def inNoKeyword : CharFlags := ⟨2⟩

/-- The character starts no keyword. -/
def startsNoKeyword : CharFlags := ⟨4⟩

/-- The character is a quote, a backslash, or an ASCII line terminator, so that it may
end a run of plain characters of a string literal. -/
def mayEndStringRun : CharFlags := ⟨8⟩

/-- The character is a backslash or no ASCII character, so that a word with it cannot
be read as a plain one. -/
def needsCare : CharFlags := ⟨16⟩

/-- The facts of both sets. -/
def union (f g : CharFlags) : CharFlags := ⟨f.bits ||| g.bits⟩

instance : OrOp CharFlags := ⟨union⟩

/-- Whether all facts of `g` are among those of `f`. -/
def contains (f g : CharFlags) : Bool := f.bits &&& g.bits == g.bits

/-- The fact if the condition holds. -/
def when (condition : Bool) (f : CharFlags) : CharFlags := if condition then f else empty

/-- Whether the character occurs in some keyword. -/
def isInKeyword (c : Char) : Bool := Keyword.words.any fun w => w.toList.contains c

/-- Whether the character is the first of some keyword. -/
def startsKeyword (c : Char) : Bool := Keyword.words.any fun w => w.toList.head? == some c

/-- The facts about an ASCII character. -/
def ofAscii (c : Char) : CharFlags :=
  when (isAsciiIdentifier c && !isInKeyword c) inNoKeyword |||
  when (!startsKeyword c) startsNoKeyword |||
  when (!isAsciiIdentifier c) endsWord |||
  when (c == '\'' || c == '"' || c == '\n' || c == '\r' || c == '\\') mayEndStringRun |||
  when (c == '\\') needsCare

/-- The facts about every ASCII character, by code point. -/
def asciiTable : Array CharFlags := Array.ofFn fun i : Fin 128 => ofAscii (Char.ofNat i)

/-- The facts about a character.  A character that is not ASCII ends a plain word,
needs care, and occurs in no keyword. -/
def ofChar (c : Char) : CharFlags :=
  if isAscii c then asciiTable.getD c.toNat empty
  else endsWord ||| needsCare ||| inNoKeyword

/-- The facts about the first character of a word, shifted so that a character which
starts no keyword counts as one that occurs in none. -/
def ofFirst (f : CharFlags) : CharFlags := ⟨f.bits >>> 1⟩

/-- Whether the plain part of a word ends at the character. -/
def isWordEnd (f : CharFlags) : Bool := f.contains endsWord

/-- Whether no character so far rules out a keyword. -/
def canBeKeyword (f : CharFlags) : Bool := !f.contains inNoKeyword

/-- Whether the word cannot be read as a plain one. -/
def isSpecial (f : CharFlags) : Bool := f.contains needsCare

/-- Whether a run of plain characters of a string literal may end at the character. -/
def isStringRunEnd (f : CharFlags) : Bool := f.contains mayEndStringRun

/-- The table holds the facts it was made from. -/
theorem ofChar_of_isAscii {c : Char} (h : isAscii c = true) : ofChar c = ofAscii c := by
  have hlt : c.toNat < 128 := by simpa [isAscii] using h
  simp only [ofChar, h, if_true, asciiTable, Array.getD, Array.size_ofFn, hlt, dif_pos,
    Array.getInternal_eq_getElem, Array.getElem_ofFn, Char.ofNat_toNat]

theorem ofChar_of_not_isAscii {c : Char} (h : isAscii c = false) :
    ofChar c = endsWord ||| needsCare ||| inNoKeyword := by
  simp [ofChar, h]

end CharFlags

end EcmaLex
