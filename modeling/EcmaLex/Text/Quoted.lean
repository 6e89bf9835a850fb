import EcmaLex.Character.Class

/-!
# Quoted text

A text in double quotes on one line, from which it can be read off exactly.
Quotes and backslashes are escaped by a backslash, the common controls have
letters of their own, and every other character without a glyph of its own is
written as its code point in braces.

## Main definitions

* `Quoted.encodeChar` — one character, as it stands between the quotes.
* `Quoted.encode` — the quoted text.
-/

namespace EcmaLex

namespace Quoted

/-- The lower-case hexadecimal digits of a code point, after `\u` and in braces. -/
def codePoint (c : Char) : List Char :=
  '\\' :: 'u' :: '\x7b' :: (Nat.toDigits 16 c.toNat ++ ['\x7d'])

/-- A character as it stands between the quotes. -/
def encodeChar (c : Char) : List Char :=
  if c = '"' || c = '\\' then ['\\', c]
  else if c = '\x00' then ['\\', '0']
  else if c = '\t' then ['\\', 't']
  else if c = '\n' then ['\\', 'n']
  else if c = '\r' then ['\\', 'r']
  else if isInvisible c then codePoint c
  else [c]

/-- The text in quotes. -/
def encode (text : String) : String :=
  String.ofList ('"' :: (text.toList.flatMap encodeChar ++ ['"']))

end Quoted

end EcmaLex
