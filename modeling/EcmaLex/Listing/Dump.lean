import EcmaLex.Listing.Basic
import EcmaLex.Text.Quoted

/-!
# Token dumps

A listing as text: a header with the number of tokens, and a line for each token
with its kind and place.  After these stands the value of a small integer, or the
cooked text of any other token that has some; on request the raw text follows
where it is not empty and not the same.

## Main definitions

* `Listing.tokenLine` — the line of a token.
* `Listing.dump` — the dump of a listing.
-/

namespace EcmaLex

namespace Listing

/-- What a dump says about the cooked text of a token. -/
def cookedPart (t : Token) : String :=
  match t.smallInt? with
  | some n => s!"  = {n}"
  | none => if t.cooked.isEmpty then "" else "  " ++ Quoted.encode t.cooked

/-- What a dump says about the raw text of a token, if it is to say anything. -/
def rawPart (showRaw : Bool) (t : Token) : String :=
  if showRaw && !t.raw.isEmpty && t.raw != t.cooked then "  raw " ++ Quoted.encode t.raw else ""

/-- The line of a token. -/
def tokenLine (showRaw : Bool) (t : Token) : String :=
  "  " ++ t.kind.name ++ " @ " ++ t.span.render ++ cookedPart t ++ rawPart showRaw t

/-- The header of a dump of so many tokens. -/
def header (path : String) (count : Nat) : String := s!"Tokens for '{path}' ({count} tokens):"

/-- The last line of a dump, where there is an HTML-like comment. -/
def htmlLine : String := "(contains HTML-like comments)"

/-- The lines of the dump of a listing. -/
def dumpLines (path : String) (showRaw : Bool) (l : Listing) : List String :=
  header path l.tokens.size :: l.tokens.toList.map (tokenLine showRaw) ++
    if l.htmlComment then [htmlLine] else []

/-- The dump of a listing, every line ended by a line feed. -/
def dump (path : String) (showRaw : Bool) (l : Listing) : String :=
  String.join ((dumpLines path showRaw l).map (· ++ "\n"))

end Listing

end EcmaLex
