import EcmaLex.Scanner.Basic
import EcmaLex.Source.ByteCursor

/-!
# Listings

The listing of a text is all its tokens, up to and including the end of input,
with what is wrong with them and what would be wrong with them in strict mode
code.  Scanning goes on after an error, unless it is a fatal one.

The scanner is one token ahead of the listing.  What it notes for strict mode
code when it moves onto a token belongs to the token after that one, and counts
only if the listing gets there.

## Main definitions

* `Listing` — the listing of a text.
* `Listing.collect` — listing what a scanner yields.
* `tokenize` — the listing of a string.
-/

namespace EcmaLex

/-- All the tokens of a text, and the diagnostics. -/
structure Listing where
  /-- The tokens, up to the end of input or a fatal error. -/
  tokens : Array Token := #[]
  /-- What is wrong with the illegal tokens, in their order. -/
  errors : Array Diagnostic := #[]
  /-- What strict mode code would say to legacy literals, in their order. -/
  strictDiagnostics : Array Diagnostic := #[]
  /-- Whether the opening of an HTML-like comment was found. -/
  htmlComment : Bool := false
  deriving Repr

namespace Listing

/-- Whether anything is wrong with the text. -/
def hasErrors (l : Listing) : Bool := !l.errors.isEmpty

/-- The kinds of the tokens. -/
def kinds (l : Listing) : List TokenKind := l.tokens.toList.map (·.kind)

/-- Adds a token and what is wrong with it. -/
def pushToken (l : Listing) (t : Token) : Listing :=
  { l with
    tokens := l.tokens.push t
    errors := t.error?.elim l.errors l.errors.push }

/-- Adds a diagnostic for strict mode code, if there is one. -/
def pushStrict (l : Listing) (d? : Option Diagnostic) : Listing :=
  { l with strictDiagnostics := d?.elim l.strictDiagnostics l.strictDiagnostics.push }

variable {σ : Type} [SearchableSource σ]

/-- Whether nothing is listed after the token. -/
def isLast (t : Token) : Bool := t.kind == .endOfInput || t.isFatal

theorem pending_dropOctal (s : Scanner σ) : s.dropOctal.pending = s.pending := rfl

/-- Lists the tokens that a scanner yields from here on. -/
def collect (l : Listing) (s : Scanner σ) : Listing :=
  let s' := s.advance
  let l := l.pushToken s'.current
  if _h : isLast s'.current = true then { l with htmlComment := s'.findings.htmlComment }
  else collect (l.pushStrict s'.findings.octal?) s'.dropOctal
  termination_by s.pending
  decreasing_by
    rw [pending_dropOctal]
    refine Scanner.pending_advance_lt fun hk => _h ?_
    show isLast s.advance.current = true
    rw [isLast, hk]
    rfl

/-- The listing of what a source holds. -/
def ofSource (settings : Settings) (source : σ) : Listing :=
  let s := (Scanner.ofSource settings source).start
  -- the first token is scanned by now, and what it was noted for is its own
  collect (({} : Listing).pushStrict s.findings.octal?) s.dropOctal

end Listing

/-- The listing of a string. -/
def tokenize (settings : Settings) (source : String) : Listing :=
  Listing.ofSource settings (ByteCursor.ofString source)

end EcmaLex
