import EcmaLex.Scanner.Basic

/-!
# Operations on a scanner

All that a caller can do with a scanner, as data, so that statements about every
way to use a scanner are statements about lists of operations.

## Main definitions

* `Operation` — what a caller can do.
* `Operation.perform` — the answer to an operation, and the scanner after it.
* `Scanner.run` — the scanner after a list of operations.
* `Operation.keepsStream` — the operations that have no say in what is scanned.
-/

namespace EcmaLex

/-- A question that a scanner answers from what it holds. -/
inductive Query where
  /-- What is in a slot? -/
  | token (slot : Slot)
  /-- Which number does the current token denote? -/
  | numericValue
  /-- Is the current token spelled like this? -/
  | currentIs (text : String)
  /-- Is the next token spelled like this, without escapes? -/
  | nextIs (text : String)
  /-- What has been noted beside the tokens? -/
  | findings
  /-- What are the options? -/
  | settings
  deriving DecidableEq, Repr

/-- What a caller can do with a scanner. -/
inductive Operation where
  /-- Move onto the first token. -/
  | start
  /-- Move on to the next token. -/
  | advance
  /-- Move on to the next token and ask what is wrong with it. -/
  | tryAdvance
  /-- Look at the token after the next one. -/
  | peekAhead
  /-- Ask where the token after the next one is. -/
  | peekAheadSpan
  /-- Ask whether the token after the next one is on a line of its own. -/
  | lineBreakAhead
  /-- Read the next token, a closing brace, as the middle of a template. -/
  | continueTemplate
  /-- Ask for the latest literal that strict mode code may not hold, and forget it. -/
  | takeOctal
  /-- Ask a question. -/
  | query (q : Query)
  deriving DecidableEq, Repr

/-- What a scanner answers. -/
inductive Reply where
  | done
  | kind (k : TokenKind)
  | verdict (v : Except Diagnostic TokenKind)
  | span (s : Span)
  | flag (b : Bool)
  | token (t : Token)
  | number (v? : Option Float)
  | octal (d? : Option Diagnostic)
  | findings (f : Findings)
  | settings (s : Settings)

namespace Query

/-- The answer to a question. -/
def answer {σ : Type} (s : Scanner σ) : Query → Reply
  | token slot => .token (s.token slot)
  | numericValue => .number s.numericValue
  | currentIs text => .flag (s.currentIs text)
  | nextIs text => .flag (s.nextIs text)
  | findings => .findings s.findings
  | settings => .settings s.settings

end Query

namespace Operation

/-- Whether the operation moves on to the next token. -/
def moves : Operation → Bool
  | advance | tryAdvance => true
  | _ => false

/-- Whether the operation has no say in what is scanned.  Only the start of a scan
and the continuation of a template have one. -/
def keepsStream : Operation → Bool
  | start | continueTemplate => false
  | _ => true

variable {σ : Type} [SearchableSource σ]

/-- The answer to an operation, and the scanner after it. -/
def perform (s : Scanner σ) : Operation → Reply × Scanner σ
  | start => (.done, s.start)
  | advance => (.kind s.advance.current.kind, s.advance)
  | tryAdvance => (.verdict s.advance.verdict, s.advance)
  | peekAhead => (.kind s.peekAhead.afterNext.kind, s.peekAhead)
  | peekAheadSpan => (.span s.peekAhead.afterNext.span, s.peekAhead)
  | lineBreakAhead => (.flag s.peekAhead.afterNext.afterLineTerminator, s.peekAhead)
  | continueTemplate => (.kind s.continueTemplate.1, s.continueTemplate.2)
  | takeOctal => (.octal s.findings.octal?, s.dropOctal)
  | query q => (q.answer s, s)

end Operation

namespace Scanner

variable {σ : Type} [SearchableSource σ]

/-- The scanner after a list of operations. -/
def run (s : Scanner σ) : List Operation → Scanner σ
  | [] => s
  | op :: ops => run (op.perform s).2 ops

/-- How often a list of operations moves on. -/
def moveCount (ops : List Operation) : Nat := ops.countP Operation.moves

theorem run_append (s : Scanner σ) (ops ops' : List Operation) :
    s.run (ops ++ ops') = (s.run ops).run ops' := by
  induction ops generalizing s with
  | nil => rfl
  | cons op ops ih => exact ih _

end Scanner

end EcmaLex
