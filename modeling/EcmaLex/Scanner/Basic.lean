import EcmaLex.Scanner.Step

/-!
# The scanner

The scanner holds up to three tokens: the current one, the next one, which is
always scanned ahead, and on request the one after that.  Moving on takes the
token ahead as the current one, and scans a fresh token only where none is held
already, so that no piece of the text is scanned twice.

The place of the third token is empty most of the time.  When it is, it keeps
what it held before except the kind.

## Main definitions

* `Scanner` — the state of a scan.
* `Scanner.start` — the move onto the first token.
* `Scanner.advance`, `Scanner.peekAhead` — moving on, and looking one token further.
* `Scanner.continueTemplate` — reading a closing brace as the middle of a template.
* `Scanner.tokens` — all tokens before the end of input.
-/

namespace EcmaLex

/-- The state of a scan. -/
structure Scanner (σ : Type) where
  /-- The options. -/
  settings : Settings
  /-- The reader, on the first character after the last token scanned. -/
  reader : Reader σ
  /-- What has been noted beside the tokens. -/
  findings : Findings := {}
  /-- The token that the scanner was last moved onto. -/
  current : Token := .absent
  /-- The token after the current one. -/
  next : Token := .absent
  /-- The token after the next one, if its kind says that there is one. -/
  afterNext : Token := .absent

/-- The three tokens of a scanner. -/
inductive Slot where
  | current
  | next
  | afterNext
  deriving DecidableEq, Repr

namespace Scanner

variable {σ : Type}

/-- A scanner before a text. -/
def ofSource (settings : Settings) (source : σ) : Scanner σ :=
  { settings, reader := .ofSource source }

/-- The token in a slot. -/
def token (s : Scanner σ) : Slot → Token
  | .current => s.current
  | .next => s.next
  | .afterNext => s.afterNext

/-- Whether the token after the next one has been scanned. -/
def isAhead (s : Scanner σ) : Bool := s.afterNext.kind != .uninitialized

theorem not_isAhead_iff {s : Scanner σ} :
    s.isAhead = false ↔ s.afterNext.kind = .uninitialized := by
  simp [isAhead]

/-- The number that the current token denotes. -/
def numericValue (s : Scanner σ) : Option Float := s.current.numericValue

/-- Whether the text of the current token is the given one. -/
def currentIs (s : Scanner σ) (text : String) : Bool := s.current.cooked == text

/-- Whether the text of the next token is the given one, spelled without escapes. -/
def nextIs (s : Scanner σ) (text : String) : Bool := !s.next.escaped && s.next.cooked == text

/-- Forgets the literal noted for strict mode code. -/
def dropOctal (s : Scanner σ) : Scanner σ :=
  { s with findings := { s.findings with octal? := none } }

variable [SearchableSource σ]

/-- Scans the token under the reader.  `lineBreak` says whether it counts as preceded
by a line terminator in any case. -/
def scan (s : Scanner σ) (lineBreak : Bool) : Token × Scanner σ :=
  let scanned := scanToken s.settings lineBreak s.findings s.reader
  (scanned.token, { s with findings := scanned.findings, reader := scanned.reader })

/-- Moves the reader onto the first character, past a line that names an interpreter
if the settings allow one, and scans the first token ahead.  It counts as preceded
by a line terminator. -/
def start (s : Scanner σ) : Scanner σ :=
  let r := s.reader.advance
  let r := if s.settings.hashbang then Gap.hashbang r else r
  let (t, s) := { s with reader := r }.scan true
  { s with next := t }

/-- Moves on to the next token, which becomes the current one. -/
def advance (s : Scanner σ) : Scanner σ :=
  if s.isAhead then
    -- the token that is left behind makes room, and only its kind is erased
    { s with
      current := s.next
      next := s.afterNext
      afterNext := { s.current with kind := .uninitialized } }
  else
    let (t, s') := s.scan false
    { s' with current := s.next, next := t }

/-- What is wrong with the current token, or its kind. -/
def verdict (s : Scanner σ) : Except Diagnostic TokenKind :=
  match s.current.error? with
  | some d => .error d
  | none => .ok s.current.kind

/-- Scans the token after the next one, unless that has been done. -/
def peekAhead (s : Scanner σ) : Scanner σ :=
  if s.isAhead then s
  else
    let (t, s) := s.scan false
    { s with afterNext := t }

/-- Whether the next token is a closing brace right before the reader. -/
def canContinueTemplate (s : Scanner σ) : Bool :=
  s.next.kind == .punctuator .rightBrace && !s.isAhead

omit [SearchableSource σ] in
theorem canContinueTemplate_iff {s : Scanner σ} :
    s.canContinueTemplate = true ↔
      s.next.kind = .punctuator .rightBrace ∧ s.afterNext.kind = .uninitialized := by
  rw [canContinueTemplate, Bool.and_eq_true, beq_iff_eq, Bool.not_eq_true', not_isAhead_iff]

/-- Reads the next token, the brace that closes a substitution, as the piece of the
template that goes on after it.  The piece begins with the brace and takes over
its place in the line.  Nothing changes if the next token is no closing brace or
a token after it has been scanned. -/
def continueTemplate (s : Scanner σ) : TokenKind × Scanner σ :=
  if s.canContinueTemplate then
    -- the brace is read already, so the head is on the first character of the piece
    let start := s.next.span.start
    let l := templatePiece start s.reader
    let t := l.toToken start s.next.afterLineTerminator
    (t.kind, { s with next := t, reader := l.reader })
  else (.illegal, s)

/-! ### All tokens -/

/-- A bound on the number of tokens still to come, not counting ends of input. -/
def pending (s : Scanner σ) : Nat :=
  s.reader.remaining + (s.next.kind != .endOfInput).toNat + s.isAhead.toNat

theorem advance_of_isAhead {s : Scanner σ} (h : s.isAhead = true) :
    s.advance = { s with
      current := s.next
      next := s.afterNext
      afterNext := { s.current with kind := .uninitialized } } :=
  if_pos h

theorem advance_of_not_isAhead {s : Scanner σ} (h : s.isAhead = false) :
    s.advance = { (s.scan false).2 with current := s.next, next := (s.scan false).1 } :=
  if_neg (by simp [h])

theorem advance_current (s : Scanner σ) : s.advance.current = s.next := by
  cases h : s.isAhead with
  | true => rw [advance_of_isAhead h]
  | false => rw [advance_of_not_isAhead h]

theorem pending_advance_lt {s : Scanner σ} (h : s.advance.current.kind ≠ .endOfInput) :
    s.advance.pending < s.pending := by
  rw [advance_current] at h
  have hk : (s.next.kind != .endOfInput) = true := by simpa using h
  cases ha : s.isAhead with
  | true =>
    have hle := (s.afterNext.kind != .endOfInput).toNat_le
    rw [advance_of_isAhead ha, pending, pending, hk, ha]
    simp only [isAhead, bne_self_eq_false, Bool.toNat_true, Bool.toNat_false]
    omega
  | false =>
    have hle := remaining_scanToken_le s.settings false s.findings s.reader
    have hs : (s.scan false).2.isAhead = false := ha
    rw [advance_of_not_isAhead ha, pending, pending, hk, ha]
    simp only [isAhead] at hs ⊢
    rw [hs]
    by_cases he : (s.scan false).1.kind = .endOfInput
    · rw [he]
      simp only [scan, bne_self_eq_false, Bool.toNat_true, Bool.toNat_false]
      omega
    · have hlt := remaining_scanToken_lt s.settings false s.findings s.reader he
      have := ((s.scan false).1.kind != .endOfInput).toNat_le
      simp only [scan, Bool.toNat_true, Bool.toNat_false] at *
      omega

/-- The tokens after the current one, in order and up to the end of input, which is left
out. -/
def tokens (s : Scanner σ) : List Token :=
  let s' := s.advance
  if _h : s'.current.kind = .endOfInput then [] else s'.current :: tokens s'
  termination_by s.pending
  decreasing_by exact pending_advance_lt _h

end Scanner

end EcmaLex
