import EcmaLex.Lexeme.Basic
import EcmaLex.Settings

/-!
# Numeric literals

A numeric literal is read as a sequence of runs of digits with marks between
them: the mark of the radix, the point, the letter and sign of the exponent, the
suffix of a BigInt.  While it is read two texts grow.  The raw one holds all
that was written; the cooked one leaves out the separators and the suffix.  When
something is wrong, the literal ends there and keeps the texts so far.

A decimal integer that is short and not too great is a *small integer*, and its
value is worked out at once.

## Main definitions

* `Numeral` — a numeric literal while it is read.
* `Numeral.Reading` — a step of the reading, which may find something wrong.
* `Numeral.digitRun` — a run of digits with separators between them.
* `Numeral.smallInt?` — the value of a decimal integer, if it is a small integer.
* `numeral`, `fractionNumeral` — a numeric literal that starts with a digit, or with a point.
-/

namespace EcmaLex

/-- A numeric literal while it is read. -/
structure Numeral (σ : Type) where
  /-- The text without separators and suffix. -/
  cooked : String
  /-- The text as it is written. -/
  raw : String
  /-- The reader, on the next character. -/
  reader : Reader σ

namespace Numeral

variable {σ : Type} [TextSource σ]

/-- Appends a character to both texts. -/
def append (c : Char) (n : Numeral σ) : Numeral σ :=
  { n with cooked := n.cooked.push c, raw := n.raw.push c }

/-- Appends the character under the head to both texts and moves on. -/
def take (n : Numeral σ) : Numeral σ :=
  { n.reader.char?.elim n n.append with reader := n.reader.advance }

/-- Appends the character under the head to the raw text only and moves on. -/
def takeRaw (n : Numeral σ) : Numeral σ :=
  { n with raw := n.reader.char?.elim n.raw n.raw.push, reader := n.reader.advance }

/-- A step of the reading.  What was read stays read when the step finds something
wrong. -/
abbrev Reading (σ : Type) : Type → Type := EStateM Diagnostic (Numeral σ)

/-- The numeral after a step, whatever its outcome. -/
def after {α : Type} (x : Reading σ α) (n : Numeral σ) : Numeral σ :=
  match x n with
  | .ok _ n' => n'
  | .error _ n' => n'

/-- Ends the reading with the given cause, at the character under the head. -/
def failHere {α : Type} (cause : Cause) : Reading σ α := do
  throw ⟨(← get).reader.charSpan, cause⟩

/-! ### Runs of digits -/

/-- The digits and separators under the head.  `seen` says whether a digit of the run
has been read, and `separator` is the place of the separator right before the
head, if there is one.  A separator has to stand between two digits. -/
def digitRun (isDigit : Char → Bool) (separators seen : Bool) (separator : Option Span)
    (n : Numeral σ) : Numeral σ × Option Diagnostic :=
  match _h : n.reader.char? with
  | none => (n, separator.map (⟨·, .trailingSeparator⟩))
  | some c =>
    if isDigit c then digitRun isDigit separators true none n.take
    else if c == '_' && separators then
      if !seen then (n, some ⟨n.reader.charSpan, .leadingSeparator⟩)
      else if separator.isSome then (n, some ⟨n.reader.charSpan, .continuousSeparator⟩)
      else digitRun isDigit separators seen (some n.reader.charSpan) n.takeRaw
    else (n, separator.map (⟨·, .trailingSeparator⟩))
  termination_by n.reader.remaining
  decreasing_by
    all_goals exact Reader.remaining_advance_lt (r := n.reader) (by rw [_h]; rfl)

/-- Reads a run of digits that may be empty. -/
def digits (isDigit : Char → Bool) (separators seen : Bool) : Reading σ Unit := fun n =>
  match digitRun isDigit separators seen none n with
  | (n, none) => .ok () n
  | (n, some d) => .error d n

/-- Reads a run of digits that may not be empty. -/
def someDigits (isDigit : Char → Bool) (separators : Bool) : Reading σ Unit := do
  let r := (← get).reader
  if r.isAtAny isDigit then digits isDigit separators false
  else if separators && r.isAt '_' then failHere .leadingSeparator
  else failHere .missingDigits

/-- Reads on through octal digits.  Says whether a digit that is not octal follows. -/
def octalRun (n : Numeral σ) : Bool × Numeral σ :=
  match _h : n.reader.char? with
  | none => (false, n)
  | some c =>
    if isNonOctalDecimalDigit c then (true, n)
    else if isOctalDigit c then octalRun n.take
    else (false, n)
  termination_by n.reader.remaining
  decreasing_by exact Reader.remaining_advance_lt (r := n.reader) (by rw [_h]; rfl)

/-! ### Small integers -/

/-- The greatest small integer. -/
def maxSmallInt : Nat := 0x7FFFFFFF

/-- The most digits that a small integer is written with. -/
def maxSmallIntDigits : Nat := 10

/-- The nearest number of 64 bits. -/
def saturate (n : Nat) : Nat := min n 0xFFFFFFFFFFFFFFFF

/-- The number denoted by a list of decimal digits, stuck at the greatest number of 64
bits once it gets there. -/
def saturatingValue (ds : List Char) : Nat :=
  ds.foldl (fun v c => saturate (saturate (v * 10) + (hexDigitValue c).getD 0)) 0

/-- The value of a decimal integer that was just read, if it is short, not too great,
and followed neither by a point nor by an identifier. -/
def smallInt? (n : Numeral σ) : Option Nat :=
  let value := saturatingValue n.cooked.toList
  if n.cooked.utf8ByteSize ≤ maxSmallIntDigits && !n.reader.isAt '.' &&
      !n.reader.isAtAny isIdentifierStart && value ≤ maxSmallInt then
    some value
  else none

/-! ### The parts of a literal -/

/-- Reads a mark of the radix and the digits after it. -/
def radixDigits (form : NumberForm) (isDigit : Char → Bool) (separators : Bool) :
    Reading σ NumberForm := do
  modify take
  someDigits isDigit separators
  return form

/-- Reads what tells the form of a literal, with the head after its first digit.  A
first digit other than zero tells that the form is decimal. -/
def lead (settings : Settings) (first : Char) : Reading σ NumberForm := do
  if first != '0' then return .decimal
  let separators := settings.numericSeparators
  match (← get).reader.char? with
  | none => return .decimal
  | some c =>
    if c == 'x' || c == 'X' then radixDigits .hex isHexDigit separators
    else if c == 'o' || c == 'O' then radixDigits .octal isOctalDigit separators
    else if c == 'b' || c == 'B' then radixDigits .binary isBinaryDigit separators
    else if isOctalDigit c then
      modifyGet fun n =>
        let (decimal, n) := octalRun n
        (if decimal then .decimalWithLeadingZero else .implicitOctal, n)
    else if isNonOctalDecimalDigit c then return .decimalWithLeadingZero
    -- a zero that does not mark a radix takes no separator after it
    else if c == '_' && separators then failHere .zeroDigitSeparator
    else return .decimal

/-- Whether separators may stand between the digits of a literal of the form. -/
def allowsSeparators (settings : Settings) (form : NumberForm) : Bool :=
  form != .decimalWithLeadingZero && settings.numericSeparators

/-- Reads a point and the digits after it.  Says whether there is a point. -/
def fraction (separators : Bool) : Reading σ Bool := do
  if (← get).reader.isAt '.' then
    modify take
    digits isDecimalDigit separators false
    return true
  else return false

/-- Reads the suffix of a BigInt.  The length of the literal is the distance from the
end of the mark of the radix to the suffix. -/
def bigIntSuffix (settings : Settings) (start : Nat) (form : NumberForm) : Reading σ Unit := do
  let position := (← get).reader.position
  if settings.maxBigIntDigits < position - (start + form.prefixLength) then
    throw ⟨⟨start, position⟩, .bigIntTooBig⟩
  else modify takeRaw

/-- Reads the sign of an exponent, if there is one. -/
def sign : Reading σ Unit := do
  if (← get).reader.isAtAny fun c => c == '+' || c == '-' then modify take else return ()

/-- Reads the letter of an exponent, its sign and its digits.  Only decimal literals
have exponents. -/
def exponent (settings : Settings) (form : NumberForm) : Reading σ Unit :=
  if form.isDecimal then do
    modify take
    sign
    someDigits isDecimalDigit (allowsSeparators settings form)
  else failHere .identifierAfterNumber

/-- Reads a suffix or an exponent, if there is one, and tells the kind of the token. -/
def suffix (settings : Settings) (start : Nat) (form : NumberForm) (pointSeen : Bool) :
    Reading σ TokenKind := do
  let r := (← get).reader
  if r.isAt 'n' && !pointSeen && form.allowsBigInt then
    bigIntSuffix settings start form
    return .bigInt
  else if r.isAtAny fun c => c == 'e' || c == 'E' then
    exponent settings form
    return .number
  else return .number

/-- Makes sure that neither a digit nor an identifier follows. -/
def boundary : Reading σ Unit := do
  if (← get).reader.isAtAny fun c => isDecimalDigit c || isIdentifierStart c then
    failHere .identifierAfterNumber
  else return ()

/-- Reads the end of a literal of the given form, of which `pointSeen` says whether it
has a point. -/
def ending (settings : Settings) (start : Nat) (form : NumberForm) (pointSeen : Bool) :
    Reading σ TokenKind := do
  let kind ← suffix settings start form pointSeen
  boundary
  return kind

/-- What is known of a literal that has been read without an error. -/
structure Verdict where
  /-- The kind of the token. -/
  kind : TokenKind
  /-- The form of the literal. -/
  form : NumberForm
  /-- The value of a small integer. -/
  smallInt? : Option Nat := none

/-- Reads a literal on, with the head after its first digit. -/
def afterFirstDigit (settings : Settings) (start : Nat) (first : Char) :
    Reading σ Verdict := do
  let form ← lead settings first
  if form.isDecimal then
    let separators := allowsSeparators settings form
    digits isDecimalDigit separators true
    match (← get).smallInt?.filter fun _ => form == .decimal with
    | some value => return { kind := .smallInt, form, smallInt? := some value }
    | none =>
      -- the digits are read, and what follows decides what they belong to
      let pointSeen ← fraction separators
      return { kind := ← ending settings start form pointSeen, form }
  else return { kind := ← ending settings start form false, form }

/-- Reads a literal on, with the head after its point, which is its first
character. -/
def afterPoint (settings : Settings) (start : Nat) : Reading σ Verdict := do
  someDigits isDecimalDigit settings.numericSeparators
  return { kind := ← ending settings start .decimal true, form := .decimal }

/-- The lexeme that a reading gives. -/
def lexeme (x : Reading σ Verdict) (n : Numeral σ) : Lexeme σ :=
  match x n with
  | .ok v n =>
    ⟨.ok v.kind,
      { cooked := n.cooked, raw := n.raw, smallInt? := v.smallInt?, form? := some v.form },
      n.reader⟩
  | .error d n => .illegal d { cooked := n.cooked, raw := n.raw } n.reader

end Numeral

variable {σ : Type} [TextSource σ]

/-- Reads a numeric literal that starts with the digit `first`, which is under the
head. -/
def numeral (settings : Settings) (first : Char) (r : Reader σ) : Lexeme σ :=
  Numeral.lexeme (Numeral.afterFirstDigit settings r.position first)
    { cooked := .singleton first, raw := .singleton first, reader := r.advance }

/-- Reads a numeric literal that starts with a point, at `start`; the head is on the
digit after it. -/
def fractionNumeral (settings : Settings) (start : Nat) (r : Reader σ) : Lexeme σ :=
  Numeral.lexeme (Numeral.afterPoint settings start)
    { cooked := ".", raw := ".", reader := r }

namespace Numeral

/-! ### Readings move forward -/

/-- A reading that does not move the head back. -/
def Forward {α : Type} (x : Reading σ α) : Prop :=
  ∀ n, (after x n).reader.remaining ≤ n.reader.remaining

namespace Forward

variable {α β : Type}

theorem pure (a : α) : Forward (Pure.pure a : Reading σ α) := fun _ => Nat.le_refl _

theorem throw (d : Diagnostic) : Forward (MonadExcept.throw d : Reading σ α) :=
  fun _ => Nat.le_refl _

theorem get : Forward (MonadState.get : Reading σ (Numeral σ)) := fun _ => Nat.le_refl _

theorem modifyGet {f : Numeral σ → α × Numeral σ}
    (h : ∀ n, (f n).2.reader.remaining ≤ n.reader.remaining) :
    Forward (MonadStateOf.modifyGet f : Reading σ α) := h

theorem bind {x : Reading σ α} {f : α → Reading σ β} (hx : Forward x)
    (hf : ∀ a, Forward (f a)) : Forward (x >>= f) := by
  intro n
  have h := hx n
  simp only [after, Bind.bind, EStateM.bind] at h ⊢
  cases hr : x n with
  | ok a n' =>
    rw [hr] at h
    exact Nat.le_trans (hf a n') h
  | error d n' =>
    rw [hr] at h
    exact h

theorem ite {c : Prop} [Decidable c] {x y : Reading σ α} (hx : Forward x) (hy : Forward y) :
    Forward (if c then x else y) := by
  split
  · exact hx
  · exact hy

end Forward

theorem remaining_take_le (n : Numeral σ) : n.take.reader.remaining ≤ n.reader.remaining :=
  n.reader.remaining_advance_le

theorem remaining_digitRun_le (isDigit : Char → Bool) (separators seen : Bool)
    (separator : Option Span) (n : Numeral σ) :
    (digitRun isDigit separators seen separator n).1.reader.remaining ≤ n.reader.remaining := by
  fun_induction digitRun isDigit separators seen separator n with
  | case1 => exact Nat.le_refl _
  | case2 _ _ n _ _ _ ih => exact Nat.le_trans ih n.reader.remaining_advance_le
  | case3 => exact Nat.le_refl _
  | case4 => exact Nat.le_refl _
  | case5 _ _ n _ _ _ _ _ _ ih => exact Nat.le_trans ih n.reader.remaining_advance_le
  | case6 => exact Nat.le_refl _

theorem remaining_octalRun_le (n : Numeral σ) :
    (octalRun n).2.reader.remaining ≤ n.reader.remaining := by
  fun_induction octalRun n with
  | case1 => exact Nat.le_refl _
  | case2 => exact Nat.le_refl _
  | case3 n _ _ _ _ ih => exact Nat.le_trans ih n.reader.remaining_advance_le
  | case4 => exact Nat.le_refl _

theorem forward_failHere {α : Type} (cause : Cause) :
    Forward (failHere cause : Reading σ α) :=
  Forward.get.bind fun _ => Forward.throw _

theorem forward_take : Forward (modify take : Reading σ PUnit) :=
  Forward.modifyGet remaining_take_le

theorem forward_digits (isDigit : Char → Bool) (separators seen : Bool) :
    Forward (digits (σ := σ) isDigit separators seen) := by
  intro n
  have h := remaining_digitRun_le isDigit separators seen none n
  unfold after digits
  generalize digitRun isDigit separators seen none n = run at h ⊢
  obtain ⟨n', _ | d⟩ := run <;> exact h

theorem forward_someDigits (isDigit : Char → Bool) (separators : Bool) :
    Forward (someDigits (σ := σ) isDigit separators) :=
  Forward.get.bind fun _ =>
    .ite (forward_digits _ _ _) (.ite (forward_failHere _) (forward_failHere _))

theorem forward_radixDigits (form : NumberForm) (isDigit : Char → Bool) (separators : Bool) :
    Forward (radixDigits (σ := σ) form isDigit separators) :=
  forward_take.bind fun _ => (forward_someDigits _ _).bind fun _ => .pure _

theorem forward_lead (settings : Settings) (first : Char) :
    Forward (lead (σ := σ) settings first) := by
  unfold lead
  refine .ite (.pure _) (Forward.get.bind fun n => ?_)
  split
  · exact .pure _
  · exact .ite (forward_radixDigits _ _ _) <| .ite (forward_radixDigits _ _ _) <|
      .ite (forward_radixDigits _ _ _) <| .ite (.modifyGet remaining_octalRun_le) <|
      .ite (.pure _) <| .ite (forward_failHere _) (.pure _)

theorem forward_fraction (separators : Bool) : Forward (fraction (σ := σ) separators) :=
  Forward.get.bind fun _ =>
    .ite (forward_take.bind fun _ => (forward_digits _ _ _).bind fun _ => .pure _) (.pure _)

theorem forward_bigIntSuffix (settings : Settings) (start : Nat) (form : NumberForm) :
    Forward (bigIntSuffix (σ := σ) settings start form) :=
  Forward.get.bind fun _ => .ite (.throw _) (.modifyGet fun n => n.reader.remaining_advance_le)

theorem forward_sign : Forward (sign (σ := σ)) :=
  Forward.get.bind fun _ => .ite forward_take (.pure _)

theorem forward_exponent (settings : Settings) (form : NumberForm) :
    Forward (exponent (σ := σ) settings form) :=
  .ite (forward_take.bind fun _ => forward_sign.bind fun _ => forward_someDigits _ _)
    (forward_failHere _)

theorem forward_suffix (settings : Settings) (start : Nat) (form : NumberForm)
    (pointSeen : Bool) : Forward (suffix (σ := σ) settings start form pointSeen) :=
  Forward.get.bind fun _ =>
    .ite ((forward_bigIntSuffix _ _ _).bind fun _ => .pure _)
      (.ite ((forward_exponent _ _).bind fun _ => .pure _) (.pure _))

theorem forward_boundary : Forward (boundary (σ := σ)) :=
  Forward.get.bind fun _ => .ite (forward_failHere _) (.pure _)

theorem forward_ending (settings : Settings) (start : Nat) (form : NumberForm)
    (pointSeen : Bool) : Forward (ending (σ := σ) settings start form pointSeen) :=
  (forward_suffix _ _ _ _).bind fun _ => forward_boundary.bind fun _ => .pure _

theorem forward_afterFirstDigit (settings : Settings) (start : Nat) (first : Char) :
    Forward (afterFirstDigit (σ := σ) settings start first) := by
  refine (forward_lead _ _).bind fun form => .ite ?_ ?_
  · refine (forward_digits _ _ _).bind fun _ => Forward.get.bind fun n => ?_
    split
    · exact .pure _
    · exact (forward_fraction _).bind fun _ => (forward_ending _ _ _ _).bind fun _ => .pure _
  · exact (forward_ending _ _ _ _).bind fun _ => .pure _

theorem forward_afterPoint (settings : Settings) (start : Nat) :
    Forward (afterPoint (σ := σ) settings start) :=
  (forward_someDigits _ _).bind fun _ => (forward_ending _ _ _ _).bind fun _ => .pure _

theorem remaining_lexeme_le {x : Reading σ Verdict} (h : Forward x) (n : Numeral σ) :
    (lexeme x n).reader.remaining ≤ n.reader.remaining := by
  have := h n
  unfold after at this
  unfold lexeme
  split <;> next hr => rwa [hr] at this

end Numeral

theorem remaining_numeral_le (settings : Settings) (first : Char) (r : Reader σ) :
    (numeral settings first r).reader.remaining ≤ r.advance.remaining :=
  Numeral.remaining_lexeme_le (Numeral.forward_afterFirstDigit _ _ _) _

theorem remaining_fractionNumeral_le (settings : Settings) (start : Nat) (r : Reader σ) :
    (fractionNumeral settings start r).reader.remaining ≤ r.remaining :=
  Numeral.remaining_lexeme_le (Numeral.forward_afterPoint _ _) _

end EcmaLex
