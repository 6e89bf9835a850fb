import EcmaLex.Source.Reader
import EcmaLex.Token.Punctuator

/-!
# Reading punctuators

Most punctuators are one character longer than another punctuator.  A punctuator
is read by starting from its first character and extending it as long as the
next character gives a longer one.  The ellipsis and the optional chaining mark
are left out here, since whether they are read depends on more than the next
character.

## Main definitions

* `Punctuator.ofChar` — the punctuators of one character.
* `Punctuator.extend` — the punctuator that one more character makes.
* `Punctuator.munch` — the longest punctuator that can be reached in this way.
-/

namespace EcmaLex

namespace Punctuator

/-- The punctuator of one character. -/
def ofChar : Char → Option Punctuator
  | '(' => some leftParen
  | ')' => some rightParen
  | '[' => some leftBracket
  | ']' => some rightBracket
  | '\x7b' => some leftBrace
  | '\x7d' => some rightBrace
  | ':' => some colon
  | ';' => some semicolon
  | ',' => some comma
  | '.' => some period
  | '?' => some conditional
  | '~' => some bitNot
  | '<' => some lt
  | '>' => some gt
  | '=' => some assign
  | '!' => some not
  | '+' => some add
  | '-' => some sub
  | '*' => some mul
  | '/' => some div
  | '%' => some mod
  | '&' => some bitAnd
  | '|' => some bitOr
  | '^' => some bitXor
  | _ => none

/-- The punctuator that a punctuator and one more character make. -/
def extend : Punctuator → Char → Option Punctuator
  | lt, '=' => some lte
  | lt, '<' => some shl
  | shl, '=' => some assignShl
  | gt, '=' => some gte
  | gt, '>' => some sar
  | sar, '=' => some assignSar
  | sar, '>' => some shr
  | shr, '=' => some assignShr
  | assign, '=' => some eq
  | assign, '>' => some arrow
  | eq, '=' => some eqStrict
  | not, '=' => some ne
  | ne, '=' => some neStrict
  | add, '+' => some inc
  | add, '=' => some assignAdd
  | sub, '-' => some dec
  | sub, '=' => some assignSub
  | mul, '*' => some exp
  | mul, '=' => some assignMul
  | exp, '=' => some assignExp
  | div, '=' => some assignDiv
  | mod, '=' => some assignMod
  | bitAnd, '&' => some and
  | bitAnd, '=' => some assignBitAnd
  | and, '=' => some assignAnd
  | bitOr, '|' => some or
  | bitOr, '=' => some assignBitOr
  | or, '=' => some assignOr
  | bitXor, '=' => some assignBitXor
  | conditional, '?' => some nullish
  | nullish, '=' => some assignNullish
  | _, _ => none

theorem lexeme_of_ofChar {c : Char} {p : Punctuator} (h : ofChar c = some p) :
    p.lexeme = String.singleton c := by
  unfold ofChar at h
  split at h <;> cases h <;> rfl

/-- The longer punctuator is the shorter one and the character. -/
theorem lexeme_of_extend {p q : Punctuator} {c : Char} (h : p.extend c = some q) :
    q.lexeme = p.lexeme.push c := by
  unfold extend at h
  split at h <;> cases h <;> rfl

variable {σ : Type} [TextSource σ]

/-- Extends a punctuator by the characters under the head as long as that makes a
longer one. -/
def munch (p : Punctuator) (r : Reader σ) : Punctuator × Reader σ :=
  match _h : r.char? with
  | none => (p, r)
  | some c =>
    match p.extend c with
    | some q => munch q r.advance
    | none => (p, r)
  termination_by r.remaining
  decreasing_by exact Reader.remaining_advance_lt (by rw [_h]; rfl)

theorem remaining_munch_le (p : Punctuator) (r : Reader σ) :
    (munch p r).2.remaining ≤ r.remaining := by
  fun_induction munch p r with
  | case1 => exact Nat.le_refl _
  | case2 _ r _ _ _ _ ih => exact Nat.le_trans ih r.remaining_advance_le
  | case3 => exact Nat.le_refl _

end Punctuator

end EcmaLex
