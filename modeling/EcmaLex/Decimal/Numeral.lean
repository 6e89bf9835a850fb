import EcmaLex.Character.Class
import EcmaLex.Decimal.Nearest

/-!
# Decimal numerals

A decimal numeral is a run of digits, of which a point may set off a fraction,
and an optional exponent.  There must be a digit before or after the point, and
one in the exponent if there is any.

Of an exponent only as many digits count as it takes to reach `exponentBound`.
A numeral has to have tens of thousands of digits before its point, or zeros
after it, for a greater exponent to bring it back into the range of doubles.

## Main definitions

* `DecimalNumeral` — a whole number and a power of ten.
* `DecimalNumeral.exponentOfDigits` — reading the digits of an exponent.
* `DecimalNumeral.ofText` — reading a numeral.
* `DecimalNumeral.value` — the double nearest to it.
-/

namespace EcmaLex

/-- The number `coefficient * 10 ^ exponent`, and how many digits the coefficient
was written with. -/
structure DecimalNumeral where
  /-- The digits, without the point, as one whole number. -/
  coefficient : Nat
  /-- The number of digits that the coefficient was written with. -/
  digits : Nat
  /-- The power of ten. -/
  exponent : Int
  deriving DecidableEq, Repr

namespace DecimalNumeral

/-! ### Digits -/

/-- A whole number with one more decimal digit at its end. -/
def appendDigit (n : Nat) (c : Char) : Nat := 10 * n + (c.toNat - '0'.toNat)

/-- The whole number that a list of decimal digits denotes. -/
def ofDigits (ds : List Char) : Nat := ds.foldl appendDigit 0

/-- An exponent that has come to this takes no further digits. -/
def exponentBound : Nat := 65536

/-- One more digit of an exponent, which is dropped once the bound is reached. -/
def appendExponentDigit (n : Nat) (c : Char) : Nat :=
  if n < exponentBound then appendDigit n c else n

/-- The exponent that a list of decimal digits gives. -/
def exponentOfDigits (ds : List Char) : Nat := ds.foldl appendExponentDigit 0

theorem le_foldl_appendDigit (ds : List Char) (n : Nat) : n ≤ ds.foldl appendDigit n := by
  induction ds generalizing n with
  | nil => exact Nat.le_refl n
  | cons c ds ih =>
    have h := ih (appendDigit n c)
    simp only [List.foldl_cons]
    unfold appendDigit at h ⊢
    omega

/-! ### Numerals -/

/-- The exponent written by the rest of a numeral, which is zero if nothing is left. -/
def readExponent : List Char → Option Int
  | [] => some 0
  | e :: rest =>
    if e == 'e' || e == 'E' then
      let (negative, ds) :=
        match rest with
        | '-' :: ds => (true, ds)
        | '+' :: ds => (false, ds)
        | ds => (false, ds)
      if ds.isEmpty || ds.any (!isDecimalDigit ·) then none
      else some (if negative then -(exponentOfDigits ds : Int) else exponentOfDigits ds)
    else none

/-- Reads a numeral that fills the whole list. -/
def ofChars (cs : List Char) : Option DecimalNumeral :=
  let (whole, rest) := cs.span isDecimalDigit
  let (fraction, rest) :=
    match rest with
    | '.' :: rest => rest.span isDecimalDigit
    | rest => ([], rest)
  let ds := whole ++ fraction
  if ds.isEmpty then none
  else (readExponent rest).map fun e => ⟨ofDigits ds, ds.length, e - fraction.length⟩

/-- Reads a numeral that fills the whole text. -/
def ofText (text : String) : Option DecimalNumeral := ofChars text.toList

/-- The double nearest to the numeral.  A coefficient of `n` digits is less than
`10 ^ n`, so a numeral far below the least double or far above the greatest is
settled without raising ten to its exponent. -/
def value (x : DecimalNumeral) : Float :=
  if x.coefficient = 0 || x.digits + x.exponent < -400 then nearestDouble 0 1
  else if 400 < x.exponent then Float.ofBits infinityBits.toUInt64
  else nearestDouble (x.coefficient * Nat.pow 10 x.exponent.toNat) (Nat.pow 10 (-x.exponent).toNat)

end DecimalNumeral

end EcmaLex
