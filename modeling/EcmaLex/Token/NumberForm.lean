import EcmaLex.Decimal.Numeral

/-!
# The forms of numeric literals

## Main definitions

* `NumberForm` — how a numeric literal is spelled.
* `NumberForm.radix`, `NumberForm.prefixLength`, … — what a form implies.
* `NumberForm.value` — the value of the text of a literal.
-/

namespace EcmaLex

/-- How a numeric literal is spelled. -/
inductive NumberForm where
  /-- The legacy form `017`. -/
  | implicitOctal
  /-- As in `0b101`. -/
  | binary
  /-- As in `0o17`. -/
  | octal
  /-- As in `0x1F`. -/
  | hex
  /-- As in `17`, `1.5` or `1e3`. -/
  | decimal
  /-- As in `089` or `08.5`: a leading zero, with an `8` or a `9` further on. -/
  | decimalWithLeadingZero
  deriving DecidableEq, Repr

namespace NumberForm

/-- Whether the form may have a fraction and an exponent. -/
def isDecimal : NumberForm → Bool
  | decimal | decimalWithLeadingZero => true
  | _ => false

/-- Whether the form may have the suffix of a BigInt. -/
def allowsBigInt : NumberForm → Bool
  | decimal | hex | octal | binary => true
  | _ => false

/-- The length of the mark of the radix, a zero and a letter. -/
def prefixLength : NumberForm → Nat
  | binary | octal | hex => 2
  | _ => 0

/-- The radix of the digits. -/
def radix : NumberForm → Nat
  | binary => 2
  | implicitOctal | octal => 8
  | hex => 16
  | decimal | decimalWithLeadingZero => 10

/-- The number of characters before the digits that count: the mark of the radix, or
the zero that marks a legacy octal literal. -/
def leadLength : NumberForm → Nat
  | implicitOctal => 1
  | form => form.prefixLength

/-- The value of a list of digits, read digit by digit in doubles.  Every step
rounds, so beyond `2 ^ 53` the value need not be the nearest double. -/
def foldDigits (radix : Nat) (ds : List Char) : Option Float :=
  ds.foldlM (fun value c => (digitValue radix c).map fun d => value * .ofNat radix + .ofNat d) 0

/-- The value of the text of a literal of the form, separators and suffix removed. -/
def value (form : NumberForm) (text : String) : Option Float :=
  if form.isDecimal then (DecimalNumeral.ofText text).map DecimalNumeral.value
  else if text.length < form.leadLength then none
  else foldDigits form.radix (text.toList.drop form.leadLength)

end NumberForm

end EcmaLex
