/-!
# The double nearest to a quotient

A decimal numeral denotes a rational number, and its value as a double is the
double nearest to that number; of two equally near ones, the one whose last bit
is zero.  The quotient is rounded exactly, in natural numbers.

A positive double is a whole number of units, where a unit is a power of two
that is no less than `2 ^ -1074`.  The unit is chosen so that the quotient is at
least `2 ^ 52` and less than `2 ^ 53` units, unless that would make it smaller
than the least one.  Written one after the other, the exponent field and the
fraction of doubles count them in increasing order, so that a quotient which is
rounded up to `2 ^ 53` units needs no special care.

## Main definitions

* `roundQuotient` — the nearest whole number to a quotient, ties to even.
* `nearestDoubleBits` — the bits of the double nearest to a quotient.
* `nearestDouble` — that double.
-/

namespace EcmaLex

/-- The whole number nearest to `n / d`; halfway between two, the even one. -/
def roundQuotient (n d : Nat) : Nat :=
  let q := n / d
  let twice := 2 * (n % d)
  if twice < d || (twice == d && q % 2 == 0) then q else q + 1

/-- The greatest `e` with `2 ^ e ≤ n / d`, for positive `n` and `d`. -/
def quotientLog2 (n d : Nat) : Int :=
  let e : Int := (Nat.log2 n : Int) - Nat.log2 d
  if d <<< e.toNat ≤ n <<< (-e).toNat then e else e - 1

/-- The exponent of the least unit of doubles. -/
def leastUnit : Int := -1074

/-- The bits of positive infinity. -/
def infinityBits : Nat := 0x7FF <<< 52

/-- The bits of the double nearest to `n / d`, for positive `d`.  Quotients beyond
the greatest double go to infinity. -/
def nearestDoubleBits (n d : Nat) : Nat :=
  if n = 0 then 0
  else
    let unit := max (quotientLog2 n d - 52) leastUnit
    let units := roundQuotient (n <<< (-unit).toNat) (d <<< unit.toNat)
    let bits :=
      if units < 1 <<< 52 then units else ((unit - leastUnit).toNat <<< 52) + units
    min bits infinityBits

/-- The double nearest to `n / d`, for positive `d`. -/
def nearestDouble (n d : Nat) : Float := Float.ofBits (nearestDoubleBits n d).toUInt64

end EcmaLex
