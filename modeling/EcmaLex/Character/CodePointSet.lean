/-!
# Sets of code points by their boundaries

A property of characters that holds on runs of code points is stored as the
increasing sequence of the points where it changes: the first boundary opens a
run, the second closes it, and so on.  A code point has the property exactly
when an odd number of boundaries are at most that code point, and a binary
search counts them.

## Main definitions

* `CodePointSet` — a set by its boundaries.
* `CodePointSet.rank` — how many boundaries lie at or before a code point.
* `CodePointSet.contains` — membership.
-/

namespace EcmaLex

/-- A set of code points, by the points where membership changes, in increasing
order. -/
structure CodePointSet where
  /-- The points where a run opens or closes, in turn. -/
  boundaries : Array Nat

namespace CodePointSet

/-- The number of boundaries that are at most `c`, by halving the range `[lo, hi)`
of indices in which the first greater boundary is still to be found. -/
def rankIn (boundaries : Array Nat) (c lo hi : Nat) : Nat :=
  if lo < hi then
    let mid := (lo + hi) / 2
    if boundaries.getD mid 0 ≤ c then rankIn boundaries c (mid + 1) hi
    else rankIn boundaries c lo mid
  else lo
  termination_by hi - lo

/-- The number of boundaries that are at most `c`. -/
def rank (s : CodePointSet) (c : Nat) : Nat :=
  rankIn s.boundaries c 0 s.boundaries.size

/-- Whether the character lies in one of the runs. -/
def contains (s : CodePointSet) (c : Char) : Bool :=
  s.rank c.toNat % 2 == 1

end CodePointSet

end EcmaLex
