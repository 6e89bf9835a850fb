import EcmaLex.Source.Basic

/-!
# Sources read one step at a time

Any source can be searched by reading it character by character.  `Stepwise`
wraps a source so that this plain search is used, whatever searches the source
has of its own; the two should never differ in what they find.

## Main definitions

* `Stepwise` — a source stripped of its own searches.
-/

namespace EcmaLex

/-- A source of which only the single steps are used. -/
structure Stepwise (σ : Type) where
  /-- The source underneath. -/
  source : σ

namespace Stepwise

variable {σ : Type} [TextSource σ]

instance : TextSource (Stepwise σ) where
  advance s := ((TextSource.advance s.source).1, ⟨(TextSource.advance s.source).2⟩)
  peek s := TextSource.peek s.source
  pushBack c s := ⟨TextSource.pushBack c s.source⟩
  position s := TextSource.position s.source
  remaining s := TextSource.remaining s.source
  remaining_advance s := TextSource.remaining_advance s.source
  remaining_pushBack c s := TextSource.remaining_pushBack c s.source

instance : SearchableSource (Stepwise σ) where
  skipTo l s := TextSource.advanceUntil l.isAt s
  remaining_skipTo l s := TextSource.remaining_advanceUntil l.isAt s

end Stepwise

end EcmaLex
