import EcmaLex.Proofs.Source.Exact
import EcmaLex.Source.Stepwise

/-!
# A source without its searches is as exact as it was

The states of a source are the same places in the text, whether its own searches are
used or not.

## Main results

* the instance `ExactSource (Stepwise σ)`.
* `Stepwise.fresh_eq` — it begins where the source underneath does.
-/

namespace EcmaLex

namespace Stepwise

variable {σ : Type} [ExactSource σ]

instance : ExactSource (Stepwise σ) where
  width := ExactSource.width σ
  width_pos := ExactSource.width_pos
  fresh text := ⟨ExactSource.fresh text⟩
  between before after := ⟨ExactSource.between before after⟩
  advance_fresh text := by
    show ((TextSource.advance (ExactSource.fresh text : σ)).1, Stepwise.mk _) = _
    rw [ExactSource.advance_fresh]
  position_fresh := ExactSource.position_fresh (σ := σ)
  advance_cons before c after := by
    show ((TextSource.advance (ExactSource.between before (c :: after) : σ)).1, Stepwise.mk _) = _
    rw [ExactSource.advance_cons]
  advance_nil before := by
    show ((TextSource.advance (ExactSource.between before [] : σ)).1, Stepwise.mk _) = _
    rw [ExactSource.advance_nil]
  peek_between := ExactSource.peek_between (σ := σ)
  pushBack_between before c after :=
    congrArg Stepwise.mk (ExactSource.pushBack_between (σ := σ) before c after)
  position_between := ExactSource.position_between (σ := σ)
  skipTo_between _ _ _ := rfl

theorem fresh_eq (text : List Char) :
    (ExactSource.fresh text : Stepwise σ) = ⟨ExactSource.fresh text⟩ := rfl

end Stepwise

end EcmaLex
