import EcmaLex.Proofs.Simulation.Token

/-!
# Offsets set apart by a distance

Where corresponding offsets are a fixed distance apart, what is found at one of them is
what is found at the other, moved by that distance.

## Main definitions

* `Span.shift`, `Diagnostic.shift`, `Token.shift` — the same further on in the text.

## Main results

* `Token.Matches.eq_shift` — tokens at such offsets are the same, moved.
-/

namespace EcmaLex

/-- The span that lies further on by a distance. -/
def Span.shift (d : Nat) (s : Span) : Span := ⟨s.start + d, s.stop + d⟩

/-- The same cause, further on by a distance. -/
def Diagnostic.shift (n : Nat) (d : Diagnostic) : Diagnostic := { d with span := d.span.shift n }

/-- The same token, further on by a distance, with what is wrong with it. -/
def Token.shift (d : Nat) (t : Token) : Token :=
  { t with span := t.span.shift d, error? := t.error?.map (·.shift d) }

theorem Span.shift_zero (s : Span) : s.shift 0 = s := rfl

theorem Diagnostic.shift_zero (d : Diagnostic) : d.shift 0 = d := rfl

theorem Diagnostic.map_shift_zero (d? : Option Diagnostic) : d?.map (·.shift 0) = d? := by
  cases d? <;> rfl

theorem Token.shift_zero (t : Token) : t.shift 0 = t := by
  unfold shift
  rw [t.span.shift_zero, Diagnostic.map_shift_zero]

/-- A fatal error is as fatal further on. -/
theorem Token.isFatal_shift (d : Nat) (t : Token) : (t.shift d).isFatal = t.isFatal := by
  unfold isFatal shift
  cases t.error? <;> rfl

section Matches

variable {Q : Nat → Nat → Prop} {d : Nat} (hQ : ∀ {p p'}, Q p p' → p' = p + d)
include hQ

theorem Span.Matches.eq_shift {s s' : Span} (h : s.Matches Q s') : s' = s.shift d := by
  obtain ⟨start, stop⟩ := s
  obtain ⟨start', stop'⟩ := s'
  have hstart : start' = start + d := hQ h.start
  have hstop : stop' = stop + d := hQ h.stop
  rw [hstart, hstop]
  rfl

theorem Diagnostic.Matches.eq_shift {e e' : Diagnostic} (h : e.Matches Q e') : e' = e.shift d := by
  obtain ⟨⟨start, stop⟩, cause⟩ := e
  obtain ⟨⟨start', stop'⟩, cause'⟩ := e'
  obtain ⟨hcause, hstart, a, a', n, ha, hstop, hstop'⟩ := h
  have hcause : cause' = cause := hcause
  have hstart : start' = start + d := hQ hstart
  have hstop : stop' = stop + d := by
    have ha := hQ ha
    dsimp only at hstop hstop'
    omega
  rw [hcause, hstart, hstop]
  rfl

theorem Diagnostic.NotedAlike.eq_shift {e? e'? : Option Diagnostic} (h : NotedAlike Q e? e'?) :
    e'? = e?.map (·.shift d) := by
  cases h with
  | none => rfl
  | @some e e' h =>
    obtain ⟨hcause, hspan⟩ := h
    obtain ⟨span', cause'⟩ := e'
    have hcause : cause' = e.cause := hcause
    have hspan : span' = e.span.shift d := hspan.eq_shift hQ
    rw [hcause, hspan]
    rfl

/-- Tokens at offsets that are a distance apart are the same, moved by it. -/
theorem Token.Matches.eq_shift {t t' : Token} (h : t.Matches Q t') : t' = t.shift d := by
  have herror : t'.error? = t.error?.map (·.shift d) := by
    have he := h.error?
    generalize t.error? = e at he
    generalize t'.error? = e' at he
    cases he with
    | none => rfl
    | some he => exact congrArg some (he.eq_shift hQ)
  obtain ⟨text', kind', span', line', e'⟩ := t'
  have hspan : span' = t.span.shift d := h.span.eq_shift hQ
  have htext : text' = t.toTokenText := h.text
  have hkind : kind' = t.kind := h.kind
  have hline : line' = t.afterLineTerminator := h.afterLineTerminator
  have herror : e' = t.error?.map (·.shift d) := herror
  rw [htext, hkind, hspan, hline, herror]
  rfl

end Matches

end EcmaLex
