import EcmaLex.Proofs.Simulation.Basic
import EcmaLex.Proofs.Source.Exact
import Mathlib.Data.List.TakeWhile

/-!
# Readers of the same text

Two readers over exact sources go through the same text, side by side.  The second one
may have other text in front of it, and a blank and more text behind it.  That they
stay side by side is all that scanning both texts takes.

## Main definitions

* `SamePlace` — the offsets of the same place of a text.
* `Reader.Alongside` — the readers at the same place of a text.

## Main results

* `Reader.parallel_alongside`, `Reader.simulation_alongside` — **the moves keep the readers side by
  side**.
-/

namespace EcmaLex

open ExactSource

section SamePlace

variable (σ τ : Type) [ExactSource σ] [ExactSource τ]

/-- The offsets of the same place of a text, of which the second one counts `front` in
front of the text as well. -/
def SamePlace (front text : List Char) (p p' : Nat) : Prop :=
  ∃ before, before <+: text ∧ p = extent σ before ∧ p' = extent τ (front ++ before)

variable {σ τ}

/-- Sources that count alike count the text in front as what sets the offsets apart. -/
theorem SamePlace.eq_add {front text : List Char} {p p' : Nat}
    (h : SamePlace σ σ front text p p') : p' = p + extent σ front := by
  obtain ⟨before, -, rfl, rfl⟩ := h
  rw [extent_append]
  omega

/-- The beginning of the text is at the beginning for both. -/
theorem SamePlace.eq_zero_iff {text : List Char} {p p' : Nat} (h : SamePlace σ τ [] text p p') :
    p = 0 ↔ p' = 0 := by
  obtain ⟨before, -, rfl, rfl⟩ := h
  rw [List.nil_append]
  cases before with
  | nil => exact iff_of_true rfl rfl
  | cons c before =>
    have hσ := extent_pos σ (List.cons_ne_nil c before)
    have hτ := extent_pos τ (List.cons_ne_nil c before)
    omega

end SamePlace

namespace Reader

variable {σ τ : Type} [ExactSource σ] [ExactSource τ]

/-- The readers are at the same place of a text, which has `front` in front of it and
`back` behind it where the second one reads it. -/
def Alongside (front text back : List Char) (r : Reader σ) (r' : Reader τ) : Prop :=
  ∃ before after, text = before ++ after ∧ r = between before after ∧
    r' = between (front ++ before) (after ++ back)

variable {front text back : List Char} {r : Reader σ} {r' : Reader τ} {c : Char}

/-- With a character under the head, the place is one before that character. -/
theorem Alongside.of_some (h : Alongside front text back r r') (hc : r.char? = some c) :
    ∃ before after, text = before ++ c :: after ∧ r = between before (c :: after) ∧
      r' = between (front ++ before) (c :: (after ++ back)) := by
  obtain ⟨before, after, rfl, rfl, rfl⟩ := h
  cases after with
  | nil => cases hc
  | cons d after =>
    cases hc
    exact ⟨before, after, rfl, rfl, rfl⟩

/-- With no character under the head, the place is the end of the text. -/
theorem Alongside.of_none (h : Alongside front text back r r') (hc : r.char? = none) :
    r = between text [] ∧ r' = between (front ++ text) back := by
  obtain ⟨before, after, rfl, rfl, rfl⟩ := h
  cases after with
  | nil =>
    rw [List.append_nil, List.nil_append]
    exact ⟨rfl, rfl⟩
  | cons d after => cases hc

/-- Where the first reader is tells where the second one is. -/
theorem Alongside.eq_between {before after : List Char}
    (h : Alongside front (before ++ after) back (between before after : Reader σ) r') :
    r' = between (front ++ before) (after ++ back) := by
  obtain ⟨before', after', htext, hr, rfl⟩ := h
  have hposition := congrArg Reader.position hr
  rw [position_between, position_between] at hposition
  obtain ⟨rfl, rfl⟩ := append_inj_of_extent_eq σ htext hposition
  rfl

theorem Alongside.advance (h : Alongside front text back r r') (hc : r.char? = some c) :
    Alongside front text back r.advance r'.advance := by
  obtain ⟨before, after, rfl, rfl, rfl⟩ := h.of_some hc
  refine ⟨before ++ [c], after, ?_, ?_, ?_⟩
  · simp
  · simp
  · simp

/-- The search leads to the same place, or the text ends before a landmark that is no line
feed was found. -/
theorem Alongside.skipTo (h : Alongside front text back r r') (hc : r.char? = some c)
    (hback : ∀ d, back.head? = some d → d = '\n') (l : Landmark) :
    Alongside front text back (r.skipTo l) (r'.skipTo l) ∨
      back.head? ≠ none ∧ l.stopsAtLines = false ∧ (r.skipTo l).char? = none := by
  obtain ⟨before, after, rfl, rfl, rfl⟩ := h.of_some hc
  have hsplit := List.takeWhile_append_dropWhile (p := (!l.isAt ·)) (l := after)
  rw [skipTo_between_cons, skipTo_between_cons]
  cases hdrop : after.dropWhile (!l.isAt ·) with
  | cons d rest =>
    -- a landmark is found before the text ends
    rw [hdrop] at hsplit
    have htake : (after ++ back).takeWhile (!l.isAt ·) = after.takeWhile (!l.isAt ·) := by
      have hlength := congrArg List.length hsplit
      rw [List.length_append, List.length_cons] at hlength
      rw [List.takeWhile_append, if_neg (by omega)]
    have hrest : (after ++ back).dropWhile (!l.isAt ·) = d :: rest ++ back := by
      rw [List.dropWhile_append, hdrop, if_neg (by simp)]
    rw [htake, hrest]
    refine .inl ⟨before ++ c :: after.takeWhile (!l.isAt ·), d :: rest, ?_, rfl, ?_⟩
    · rw [List.append_assoc, List.cons_append, hsplit]
    · rw [List.append_assoc]
  | nil =>
    -- none is found in the text, so the second search goes on behind it
    rw [hdrop, List.append_nil] at hsplit
    have hall : ∀ d ∈ after, (!l.isAt d) = true := List.dropWhile_eq_nil_iff.1 hdrop
    rw [hsplit, List.takeWhile_append_of_pos hall, List.dropWhile_append_of_pos hall]
    by_cases hstop : back.dropWhile (!l.isAt ·) = back
    · have hnone : back.takeWhile (!l.isAt ·) = [] := by
        have hlength := congrArg List.length
          (List.takeWhile_append_dropWhile (p := (!l.isAt ·)) (l := back))
        rw [hstop, List.length_append] at hlength
        exact List.eq_nil_of_length_eq_zero (by omega)
      rw [hnone, hstop]
      refine .inl ⟨before ++ c :: after, [], ?_, rfl, ?_⟩
      · rw [List.append_nil]
      · rw [List.append_nil, List.append_assoc, List.nil_append]
    · right
      cases back with
      | nil => exact absurd rfl hstop
      | cons d back =>
        obtain rfl := hback d rfl
        refine ⟨Option.some_ne_none _, ?_, rfl⟩
        -- a search that stops at lines would have stopped at the line feed
        by_contra hlines
        refine hstop (List.dropWhile_cons_of_neg ?_)
        simp only [Bool.not_eq_false] at hlines
        simp [Landmark.isAt, isLineTerminator, hlines]

/-- **Single moves keep readers side by side** that go through the same text, of which nothing,
a line feed or a space stands behind. -/
theorem parallel_alongside (front text back : List Char)
    (hback : ∀ d, back.head? = some d → d = '\n' ∨ d = ' ')
    (hwidth : ∀ c, isAscii c = true → ExactSource.width σ c = ExactSource.width τ c) :
    Parallel back.head? (SamePlace σ τ front text)
      (Alongside front text back : Reader σ → Reader τ → Prop) where
  blank := hback
  char? := by
    rintro r r' ⟨before, after, rfl, rfl, rfl⟩
    exact List.head?_append
  position := by
    rintro r r' ⟨before, after, rfl, rfl, rfl⟩
    exact ⟨before, List.prefix_append before after, position_between _ _, position_between _ _⟩
  advance := Alongside.advance
  width := by
    intro r r' c h hc hascii
    obtain ⟨before, after, rfl, rfl, rfl⟩ := h.of_some hc
    refine ⟨ExactSource.width σ c, ?_, ?_⟩
    · simp
    · rw [advance_between_cons, position_between, position_between, hwidth c hascii,
        extent_append, extent_cons, extent_nil, Nat.add_zero]
  peek := by
    intro r r' c h hc
    obtain ⟨before, after, rfl, rfl, rfl⟩ := h.of_some hc
    constructor
    · simp
    · simp
  pushBack := by
    intro r r' c h hc
    obtain ⟨before, after, rfl, rfl, rfl⟩ := h.of_some (beq_iff_eq.1 hc)
    refine ⟨before, c :: after, rfl, ?_, ?_⟩
    · rw [advance_between_cons, pushBack_between]
    · rw [advance_between_cons, pushBack_between, List.cons_append]

/-- **The moves keep readers side by side** that go through the same text, of which nothing
or a line feed stands behind. -/
theorem simulation_alongside (front text back : List Char)
    (hback : ∀ d, back.head? = some d → d = '\n')
    (hwidth : ∀ c, isAscii c = true → ExactSource.width σ c = ExactSource.width τ c) :
    Simulation back.head? (SamePlace σ τ front text)
      (Alongside front text back : Reader σ → Reader τ → Prop) where
  toParallel := parallel_alongside front text back (fun d hd => .inl (hback d hd)) hwidth
  line := hback
  skipTo l h hc := h.skipTo hc hback l

end Reader

end EcmaLex
