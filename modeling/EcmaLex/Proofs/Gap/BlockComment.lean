import EcmaLex.Lexeme.Gap
import EcmaLex.Proofs.Source.Exact
import Mathlib.Data.List.Infix
import Mathlib.Data.List.TakeWhile

/-!
# Where block comments end

A block comment is closed by the first asterisk that a slash follows.  The search
passes over the comment in jumps, from one landmark to the next, and looks for
line terminators only as long as none was found; that all makes no difference.

## Main definitions

* `closeComment` — the inside of a comment and the text after it.

## Main results

* `eq_of_closeComment`, `not_infix_of_closeComment` — a comment ends at the first closing.
* `Gap.blockComment_between` — **the jumps find the first closing**, and note line
  terminators exactly.
-/

namespace EcmaLex

/-! ### The first closing -/

/-- What a text begins with before its first closing of a comment, and what comes after
that closing. -/
def closeComment : List Char → Option (List Char × List Char)
  | [] => none
  | c :: text =>
    if c = '*' ∧ text.head? = some '/' then some ([], text.tail)
    else (closeComment text).map fun p => (c :: p.1, p.2)

/-- A comment is its inside and the closing. -/
theorem eq_of_closeComment {text inside rest : List Char}
    (h : closeComment text = some (inside, rest)) : text = inside ++ '*' :: '/' :: rest := by
  induction text generalizing inside with
  | nil => cases h
  | cons c text ih =>
    rw [closeComment] at h
    split at h
    · next hc =>
      cases h
      obtain ⟨rfl, hs⟩ := hc
      obtain ⟨rest, rfl⟩ := List.head?_eq_some_iff.1 hs
      rfl
    · obtain ⟨p, hp, he⟩ := Option.map_eq_some_iff.1 h
      cases he
      rw [List.cons_append, ← ih hp]

theorem closing_infix_cons {c : Char} {text : List Char} :
    ['*', '/'] <:+: c :: text ↔ (c = '*' ∧ text.head? = some '/') ∨ ['*', '/'] <:+: text := by
  rw [List.infix_cons_iff, List.cons_prefix_cons, eq_comm]
  cases text with
  | nil => simp
  | cons d text =>
    rw [List.cons_prefix_cons, List.head?_cons, Option.some_inj, eq_comm (a := d)]
    simp

/-- The closing of a comment is the first one. -/
theorem not_infix_of_closeComment {text inside rest : List Char}
    (h : closeComment text = some (inside, rest)) : ¬ ['*', '/'] <:+: inside ++ ['*'] := by
  induction text generalizing inside with
  | nil => cases h
  | cons c text ih =>
    rw [closeComment] at h
    split at h
    · cases h
      decide
    · next hc =>
      obtain ⟨p, hp, he⟩ := Option.map_eq_some_iff.1 h
      cases he
      rw [List.cons_append, closing_infix_cons, not_or]
      -- a closing of `c` and what follows would be one of the text as well
      refine ⟨fun hi => hc ⟨hi.1, ?_⟩, ih hp⟩
      rw [eq_of_closeComment hp]
      have hi := hi.2
      cases hp₁ : p.1 with
      | nil =>
        rw [hp₁] at hi
        cases hi
      | cons d inside =>
        rw [hp₁] at hi
        exact hi

/-- A comment that is not closed has no closing in it. -/
theorem not_infix_of_closeComment_eq_none {text : List Char} (h : closeComment text = none) :
    ¬ ['*', '/'] <:+: text := by
  induction text with
  | nil => decide
  | cons c text ih =>
    rw [closeComment] at h
    split at h
    · cases h
    · next hc =>
      rw [closing_infix_cons, not_or]
      exact ⟨hc, ih (Option.map_eq_none_iff.1 h)⟩

/-- A character other than the asterisk closes nothing. -/
theorem closeComment_cons_of_ne {c : Char} (h : c ≠ '*') (text : List Char) :
    closeComment (c :: text) = (closeComment text).map fun p => ([c] ++ p.1, p.2) := by
  rw [closeComment, if_neg fun hc => h hc.1]
  rfl

theorem closeComment_append {u : List Char} (h : ∀ c ∈ u, c ≠ '*') (v : List Char) :
    closeComment (u ++ v) = (closeComment v).map fun p => (u ++ p.1, p.2) := by
  induction u with
  | nil => simp
  | cons c u ih =>
    obtain ⟨hc, hu⟩ := List.forall_mem_cons.1 h
    rw [List.cons_append, closeComment_cons_of_ne hc, ih hu, Option.map_map]
    rfl

/-- A run of asterisks and a slash close the comment, the last asterisk with the slash. -/
theorem closeComment_asterisks_slash (n : Nat) (rest : List Char) :
    closeComment (List.replicate (n + 1) '*' ++ '/' :: rest) =
      some (List.replicate n '*', rest) := by
  induction n with
  | zero => rfl
  | succ n ih =>
    rw [List.replicate_succ, List.cons_append, closeComment, if_neg, ih]
    · rfl
    · -- the next character is an asterisk, not a slash
      rintro ⟨-, h⟩
      cases h

/-- A run of asterisks without a slash after it is inside the comment. -/
theorem closeComment_asterisks {n : Nat} {text : List Char}
    (h : n = 0 ∨ text.head? ≠ some '/') :
    closeComment (List.replicate n '*' ++ text) =
      (closeComment text).map fun p => (List.replicate n '*' ++ p.1, p.2) := by
  induction n with
  | zero => simp
  | succ n ih =>
    have hr := h.resolve_left (Nat.succ_ne_zero n)
    rw [List.replicate_succ, List.cons_append, closeComment, if_neg, ih (.inr hr), Option.map_map]
    · rfl
    · rintro ⟨-, hs⟩
      cases n with
      | zero => exact hr hs
      | succ n => cases hs

/-- Every text is a run of asterisks and a text that begins with none. -/
theorem exists_asterisks (text : List Char) :
    ∃ n rest, text = List.replicate n '*' ++ rest ∧ rest.head? ≠ some '*' := by
  induction text with
  | nil => exact ⟨0, [], rfl, nofun⟩
  | cons c text ih =>
    by_cases hc : c = '*'
    · obtain ⟨n, rest, rfl, hr⟩ := ih
      exact ⟨n + 1, rest, by rw [hc, List.replicate_succ, List.cons_append], hr⟩
    · exact ⟨0, c :: text, rfl, by simpa using hc⟩

/-! ### The search -/

namespace Gap

open Reader

variable {σ : Type} [ExactSource σ]

/-- Nothing is closed without an asterisk. -/
theorem commentClose_of_ne {before after : List Char} (h : after.head? ≠ some '*') :
    commentClose (between before after : Reader σ) = (false, between before after) := by
  rw [commentClose]
  split
  · rfl
  · next c hc =>
    rw [char?_between] at hc
    rw [if_neg]
    intro hs
    rw [beq_iff_eq] at hs
    exact h (hs ▸ hc)

theorem commentClose_cons (before after : List Char) :
    commentClose (between before ('*' :: after) : Reader σ) =
      if after.head? = some '/' then (true, between (before ++ ['*', '/']) after.tail)
      else commentClose (between (before ++ ['*']) after) := by
  rw [commentClose]
  split
  · next h => cases h
  · next h =>
    cases h
    rw [if_pos (beq_self_eq_true '*'), advance_between_cons]
    dsimp only
    cases after with
    | nil => rfl
    | cons c after => by_cases hc : c = '/' <;> simp [hc]

theorem commentClose_asterisks_slash (before : List Char) (n : Nat) (rest : List Char) :
    commentClose (between before (List.replicate (n + 1) '*' ++ '/' :: rest) : Reader σ) =
      (true, between (before ++ List.replicate n '*' ++ ['*', '/']) rest) := by
  induction n generalizing before with
  | zero =>
    rw [List.replicate_succ, List.cons_append, commentClose_cons]
    simp
  | succ n ih =>
    rw [List.replicate_succ, List.cons_append, commentClose_cons, if_neg, ih]
    · simp [List.replicate_succ]
    · rintro h
      cases h

theorem commentClose_asterisks (before : List Char) (n : Nat) {rest : List Char}
    (hs : rest.head? ≠ some '*') (hn : n = 0 ∨ rest.head? ≠ some '/') :
    commentClose (between before (List.replicate n '*' ++ rest) : Reader σ) =
      (false, between (before ++ List.replicate n '*') rest) := by
  induction n generalizing before with
  | zero => simpa using commentClose_of_ne hs
  | succ n ih =>
    have hr := hn.resolve_left (Nat.succ_ne_zero n)
    rw [List.replicate_succ, List.cons_append, commentClose_cons, if_neg, ih _ (.inr hr)]
    · simp
    · cases n with
      | zero => exact hr
      | succ n => exact nofun

theorem blockComment_nil (lineBreak : Bool) (before : List Char) :
    blockComment lineBreak (between before [] : Reader σ) =
      (false, lineBreak, between before []) := by
  rw [blockComment]
  split
  · rfl
  · next h => cases h

theorem blockComment_cons (lineBreak : Bool) (before : List Char) (c : Char) (after : List Char) :
    blockComment lineBreak (between before (c :: after) : Reader σ) =
      match commentClose ((between before (c :: after) : Reader σ).skipTo
        (commentLandmark lineBreak)) with
      | (true, r) => (true, lineBreak, r)
      | (false, r) => blockComment (lineBreak || r.isAtAny isLineTerminator) r := by
  rw [blockComment]
  split
  · next h => cases h
  · split <;> next h => rw [h]

/-- What a search in a comment passes: no asterisk, and no line terminator that still
matters. -/
theorem commentLandmark_passed {lineBreak : Bool} {passed : List Char}
    (h : ∀ c ∈ passed, (commentLandmark lineBreak).isAt c = false) :
    (∀ c ∈ passed, c ≠ '*') ∧ (lineBreak || passed.any isLineTerminator) = lineBreak := by
  refine ⟨fun c hc => ?_, ?_⟩
  · -- every search stops at asterisks
    rintro rfl
    have := h _ hc
    cases lineBreak <;> cases this
  · cases lineBreak with
    | true => rfl
    | false =>
      rw [Bool.false_or, List.any_eq_false]
      intro c hc hl
      have := h c hc
      simp [commentLandmark, Landmark.isAt, Landmark.stopsAtLines, hl] at this

/-- **The jumps find the first closing**, and note line terminators exactly.  The
induction is on the text after the character under the head, which a search passes
without looking at it. -/
theorem blockComment_between (lineBreak : Bool) (before : List Char) (c : Char)
    (after : List Char) :
    blockComment lineBreak (between before (c :: after) : Reader σ) =
      match closeComment after with
      | some (inside, rest) => (true, lineBreak || inside.any isLineTerminator,
          between (before ++ c :: inside ++ ['*', '/']) rest)
      | none => (false, lineBreak || after.any isLineTerminator,
          between (before ++ c :: after) []) := by
  induction hn : after.length using Nat.strongRecOn generalizing lineBreak before c after with
  | ind n ih =>
    subst hn
    -- the text is what the search passes, a run of asterisks, and a rest without one at its head
    rw [blockComment_cons, skipTo_between_cons]
    have hpassed : ∀ d ∈ after.takeWhile (!(commentLandmark lineBreak).isAt ·),
        (commentLandmark lineBreak).isAt d = false := fun d hd => by
      simpa using List.mem_takeWhile_imp hd
    obtain ⟨hne, hl⟩ := commentLandmark_passed hpassed
    have hsplit := (List.takeWhile_append_dropWhile
      (p := (!(commentLandmark lineBreak).isAt ·)) (l := after)).symm
    generalize after.takeWhile (!(commentLandmark lineBreak).isAt ·) = passed at *
    generalize after.dropWhile (!(commentLandmark lineBreak).isAt ·) = next at *
    subst hsplit
    rw [closeComment_append hne]
    obtain ⟨n, rest, rfl, hs⟩ := exists_asterisks next
    have hstars : ∀ m, (List.replicate m '*').any isLineTerminator = false := fun m => by
      rw [List.any_replicate]
      simp [show isLineTerminator '*' = false from rfl]
    by_cases hclosed : n ≠ 0 ∧ rest.head? = some '/'
    · -- the last asterisk and the slash close the comment
      obtain ⟨hn, hslash⟩ := hclosed
      obtain ⟨m, rfl⟩ := Nat.exists_eq_succ_of_ne_zero hn
      obtain ⟨rest, rfl⟩ := List.head?_eq_some_iff.1 hslash
      rw [commentClose_asterisks_slash, closeComment_asterisks_slash]
      simp [hl, hstars]
    · -- the search goes on after the asterisks
      have hopen : n = 0 ∨ rest.head? ≠ some '/' := by
        by_cases hn : n = 0
        · exact .inl hn
        · exact .inr fun h => hclosed ⟨hn, h⟩
      rw [commentClose_asterisks _ _ hs hopen, closeComment_asterisks hopen]
      cases rest with
      | nil =>
        dsimp only
        rw [isAtAny_between, List.head?_nil, Option.any_none, Bool.or_false, blockComment_nil]
        simp [closeComment, hl, hstars]
      | cons d rest =>
        -- `d` is passed by the next search, and closes nothing
        have hd : d ≠ '*' := by simpa using hs
        dsimp only
        rw [isAtAny_between, List.head?_cons, Option.any_some,
          ih rest.length (by simp; omega) _ _ _ _ rfl, closeComment_cons_of_ne hd]
        cases closeComment rest with
        | none => simp [hl, hstars, ← Bool.or_assoc]
        | some p => simp [hl, hstars, ← Bool.or_assoc]

end Gap

end EcmaLex
