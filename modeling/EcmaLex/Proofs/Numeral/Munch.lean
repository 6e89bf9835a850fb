import Mathlib.Computability.Language

/-!
# The longest prefix in a language

A scanner takes as much of the text as the grammar allows.  What it takes is the
longest prefix of the text in a language.  Where the grammar puts languages one
after the other, the longest prefix may be found part by part, as long as no
character of the first part could begin the second one.

## Main definitions

* `Munch` — the longest prefix of a text in a language, and what follows it.
* `Misses` — no prefix of the text is in the language.
* `Apart` — no character of a word begins a word of the language.
* `oneOf` — the words of one character out of a list.

## Main results

* `Munch.mul` — the longest prefix is found part by part.
* `Munch.add_left`, `Munch.add_right` — the longer one of two prefixes.
-/

namespace EcmaLex

variable {L M : Language Char} {a u u' v v' w : List Char}

/-- `u` is the longest prefix of `a` in the language, and `v` is what follows it. -/
structure Munch (L : Language Char) (a u v : List Char) : Prop where
  /-- The text is the prefix and what follows it. -/
  split : a = u ++ v
  /-- The prefix is in the language. -/
  mem : u ∈ L
  /-- No prefix in the language is longer. -/
  longest : ∀ u', u' <+: a → u' ∈ L → u'.length ≤ u.length

/-- No prefix of the text is in the language. -/
def Misses (L : Language Char) (a : List Char) : Prop := ∀ u, u <+: a → u ∉ L

/-- No character of the word begins a word of the language. -/
def Apart (u : List Char) (L : Language Char) : Prop := ∀ c w, c :: w ∈ L → c ∉ u

/-- The words of one character out of a list. -/
def oneOf (cs : List Char) : Language Char := {w | ∃ c ∈ cs, w = [c]}

/-- A list whose first character is of some class has a first character. -/
theorem exists_cons_of_any_head? {p : Char → Bool} (h : a.head?.any p = true) :
    ∃ c b, a = c :: b ∧ p c = true := by
  cases a with
  | nil => cases h
  | cons c b => exact ⟨c, b, rfl, h⟩

theorem singleton_mem_oneOf {cs : List Char} {c : Char} (h : c ∈ cs) : [c] ∈ oneOf cs :=
  ⟨c, h, rfl⟩

/-- A word of a sequence of languages is one of the second, unless the first has a part
of it. -/
theorem cons_mem_mul {c : Char} :
    c :: w ∈ L * M ↔
      ([] ∈ L ∧ c :: w ∈ M) ∨ ∃ x y, c :: x ∈ L ∧ y ∈ M ∧ w = x ++ y := by
  rw [Language.mem_mul]
  constructor
  · rintro ⟨x, hx, y, hy, h⟩
    cases x with
    | nil =>
      obtain rfl : y = c :: w := h
      exact .inl ⟨hx, hy⟩
    | cons d x =>
      obtain ⟨rfl, rfl⟩ := List.cons.inj h
      exact .inr ⟨x, y, hx, hy, rfl⟩
  · rintro (⟨hx, hy⟩ | ⟨x, y, hx, hy, rfl⟩)
    · exact ⟨[], hx, c :: w, hy, rfl⟩
    · exact ⟨c :: x, hx, y, hy, rfl⟩

theorem cons_mem_one_add {c : Char} : c :: w ∈ 1 + L ↔ c :: w ∈ L := by
  rw [Language.mem_add, Language.mem_one]
  simp

theorem cons_mem_oneOf {cs : List Char} {c : Char} : c :: w ∈ oneOf cs ↔ c ∈ cs ∧ w = [] := by
  constructor
  · rintro ⟨d, hd, h⟩
    obtain ⟨rfl, rfl⟩ := List.cons.inj h
    exact ⟨hd, rfl⟩
  · rintro ⟨hc, rfl⟩
    exact singleton_mem_oneOf hc

/-- A word that begins with one out of a list of characters. -/
theorem mem_oneOf_mul {cs : List Char} : w ∈ oneOf cs * L ↔ ∃ c ∈ cs, ∃ x ∈ L, w = c :: x := by
  rw [Language.mem_mul]
  constructor
  · rintro ⟨_, ⟨c, hc, rfl⟩, x, hx, rfl⟩
    exact ⟨c, hc, x, hx, rfl⟩
  · rintro ⟨c, hc, x, hx, rfl⟩
    exact ⟨[c], singleton_mem_oneOf hc, x, hx, rfl⟩

/-! ### Apart -/

theorem Apart.one_add (h : Apart u L) : Apart u (1 + L) := by
  intro c w hw
  exact h c w (cons_mem_one_add.1 hw)

/-- A sequence of languages begins as its first, or as its second if the first may be left
out. -/
theorem Apart.mul (h₁ : Apart u L) (h₂ : [] ∈ L → Apart u M) : Apart u (L * M) := by
  intro c w hw
  rcases cons_mem_mul.1 hw with ⟨hn, hw⟩ | ⟨x, _, hx, -, -⟩
  · exact h₂ hn c w hw
  · exact h₁ c x hx

theorem apart_oneOf {cs : List Char} (h : ∀ c ∈ u, c ∉ cs) : Apart u (oneOf cs) := by
  intro c w hw hc
  exact h c hc (cons_mem_oneOf.1 hw).1

/-! ### Misses -/

theorem misses_oneOf {cs : List Char} (h : ∀ c, a.head? = some c → c ∉ cs) :
    Misses (oneOf cs) a := by
  rintro u ⟨v, rfl⟩ ⟨c, hc, rfl⟩
  exact h c rfl hc

theorem Misses.mul (h : Misses L a) : Misses (L * M) a := by
  rintro u hu hm
  obtain ⟨x, hx, y, -, rfl⟩ := Language.mem_mul.1 hm
  exact h x ((List.prefix_append x y).trans hu) hx

theorem Misses.oneOf_mul {cs : List Char} {c : Char} (h : Misses L a) :
    Misses (oneOf cs * L) (c :: a) := by
  intro u hu hm
  obtain ⟨d, -, x, hx, rfl⟩ := mem_oneOf_mul.1 hm
  exact h x (List.cons_prefix_cons.1 hu).2 hx

theorem Misses.length_le (h : Misses L a) : ∀ u', u' <+: a → u' ∈ L → u'.length ≤ u.length :=
  fun u' hu' hm => absurd hm (h u' hu')

namespace Munch

/-- There is one longest prefix. -/
theorem unique (h : Munch L a u v) (h' : Munch L a u' v') : u = u' ∧ v = v' := by
  have hu : u <+: a := ⟨v, h.split.symm⟩
  have hu' : u' <+: a := ⟨v', h'.split.symm⟩
  -- each of them is as long as the other
  have hlen : u.length = u'.length :=
    Nat.le_antisymm (h'.longest u hu h.mem) (h.longest u' hu' h'.mem)
  exact List.append_inj (h.split.symm.trans h'.split) hlen

/-- The longest prefix depends only on the prefixes that are in the language. -/
theorem of_iff (h : Munch L a u v) (hLM : ∀ u', u' <+: a → (u' ∈ L ↔ u' ∈ M)) :
    Munch M a u v where
  split := h.split
  mem := (hLM u ⟨v, h.split.symm⟩).1 h.mem
  longest u' hu' hm := h.longest u' hu' ((hLM u' hu').2 hm)

/-- What is longest in a language is longest in every part of it. -/
theorem restrict (h : Munch L a u v) (hu : u ∈ M) (hML : ∀ w, w ∈ M → w ∈ L) : Munch M a u v where
  split := h.split
  mem := hu
  longest u' hu' hm := h.longest u' hu' (hML u' hm)

/-- What is longest in one language, and as long as any prefix in another, is longest in
both. -/
theorem add_left (h : Munch L a u v)
    (hM : ∀ u', u' <+: a → u' ∈ M → u'.length ≤ u.length) : Munch (L + M) a u v where
  split := h.split
  mem := .inl h.mem
  longest u' hu' hm := hm.elim (h.longest u' hu') (hM u' hu')

theorem add_right (h : Munch M a u v)
    (hL : ∀ u', u' <+: a → u' ∈ L → u'.length ≤ u.length) : Munch (L + M) a u v where
  split := h.split
  mem := .inr h.mem
  longest u' hu' hm := hm.elim (hL u' hu') (h.longest u' hu')

/-- What may be left out is taken if it is there. -/
theorem one_add (h : Munch L a u v) : Munch (1 + L) a u v := by
  refine h.add_right fun u' _ hu' => ?_
  rw [(Language.mem_one u').1 hu']
  exact Nat.zero_le _

/-- What may be left out is left out if it is not there. -/
theorem one_add_nil (h : Misses L a) : Munch (1 + L) a [] a where
  split := rfl
  mem := .inl rfl
  longest u' hu' hm := by
    rcases hm with hm | hm
    · rw [(Language.mem_one u').1 hm]
    · exact absurd hm (h u' hu')

theorem one (a : List Char) : Munch 1 a [] a where
  split := rfl
  mem := rfl
  longest u' _ hm := by rw [(Language.mem_one u').1 hm]

theorem oneOf {cs : List Char} {c : Char} (h : c ∈ cs) (a : List Char) :
    Munch (oneOf cs) (c :: a) [c] a where
  split := rfl
  mem := singleton_mem_oneOf h
  longest := by
    rintro u' - ⟨d, -, rfl⟩
    exact Nat.le_refl _

/-- After a part of one character the other part is looked for. -/
theorem oneOf_mul {cs : List Char} {c : Char} (hc : c ∈ cs) (h : Munch L a u v) :
    Munch (EcmaLex.oneOf cs * L) (c :: a) (c :: u) v where
  split := by rw [h.split, List.cons_append]
  mem := mem_oneOf_mul.2 ⟨c, hc, u, h.mem, rfl⟩
  longest u' hu' hm := by
    obtain ⟨d, -, x, hx, rfl⟩ := mem_oneOf_mul.1 hm
    exact Nat.succ_le_succ (h.longest x (List.cons_prefix_cons.1 hu').2 hx)

/-- A prefix of two parts has the longest first part, or no second one: a shorter first
part would let the second one begin with a character of the longest. -/
theorem parts_of_prefix {x y : List Char} (h : Munch L a u v) (hap : Apart u M) (hx : x ∈ L)
    (hy : y ∈ M) (hxy : x ++ y <+: a) : (x = u ∧ y <+: v) ∨ (y = [] ∧ x.length ≤ u.length) := by
  have hxa : x <+: a := (List.prefix_append x y).trans hxy
  have hlen : x.length ≤ u.length := h.longest x hxa hx
  -- `z` is what the first part leaves of the longest
  obtain ⟨z, rfl⟩ : x <+: u := List.prefix_of_prefix_length_le hxa ⟨v, h.split.symm⟩ hlen
  have hyz : y <+: z ++ v := by
    rw [h.split, List.append_assoc] at hxy
    exact (List.prefix_append_right_inj x).1 hxy
  cases y with
  | nil => exact .inr ⟨rfl, hlen⟩
  | cons d y =>
    cases z with
    | nil => exact .inl ⟨(List.append_nil x).symm, hyz⟩
    | cons c z =>
      -- the second part would begin inside the longest first part
      obtain ⟨rfl, -⟩ := List.cons_prefix_cons.1 hyz
      exact absurd (List.mem_append_right x List.mem_cons_self) (hap d y hy)

/-- **The longest prefix is found part by part.** -/
theorem mul (h₁ : Munch L a u v) (h₂ : Munch M v u' v') (hap : Apart u M) :
    Munch (L * M) a (u ++ u') v' where
  split := by rw [h₁.split, h₂.split, List.append_assoc]
  mem := Language.append_mem_mul h₁.mem h₂.mem
  longest w hw hm := by
    obtain ⟨x, hx, y, hy, rfl⟩ := Language.mem_mul.1 hm
    rw [List.length_append, List.length_append]
    rcases h₁.parts_of_prefix hap hx hy hw with ⟨rfl, hyv⟩ | ⟨rfl, hlen⟩
    · have := h₂.longest y hyv hy
      omega
    · rw [List.length_nil]
      omega

/-- Where the second part is not there, the whole is not. -/
theorem misses_mul (h₁ : Munch L a u v) (h₂ : Misses M v) (hap : Apart u M) :
    Misses (L * M) a := by
  intro w hw hm
  obtain ⟨x, hx, y, hy, rfl⟩ := Language.mem_mul.1 hm
  rcases h₁.parts_of_prefix hap hx hy hw with ⟨-, hyv⟩ | ⟨rfl, -⟩
  · exact h₂ y hyv hy
  · exact h₂ [] List.nil_prefix hy

end Munch

end EcmaLex
