import EcmaLex.Proofs.Numeral.Munch

/-!
# Runs of characters and escapes

The inside of a string, or of a piece of a template, is read as a run of items.  An item is a
character that stands for itself, or a backslash together with the character after it, where a
carriage return takes a line feed after it along.  So a character is escaped or not by the
items that the text before it is made of.

## Main definitions

* `Quoted.Items` — the runs of items.

## Main results

* `Quoted.munch_nil`, `Quoted.munch_plain`, `Quoted.munch_lineBreak`, `Quoted.munch_escape` — the
  longest run of items, item by item.
-/

namespace EcmaLex.Quoted

/-- A run of items.  Of the characters other than the backslash, those of the class stand for
themselves. -/
inductive Items (plain : Char → Bool) : List Char → Prop where
  /-- No item. -/
  | nil : Items plain []
  /-- A character that stands for itself. -/
  | plain {c : Char} {w : List Char} (hc : plain c = true) (hb : c ≠ '\\')
      (hw : Items plain w) : Items plain (c :: w)
  /-- A backslash, and a line break of two characters. -/
  | lineBreak {w : List Char} (hw : Items plain w) : Items plain ('\\' :: '\r' :: '\n' :: w)
  /-- A backslash, and any one character. -/
  | escape {c : Char} {w : List Char} (hw : Items plain w) : Items plain ('\\' :: c :: w)

/-- The runs of items, as a language. -/
def items (plain : Char → Bool) : Language Char := {w | Items plain w}

variable {plain : Char → Bool} {a u v w : List Char} {c : Char}

theorem Items.plain_of_cons (h : Items plain (c :: w)) (hc : c ≠ '\\') :
    plain c = true ∧ Items plain w := by
  cases h with
  | plain hp _ hw => exact ⟨hp, hw⟩
  | lineBreak => exact absurd rfl hc
  | escape => exact absurd rfl hc

/-- After a backslash there is one more character, or a line break. -/
theorem Items.of_backslash (h : Items plain ('\\' :: w)) :
    ∃ c x, w = c :: x ∧ (Items plain x ∨ c = '\r' ∧ ∃ y, x = '\n' :: y ∧ Items plain y) := by
  cases h with
  | plain _ hb => exact absurd rfl hb
  | lineBreak hw => exact ⟨'\r', _, rfl, .inr ⟨rfl, _, rfl, hw⟩⟩
  | escape hw => exact ⟨_, _, rfl, .inl hw⟩

/-! ### The longest run -/

/-- Where no item begins the run is over. -/
theorem munch_nil
    (h : ∀ c, a.head? = some c → if c = '\\' then a.tail = [] else plain c = false) :
    Munch (items plain) a [] a where
  split := rfl
  mem := .nil
  longest := by
    rintro u ⟨b, rfl⟩ hu
    cases hu with
    | nil => exact Nat.le_refl _
    | plain hc hb _ =>
      have hp := h _ rfl
      rw [if_neg hb, hc] at hp
      cases hp
    | lineBreak _ => cases h _ rfl
    | escape _ => cases h _ rfl

theorem munch_plain (hc : plain c = true) (hb : c ≠ '\\') (h : Munch (items plain) a u v) :
    Munch (items plain) (c :: a) (c :: u) v where
  split := by rw [h.split, List.cons_append]
  mem := .plain hc hb h.mem
  longest := by
    intro u' hu' hm
    cases u' with
    | nil => exact Nat.zero_le _
    | cons d x =>
      obtain ⟨rfl, hx⟩ := List.cons_prefix_cons.1 hu'
      exact Nat.succ_le_succ (h.longest x hx (Items.plain_of_cons hm hb).2)

theorem munch_lineBreak (h : Munch (items plain) a u v) :
    Munch (items plain) ('\\' :: '\r' :: '\n' :: a) ('\\' :: '\r' :: '\n' :: u) v where
  split := by rw [h.split]; rfl
  mem := .lineBreak h.mem
  longest := by
    intro u' hu' hm
    cases u' with
    | nil => exact Nat.zero_le _
    | cons d x =>
      obtain ⟨rfl, hx⟩ := List.cons_prefix_cons.1 hu'
      obtain ⟨c, y, rfl, hy⟩ := Items.of_backslash hm
      obtain ⟨rfl, hy'⟩ := List.cons_prefix_cons.1 hx
      -- the line feed belongs to the escape, or it stands for itself, or the run ends before it
      have hz : ∀ z, y = '\n' :: z → Items plain z → z.length ≤ u.length := by
        rintro z rfl hz
        exact h.longest z (List.cons_prefix_cons.1 hy').2 hz
      rcases hy with hy | ⟨-, z, rfl, hy⟩
      · cases y with
        | nil => simp
        | cons e z =>
          obtain ⟨rfl, -⟩ := List.cons_prefix_cons.1 hy'
          have := hz z rfl (Items.plain_of_cons hy (by decide)).2
          simp only [List.length_cons]
          omega
      · have := hz z rfl hy
        simp only [List.length_cons]
        omega

theorem munch_escape (hc : c = '\r' → a.head? ≠ some '\n') (h : Munch (items plain) a u v) :
    Munch (items plain) ('\\' :: c :: a) ('\\' :: c :: u) v where
  split := by rw [h.split]; rfl
  mem := .escape h.mem
  longest := by
    intro u' hu' hm
    cases u' with
    | nil => exact Nat.zero_le _
    | cons d x =>
      obtain ⟨rfl, hx⟩ := List.cons_prefix_cons.1 hu'
      obtain ⟨c, y, rfl, hy⟩ := Items.of_backslash hm
      obtain ⟨rfl, hy'⟩ := List.cons_prefix_cons.1 hx
      rcases hy with hy | ⟨rfl, z, rfl, -⟩
      · exact Nat.succ_le_succ (Nat.succ_le_succ (h.longest y hy' hy))
      · obtain ⟨b, hb⟩ := hy'
        exact absurd (by rw [← hb]; rfl) (hc rfl)

end EcmaLex.Quoted
