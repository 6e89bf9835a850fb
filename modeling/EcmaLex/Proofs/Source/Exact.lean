import EcmaLex.Source.Reader

/-!
# Sources that read a given text

What a scanner makes of a text should depend on the characters of the text alone.
A source is *exact* when its state between two moves is told by the characters
behind the head and those from the head on: reading moves the head over the
first of these, taking a step back moves it over the last of those, and a search
finds what reading on would find.  All that is left to the source is how many
positions a character takes.

With an exact source every rule of the grammar becomes a function on lists of
characters, and where a rule leaves the reader says how much of the text it took.

## Main definitions

* `ExactSource` — a source whose states are places in a text.
* `Reader.between` — the reader at a place in a text.
* `Reader.Within` — the reader stands in a given stretch of the text.

## Main results

* `Reader.skipTo_between_cons` — a search stops at the first landmark.
* `Reader.Within.advance`, `Reader.Within.skipTo` — no move leaves the rest of the text.
-/

namespace EcmaLex

namespace TextSource

variable {σ : Type} [TextSource σ] {stop : Char → Bool} {s s' : σ}

theorem advanceUntil_of_advance_eq_none (h : advance s = (none, s')) :
    advanceUntil stop s = (none, s') := by
  rw [advanceUntil]
  split
  · next h' =>
    rw [h] at h'
    cases h'
    rfl
  · next h' =>
    rw [h] at h'
    cases h'

theorem advanceUntil_of_advance_eq_some {c : Char} (h : advance s = (some c, s')) :
    advanceUntil stop s = if stop c then (some c, s') else advanceUntil stop s' := by
  rw [advanceUntil]
  split
  · next h' =>
    rw [h] at h'
    cases h'
  · next h' =>
    rw [h] at h'
    cases h'
    rfl

end TextSource

/-- The number of positions that a text takes when every character takes its width. -/
def totalWidth (width : Char → Nat) : List Char → Nat
  | [] => 0
  | c :: text => width c + totalWidth width text

@[simp] theorem totalWidth_nil (width : Char → Nat) : totalWidth width [] = 0 := rfl

@[simp] theorem totalWidth_cons (width : Char → Nat) (c : Char) (text : List Char) :
    totalWidth width (c :: text) = width c + totalWidth width text := rfl

@[simp] theorem totalWidth_append (width : Char → Nat) (a b : List Char) :
    totalWidth width (a ++ b) = totalWidth width a + totalWidth width b := by
  induction a with
  | nil => rw [List.nil_append, totalWidth_nil, Nat.zero_add]
  | cons c a ih =>
    simp only [List.cons_append, totalWidth_cons, ih]
    omega

/-- A source whose states are places in a text. -/
class ExactSource (σ : Type) extends SearchableSource σ where
  /-- The number of positions that a character takes. -/
  width : Char → Nat
  /-- Every character takes some. -/
  width_pos : ∀ c, 0 < width c
  /-- The source before the first character of a text. -/
  fresh : List Char → σ
  /-- The source with the first characters read, and the first of the others the current one. -/
  between : List Char → List Char → σ
  /-- The first move is onto the first character. -/
  advance_fresh : ∀ text, advance (fresh text) = (text.head?, between [] text)
  /-- Before the first move the position is that of the first character. -/
  position_fresh : ∀ text, position (fresh text) = 0
  /-- Every further move passes the current character. -/
  advance_cons : ∀ before c after,
    advance (between before (c :: after)) = (after.head?, between (before ++ [c]) after)
  /-- Nothing moves at the end of the text. -/
  advance_nil : ∀ before, advance (between before []) = (none, between before [])
  /-- The character after the current one can be looked at. -/
  peek_between : ∀ before after, peek (between before after) = after.tail.head?
  /-- A step back makes the character before the current one the current one. -/
  pushBack_between : ∀ before c after,
    pushBack c (between (before ++ [c]) after) = between before (c :: after)
  /-- Positions count what the characters behind the head take. -/
  position_between : ∀ before after, position (between before after) = totalWidth width before
  /-- A search finds what reading on finds. -/
  skipTo_between : ∀ l before after,
    skipTo l (between before after) = TextSource.advanceUntil l.isAt (between before after)

/-- The number of positions that a text takes. -/
def extent (σ : Type) [ExactSource σ] (text : List Char) : Nat :=
  totalWidth (ExactSource.width σ) text

section Extent

variable (σ : Type) [ExactSource σ]

@[simp] theorem extent_nil : extent σ [] = 0 := rfl

@[simp] theorem extent_cons (c : Char) (text : List Char) :
    extent σ (c :: text) = ExactSource.width σ c + extent σ text := rfl

@[simp] theorem extent_append (a b : List Char) : extent σ (a ++ b) = extent σ a + extent σ b := by
  simp [extent]

theorem extent_pos {text : List Char} (h : text ≠ []) : 0 < extent σ text := by
  cases text with
  | nil => exact absurd rfl h
  | cons c text =>
    have := ExactSource.width_pos (σ := σ) c
    rw [extent_cons]
    omega

/-- A text has one beginning of a given extent. -/
theorem append_inj_of_extent_eq {a b c d : List Char} (h : a ++ b = c ++ d)
    (he : extent σ a = extent σ c) : a = c ∧ b = d := by
  induction a generalizing c with
  | nil =>
    cases c with
    | nil => exact ⟨rfl, h⟩
    | cons x c =>
      have := extent_pos (σ := σ) (List.cons_ne_nil x c)
      rw [← he] at this
      cases this
  | cons x a ih =>
    cases c with
    | nil =>
      have := extent_pos (σ := σ) (List.cons_ne_nil x a)
      rw [he] at this
      cases this
    | cons y c =>
      obtain ⟨rfl, htail⟩ := List.cons_eq_cons.1 h
      rw [extent_cons, extent_cons, Nat.add_left_cancel_iff] at he
      obtain ⟨rfl, rfl⟩ := ih htail he
      exact ⟨rfl, rfl⟩

end Extent

namespace ExactSource

variable {σ : Type} [ExactSource σ]

theorem advanceUntil_nil (stop : Char → Bool) (before : List Char) :
    TextSource.advanceUntil stop (between before [] : σ) = (none, between before []) :=
  TextSource.advanceUntil_of_advance_eq_none (advance_nil before)

/-- Reading on passes the current character and all that do not stop it. -/
theorem advanceUntil_cons (stop : Char → Bool) (before : List Char) (c : Char)
    (after : List Char) :
    TextSource.advanceUntil stop (between before (c :: after) : σ) =
      ((after.dropWhile (!stop ·)).head?,
        between (before ++ c :: after.takeWhile (!stop ·)) (after.dropWhile (!stop ·))) := by
  induction after generalizing before c with
  | nil => exact TextSource.advanceUntil_of_advance_eq_none (advance_cons before c [])
  | cons d after ih =>
    rw [TextSource.advanceUntil_of_advance_eq_some (advance_cons before c (d :: after))]
    by_cases hd : stop d = true <;> simp [hd, ih]

end ExactSource

namespace Reader

open ExactSource

variable {σ : Type} [ExactSource σ]

/-- The reader with the first characters behind the head, and the head on the first of
the others. -/
def between (before after : List Char) : Reader σ := ⟨ExactSource.between before after, after.head?⟩

/-! ### Moves -/

@[simp] theorem char?_between (before after : List Char) :
    (between before after : Reader σ).char? = after.head? := rfl

@[simp] theorem isAt_between (before after : List Char) (c : Char) :
    (between before after : Reader σ).isAt c = (after.head? == some c) := rfl

@[simp] theorem isAtAny_between (before after : List Char) (p : Char → Bool) :
    (between before after : Reader σ).isAtAny p = after.head?.any p := rfl

@[simp] theorem position_between (before after : List Char) :
    (between before after : Reader σ).position = extent σ before :=
  ExactSource.position_between before after

@[simp] theorem peek_between (before after : List Char) :
    (between before after : Reader σ).peek = after.tail.head? :=
  ExactSource.peek_between before after

@[simp] theorem advance_ofSource_fresh (text : List Char) :
    (ofSource (fresh text : σ)).advance = between [] text := by
  simp only [advance, ofSource, advance_fresh]
  rfl

@[simp] theorem advance_between_cons (before : List Char) (c : Char) (after : List Char) :
    (between before (c :: after) : Reader σ).advance = between (before ++ [c]) after := by
  simp only [advance, between, advance_cons]

@[simp] theorem advance_between_nil (before : List Char) :
    (between before [] : Reader σ).advance = between before [] := by
  simp only [advance, between, advance_nil, List.head?_nil]

@[simp] theorem pushBack_between (before : List Char) (c : Char) (after : List Char) :
    (between (before ++ [c]) after : Reader σ).pushBack c = between before (c :: after) := by
  simp only [pushBack, between, ExactSource.pushBack_between, List.head?_cons]

@[simp] theorem skipTo_between_nil (l : Landmark) (before : List Char) :
    (between before [] : Reader σ).skipTo l = between before [] := by
  simp only [skipTo, between, ExactSource.skipTo_between, advanceUntil_nil, List.head?_nil]

/-- A search passes the character under the head and stops at the first landmark after it. -/
@[simp] theorem skipTo_between_cons (l : Landmark) (before : List Char) (c : Char)
    (after : List Char) :
    (between before (c :: after) : Reader σ).skipTo l =
      between (before ++ c :: after.takeWhile (!l.isAt ·)) (after.dropWhile (!l.isAt ·)) := by
  simp only [skipTo, between, ExactSource.skipTo_between, advanceUntil_cons]

@[simp] theorem skipWhile_between (p : Char → Bool) (before after : List Char) :
    (between before after : Reader σ).skipWhile p =
      between (before ++ after.takeWhile p) (after.dropWhile p) := by
  induction after generalizing before with
  | nil =>
    rw [skipWhile]
    simp
  | cons c after ih =>
    rw [skipWhile]
    split
    · next h => cases h
    · next h =>
      cases h
      by_cases hp : p c = true <;> simp [hp, ih]

@[simp] theorem takeWhile_between (p : Char → Bool) (text : String) (before after : List Char) :
    (between before after : Reader σ).takeWhile p text =
      (text ++ String.ofList (after.takeWhile p),
        between (before ++ after.takeWhile p) (after.dropWhile p)) := by
  induction after generalizing before text with
  | nil =>
    rw [takeWhile]
    simp
  | cons c after ih =>
    rw [takeWhile]
    split
    · next h => cases h
    · next h =>
      cases h
      by_cases hp : p c = true
      · simp [hp, ih, String.ext_iff]
      · simp [hp]

/-! ### Stretches of the text -/

/-- The reader stands in the stretch that follows `before`, or at its end. -/
def Within (before after : List Char) (r : Reader σ) : Prop :=
  ∃ passed rest, after = passed ++ rest ∧ r = between (before ++ passed) rest

theorem within_between (before after : List Char) :
    Within before after (between before after : Reader σ) :=
  ⟨[], after, rfl, by rw [List.append_nil]⟩

namespace Within

variable {before after : List Char} {r : Reader σ}

theorem advance (h : Within before after r) : Within before after r.advance := by
  obtain ⟨passed, rest, rfl, rfl⟩ := h
  cases rest with
  | nil => exact ⟨passed, [], rfl, by simp⟩
  | cons c rest => exact ⟨passed ++ [c], rest, by simp, by simp⟩

theorem skipTo (h : Within before after r) (l : Landmark) : Within before after (r.skipTo l) := by
  obtain ⟨passed, rest, rfl, rfl⟩ := h
  cases rest with
  | nil => exact ⟨passed, [], rfl, by simp⟩
  | cons c rest =>
    exact ⟨passed ++ c :: rest.takeWhile (!l.isAt ·), rest.dropWhile (!l.isAt ·), by simp, by simp⟩

/-- Taking a step on and the same step back leaves the reader where it was. -/
theorem pushBack_advance (h : Within before after r) {c : Char} (hc : r.isAt c = true) :
    r.advance.pushBack c = r := by
  obtain ⟨passed, rest, rfl, rfl⟩ := h
  cases rest with
  | nil => cases hc
  | cons d rest =>
    obtain rfl : d = c := by simpa using hc
    rw [advance_between_cons, pushBack_between]

end Within

end Reader

end EcmaLex
