import EcmaLex.Proofs.Gap.Rows

/-!
# What magic comments record

A comment on a line assigns a value to a name when it begins with one of two marks, one white space
character, the name and an equals sign.  The rest of the line is a value, or it is none, and what is
recorded under the name afterwards is just that.  So the last assignment decides, and one without a
value takes back what the ones before it recorded.

## Main definitions

* `MagicName.Assigns` — the comment assigns the rest of its line to the name.
* `Gap.IsValue`, `Gap.Recorded` — the value that a text holds, and what is recorded of it.
* `MagicName.Records` — what is recorded under a name after a row of comments.
* `Gap.Notes` — the same for all names.

## Main results

* `Gap.recorded_magicValue` — **what is read as a value is the value**.
* `Gap.notes_magicComment` — a comment records what it assigns.
* `Gap.Notes.append` — what two rows of comments record, one after the other.
-/

namespace EcmaLex

namespace Gap

/-! ### Assignments -/

namespace MagicName

/-- How the name is spelled. -/
def text : MagicName → String
  | sourceUrl => "sourceURL"
  | sourceMappingUrl => "sourceMappingURL"

/-- What is recorded under the name. -/
def get (f : Findings) : MagicName → Option String
  | sourceUrl => f.sourceUrl?
  | sourceMappingUrl => f.sourceMappingUrl?

/-- The comment assigns the rest of its line to the name.  The slashes that it begins with are left
out. -/
def Assigns (name : MagicName) (comment rest : List Char) : Prop :=
  ∃ mark space, (mark = '#' ∨ mark = '@') ∧ isWhiteSpace space = true ∧
    comment = mark :: space :: (name.text.toList ++ '=' :: rest)

theorem ofText_eq_some_iff {spelling : String} {name : MagicName} :
    ofText spelling = some name ↔ spelling = name.text := by
  constructor
  · intro h
    unfold ofText at h
    split at h
    · next he =>
      cases h
      exact he
    · split at h
      · next he =>
        cases h
        exact he
      · cases h
  · rintro rfl
    cases name <;> rfl

@[simp] theorem get_set (name : MagicName) (value? : Option String) (f : Findings) :
    name.get (name.set value? f) = value? := by
  cases name <;> rfl

/-- A value that is recorded under one name leaves the other name alone. -/
theorem get_set_of_ne {name other : MagicName} (h : name ≠ other) (value? : Option String)
    (f : Findings) : name.get (other.set value? f) = name.get f := by
  cases name <;> cases other <;> first | rfl | exact absurd rfl h

/-- A name is read up to the equals sign behind it. -/
theorem takeWhile_text (name : MagicName) (rest : List Char) :
    (name.text.toList ++ '=' :: rest).takeWhile (fun c => c != '=' && !isBlank c) =
        name.text.toList ∧
      (name.text.toList ++ '=' :: rest).dropWhile (fun c => c != '=' && !isBlank c) =
        '=' :: rest := by
  have hname : ∀ c ∈ name.text.toList, (c != '=' && !isBlank c) = true := by
    cases name <;> exact forall_mem_of_all (by decide)
  rw [List.takeWhile_append_of_pos hname, List.dropWhile_append_of_pos hname]
  simp

/-- What a comment assigns, told by what is read as the name. -/
theorem assigns_cons_iff {name : MagicName} {mark space : Char} {body rest : List Char} :
    name.Assigns (mark :: space :: body) rest ↔
      (mark = '#' ∨ mark = '@') ∧ isWhiteSpace space = true ∧
        body.takeWhile (fun c => c != '=' && !isBlank c) = name.text.toList ∧
        body.dropWhile (fun c => c != '=' && !isBlank c) = '=' :: rest := by
  constructor
  · rintro ⟨mark, space, hmark, hspace, he⟩
    cases he
    exact ⟨hmark, hspace, name.takeWhile_text rest⟩
  · rintro ⟨hmark, hspace, htake, hdrop⟩
    refine ⟨mark, space, hmark, hspace, ?_⟩
    rw [← htake, ← hdrop, List.takeWhile_append_dropWhile]

/-- A comment assigns one text to one name. -/
theorem Assigns.unique {name other : MagicName} {comment rest rest' : List Char}
    (h : name.Assigns comment rest) (h' : other.Assigns comment rest') :
    name = other ∧ rest = rest' := by
  obtain ⟨mark, space, -, -, rfl⟩ := h
  obtain ⟨-, -, htake, hdrop⟩ := assigns_cons_iff.1 h'
  rw [(name.takeWhile_text rest).1, String.toList_inj] at htake
  rw [(name.takeWhile_text rest).2] at hdrop
  refine ⟨?_, (List.cons_eq_cons.1 hdrop).2⟩
  rw [← Option.some_inj, ← ofText_eq_some_iff.2 rfl, htake, ofText_eq_some_iff.2 rfl]

end MagicName

/-! ### Values -/

/-- The text holds the value, with white space around it. -/
structure IsValue (text value : List Char) : Prop where
  /-- There is one. -/
  ne_nil : value ≠ []
  /-- It holds neither blanks nor quotes. -/
  plain : ∀ c ∈ value, isBlank c = false ∧ isQuote c = false
  /-- Nothing but white space is around it. -/
  around : ∃ front back, text = front ++ (value ++ back) ∧
    (∀ c ∈ front, isWhiteSpace c = true) ∧ ∀ c ∈ back, isWhiteSpace c = true

/-- What is recorded of a text: its value, or that it holds none. -/
def Recorded (text : List Char) (value? : Option String) : Prop :=
  ∀ value : String, value? = some value ↔ IsValue text value.toList

/-- The value is what stands between the white space at the start and what ends it. -/
theorem isValue_iff {text value : List Char} :
    IsValue text value ↔ value ≠ [] ∧
      value = (text.dropWhile isWhiteSpace).takeWhile (fun c => !isQuote c && !isBlank c) ∧
      ∀ c ∈ (text.dropWhile isWhiteSpace).dropWhile (fun c => !isQuote c && !isBlank c),
        isWhiteSpace c = true := by
  constructor
  · rintro ⟨hne, hplain, front, back, rfl, hfront, hback⟩
    have hplain : ∀ c ∈ value, (!isQuote c && !isBlank c) = true := fun c hc => by
      rw [(hplain c hc).1, (hplain c hc).2]
      rfl
    -- the white space ends at the value, and the value at white space
    have hvalue : (value ++ back).dropWhile isWhiteSpace = value ++ back := by
      obtain ⟨c, value, rfl⟩ := List.exists_cons_of_ne_nil hne
      have hc := hplain c List.mem_cons_self
      rw [List.cons_append, List.dropWhile_cons_of_neg]
      intro hw
      rw [isBlank, hw] at hc
      simp at hc
    have hend : ∀ c, back.head? = some c → ¬ (!isQuote c && !isBlank c) = true := by
      intro c hc
      rw [isBlank, hback c (List.mem_of_mem_head? hc)]
      simp
    have hback' : back.takeWhile (fun c => !isQuote c && !isBlank c) = [] ∧
        back.dropWhile (fun c => !isQuote c && !isBlank c) = back := by
      cases back with
      | nil => exact ⟨rfl, rfl⟩
      | cons c back =>
        have hc := hend c rfl
        exact ⟨List.takeWhile_cons_of_neg hc, List.dropWhile_cons_of_neg hc⟩
    rw [List.dropWhile_append_of_pos hfront, hvalue, List.takeWhile_append_of_pos hplain,
      List.dropWhile_append_of_pos hplain, hback'.1, hback'.2, List.append_nil]
    exact ⟨hne, rfl, hback⟩
  · rintro ⟨hne, rfl, hback⟩
    refine ⟨hne, fun c hc => ?_, text.takeWhile isWhiteSpace, _, ?_, fun c hc => ?_, hback⟩
    · have := List.mem_takeWhile_imp hc
      simpa [and_comm] using this
    · rw [List.takeWhile_append_dropWhile, List.takeWhile_append_dropWhile]
    · exact List.mem_takeWhile_imp hc

/-! ### What is read on a line -/

/-- A run of characters that end no line stays on its line. -/
theorem Line.run {p : Char → Bool} (hp : ∀ c, p c = true → isLineTerminator c = false)
    {body rest : List Char} (h : Line body rest) :
    (body ++ rest).takeWhile p = body.takeWhile p ∧
      (body ++ rest).dropWhile p = body.dropWhile p ++ rest ∧ Line (body.dropWhile p) rest := by
  induction body with
  | nil =>
    cases rest with
    | nil => exact ⟨rfl, rfl, h⟩
    | cons c rest =>
      have hc : ¬ p c = true := by
        intro hc
        have := h.2 c rfl
        rw [hp c hc] at this
        cases this
      exact ⟨List.takeWhile_cons_of_neg hc, List.dropWhile_cons_of_neg hc, h⟩
  | cons c body ih =>
    obtain ⟨htake, hdrop, hrest⟩ := ih h.of_cons
    by_cases hc : p c = true
    · rw [List.cons_append, List.takeWhile_cons_of_pos hc, List.takeWhile_cons_of_pos hc,
        List.dropWhile_cons_of_pos hc, List.dropWhile_cons_of_pos hc, htake]
      exact ⟨rfl, hdrop, hrest⟩
    · rw [List.cons_append, List.takeWhile_cons_of_neg hc, List.takeWhile_cons_of_neg hc,
        List.dropWhile_cons_of_neg hc, List.dropWhile_cons_of_neg hc]
      exact ⟨rfl, rfl, h⟩

/-- A character that ends no line is the first one of the line. -/
theorem Line.any_head? {p : Char → Bool} (hp : ∀ c, p c = true → isLineTerminator c = false)
    {body rest : List Char} (h : Line body rest) :
    (body ++ rest).head?.any p = body.head?.any p := by
  cases body with
  | cons c body => rfl
  | nil =>
    cases rest with
    | nil => rfl
    | cons c rest =>
      have hc := h.2 c rfl
      rw [List.nil_append, List.head?_cons, List.head?_nil, Option.any_some, Option.any_none,
        Bool.eq_false_iff]
      intro hpc
      rw [hp c hpc] at hc
      cases hc

open Reader

variable {σ : Type} [ExactSource σ]

/-- What is read as a value with the head on a character of the line. -/
theorem magicValue_between {text after : List Char} (h : Line text after) (before : List Char)
    (value : String) :
    (magicValue (between before (text ++ after) : Reader σ)).1 = some value ↔
      value.toList ≠ [] ∧ value.toList = text.takeWhile (fun c => !isQuote c && !isBlank c) ∧
        ∀ c ∈ text.dropWhile (fun c => !isQuote c && !isBlank c), isWhiteSpace c = true := by
  have hq : ∀ c, isQuote c = true → isLineTerminator c = false := by
    intro c hc
    simp only [isQuote, Bool.or_eq_true, beq_iff_eq] at hc
    rcases hc with rfl | rfl <;> rfl
  obtain ⟨htake, hdrop, hline⟩ := h.run (p := fun c => !isQuote c && !isBlank c)
    fun c => isLineTerminator_of_and_not_isBlank
  obtain ⟨-, hdrop', hline'⟩ := hline.run (p := isWhiteSpace)
    fun c => isLineTerminator_of_isWhiteSpace
  unfold magicValue
  rw [takeWhile_between, htake, hdrop]
  generalize text.takeWhile (fun c => !isQuote c && !isBlank c) = taken
  generalize text.dropWhile (fun c => !isQuote c && !isBlank c) = rest at *
  dsimp only
  rw [isAtAny_between, hline.any_head? hq, skipWhile_between, isAtAny_between, hdrop',
    hline'.any_head? fun c hc => by simpa using hc]
  by_cases hblank : ∀ c ∈ rest, isWhiteSpace c = true
  · -- white space is no quote, and nothing is left behind it
    have hquote : rest.head?.any isQuote = false := by
      cases rest with
      | nil => rfl
      | cons c rest =>
        have hc := hblank c List.mem_cons_self
        rw [List.head?_cons, Option.any_some, Bool.eq_false_iff]
        intro hq
        simp only [isQuote, Bool.or_eq_true, beq_iff_eq] at hq
        rcases hq with rfl | rfl <;> cases hc
    rw [hquote, List.dropWhile_eq_nil_iff.2 hblank]
    rw [String.empty_append]
    by_cases htaken : taken = []
    · subst htaken
      refine iff_of_false nofun ?_
      rintro ⟨hne, he, -⟩
      exact hne he
    · have hempty : (String.ofList taken).isEmpty = false := by simpa using htaken
      rw [hempty]
      change some (String.ofList taken) = some value ↔ _
      rw [Option.some_inj, ← String.toList_inj, String.toList_ofList]
      constructor
      · rintro rfl
        exact ⟨htaken, rfl, hblank⟩
      · rintro ⟨-, he, -⟩
        exact he.symm
  · -- what is left on the line is a quote, or it comes behind white space
    have hleft : (rest.dropWhile isWhiteSpace).head?.any (!isLineTerminator ·) = true := by
      cases hd : rest.dropWhile isWhiteSpace with
      | nil => exact absurd (List.dropWhile_eq_nil_iff.1 hd) hblank
      | cons c left =>
        have hc := hline'.1 c (by rw [hd]; exact List.mem_cons_self)
        rw [List.head?_cons, Option.any_some, hc]
        rfl
    rw [hleft, Bool.true_or, if_pos rfl]
    split <;> exact iff_of_false nofun fun h => hblank h.2.2

/-- **What is read as a value is the value.** -/
theorem recorded_magicValue {text after : List Char} (h : Line text after) (before : List Char) :
    Recorded text
      (magicValue ((between before (text ++ after) : Reader σ).skipWhile isWhiteSpace)).1 := by
  obtain ⟨-, hdrop, hline⟩ := h.run (p := isWhiteSpace) fun c => isLineTerminator_of_isWhiteSpace
  intro value
  rw [skipWhile_between, hdrop, magicValue_between hline, isValue_iff]

/-- A comment that may assign a value assigns it, or it assigns none and nothing is recorded. -/
theorem magicAssignment_between {mark : Char} (hmark : mark = '#' ∨ mark = '@')
    {body after : List Char} (h : Line body after) (f : Findings) (before : List Char) :
    (∃ name rest value?, MagicName.Assigns name (mark :: body) rest ∧ Recorded rest value? ∧
        (magicAssignment f (between before (body ++ after) : Reader σ)).1 = name.set value? f) ∨
      (∀ name rest, ¬ MagicName.Assigns name (mark :: body) rest) ∧
        (magicAssignment f (between before (body ++ after) : Reader σ)).1 = f := by
  unfold magicAssignment
  rw [isAtAny_between, h.any_head? fun c => isLineTerminator_of_isWhiteSpace]
  split
  · next hspace =>
    obtain ⟨space, hhead, hspace⟩ := (Option.any_eq_true _ _).1 hspace
    obtain ⟨body, rfl⟩ := List.head?_eq_some_iff.1 hhead
    obtain ⟨htake, hdrop, hline⟩ := h.of_cons.run (p := fun c => c != '=' && !isBlank c)
      fun c => isLineTerminator_of_and_not_isBlank
    simp only [MagicName.assigns_cons_iff]
    rw [List.cons_append, advance_between_cons, takeWhile_between, htake, hdrop]
    generalize body.takeWhile (fun c => c != '=' && !isBlank c) = spelling at *
    generalize body.dropWhile (fun c => c != '=' && !isBlank c) = left at *
    dsimp only
    split
    · next hname =>
      refine .inr ⟨?_, rfl⟩
      rintro name rest ⟨-, -, rfl, -⟩
      rw [String.empty_append, String.ofList_toList, MagicName.ofText_eq_some_iff.2 rfl] at hname
      cases hname
    · next name hname =>
      rw [MagicName.ofText_eq_some_iff, String.empty_append] at hname
      split
      · next heq =>
        rw [isAt_between, beq_iff_eq] at heq
        cases left with
        | nil =>
          -- an equals sign ends no line
          cases hline.2 _ heq
        | cons c rest =>
          cases heq
          refine .inl ⟨name, rest, _, ⟨hmark, hspace, ?_, rfl⟩, ?_, rfl⟩
          · rw [← hname, String.toList_ofList]
          · rw [List.cons_append, advance_between_cons]
            exact recorded_magicValue hline.of_cons _
      · next heq =>
        refine .inr ⟨?_, rfl⟩
        rintro name rest ⟨-, -, -, rfl⟩
        exact heq (by simp)
  · next hspace =>
    refine .inr ⟨?_, rfl⟩
    rintro name rest ⟨_, space, -, hblank, he⟩
    rw [(List.cons_eq_cons.1 he).2, List.head?_cons, Option.any_some] at hspace
    exact hspace hblank

/-! ### Rows of comments -/

/-- What is recorded under the name after a row of comments, where something may be recorded
before it. -/
inductive MagicName.Records (name : MagicName) (before? : Option String) :
    List (List Char) → Option String → Prop where
  /-- No comment assigns anything to the name. -/
  | unchanged {comments}
      (others : ∀ comment ∈ comments, ∀ rest, ¬ name.Assigns comment rest) :
      Records name before? comments before?
  /-- The last comment that does so decides. -/
  | last {earlier comment later rest value?} (assigns : name.Assigns comment rest)
      (recorded : Recorded rest value?)
      (others : ∀ comment ∈ later, ∀ rest, ¬ name.Assigns comment rest) :
      Records name before? (earlier ++ comment :: later) value?

/-- Of two rows of comments the second one begins with what the first one has recorded. -/
theorem MagicName.Records.append {name : MagicName} {before? between? after? : Option String}
    {comments comments' : List (List Char)} (h : name.Records before? comments between?)
    (h' : name.Records between? comments' after?) :
    name.Records before? (comments ++ comments') after? := by
  cases h' with
  | last assigns recorded others =>
    rw [← List.append_assoc]
    exact .last assigns recorded others
  | unchanged others' =>
    cases h with
    | unchanged others =>
      refine .unchanged fun comment hc => ?_
      rcases List.mem_append.1 hc with hc | hc
      · exact others comment hc
      · exact others' comment hc
    | last assigns recorded others =>
      rw [List.append_assoc, List.cons_append]
      refine .last assigns recorded fun comment hc => ?_
      rcases List.mem_append.1 hc with hc | hc
      · exact others comment hc
      · exact others' comment hc

/-- Under each name is recorded what the comments say. -/
def Notes (comments : List (List Char)) (f f' : Findings) : Prop :=
  ∀ name : MagicName, name.Records (name.get f) comments (name.get f')

namespace Notes

variable {comments comments' : List (List Char)} {f f' f'' : Findings}

theorem refl (f : Findings) : Notes [] f f := fun _ => .unchanged nofun

/-- Without a comment, what is recorded stays. -/
theorem of_get_eq (h : ∀ name : MagicName, name.get f' = name.get f) : Notes [] f f' := by
  intro name
  rw [h name]
  exact .unchanged nofun

theorem append (h : Notes comments f f') (h' : Notes comments' f' f'') :
    Notes (comments ++ comments') f f'' :=
  fun name => (h name).append (h' name)

/-- A comment that begins with no mark says nothing. -/
theorem of_head? {comment : List Char} (h : comment.head? ≠ some '#' ∧ comment.head? ≠ some '@')
    (f : Findings) : Notes [comment] f f := by
  refine fun name => .unchanged fun comment' hc rest => ?_
  obtain rfl := List.mem_singleton.1 hc
  rintro ⟨mark, space, hmark, -, rfl⟩
  rcases hmark with rfl | rfl
  · exact h.1 rfl
  · exact h.2 rfl

end Notes

/-- **A comment records what it assigns**, and nothing else. -/
theorem notes_magicComment {mark : Char} (hmark : mark = '#' ∨ mark = '@') {body rest : List Char}
    (h : Line body rest) (f : Findings) (before : List Char) :
    Notes [mark :: body] f (magicComment f (between before (body ++ rest) : Reader σ)).1 := by
  intro name
  change name.Records _ _ (name.get (magicAssignment f (between before (body ++ rest))).1)
  rcases magicAssignment_between (σ := σ) hmark h f before with
    ⟨other, value, value?, hassigns, hrecorded, hf⟩ | ⟨hnone, hf⟩
  · rw [hf]
    by_cases hname : name = other
    · subst hname
      rw [MagicName.get_set, ← List.nil_append [mark :: body]]
      exact .last hassigns hrecorded nofun
    · -- the comment assigns to the other name alone
      rw [MagicName.get_set_of_ne hname]
      refine .unchanged fun comment hc rest h => ?_
      obtain rfl := List.mem_singleton.1 hc
      exact hname (h.unique hassigns).1
  · rw [hf]
    refine .unchanged fun comment hc => ?_
    obtain rfl := List.mem_singleton.1 hc
    exact hnone name

end Gap

end EcmaLex
