import EcmaLex.Proofs.Word.Escape

/-!
# The characters of words

A word is spelled by characters that stand for themselves and by escapes, up to the first
character that does not continue identifiers.  Since a backslash does, the word never ends
before one: either an escape of a character that may stand there is found, or the whole word is
malformed.

## Main definitions

* `Word.Letter` — one character of a word, plain or escaped.
* `Word.Continues`, `Word.Spells` — the texts that spell a word, and the characters that they
  spell.
* `Word.Malformed` — a text in which some backslash of a word begins no escape that may stand
  there.

## Main results

* `Word.Spells.eq_of_append` — a text begins with one word at most.
* `Word.Spells.not_malformed` — a word that ends somewhere is not malformed.
* `Word.carefulRun_between` — **how words are read on with care**.
-/

namespace EcmaLex

open Reader

namespace Word

/-! ### How words are spelled -/

/-- The text spells one character of a word, which stands for itself or is escaped. -/
inductive Letter (allowed : Char → Bool) : List Char → Char → Bool → Prop where
  /-- The character itself. -/
  | plain {c : Char} (hc : Allows allowed c) : Letter allowed [c] c false
  /-- An escape. -/
  | escape {w : List Char} {c : Char} (hw : Escape w c.toNat) (hc : Allows allowed c) :
      Letter allowed w c true

/-- The text continues a word with the characters of the second text, and the flag says whether
some of them are escaped. -/
inductive Continues : List Char → List Char → Bool → Prop where
  /-- The word may end. -/
  | nil : Continues [] [] false
  /-- One more character. -/
  | cons {w u d : List Char} {c : Char} {e e' : Bool} (hw : Letter isIdentifierPart w c e)
      (h : Continues u d e') : Continues (w ++ u) (c :: d) (e || e')

/-- The text spells a word of the characters of the second text, and the flag says whether some
of them are escaped. -/
inductive Spells : List Char → List Char → Bool → Prop where
  /-- A character that starts identifiers, and those after it. -/
  | mk {w u d : List Char} {c : Char} {e e' : Bool} (hw : Letter isIdentifierStart w c e)
      (h : Continues u d e') : Spells (w ++ u) (c :: d) (e || e')

/-- The word ends before the text. -/
def Ends (v : List Char) : Prop := ∀ c, v.head? = some c → isIdentifierPart c = false

/-- Some backslash of a word begins no escape of a character that may stand there: the first
character of the text is such a backslash, or one after the beginning of a word is. -/
def Malformed (r : List Char) : Prop :=
  BadEscape isIdentifierStart r ∨
    ∃ u d e v, r = u ++ v ∧ Spells u d e ∧ BadEscape isIdentifierPart v

/-- The text begins with no character of a word. -/
def Stops (allowed : Char → Bool) (v : List Char) : Prop :=
  ∀ w c e, w <+: v → ¬ Letter allowed w c e

variable {allowed : Char → Bool} {a r u u' v v' w w' d d' : List Char} {e e' : Bool}
  {c c' : Char}

/-- A text begins with one character of a word at most. -/
theorem Letter.eq_of_prefix (h : Letter allowed w c e) (h' : Letter allowed w' c' e')
    (hw : w <+: v) (hw' : w' <+: v) : w = w' ∧ c = c' ∧ e = e' := by
  cases h with
  | plain hc =>
    obtain ⟨b, rfl⟩ := hw
    cases h' with
    | plain =>
      obtain ⟨rfl, -⟩ := List.cons_prefix_cons.1 hw'
      exact ⟨rfl, rfl, rfl⟩
    | escape he =>
      -- an escape begins with a backslash
      obtain ⟨x, rfl⟩ := he.exists_cons
      exact absurd (List.cons_prefix_cons.1 hw').1.symm hc.1
  | escape he hc =>
    cases h' with
    | plain hc' =>
      obtain ⟨x, rfl⟩ := he.exists_cons
      obtain ⟨b, rfl⟩ := hw'
      exact absurd (List.cons_prefix_cons.1 hw).1.symm hc'.1
    | escape he' =>
      obtain ⟨rfl, hn⟩ := he.eq_of_prefix he' hw hw'
      exact ⟨rfl, Char.toNat_inj.1 hn, rfl⟩

theorem BadEscape.stops (h : BadEscape allowed v) : Stops allowed v := by
  obtain ⟨hb, hbad⟩ := h
  rintro w c e ⟨rest, rfl⟩ hl
  cases hl with
  | plain hc => exact hc.1 (Option.some.inj hb)
  | escape he hc => exact hbad _ _ rest ⟨rfl, he, hc⟩

theorem Ends.stops (h : Ends v) : Stops isIdentifierPart v := by
  rintro w c e ⟨rest, rfl⟩ hl
  cases hl with
  | plain hc =>
    have hend := h _ rfl
    rw [hc.2] at hend
    cases hend
  | escape he hc =>
    obtain ⟨x, rfl⟩ := he.exists_cons
    cases h _ rfl

/-- A word goes on in one way, as far as there are characters of it. -/
theorem Continues.eq_of_append (h : Continues u d e) (h' : Continues u' d' e')
    (hv : Stops isIdentifierPart v) (hv' : Stops isIdentifierPart v') (hs : u ++ v = u' ++ v') :
    v = v' ∧ d = d' ∧ e = e' := by
  induction h generalizing u' d' e' with
  | nil =>
    cases h' with
    | nil => exact ⟨hs, rfl, rfl⟩
    | cons hw _ =>
      rw [List.nil_append, List.append_assoc] at hs
      exact absurd hw (hv _ _ _ ⟨_, hs.symm⟩)
  | cons hw _ ih =>
    rw [List.append_assoc] at hs
    cases h' with
    | nil => exact absurd hw (hv' _ _ _ ⟨_, hs⟩)
    | cons hw' h' =>
      rw [List.append_assoc] at hs
      obtain ⟨rfl, rfl, rfl⟩ := hw.eq_of_prefix hw' ⟨_, rfl⟩ ⟨_, hs.symm⟩
      obtain ⟨hv, rfl, rfl⟩ := ih h' (List.append_cancel_left hs)
      exact ⟨hv, rfl, rfl⟩

/-- **A text begins with one word at most**, which ends where no character of it follows. -/
theorem Spells.eq_of_append (h : Spells u d e) (h' : Spells u' d' e')
    (hv : Stops isIdentifierPart v) (hv' : Stops isIdentifierPart v') (hs : u ++ v = u' ++ v') :
    v = v' ∧ d = d' ∧ e = e' := by
  obtain ⟨hw, hu⟩ := h
  obtain ⟨hw', hu'⟩ := h'
  rw [List.append_assoc, List.append_assoc] at hs
  obtain ⟨rfl, rfl, rfl⟩ := hw.eq_of_prefix hw' ⟨_, rfl⟩ ⟨_, hs.symm⟩
  obtain ⟨hv, rfl, rfl⟩ := hu.eq_of_append hu' hv hv' (List.append_cancel_left hs)
  exact ⟨hv, rfl, rfl⟩

/-- A word that ends somewhere is not malformed. -/
theorem Spells.not_malformed (h : Spells u d e) (hv : Ends v) : ¬ Malformed (u ++ v) := by
  rintro (hbad | ⟨u', d', e', v', hs, h', hbad⟩)
  · obtain ⟨hw, -⟩ := h
    exact hbad.stops _ _ _ ⟨_, (List.append_assoc _ _ _).symm⟩ hw
  · -- both words end at the same place, where there is a backslash
    obtain ⟨rfl, -⟩ := h.eq_of_append h' hv.stops hbad.stops hs
    cases hv _ hbad.1

theorem Continues.append (h : Continues u d e) (h' : Continues u' d' e') :
    Continues (u ++ u') (d ++ d') (e || e') := by
  induction h with
  | nil => exact h'
  | cons hw _ ih =>
    rw [List.append_assoc, Bool.or_assoc]
    exact .cons hw ih

theorem Spells.append (h : Spells u d e) (h' : Continues u' d' e') :
    Spells (u ++ u') (d ++ d') (e || e') := by
  obtain ⟨hw, h⟩ := h
  rw [List.append_assoc, Bool.or_assoc]
  exact .mk hw (h.append h')

/-- A word that goes on with an escape somewhere takes the next character if that is not
ASCII, since no escape begins with it. -/
theorem Continues.mem_of_not_isAscii (h : Continues u d e) (he : e = true)
    (hc : isAscii c = false) (hu : (u ++ v).head? = some c) : c ∈ d := by
  cases h with
  | nil => cases he
  | cons hw h =>
    cases hw with
    | plain =>
      cases hu
      exact List.mem_cons_self
    | escape hw =>
      obtain ⟨x, rfl⟩ := hw.exists_cons
      cases hu
      cases hc

/-- ASCII identifier characters stand for themselves. -/
theorem continues_of_isAsciiIdentifier (h : ∀ c ∈ u, isAsciiIdentifier c = true) :
    Continues u u false := by
  induction u with
  | nil => exact .nil
  | cons c u ih =>
    have hc := h c List.mem_cons_self
    have hs : c ≠ '\\' := by
      rintro rfl
      cases hc
    exact .cons (.plain ⟨hs, isIdentifierPart_of_isAsciiIdentifier hc⟩)
      (ih fun d hd => h d (List.mem_cons_of_mem c hd))

/-- Without escapes a word is its text. -/
theorem Continues.eq_of_not_escaped (h : Continues u d e) (he : e = false) :
    u = d ∧ ∀ c ∈ u, Allows isIdentifierPart c := by
  induction h with
  | nil => exact ⟨rfl, fun c hc => by cases hc⟩
  | cons hw _ ih =>
    obtain ⟨rfl, rfl⟩ := Bool.or_eq_false_iff.1 he
    obtain ⟨rfl, hall⟩ := ih rfl
    cases hw with
    | plain hc => exact ⟨rfl, List.forall_mem_cons.2 ⟨hc, hall⟩⟩

/-! ### Reading on with care -/

variable {σ : Type} [ExactSource σ] {before : List Char}

/-- How a word is read on: to its end, or to a malformed escape. -/
def RunOutcome (p : Progress σ) (before a : List Char) (result : Progress σ × Option Diagnostic) :
    Prop :=
  ∃ u d e v, a = u ++ v ∧ Continues u d e ∧
    (Ends v ∧
        result = (⟨p.canBeKeyword && d.all CharFlags.isInKeyword, p.escaped || e,
          p.text ++ .ofList d, between (before ++ u) v⟩, none) ∨
      BadEscape isIdentifierPart v ∧
        ∃ d, result.2 = some d ∧ d.cause = .invalidUnicodeEscape)

/-- What is read after one character of a word is read after all of them. -/
theorem RunOutcome.letter {p : Progress σ} (reader : Reader σ)
    {result : Progress σ × Option Diagnostic} (hl : Letter isIdentifierPart w c e)
    (h : RunOutcome ⟨p.canBeKeyword && CharFlags.isInKeyword c, p.escaped || e, p.text.push c,
      reader⟩ (before ++ w) a result) : RunOutcome p before (w ++ a) result := by
  obtain ⟨u, d, e', v, rfl, hu, h⟩ := h
  refine ⟨w ++ u, c :: d, e || e', v, (List.append_assoc _ _ _).symm, .cons hl hu, ?_⟩
  rcases h with ⟨hv, rfl⟩ | h
  · refine .inl ⟨hv, ?_⟩
    simp [String.ext_iff, Bool.and_assoc, Bool.or_assoc]
  · exact .inr h

/-- **How words are read on with care.** -/
theorem carefulRun_between (p : Progress σ) :
    ∀ before a, p.reader = between before a → RunOutcome p before a (carefulRun p) := by
  fun_induction carefulRun p with
  | case1 p h =>
    intro before a hr
    rw [hr, char?_between] at h
    obtain rfl := List.head?_eq_none_iff.1 h
    refine ⟨[], [], false, [], rfl, .nil, .inl ⟨fun c hc => (by cases hc), ?_⟩⟩
    simp [← hr]
  | case2 p c h hc d r he ih =>
    intro before a hr
    rw [hr, char?_between] at h
    obtain ⟨a, rfl⟩ := List.head?_eq_some_iff.1 h
    obtain rfl : c = '\\' := by simpa using hc
    rw [hr] at he
    have hread := allowedEscape_between (σ := σ) isIdentifierPart before a
    rw [he] at hread
    rcases hread with ⟨w, d', rest, ⟨hsplit, hw, hd⟩, heq⟩ | ⟨hnone, -⟩
    · cases heq
      rw [hsplit]
      refine RunOutcome.letter (between (before ++ w) rest) (.escape hw hd) ?_
      rw [Bool.or_true]
      exact ih _ _ rfl
    · cases hnone
  | case3 p c h hc r he =>
    intro before a hr
    rw [hr, char?_between] at h
    obtain ⟨a, rfl⟩ := List.head?_eq_some_iff.1 h
    obtain rfl : c = '\\' := by simpa using hc
    rw [hr] at he
    have hread := allowedEscape_between (σ := σ) isIdentifierPart before a
    rw [he] at hread
    rcases hread with ⟨w, d', rest, -, heq⟩ | ⟨-, hbad⟩
    · cases heq
    · exact ⟨[], [], false, '\\' :: a, rfl, .nil, .inr ⟨hbad, _, rfl, rfl⟩⟩
  | case4 p c h hc hp ih =>
    intro before a hr
    rw [hr, char?_between] at h
    obtain ⟨a, rfl⟩ := List.head?_eq_some_iff.1 h
    refine RunOutcome.letter p.reader.advance (w := [c]) (.plain ⟨by simpa using hc, hp⟩) ?_
    rw [Bool.or_false]
    refine ih _ _ ?_
    rw [hr, advance_between_cons]
  | case5 p c h hc hp =>
    intro before a hr
    rw [hr, char?_between] at h
    refine ⟨[], [], false, a, rfl, .nil, .inl ⟨fun d hd => ?_, ?_⟩⟩
    · rw [hd] at h
      cases h
      simpa using hp
    · simp [← hr]

end Word

end EcmaLex
