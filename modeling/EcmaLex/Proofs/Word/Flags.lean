import EcmaLex.Lexeme.CharFlags
import EcmaLex.Proofs.Character.Class

/-!
# What the gathered flags tell

Each fact about characters is one bit, so whether it is among the gathered facts is
whether it is among those of some character.  The facts of single characters are
read off the definition of the table.

## Main definitions

* `CharFlags.IsBit` — the set holds one fact.
* `CharFlags.gather` — the facts of a set and those about the characters of a text.

## Main results

* `CharFlags.contains_or` — a fact is in a union if it is in one of the two sets.
* `CharFlags.isWordEnd_ofChar`, `CharFlags.isSpecial_ofChar`, `CharFlags.canBeKeyword_ofChar`,
  `CharFlags.isStringRunEnd_ofChar` — the facts about one character.
* `CharFlags.canBeKeyword_gather_run`, `CharFlags.isSpecial_gather_run` — those about a run of ASCII
  identifier characters and the character after it.
-/

namespace EcmaLex

namespace CharFlags

/-- The set holds one fact: of any byte, either all of its bits or none are set. -/
def IsBit (m : CharFlags) : Prop :=
  m.bits ≠ 0 ∧ ∀ b : UInt8, b &&& m.bits = 0 ∨ b &&& m.bits = m.bits

theorem isBit_endsWord : IsBit endsWord := by
  refine ⟨by decide, ?_⟩
  rintro ⟨b⟩
  revert b
  decide +kernel

theorem isBit_inNoKeyword : IsBit inNoKeyword := by
  refine ⟨by decide, ?_⟩
  rintro ⟨b⟩
  revert b
  decide +kernel

theorem isBit_startsNoKeyword : IsBit startsNoKeyword := by
  refine ⟨by decide, ?_⟩
  rintro ⟨b⟩
  revert b
  decide +kernel

theorem isBit_needsCare : IsBit needsCare := by
  refine ⟨by decide, ?_⟩
  rintro ⟨b⟩
  revert b
  decide +kernel

theorem isBit_mayEndStringRun : IsBit mayEndStringRun := by
  refine ⟨by decide, ?_⟩
  rintro ⟨b⟩
  revert b
  decide +kernel

/-- A fact is in a union if it is in one of the two sets. -/
theorem contains_or {m : CharFlags} (hm : IsBit m) (f g : CharFlags) :
    (f ||| g).contains m = (f.contains m || g.contains m) := by
  -- the bits of a union are those of the two sets
  have hor : (f ||| g).bits &&& m.bits = f.bits &&& m.bits ||| g.bits &&& m.bits :=
    UInt8.toBitVec_inj.1 BitVec.and_or_distrib_right
  unfold contains
  rw [hor]
  rcases hm.2 f.bits with hf | hf <;> rcases hm.2 g.bits with hg | hg <;> simp [hf, hg]

theorem contains_empty {m : CharFlags} (hm : IsBit m) : empty.contains m = false := by
  simpa [contains, empty] using hm.1.symm

theorem contains_when {m : CharFlags} (hm : IsBit m) (p : Bool) (f : CharFlags) :
    (when p f).contains m = (p && f.contains m) := by
  cases p with
  | false => exact contains_empty hm
  | true => rfl

@[simp] theorem isSpecial_or (f g : CharFlags) :
    (f ||| g).isSpecial = (f.isSpecial || g.isSpecial) :=
  contains_or isBit_needsCare f g

@[simp] theorem canBeKeyword_or (f g : CharFlags) :
    (f ||| g).canBeKeyword = (f.canBeKeyword && g.canBeKeyword) := by
  simp [canBeKeyword, contains_or isBit_inNoKeyword]

/-- The facts of a set, and those about all characters of a text. -/
def gather (flags : CharFlags) (text : List Char) : CharFlags :=
  text.foldl (fun flags c => flags ||| ofChar c) flags

@[simp] theorem gather_nil (flags : CharFlags) : flags.gather [] = flags := rfl

@[simp] theorem gather_cons (flags : CharFlags) (c : Char) (text : List Char) :
    flags.gather (c :: text) = (flags ||| ofChar c).gather text := rfl

theorem isSpecial_gather (flags : CharFlags) (text : List Char) :
    (flags.gather text).isSpecial =
      (flags.isSpecial || text.any fun c => (ofChar c).isSpecial) := by
  induction text generalizing flags with
  | nil => rw [gather_nil, List.any_nil, Bool.or_false]
  | cons c text ih => rw [gather_cons, ih, isSpecial_or, List.any_cons, Bool.or_assoc]

theorem canBeKeyword_gather (flags : CharFlags) (text : List Char) :
    (flags.gather text).canBeKeyword =
      (flags.canBeKeyword && text.all fun c => (ofChar c).canBeKeyword) := by
  induction text generalizing flags with
  | nil => rw [gather_nil, List.all_nil, Bool.and_true]
  | cons c text ih => rw [gather_cons, ih, canBeKeyword_or, List.all_cons, Bool.and_assoc]

/-! ### The facts about one character -/

theorem contains_ofChar_of_isAscii {m : CharFlags} (hm : IsBit m) {c : Char}
    (h : isAscii c = true) :
    (ofChar c).contains m =
      ((isAsciiIdentifier c && !isInKeyword c) && inNoKeyword.contains m ||
        !startsKeyword c && startsNoKeyword.contains m ||
        !isAsciiIdentifier c && endsWord.contains m ||
        (c == '\'' || c == '"' || c == '\n' || c == '\r' || c == '\\') &&
          mayEndStringRun.contains m ||
        c == '\\' && needsCare.contains m) := by
  rw [ofChar_of_isAscii h, ofAscii]
  simp only [contains_or hm, contains_when hm]

theorem isWordEnd_ofChar (c : Char) : (ofChar c).isWordEnd = !isAsciiIdentifier c := by
  by_cases h : isAscii c = true
  · rw [isWordEnd, contains_ofChar_of_isAscii isBit_endsWord h]
    show (_ && false || _ && false || _ && true || _ && false || _ && false) = _
    simp
  · have hi : isAsciiIdentifier c = false := by
      by_contra hi
      exact h (isAscii_of_isAsciiIdentifier (by simpa using hi))
    rw [ofChar_of_not_isAscii (by simpa using h), hi]
    rfl

theorem isSpecial_ofChar (c : Char) : (ofChar c).isSpecial = (c == '\\' || !isAscii c) := by
  by_cases h : isAscii c = true
  · rw [isSpecial, contains_ofChar_of_isAscii isBit_needsCare h, h]
    show (_ && false || _ && false || _ && false || _ && false || _ && true) = _
    simp
  · have h : isAscii c = false := by simpa using h
    rw [ofChar_of_not_isAscii h, h, Bool.not_false, Bool.or_true]
    rfl

/-- A character that is not ASCII rules a keyword out, and so does an identifier
character which occurs in none. -/
theorem canBeKeyword_ofChar (c : Char) :
    (ofChar c).canBeKeyword = (isAscii c && (!isAsciiIdentifier c || isInKeyword c)) := by
  by_cases h : isAscii c = true
  · rw [canBeKeyword, contains_ofChar_of_isAscii isBit_inNoKeyword h, h]
    show (!(_ && true || _ && false || _ && false || _ && false || _ && false)) = _
    simp
  · have h : isAscii c = false := by simpa using h
    rw [ofChar_of_not_isAscii h, h, Bool.false_and]
    rfl

theorem isStringRunEnd_ofChar (c : Char) :
    (ofChar c).isStringRunEnd =
      (c == '\'' || c == '"' || c == '\n' || c == '\r' || c == '\\') := by
  by_cases h : isAscii c = true
  · rw [isStringRunEnd, contains_ofChar_of_isAscii isBit_mayEndStringRun h]
    show (_ && false || _ && false || _ && false || _ && true || _ && false) = _
    simp
  · -- all of these characters are ASCII
    have hall : ∀ d ∈ ['\'', '"', '\n', '\r', '\\'], isAscii d = true :=
      forall_mem_of_all (by decide)
    have hne : ∀ d ∈ ['\'', '"', '\n', '\r', '\\'], (c == d) = false := by
      intro d hd
      rw [beq_eq_false_iff_ne]
      rintro rfl
      exact h (hall c hd)
    rw [ofChar_of_not_isAscii (by simpa using h), hne _ (by simp), hne _ (by simp),
      hne _ (by simp), hne _ (by simp), hne _ (by simp)]
    rfl

/-! ### The facts about a run and the character after it -/

section Run

variable {run : List Char} {next? : Option Char}

/-- The characters of a run rule a keyword out if they occur in none, and the character after it
does if it is not an ASCII one. -/
theorem canBeKeyword_gather_run (flags : CharFlags) (hrun : ∀ c ∈ run, isAsciiIdentifier c = true)
    (hnext : ∀ c, next? = some c → isAsciiIdentifier c = false) :
    (flags.gather (run ++ next?.toList)).canBeKeyword =
      (flags.canBeKeyword && run.all isInKeyword && next?.all isAscii) := by
  have hin : (run.all fun c => (ofChar c).canBeKeyword) = run.all isInKeyword := by
    rw [Bool.eq_iff_iff, List.all_eq_true, List.all_eq_true]
    refine forall₂_congr fun c hc => ?_
    rw [canBeKeyword_ofChar, isAscii_of_isAsciiIdentifier (hrun c hc), hrun c hc, Bool.not_true,
      Bool.false_or, Bool.true_and]
  have hend : (next?.toList.all fun c => (ofChar c).canBeKeyword) = next?.all isAscii := by
    cases next? with
    | none => rfl
    | some c => simp [canBeKeyword_ofChar, hnext c rfl]
  rw [canBeKeyword_gather, List.all_append, hin, hend, Bool.and_assoc]

/-- Only the character after a run can need care. -/
theorem isSpecial_gather_run (flags : CharFlags) (hrun : ∀ c ∈ run, isAsciiIdentifier c = true) :
    (flags.gather (run ++ next?.toList)).isSpecial =
      (flags.isSpecial || next?.any fun c => c == '\\' || !isAscii c) := by
  have hin : (run.any fun c => (ofChar c).isSpecial) = false := by
    rw [List.any_eq_false]
    intro c hc
    have hne : c ≠ '\\' := by
      rintro rfl
      cases hrun _ hc
    simp [isSpecial_ofChar, isAscii_of_isAsciiIdentifier (hrun c hc), hne]
  have hend : (next?.toList.any fun c => (ofChar c).isSpecial) =
      next?.any fun c => c == '\\' || !isAscii c := by
    cases next? with
    | none => rfl
    | some c => simp [isSpecial_ofChar]
  rw [isSpecial_gather, List.any_append, hin, hend, Bool.false_or]

end Run

/-! ### The facts about the first character -/

/-- The first character rules a keyword out if it starts none. -/
theorem canBeKeyword_ofFirst {c : Char} (h : isAscii c = true) :
    (ofFirst (ofChar c)).canBeKeyword = startsKeyword c := by
  -- the facts about a first character are moved to where those about the others stand
  have hshift : ∀ f : CharFlags, (ofFirst f).contains inNoKeyword = f.contains startsNoKeyword := by
    rintro ⟨⟨b⟩⟩
    revert b
    decide +kernel
  rw [canBeKeyword, hshift, contains_ofChar_of_isAscii isBit_startsNoKeyword h]
  show (!(_ && false || _ && true || _ && false || _ && false || _ && false)) = _
  simp

theorem isSpecial_ofFirst {c : Char} (h : isAscii c = true) :
    (ofFirst (ofChar c)).isSpecial = false := by
  -- the bit above those of all facts
  have hbit : IsBit ⟨32⟩ := by
    refine ⟨by decide, ?_⟩
    rintro ⟨b⟩
    revert b
    decide +kernel
  have hshift : ∀ f : CharFlags, (ofFirst f).isSpecial = f.contains ⟨32⟩ := by
    rintro ⟨⟨b⟩⟩
    revert b
    decide +kernel
  rw [hshift, contains_ofChar_of_isAscii hbit h]
  show (_ && false || _ && false || _ && false || _ && false || _ && false) = _
  simp

end CharFlags

end EcmaLex
