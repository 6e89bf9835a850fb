import EcmaLex.Lexeme.Numeral
import EcmaLex.Proofs.Character.Class

/-!
# Numbers without separators

Where separators are not allowed, a number ends before the first one, and since a
separator starts identifiers, what comes after the number is then wrong.  So a number
that is right has no separator in it and none after it, and is read in the same way
when separators are allowed.

This is not so for the parts of a number.  A run of digits, for one, ends before a
separator and goes on after it if it may.  What holds of the parts is that they do
not pass a separator, so that a part which comes to one can only lead to a number
that comes to the same one.

## Main definitions

* `Numeral.Conservative` — where one reading succeeds and does not end at a separator, another
  one gives the same.
* `Numeral.Apart` — a reading does not end at a separator.

## Main results

* `numeral_separators`, `fractionNumeral_separators` — **a number that is right without
  separators is the same with them**.
-/

namespace EcmaLex

namespace Numeral

section Readings

variable {σ : Type} {α β : Type}

/-- Whether a separator is under the head. -/
def isAtSeparator (n : Numeral σ) : Bool := n.reader.isAt '_'

/-- If the first reading succeeds, it does not pass a separator under the head, and the
second one comes to the same result unless this is a place with a separator. -/
def Conservative (x x' : Reading σ α) (n : Numeral σ) : Prop :=
  ∀ a m, x n = .ok a m →
    (n.isAtSeparator = true → m.isAtSeparator = true) ∧
      (m.isAtSeparator = false → x' n = .ok a m)

/-- If the reading succeeds, it does not end at a separator. -/
def Apart (x : Reading σ α) (n : Numeral σ) : Prop :=
  ∀ a m, x n = .ok a m → m.isAtSeparator = false

namespace Conservative

variable {n : Numeral σ}

theorem pure (a : α) : Conservative (Pure.pure a : Reading σ α) (Pure.pure a) n := by
  intro b m h
  cases h
  exact ⟨id, fun _ => rfl⟩

/-- Away from separators a reading may do anything, as long as both do it. -/
theorem refl {x : Reading σ α} (hn : n.isAtSeparator = false) : Conservative x x n := by
  intro a m h
  refine ⟨fun hs => ?_, fun _ => h⟩
  rw [hn] at hs
  cases hs

/-- Where the first reading fails, nothing is said of the second one. -/
theorem failHere [TextSource σ] (cause : Cause) (x' : Reading σ α) :
    Conservative (failHere cause) x' n := by
  intro a m h
  cases h

theorem bind {x x' : Reading σ α} {f f' : α → Reading σ β} (hx : Conservative x x' n)
    (hf : ∀ a m, Conservative (f a) (f' a) m) : Conservative (x >>= f) (x' >>= f') n := by
  intro b m h
  simp only [Bind.bind, EStateM.bind] at h ⊢
  cases hr : x n with
  | error d n₁ =>
    rw [hr] at h
    cases h
  | ok a n₁ =>
    rw [hr] at h
    obtain ⟨hstay, hsame⟩ := hx a n₁ hr
    obtain ⟨hstay', hsame'⟩ := hf a n₁ b m h
    refine ⟨fun hn => hstay' (hstay hn), fun hm => ?_⟩
    -- the first part is not at a separator, since the second one would stay there
    have hn₁ : n₁.isAtSeparator = false := by
      by_contra hn₁
      have hm' := hstay' (by simpa using hn₁)
      rw [hm] at hm'
      cases hm'
    rw [hsame hn₁]
    exact hsame' hm

/-- A reading that first looks at the number. -/
theorem get_bind {f f' : Numeral σ → Reading σ α} (h : Conservative (f n) (f' n) n) :
    Conservative (get >>= f) (get >>= f') n := h

end Conservative

namespace Apart

variable {n : Numeral σ}

theorem pure {a : α} (hn : n.isAtSeparator = false) : Apart (Pure.pure a : Reading σ α) n := by
  intro b m h
  cases h
  exact hn

theorem failHere [TextSource σ] (cause : Cause) : Apart (failHere cause : Reading σ α) n := by
  intro a m h
  cases h

theorem get_bind {f : Numeral σ → Reading σ α} (h : Apart (f n) n) : Apart (get >>= f) n := h

/-- The last part of a reading decides where it ends. -/
theorem bind {x : Reading σ α} {f : α → Reading σ β} (hf : ∀ a m, Apart (f a) m) :
    Apart (x >>= f) n := by
  intro b m h
  simp only [Bind.bind, EStateM.bind] at h
  split at h
  · next a n₁ hr => exact hf a n₁ b m h
  · cases h

/-- What is made of the result has no influence on where the reading ends. -/
theorem map {x : Reading σ α} {f : α → β} (hx : Apart x n) :
    Apart (do return f (← x)) n := by
  intro b m h
  simp only [Bind.bind, EStateM.bind] at h
  split at h
  · next a _ hr =>
    cases h
    exact hx a m hr
  · cases h

end Apart

/-! ### Runs of digits -/

/-- A separator has none of the properties that separators do not have. -/
theorem isAtSeparator_of_isAtAny {n : Numeral σ} {p : Char → Bool} (hp : p '_' = false)
    (h : n.reader.isAtAny p = true) : n.isAtSeparator = false := by
  by_contra hs
  have hc : n.reader.char? = some '_' := beq_iff_eq.1 (eq_true_of_ne_false hs)
  rw [Reader.isAtAny, hc, Option.any_some, hp] at h
  cases h

/-- A separator has the properties that separators have. -/
theorem isAtSeparator_of_not_isAtAny {n : Numeral σ} {p : Char → Bool} (hp : p '_' = true)
    (h : n.reader.isAtAny p = false) : n.isAtSeparator = false := by
  by_contra hs
  have hc : n.reader.char? = some '_' := beq_iff_eq.1 (eq_true_of_ne_false hs)
  rw [Reader.isAtAny, hc, Option.any_some, hp] at h
  cases h

theorem isAtSeparator_of_char? {n : Numeral σ} {c : Char} (hc : n.reader.char? = some c)
    (hne : c ≠ '_') : n.isAtSeparator = false := by
  refine isAtSeparator_of_isAtAny (p := (· != '_')) rfl ?_
  rw [Reader.isAtAny, hc, Option.any_some]
  exact bne_iff_ne.2 hne

end Readings

/-- An underscore is no digit of any radix. -/
theorem isDigit_underscore {isDigit : Char → Bool}
    (hd : ∀ c, isDigit c = true → isHexDigit c = true) : isDigit '_' = false := by
  by_contra hl
  cases hd '_' (by simpa using hl)

section Parts

variable {σ : Type} [TextSource σ] {isDigit : Char → Bool}

/-- A run of digits without separators that does not end at one is a run of digits with
separators. -/
theorem digitRun_of_not_isAtSeparator {seen : Bool} {separator : Option Span} {n : Numeral σ}
    (separators : Bool)
    (h : (digitRun isDigit false seen separator n).1.isAtSeparator = false) :
    digitRun isDigit separators seen separator n = digitRun isDigit false seen separator n := by
  fun_induction digitRun isDigit false seen separator n with
  | case1 seen separator n hc =>
    rw [digitRun]
    split
    · rfl
    · next hc' =>
      rw [hc] at hc'
      cases hc'
  | case2 seen separator n c hc hd ih =>
    rw [digitRun.eq_def isDigit separators, hc]
    dsimp only
    rw [if_pos hd]
    exact ih h
  | case3 _ _ _ _ _ _ hs =>
    rw [Bool.and_false] at hs
    cases hs
  | case4 _ _ _ _ _ _ hs =>
    rw [Bool.and_false] at hs
    cases hs
  | case5 _ _ _ _ _ _ hs =>
    rw [Bool.and_false] at hs
    cases hs
  | case6 seen separator n c hc hd hs =>
    -- the run ends at a character that is no digit and no separator
    have hne : (c == '_') = false := by
      rwa [isAtSeparator, Reader.isAt, hc] at h
    rw [digitRun.eq_def isDigit separators, hc]
    dsimp only
    rw [if_neg hd, if_neg (by simp [hne])]

/-- Without separators, the run of digits at a separator is empty. -/
theorem digitRun_of_isAtSeparator (hd : isDigit '_' = false) (seen : Bool) {n : Numeral σ}
    (hn : n.isAtSeparator = true) : digitRun isDigit false seen none n = (n, none) := by
  have hc : n.reader.char? = some '_' := beq_iff_eq.1 hn
  rw [digitRun, hc]
  dsimp only
  rw [if_neg (by simp [hd]), if_neg (by simp)]
  rfl

theorem digits_eq_ok_iff {separators seen : Bool} {n m : Numeral σ} {a : Unit} :
    digits isDigit separators seen n = .ok a m ↔
      digitRun isDigit separators seen none n = (m, none) := by
  unfold digits
  generalize digitRun isDigit separators seen none n = run
  obtain ⟨n', _ | d⟩ := run
  · constructor
    · intro h
      cases h
      rfl
    · intro h
      cases h
      rfl
  · constructor
    · intro h
      cases h
    · intro h
      cases h

variable {n : Numeral σ}

theorem conservative_digits (hd : ∀ c, isDigit c = true → isHexDigit c = true)
    (separators seen : Bool) :
    Conservative (digits isDigit false seen) (digits isDigit separators seen) n := by
  intro a m h
  have hrun := digits_eq_ok_iff.1 h
  constructor
  · intro hn
    rw [digitRun_of_isAtSeparator (isDigit_underscore hd) seen hn] at hrun
    cases hrun
    exact hn
  · intro hm
    have hend : (digitRun isDigit false seen none n).1.isAtSeparator = false := by
      rw [hrun]
      exact hm
    exact digits_eq_ok_iff.2 ((digitRun_of_not_isAtSeparator separators hend).trans hrun)

theorem conservative_someDigits (hd : ∀ c, isDigit c = true → isHexDigit c = true)
    (separators : Bool) :
    Conservative (someDigits isDigit false) (someDigits isDigit separators) n := by
  apply Conservative.get_bind
  dsimp only
  split
  · exact conservative_digits hd separators false
  · -- the run may not be empty, and without separators that is all there is to say
    rw [Bool.false_and, if_neg Bool.false_ne_true]
    exact .failHere _ _

/-! ### The parts of a number -/

/-- A mark under the head is taken, whatever follows. -/
theorem conservative_take (hn : n.isAtSeparator = false) :
    Conservative (modify take : Reading σ PUnit) (modify take) n :=
  .refl hn

theorem conservative_radixDigits (hn : n.isAtSeparator = false) (form : NumberForm)
    (hd : ∀ c, isDigit c = true → isHexDigit c = true) (separators : Bool) :
    Conservative (radixDigits form isDigit false) (radixDigits form isDigit separators) n :=
  .bind (conservative_take hn) fun _ _ => .bind (conservative_someDigits hd separators) fun _ _ =>
    .pure form

variable (settings : Settings) (separators : Bool)

theorem conservative_lead (first : Char) :
    Conservative (lead { settings with numericSeparators := false } first)
      (lead { settings with numericSeparators := separators } first) n := by
  unfold lead
  split
  · exact .pure _
  · apply Conservative.get_bind
    dsimp only
    cases hc : n.reader.char? with
    | none => exact .pure _
    | some c =>
      dsimp only
      have hmark : ∀ {a b : Char}, a ≠ '_' → b ≠ '_' → (c == a || c == b) = true →
          n.isAtSeparator = false := by
        intro a b ha hb h
        refine isAtSeparator_of_char? hc fun he => ?_
        rcases Bool.or_eq_true_iff.1 h with h | h
        · exact ha ((beq_iff_eq.1 h).symm.trans he)
        · exact hb ((beq_iff_eq.1 h).symm.trans he)
      split
      · next hx =>
        exact conservative_radixDigits (hmark (by decide) (by decide) hx) _ (fun _ hd => hd) _
      · split
        · next ho =>
          exact conservative_radixDigits (hmark (by decide) (by decide) ho) _
            (fun _ hd => isHexDigit_of_isDecimalDigit (isDecimalDigit_of_isOctalDigit hd)) _
        · split
          · next hb =>
            exact conservative_radixDigits (hmark (by decide) (by decide) hb) _
              (fun _ hd => isHexDigit_of_isDecimalDigit (isDecimalDigit_of_isBinaryDigit hd)) _
          · split
            · next ho =>
              refine .refl (isAtSeparator_of_isAtAny (p := isOctalDigit) (by decide) ?_)
              rw [Reader.isAtAny, hc]
              exact ho
            · split
              · exact .pure _
              · -- without separators the number is a lone zero, and the head stays on the separator
                rw [Bool.and_false, if_neg Bool.false_ne_true]
                intro a m h
                cases h
                refine ⟨id, fun hn => ?_⟩
                have hs : (c == '_') = false := by
                  rwa [isAtSeparator, Reader.isAt, hc] at hn
                rw [hs, Bool.false_and, if_neg Bool.false_ne_true]
                rfl

theorem conservative_fraction :
    Conservative (fraction false) (fraction separators) n := by
  apply Conservative.get_bind
  split
  · next hp =>
    have hn := isAtSeparator_of_char? (beq_iff_eq.1 hp) (by decide)
    exact .bind (conservative_take hn) fun _ _ =>
      .bind (conservative_digits (fun _ => isHexDigit_of_isDecimalDigit) _ _) fun _ _ => .pure true
  · exact .pure false

theorem conservative_sign : Conservative sign sign n := by
  apply Conservative.get_bind
  split
  · next hs => exact conservative_take (isAtSeparator_of_isAtAny (by decide) hs)
  · exact .pure ()

theorem conservative_exponent (hn : n.isAtSeparator = false) (form : NumberForm) :
    Conservative (exponent { settings with numericSeparators := false } form)
      (exponent { settings with numericSeparators := separators } form) n := by
  unfold exponent
  split
  · have hoff : allowsSeparators { settings with numericSeparators := false } form = false :=
      Bool.and_false _
    rw [hoff]
    exact .bind (conservative_take hn) fun _ _ => .bind conservative_sign fun _ _ =>
      conservative_someDigits (fun _ => isHexDigit_of_isDecimalDigit) _
  · exact .failHere _ _

theorem conservative_suffix (start : Nat) (form : NumberForm) (pointSeen : Bool) :
    Conservative (suffix { settings with numericSeparators := false } start form pointSeen)
      (suffix { settings with numericSeparators := separators } start form pointSeen) n := by
  apply Conservative.get_bind
  dsimp only
  split
  · next hb =>
    -- the limit on the digits of a BigInt is the same
    have hat : n.reader.isAt 'n' = true :=
      (Bool.and_eq_true_iff.1 (Bool.and_eq_true_iff.1 hb).1).1
    have hn := isAtSeparator_of_char? (beq_iff_eq.1 hat) (by decide)
    exact .bind (.refl hn) fun _ _ => .pure _
  · split
    · next he =>
      have hn := isAtSeparator_of_isAtAny (by decide) he
      exact .bind (conservative_exponent settings separators hn form) fun _ _ => .pure _
    · exact .pure _

theorem conservative_boundary : Conservative boundary boundary n := by
  apply Conservative.get_bind
  split
  · exact .failHere _ _
  · exact .pure ()

theorem conservative_ending (start : Nat) (form : NumberForm) (pointSeen : Bool) :
    Conservative (ending { settings with numericSeparators := false } start form pointSeen)
      (ending { settings with numericSeparators := separators } start form pointSeen) n :=
  .bind (conservative_suffix settings separators start form pointSeen) fun kind _ =>
    .bind conservative_boundary fun _ _ => .pure kind

/-! ### Numbers -/

/-- A separator may begin an identifier, so no number ends before one. -/
theorem apart_boundary : Apart boundary n := by
  apply Apart.get_bind
  split
  · exact .failHere _
  · next h =>
    apply Apart.pure
    exact isAtSeparator_of_not_isAtAny (by decide +kernel) (eq_false_of_ne_true h)

theorem apart_ending (start : Nat) (form : NumberForm) (pointSeen : Bool) :
    Apart (ending settings start form pointSeen) n :=
  .bind fun _ _ => apart_boundary.map

omit [TextSource σ] in
/-- A small integer is not followed by an identifier. -/
theorem isAtSeparator_of_smallInt? {value : Nat} (h : n.smallInt? = some value) :
    n.isAtSeparator = false := by
  cases hi : n.reader.isAtAny isIdentifierStart with
  | false => exact isAtSeparator_of_not_isAtAny (by decide +kernel) hi
  | true =>
    rw [smallInt?, hi] at h
    simp at h

theorem apart_afterFirstDigit (start : Nat) (first : Char) :
    Apart (afterFirstDigit settings start first) n := by
  refine .bind fun form m => ?_
  split
  · refine .bind fun _ m => .get_bind ?_
    split
    · next value h =>
      obtain ⟨h, -⟩ := Option.filter_eq_some_iff.1 h
      exact .pure (isAtSeparator_of_smallInt? h)
    · exact .bind fun _ _ => (apart_ending _ _ _ _).map
  · exact (apart_ending _ _ _ _).map

theorem apart_afterPoint (start : Nat) : Apart (afterPoint settings start) n :=
  .bind fun _ _ => (apart_ending _ _ _ _).map

theorem conservative_afterFirstDigit (start : Nat) (first : Char) :
    Conservative (afterFirstDigit { settings with numericSeparators := false } start first)
      (afterFirstDigit { settings with numericSeparators := separators } start first) n := by
  refine .bind (conservative_lead settings separators first) fun form m => ?_
  have hoff : allowsSeparators { settings with numericSeparators := false } form = false :=
    Bool.and_false _
  split
  · dsimp only
    rw [hoff]
    refine .bind (conservative_digits (fun _ => isHexDigit_of_isDecimalDigit) _ _) fun _ m => ?_
    apply Conservative.get_bind
    cases m.smallInt?.filter fun _ => form == .decimal with
    | some value => exact .pure _
    | none =>
      refine .bind (conservative_fraction _) fun pointSeen m => ?_
      exact .bind (conservative_ending settings separators start form pointSeen) fun _ _ => .pure _
  · exact .bind (conservative_ending settings separators start form false) fun _ _ => .pure _

theorem conservative_afterPoint (start : Nat) :
    Conservative (afterPoint { settings with numericSeparators := false } start)
      (afterPoint { settings with numericSeparators := separators } start) n :=
  .bind (conservative_someDigits (fun _ => isHexDigit_of_isDecimalDigit) _) fun _ _ =>
    .bind (conservative_ending settings separators start .decimal true) fun _ _ => .pure _

omit [TextSource σ] in
/-- If a reading is conservative and does not end at a separator, then the lexeme that it gives
is the same, or is rejected. -/
theorem lexeme_eq_of_conservative {x x' : Reading σ Verdict} (hx : Conservative x x' n)
    (hend : Apart x n) {k : TokenKind} (h : (lexeme x n).verdict = .ok k) :
    lexeme x' n = lexeme x n := by
  unfold lexeme at h ⊢
  cases hr : x n with
  | error d m =>
    rw [hr] at h
    cases h
  | ok v m =>
    obtain ⟨-, hsame⟩ := hx v m hr
    rw [hsame (hend v m hr)]

end Parts

end Numeral

variable {σ : Type} [TextSource σ]

/-- **A number that is right without separators is the same with them.** -/
theorem numeral_separators (settings : Settings) (separators : Bool) (first : Char) (r : Reader σ)
    {k : TokenKind}
    (h : (numeral { settings with numericSeparators := false } first r).verdict = .ok k) :
    numeral { settings with numericSeparators := separators } first r =
      numeral { settings with numericSeparators := false } first r :=
  Numeral.lexeme_eq_of_conservative
    (Numeral.conservative_afterFirstDigit settings separators r.position first)
    (Numeral.apart_afterFirstDigit _ _ _) h

theorem fractionNumeral_separators (settings : Settings) (separators : Bool) (start : Nat)
    (r : Reader σ) {k : TokenKind}
    (h : (fractionNumeral { settings with numericSeparators := false } start r).verdict = .ok k) :
    fractionNumeral { settings with numericSeparators := separators } start r =
      fractionNumeral { settings with numericSeparators := false } start r :=
  Numeral.lexeme_eq_of_conservative (Numeral.conservative_afterPoint settings separators start)
    (Numeral.apart_afterPoint _ _) h

end EcmaLex
