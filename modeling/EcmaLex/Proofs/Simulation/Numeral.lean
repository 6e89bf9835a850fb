import EcmaLex.Lexeme.Numeral
import EcmaLex.Proofs.Simulation.Basic

/-!
# Numbers side by side

While a number is read in both texts the same characters are taken, all of them
ASCII ones, so that both numbers are equally long in whatever unit the sources
count.  That keeps the limit on the digits of a BigInt the same.

A reading may end at the end of the first text and at the blank that the second one goes on
with.  What is wrong there, if anything, is the same, but in the second text
it has a character to be found at.  This is one of the errors that only the first
text has.

## Main definitions

* `Numeral.Matches` — the same has been read of two numbers.
* `Numeral.Agree` — two readings come to the same result.

## Main results

* `Reader.Parallel.numeral`, `Reader.Parallel.fractionNumeral` — numbers.
-/

namespace EcmaLex

namespace Numeral

variable {σ τ : Type}

/-- The same has been read of two numbers, which begin at `start` and `start'`. -/
structure Matches [TextSource σ] [TextSource τ] (R : Reader σ → Reader τ → Prop)
    (start start' : Nat) (n : Numeral σ) (n' : Numeral τ) : Prop where
  /-- The texts without separators are the same. -/
  cooked : n'.cooked = n.cooked
  /-- The texts as they are written are the same. -/
  raw : n'.raw = n.raw
  /-- The readers are at corresponding places. -/
  reader : R n.reader n'.reader
  /-- Both have moved as far from the beginning of the number. -/
  length : ∃ k, n.reader.position = start + k ∧ n'.reader.position = start' + k

/-- Two readings come to the same result.  Nothing is said of the second one where
the second text goes on beyond the first and the first one fails. -/
inductive Agree [TextSource σ] [TextSource τ] (beyond : Option Char) (Q : Nat → Nat → Prop)
    (R : Reader σ → Reader τ → Prop) (start start' : Nat) {α : Type} :
    EStateM.Result Diagnostic (Numeral σ) α → EStateM.Result Diagnostic (Numeral τ) α → Prop where
  /-- Both succeed. -/
  | ok (a : α) {n : Numeral σ} {n' : Numeral τ} (numerals : n.Matches R start start' n') :
      Agree beyond Q R start start' (.ok a n) (.ok a n')
  /-- Both fail. -/
  | error {d d' : Diagnostic} {n : Numeral σ} {n' : Numeral τ} (matching : d.Matches Q d')
      (numerals : n.Matches R start start' n') :
      Agree beyond Q R start start' (.error d n) (.error d' n')
  /-- The first one fails, and the second text goes on. -/
  | cut {d : Diagnostic} {n : Numeral σ} {o : EStateM.Result Diagnostic (Numeral τ) α}
      (goesOn : beyond ≠ none) : Agree beyond Q R start start' (.error d n) o

namespace Agree

variable [TextSource σ] [TextSource τ] {beyond : Option Char} {Q : Nat → Nat → Prop}
  {R : Reader σ → Reader τ → Prop} {start start' : Nat} {n : Numeral σ} {n' : Numeral τ}
  {α β : Type}

theorem bind {x : Reading σ α} {x' : Reading τ α} {f : α → Reading σ β} {f' : α → Reading τ β}
    (hx : Agree beyond Q R start start' (x n) (x' n'))
    (hf : ∀ a m m', m.Matches R start start' m' →
      Agree beyond Q R start start' (f a m) (f' a m')) :
    Agree beyond Q R start start' ((x >>= f) n) ((x' >>= f') n') := by
  simp only [Bind.bind, EStateM.bind]
  generalize x n = o at hx
  generalize x' n' = o' at hx
  cases hx with
  | ok a hn => exact hf a _ _ hn
  | error hd hn => exact .error hd hn
  | cut hb => exact .cut hb

/-- A reading that first looks at the number. -/
theorem get_bind {f : Numeral σ → Reading σ α} {f' : Numeral τ → Reading τ α}
    (h : Agree beyond Q R start start' (f n n) (f' n' n')) :
    Agree beyond Q R start start' ((get >>= f) n) ((get >>= f') n') := h

theorem pure (a : α) (hn : n.Matches R start start' n') :
    Agree beyond Q R start start' ((Pure.pure a : Reading σ α) n)
      ((Pure.pure a : Reading τ α) n') :=
  .ok a hn

theorem modify {f : Numeral σ → Numeral σ} {f' : Numeral τ → Numeral τ}
    (h : (f n).Matches R start start' (f' n')) :
    Agree beyond Q R start start' ((modify f : Reading σ PUnit) n)
      ((modify f' : Reading τ PUnit) n') :=
  .ok _ h

/-- Readings with the same result give the same lexeme. -/
theorem lexeme {x : Reading σ Verdict} {x' : Reading τ Verdict}
    (h : Agree beyond Q R start start' (x n) (x' n')) :
    (Numeral.lexeme x n).Matches beyond Q R (Numeral.lexeme x' n') := by
  unfold Numeral.lexeme
  generalize x n = o at h
  generalize x' n' = o' at h
  cases h with
  | ok v hn =>
    dsimp only
    rw [hn.cooked, hn.raw]
    exact .ok hn.reader
  | error hd hn =>
    dsimp only
    rw [hn.cooked, hn.raw]
    exact .illegal hd hn.reader
  | cut hb => exact .cut hb

end Agree

end Numeral

/-- One of two ASCII characters is an ASCII character. -/
theorem isAscii_of_either {c a b : Char} (hc : (c == a || c == b) = true)
    (ha : isAscii a = true) (hb : isAscii b = true) : isAscii c = true := by
  rcases Bool.or_eq_true_iff.1 hc with hc | hc
  · rwa [beq_iff_eq.1 hc]
  · rwa [beq_iff_eq.1 hc]

/-- A blank is no digit of any radix. -/
theorem isDigit_blank {isDigit : Char → Bool}
    (hd : ∀ c, isDigit c = true → isHexDigit c = true) :
    (isDigit '\n' || isDigit ' ') = false := by
  by_contra hl
  rcases Bool.or_eq_true_iff.1 (eq_true_of_ne_false hl) with hl | hl
  · cases hd '\n' hl
  · cases hd ' ' hl

namespace Reader.Parallel

open Numeral

variable {σ τ : Type} [SearchableSource σ] [SearchableSource τ] {beyond : Option Char}
  {Q : Nat → Nat → Prop} {R : Reader σ → Reader τ → Prop} {r : Reader σ} {r' : Reader τ}
  {start start' : Nat} {n : Numeral σ} {n' : Numeral τ} {α : Type}
  (h : Parallel beyond Q R)
include h

/-! ### Single characters -/

theorem numeral_take (hn : n.Matches R start start' n') {c : Char} (hc : n.reader.char? = some c)
    (ha : isAscii c = true) : n.take.Matches R start start' n'.take := by
  have hc' := h.char?_of_some hn.reader hc
  obtain ⟨k, hk, hk'⟩ := hn.length
  obtain ⟨w, hw, hw'⟩ := h.width hn.reader hc ha
  have hcooked : n'.take.cooked = n.take.cooked := by
    simp only [Numeral.take, Numeral.append, hc, hc', Option.elim_some, hn.cooked]
  have hraw : n'.take.raw = n.take.raw := by
    simp only [Numeral.take, Numeral.append, hc, hc', Option.elim_some, hn.raw]
  refine ⟨hcooked, hraw, h.advance hn.reader hc, k + w, ?_, ?_⟩
  · show n.reader.advance.position = start + (k + w)
    omega
  · show n'.reader.advance.position = start' + (k + w)
    omega

theorem numeral_takeRaw (hn : n.Matches R start start' n') {c : Char}
    (hc : n.reader.char? = some c) (ha : isAscii c = true) :
    n.takeRaw.Matches R start start' n'.takeRaw := by
  have hc' := h.char?_of_some hn.reader hc
  obtain ⟨k, hk, hk'⟩ := hn.length
  obtain ⟨w, hw, hw'⟩ := h.width hn.reader hc ha
  have hraw : n'.takeRaw.raw = n.takeRaw.raw := by
    simp only [Numeral.takeRaw, hc, hc', Option.elim_some, hn.raw]
  refine ⟨hn.cooked, hraw, h.advance hn.reader hc, k + w, ?_, ?_⟩
  · show n.reader.advance.position = start + (k + w)
    omega
  · show n'.reader.advance.position = start' + (k + w)
    omega

/-- What is under the heads is wrong in both, or the first text ends there and the second
one goes on. -/
theorem failHere (hn : n.Matches R start start' n') (cause : Cause) :
    Agree beyond Q R start start' ((Numeral.failHere cause : Reading σ α) n)
      ((Numeral.failHere cause : Reading τ α) n') := by
  refine .get_bind ?_
  cases hc : n.reader.char? with
  | some c => exact .error (h.matches_charSpan hn.reader hc cause) hn
  | none =>
    cases hc' : n'.reader.char? with
    | some c => exact .cut (h.eq_blank hn.reader hc hc').1
    | none =>
      -- both texts end, where the span of the character is empty
      have hspan : ∀ {σ : Type} [TextSource σ] {r : Reader σ}, r.char? = none →
          r.charSpan = ⟨r.position, r.position⟩ := by
        intro σ _ r hr
        rw [charSpan, hr]
        rfl
      have hd : Diagnostic.Matches Q ⟨n.reader.charSpan, cause⟩ ⟨n'.reader.charSpan, cause⟩ := by
        rw [hspan hc, hspan hc']
        exact h.matches_span (h.position hn.reader) hn.reader cause
      exact .error hd hn

/-! ### Runs of digits -/

theorem digitRun (hn : n.Matches R start start' n') {isDigit : Char → Bool}
    (hd : ∀ c, isDigit c = true → isHexDigit c = true) (separators seen : Bool)
    {separator separator' : Option Span}
    (hs : Option.Rel (fun s s' => Q s.start s'.start ∧ Behind Q s.stop s'.stop)
      separator separator') :
    (Numeral.digitRun isDigit separators seen separator n).1.Matches R start start'
        (Numeral.digitRun isDigit separators seen separator' n').1 ∧
      Option.Rel (Diagnostic.Matches Q) (Numeral.digitRun isDigit separators seen separator n).2
        (Numeral.digitRun isDigit separators seen separator' n').2 := by
  have hblank := isDigit_blank hd
  -- a separator at the end of the run is wrong in both
  have htrail : Option.Rel (Diagnostic.Matches Q)
      (separator.map (⟨·, .trailingSeparator⟩)) (separator'.map (⟨·, .trailingSeparator⟩)) := by
    cases hs with
    | none => exact .none
    | some hs => exact .some ⟨rfl, hs.1, hs.2⟩
  have hsome : separator'.isSome = separator.isSome := by
    cases hs <;> rfl
  fun_induction Numeral.digitRun isDigit separators seen separator n generalizing n' separator' with
  | case1 seen separator n hc =>
    rw [Numeral.digitRun]
    split
    · exact ⟨hn, htrail⟩
    · next c hc' =>
      obtain ⟨hline, hspace⟩ := Bool.or_eq_false_iff.1 hblank
      obtain ⟨-, rfl | rfl⟩ := h.eq_blank hn.reader hc hc'
      · rw [if_neg (by simp [hline]), if_neg (by simp)]
        exact ⟨hn, htrail⟩
      · rw [if_neg (by simp [hspace]), if_neg (by simp)]
        exact ⟨hn, htrail⟩
  | case2 seen separator n c hc hdc ih =>
    rw [Numeral.digitRun.eq_def isDigit separators seen separator' n', h.char?_of_some hn.reader hc]
    dsimp only
    rw [if_pos hdc]
    exact ih (h.numeral_take hn hc (isAscii_of_isHexDigit (hd c hdc))) .none .none rfl
  | case3 seen separator n c hc hdc hsep hseen =>
    rw [Numeral.digitRun.eq_def isDigit separators seen separator' n', h.char?_of_some hn.reader hc]
    dsimp only
    rw [if_neg hdc, if_pos hsep, if_pos hseen]
    exact ⟨hn, .some (h.matches_charSpan hn.reader hc _)⟩
  | case4 seen separator n c hc hdc hsep hseen hcont =>
    rw [Numeral.digitRun.eq_def isDigit separators seen separator' n', h.char?_of_some hn.reader hc]
    dsimp only
    rw [if_neg hdc, if_pos hsep, if_neg hseen, hsome, if_pos hcont]
    exact ⟨hn, .some (h.matches_charSpan hn.reader hc _)⟩
  | case5 seen separator n c hc hdc hsep hseen hcont ih =>
    rw [Numeral.digitRun.eq_def isDigit separators seen separator' n', h.char?_of_some hn.reader hc]
    dsimp only
    rw [if_neg hdc, if_pos hsep, if_neg hseen, hsome, if_neg hcont]
    obtain rfl : c = '_' := by simpa using (Bool.and_eq_true_iff.1 hsep).1
    have hspan := h.matches_charSpan hn.reader hc .trailingSeparator
    exact ih (h.numeral_takeRaw hn hc (by decide)) (.some ⟨hspan.start, hspan.stop⟩)
      (.some hspan) rfl
  | case6 seen separator n c hc hdc hsep =>
    rw [Numeral.digitRun.eq_def isDigit separators seen separator' n', h.char?_of_some hn.reader hc]
    dsimp only
    rw [if_neg hdc, if_neg hsep]
    exact ⟨hn, htrail⟩

theorem digits (hn : n.Matches R start start' n') {isDigit : Char → Bool}
    (hd : ∀ c, isDigit c = true → isHexDigit c = true) (separators seen : Bool) :
    Agree beyond Q R start start' (Numeral.digits isDigit separators seen n)
      (Numeral.digits isDigit separators seen n') := by
  obtain ⟨hn, he⟩ := h.digitRun hn hd separators seen .none
  unfold Numeral.digits
  generalize Numeral.digitRun isDigit separators seen none n = run at hn he
  generalize Numeral.digitRun isDigit separators seen none n' = run' at hn he
  obtain ⟨m, e⟩ := run
  obtain ⟨m', e'⟩ := run'
  dsimp only at hn he
  cases he with
  | none => exact .ok () hn
  | some hd => exact .error hd hn

theorem someDigits (hn : n.Matches R start start' n') {isDigit : Char → Bool}
    (hd : ∀ c, isDigit c = true → isHexDigit c = true) (separators : Bool) :
    Agree beyond Q R start start' (Numeral.someDigits isDigit separators n)
      (Numeral.someDigits isDigit separators n') := by
  have hblank := isDigit_blank hd
  refine .get_bind ?_
  rw [h.isAtAny_eq hn.reader hblank, h.isAt_eq hn.reader (by decide)]
  split
  · exact h.digits hn hd separators false
  · split
    · exact h.failHere hn _
    · exact h.failHere hn _

theorem octalRun (hn : n.Matches R start start' n') :
    (Numeral.octalRun n').1 = (Numeral.octalRun n).1 ∧
      (Numeral.octalRun n).2.Matches R start start' (Numeral.octalRun n').2 := by
  fun_induction Numeral.octalRun n generalizing n' with
  | case1 n hc =>
    rw [Numeral.octalRun]
    split
    · exact ⟨rfl, hn⟩
    · next c hc' =>
      obtain ⟨-, rfl | rfl⟩ := h.eq_blank hn.reader hc hc'
      · exact ⟨rfl, hn⟩
      · exact ⟨rfl, hn⟩
  | case2 n c hc hd =>
    rw [Numeral.octalRun.eq_def n', h.char?_of_some hn.reader hc]
    dsimp only
    rw [if_pos hd]
    exact ⟨rfl, hn⟩
  | case3 n c hc hd ho ih =>
    rw [Numeral.octalRun.eq_def n', h.char?_of_some hn.reader hc]
    dsimp only
    rw [if_neg hd, if_pos ho]
    have hhex := isHexDigit_of_isDecimalDigit (isDecimalDigit_of_isOctalDigit ho)
    exact ih (h.numeral_take hn hc (isAscii_of_isHexDigit hhex))
  | case4 n c hc hd ho =>
    rw [Numeral.octalRun.eq_def n', h.char?_of_some hn.reader hc]
    dsimp only
    rw [if_neg hd, if_neg ho]
    exact ⟨rfl, hn⟩

/-! ### The parts of a number -/

/-- What follows the digits is no point and starts no identifier in both, or in none. -/
theorem smallInt?_eq (hn : n.Matches R start start' n') : n'.smallInt? = n.smallInt? := by
  have hblank : (isIdentifierStart '\n' || isIdentifierStart ' ') = false := by decide +kernel
  unfold Numeral.smallInt?
  rw [h.isAt_eq hn.reader (by decide), h.isAtAny_eq hn.reader hblank, hn.cooked]

theorem radixDigits (hn : n.Matches R start start' n') {c : Char} (hc : n.reader.char? = some c)
    (ha : isAscii c = true) (form : NumberForm) {isDigit : Char → Bool}
    (hd : ∀ c, isDigit c = true → isHexDigit c = true) (separators : Bool) :
    Agree beyond Q R start start' (Numeral.radixDigits form isDigit separators n)
      (Numeral.radixDigits form isDigit separators n') := by
  refine .bind (.modify (h.numeral_take hn hc ha)) fun _ m m' hm => ?_
  refine .bind (h.someDigits hm hd separators) fun _ m m' hm => ?_
  exact .pure form hm

theorem lead (hn : n.Matches R start start' n') (settings : Settings) (first : Char) :
    Agree beyond Q R start start' (Numeral.lead settings first n)
      (Numeral.lead settings first n') := by
  unfold Numeral.lead
  split
  · exact .pure _ hn
  · refine .get_bind ?_
    cases hc : n.reader.char? with
    | none =>
      cases hc' : n'.reader.char? with
      | none => exact .pure _ hn
      | some c =>
        obtain ⟨-, rfl | rfl⟩ := h.eq_blank hn.reader hc hc'
        · exact .pure _ hn
        · exact .pure _ hn
    | some c =>
      rw [h.char?_of_some hn.reader hc]
      dsimp only
      split
      · next hx =>
        have ha := isAscii_of_either hx (by decide) (by decide)
        exact h.radixDigits hn hc ha _ (fun _ hd => hd) _
      · split
        · next ho =>
          have ha := isAscii_of_either ho (by decide) (by decide)
          exact h.radixDigits hn hc ha _
            (fun _ hd => isHexDigit_of_isDecimalDigit (isDecimalDigit_of_isOctalDigit hd)) _
        · split
          · next hb =>
            have ha := isAscii_of_either hb (by decide) (by decide)
            exact h.radixDigits hn hc ha _
              (fun _ hd => isHexDigit_of_isDecimalDigit (isDecimalDigit_of_isBinaryDigit hd)) _
          · split
            · obtain ⟨hrun, hm⟩ := h.octalRun hn
              show Agree beyond Q R start start' (.ok _ _) (.ok _ _)
              rw [hrun]
              exact .ok _ hm
            · split
              · exact .pure _ hn
              · split
                · exact h.failHere hn _
                · exact .pure _ hn

theorem fraction (hn : n.Matches R start start' n') (separators : Bool) :
    Agree beyond Q R start start' (Numeral.fraction separators n)
      (Numeral.fraction separators n') := by
  refine .get_bind ?_
  rw [h.isAt_eq hn.reader (by decide)]
  split
  · next hp =>
    refine .bind (.modify (h.numeral_take hn (beq_iff_eq.1 hp) (by decide))) fun _ m m' hm => ?_
    refine .bind (h.digits hm (fun _ => isHexDigit_of_isDecimalDigit) _ _) fun _ m m' hm => ?_
    exact .pure _ hm
  · exact .pure _ hn

/-- A BigInt is too long in both texts or in none. -/
theorem bigIntSuffix (hn : n.Matches R start start' n') (hq : Q start start')
    (hc : n.reader.char? = some 'n') (settings : Settings) (form : NumberForm) :
    Agree beyond Q R start start' (Numeral.bigIntSuffix settings start form n)
      (Numeral.bigIntSuffix settings start' form n') := by
  obtain ⟨k, hk, hk'⟩ := hn.length
  have hdigits : n'.reader.position - (start' + form.prefixLength) =
      n.reader.position - (start + form.prefixLength) := by
    omega
  refine .get_bind ?_
  rw [hdigits]
  split
  · exact .error (h.matches_span hq hn.reader _) hn
  · exact .modify (h.numeral_takeRaw hn hc (by decide))

theorem sign (hn : n.Matches R start start' n') :
    Agree beyond Q R start start' (Numeral.sign n) (Numeral.sign n') := by
  refine .get_bind ?_
  rw [h.isAtAny_eq hn.reader (by decide)]
  split
  · next hs =>
    obtain ⟨c, hc, hs⟩ := (Option.any_eq_true _ _).1 hs
    have ha := isAscii_of_either hs (by decide) (by decide)
    exact .modify (h.numeral_take hn hc ha)
  · exact .pure _ hn

theorem exponent (hn : n.Matches R start start' n') {c : Char} (hc : n.reader.char? = some c)
    (ha : isAscii c = true) (settings : Settings) (form : NumberForm) :
    Agree beyond Q R start start' (Numeral.exponent settings form n)
      (Numeral.exponent settings form n') := by
  unfold Numeral.exponent
  split
  · refine .bind (.modify (h.numeral_take hn hc ha)) fun _ m m' hm => ?_
    refine .bind (h.sign hm) fun _ m m' hm => ?_
    exact h.someDigits hm (fun _ => isHexDigit_of_isDecimalDigit) _
  · exact h.failHere hn _

theorem suffix (hn : n.Matches R start start' n') (hq : Q start start') (settings : Settings)
    (form : NumberForm) (pointSeen : Bool) :
    Agree beyond Q R start start' (Numeral.suffix settings start form pointSeen n)
      (Numeral.suffix settings start' form pointSeen n') := by
  refine .get_bind ?_
  rw [h.isAt_eq hn.reader (by decide), h.isAtAny_eq hn.reader (by decide)]
  split
  · next hb =>
    have hat : n.reader.isAt 'n' = true :=
      (Bool.and_eq_true_iff.1 (Bool.and_eq_true_iff.1 hb).1).1
    refine .bind (h.bigIntSuffix hn hq (beq_iff_eq.1 hat) settings form) fun _ m m' hm => ?_
    exact .pure _ hm
  · split
    · next he =>
      obtain ⟨c, hc, he⟩ := (Option.any_eq_true _ _).1 he
      have ha := isAscii_of_either he (by decide) (by decide)
      refine .bind (h.exponent hn hc ha settings form) fun _ m m' hm => ?_
      exact .pure _ hm
    · exact .pure _ hn

theorem boundary (hn : n.Matches R start start' n') :
    Agree beyond Q R start start' (Numeral.boundary n) (Numeral.boundary n') := by
  have hblank : ((isDecimalDigit '\n' || isIdentifierStart '\n') ||
      (isDecimalDigit ' ' || isIdentifierStart ' ')) = false := by
    decide +kernel
  refine .get_bind ?_
  rw [h.isAtAny_eq hn.reader hblank]
  split
  · exact h.failHere hn _
  · exact .pure _ hn

theorem ending (hn : n.Matches R start start' n') (hq : Q start start') (settings : Settings)
    (form : NumberForm) (pointSeen : Bool) :
    Agree beyond Q R start start' (Numeral.ending settings start form pointSeen n)
      (Numeral.ending settings start' form pointSeen n') := by
  refine .bind (h.suffix hn hq settings form pointSeen) fun kind m m' hm => ?_
  refine .bind (h.boundary hm) fun _ m m' hm => ?_
  exact .pure kind hm

/-! ### Numbers -/

theorem afterFirstDigit (hn : n.Matches R start start' n') (hq : Q start start')
    (settings : Settings) (first : Char) :
    Agree beyond Q R start start' (Numeral.afterFirstDigit settings start first n)
      (Numeral.afterFirstDigit settings start' first n') := by
  refine .bind (h.lead hn settings first) fun form m m' hm => ?_
  split
  · refine .bind (h.digits hm (fun _ => isHexDigit_of_isDecimalDigit) _ _) fun _ m m' hm => ?_
    refine .get_bind ?_
    rw [h.smallInt?_eq hm]
    cases m.smallInt?.filter fun _ => form == .decimal with
    | some value => exact .pure _ hm
    | none =>
      refine .bind (h.fraction hm _) fun pointSeen m m' hm => ?_
      refine .bind (h.ending hm hq settings form pointSeen) fun kind m m' hm => ?_
      exact .pure _ hm
  · refine .bind (h.ending hm hq settings form false) fun kind m m' hm => ?_
    exact .pure _ hm

theorem afterPoint (hn : n.Matches R start start' n') (hq : Q start start')
    (settings : Settings) :
    Agree beyond Q R start start' (Numeral.afterPoint settings start n)
      (Numeral.afterPoint settings start' n') := by
  refine .bind (h.someDigits hn (fun _ => isHexDigit_of_isDecimalDigit) _) fun _ m m' hm => ?_
  refine .bind (h.ending hm hq settings .decimal true) fun kind m m' hm => ?_
  exact .pure _ hm

/-- Numbers, of which the first digit is under the heads. -/
theorem numeral (hr : R r r') {c : Char} (hc : r.char? = some c) (hd : isDecimalDigit c = true)
    (settings : Settings) :
    (numeral settings c r).Matches beyond Q R (numeral settings c r') := by
  have ha := isAscii_of_isHexDigit (isHexDigit_of_isDecimalDigit hd)
  have hn : Numeral.Matches R r.position r'.position
      ⟨.singleton c, .singleton c, r.advance⟩ ⟨.singleton c, .singleton c, r'.advance⟩ :=
    ⟨rfl, rfl, h.advance hr hc, h.width hr hc ha⟩
  exact (h.afterFirstDigit hn (h.position hr) settings c).lexeme

/-- Numbers that begin with a point, after which the heads are. -/
theorem fractionNumeral (hr : R r r') (hq : Q start start')
    (hlength : ∃ k, r.position = start + k ∧ r'.position = start' + k) (settings : Settings) :
    (fractionNumeral settings start r).Matches beyond Q R (fractionNumeral settings start' r') := by
  have hn : Numeral.Matches R start start' ⟨".", ".", r⟩ ⟨".", ".", r'⟩ :=
    ⟨rfl, rfl, hr, hlength⟩
  exact (h.afterPoint hn hq settings).lexeme

end Reader.Parallel

end EcmaLex
