import EcmaLex.Lexeme.Word
import EcmaLex.Proofs.Character.Class
import EcmaLex.Proofs.Source.Exact
import Mathlib.Data.List.TakeWhile

/-!
# Escapes in words

An escape spells a character by its code point, with four hexadecimal digits or with any
number of them in braces.  A text begins with one escape at most.

The value of the digits in braces is worked out as they are read, and reading stops when it
passes the greatest code point.  That is the same as reading on and finding at the end that the
value is the code point of no character, since more digits make no lesser value.

## Main definitions

* `Word.hexValue` — the number that hexadecimal digits denote.
* `Word.Escape` — the escapes, and the code points that they spell.
* `Word.BadEscape` — no escape of an allowed character is where a backslash is.

## Main results

* `Word.Escape.eq_of_prefix` — a text begins with one escape at most.
* `Word.allowedEscape_between` — **an escape is read just where there is one** of an allowed
  character.
-/

namespace EcmaLex

theorem hexDigitValue_isSome (c : Char) : (hexDigitValue c).isSome = isHexDigit c := by
  unfold hexDigitValue isHexDigit
  by_cases hd : isDecimalDigit c = true
  · simp [hd]
  · by_cases hl : ('a' ≤ c && c ≤ 'f') = true
    · simp [hd, hl]
    · by_cases hu : ('A' ≤ c && c ≤ 'F') = true <;> simp [hd, hl, hu]

namespace Word

/-! ### Values -/

/-- A number with one more hexadecimal digit at its end. -/
def appendHex (n : Nat) (c : Char) : Nat := n * 16 + (hexDigitValue c).getD 0

/-- The number that a list of hexadecimal digits denotes. -/
def hexValue (ds : List Char) : Nat := ds.foldl appendHex 0

theorem le_foldl_appendHex (ds : List Char) (n : Nat) : n ≤ ds.foldl appendHex n := by
  induction ds generalizing n with
  | nil => exact Nat.le_refl n
  | cons c ds ih =>
    refine Nat.le_trans ?_ (ih (appendHex n c))
    unfold appendHex
    omega

theorem hexDigitValue_of_isHexDigit {c : Char} (h : isHexDigit c = true) (n : Nat) :
    ∃ d, hexDigitValue c = some d ∧ n * 16 + d = appendHex n c := by
  rw [← hexDigitValue_isSome] at h
  obtain ⟨d, hd⟩ := Option.isSome_iff_exists.1 h
  exact ⟨d, hd, by rw [appendHex, hd, Option.getD_some]⟩

theorem hexDigitValue_of_not_isHexDigit {c : Char} (h : isHexDigit c = false) :
    hexDigitValue c = none := by
  rw [← hexDigitValue_isSome] at h
  exact Option.isSome_eq_false_iff.1 h |> Option.isNone_iff_eq_none.1

/-- A number is the code point of a character, or of none. -/
theorem scalar_eq_some_iff {n : Nat} {c : Char} : scalar n = some c ↔ c.toNat = n := by
  unfold scalar
  constructor
  · intro h
    obtain ⟨hv, h⟩ := Option.dite_none_right_eq_some.1 h
    cases h
    rfl
  · rintro rfl
    exact (dif_pos c.valid).trans (congrArg some (Char.ext rfl))

/-! ### Escapes -/

/-- The escapes, and the code points that they spell. -/
inductive Escape : List Char → Nat → Prop where
  /-- Four digits. -/
  | fixed {ds : List Char} (hlen : ds.length = 4) (hds : ∀ c ∈ ds, isHexDigit c = true) :
      Escape ('\\' :: 'u' :: ds) (hexValue ds)
  /-- Digits in braces, one at least. -/
  | braced {ds : List Char} (hne : ds ≠ []) (hds : ∀ c ∈ ds, isHexDigit c = true) :
      Escape ('\\' :: 'u' :: '\x7b' :: (ds ++ ['\x7d'])) (hexValue ds)

variable {w w' a v : List Char} {n n' : Nat}

/-- What begins with digits and a character that is none has these digits. -/
theorem takeWhile_isHexDigit {ds : List Char} {c : Char}
    (hds : ∀ c ∈ ds, isHexDigit c = true) (hc : isHexDigit c = false) :
    (ds ++ c :: a).takeWhile isHexDigit = ds ∧ (ds ++ c :: a).dropWhile isHexDigit = c :: a := by
  rw [List.takeWhile_append_of_pos hds, List.dropWhile_append_of_pos hds,
    List.takeWhile_cons_of_neg (by simp [hc]), List.dropWhile_cons_of_neg (by simp [hc]),
    List.append_nil]
  exact ⟨rfl, rfl⟩

/-- An escape with braces takes all digits of the text. -/
theorem Escape.of_brace (h : Escape w n) (hw : w <+: '\\' :: 'u' :: '\x7b' :: a) :
    a.takeWhile isHexDigit ≠ [] ∧ (a.dropWhile isHexDigit).head? = some '\x7d' ∧
      w = '\\' :: 'u' :: '\x7b' :: (a.takeWhile isHexDigit ++ ['\x7d']) ∧
      n = hexValue (a.takeWhile isHexDigit) := by
  obtain ⟨b, hb⟩ := hw
  cases h with
  | @fixed ds hlen hds =>
    -- a brace is no digit
    cases ds with
    | nil => cases hlen
    | cons d ds =>
      cases hb
      cases hds _ List.mem_cons_self
  | @braced ds hne hds =>
    obtain rfl : a = ds ++ '\x7d' :: b := by
      simpa using (List.cons.inj (List.cons.inj (List.cons.inj hb).2).2).2.symm
    obtain ⟨htake, hdrop⟩ := takeWhile_isHexDigit (a := b) hds (c := '\x7d') rfl
    rw [htake, hdrop]
    exact ⟨hne, rfl, rfl, rfl⟩

/-- An escape without braces takes the next four characters of the text, which are digits. -/
theorem Escape.of_not_brace (h : Escape w n) (hw : w <+: '\\' :: 'u' :: a)
    (ha : a.head? ≠ some '\x7b') :
    (a.take 4).length = 4 ∧ (∀ c ∈ a.take 4, isHexDigit c = true) ∧
      w = '\\' :: 'u' :: a.take 4 ∧ n = hexValue (a.take 4) := by
  obtain ⟨b, hb⟩ := hw
  cases h with
  | @fixed ds hlen hds =>
    obtain rfl : a = ds ++ b := (List.cons.inj (List.cons.inj hb).2).2.symm
    have htake : (ds ++ b).take 4 = ds := by
      rw [← hlen, List.take_left]
    rw [htake]
    exact ⟨hlen, hds, rfl, rfl⟩
  | braced hne hds =>
    cases hb
    exact absurd rfl ha

theorem Escape.exists_cons (h : Escape w n) : ∃ x, w = '\\' :: 'u' :: x := by
  cases h with
  | fixed => exact ⟨_, rfl⟩
  | braced => exact ⟨_, rfl⟩

/-- **A text begins with one escape at most.** -/
theorem Escape.eq_of_prefix (h : Escape w n) (h' : Escape w' n') (hw : w <+: v)
    (hw' : w' <+: v) : w = w' ∧ n = n' := by
  -- the character after the letter tells the sort of the escape
  obtain ⟨a, rfl⟩ : ∃ a, v = '\\' :: 'u' :: a := by
    obtain ⟨x, rfl⟩ := h.exists_cons
    obtain ⟨b, rfl⟩ := hw
    exact ⟨x ++ b, rfl⟩
  by_cases ha : a.head? = some '\x7b'
  · obtain ⟨a, rfl⟩ := List.head?_eq_some_iff.1 ha
    obtain ⟨-, -, rfl, rfl⟩ := h.of_brace hw
    obtain ⟨-, -, rfl, rfl⟩ := h'.of_brace hw'
    exact ⟨rfl, rfl⟩
  · obtain ⟨-, -, rfl, rfl⟩ := h.of_not_brace hw ha
    obtain ⟨-, -, rfl, rfl⟩ := h'.of_not_brace hw' ha
    exact ⟨rfl, rfl⟩

/-- The characters that an escape may spell in a word: of those that are allowed all but the
backslash. -/
def Allows (allowed : Char → Bool) (c : Char) : Prop := c ≠ '\\' ∧ allowed c = true

/-- The text begins with an escape of a character that is allowed, and goes on with the rest. -/
def BeginsEscaped (allowed : Char → Bool) (v w : List Char) (c : Char) (rest : List Char) : Prop :=
  v = w ++ rest ∧ Escape w c.toNat ∧ Allows allowed c

/-- The text begins with a backslash, but with no escape of a character that is allowed. -/
def BadEscape (allowed : Char → Bool) (v : List Char) : Prop :=
  v.head? = some '\\' ∧ ∀ w c rest, ¬ BeginsEscaped allowed v w c rest

/-! ### Reading escapes -/

open Reader

variable {σ : Type} [ExactSource σ] {before : List Char}

theorem bracedDigits_cons (value : Option Nat) (before : List Char) (c : Char) (a : List Char) :
    bracedDigits value (between before (c :: a) : Reader σ) =
      if isHexDigit c then
        if maxCodePoint < appendHex (value.getD 0) c then (none, between before (c :: a))
        else bracedDigits (some (appendHex (value.getD 0) c)) (between (before ++ [c]) a)
      else (value, between before (c :: a)) := by
  rw [bracedDigits]
  split
  · next h => cases h
  · next h =>
    cases h
    by_cases hc : isHexDigit c = true
    · obtain ⟨d, hd, hn⟩ := hexDigitValue_of_isHexDigit hc (value.getD 0)
      rw [hd]
      dsimp only
      rw [hn, if_pos hc, advance_between_cons]
    · have hc : isHexDigit c = false := by simpa using hc
      rw [hexDigitValue_of_not_isHexDigit hc, hc]
      rfl

theorem bracedDigits_nil (value : Option Nat) (before : List Char) :
    bracedDigits value (between before [] : Reader σ) = (value, between before []) := by
  rw [bracedDigits]
  split
  · rfl
  · next h => cases h

/-- Digits whose value is no greater than any code point are read to their end. -/
theorem bracedDigits_of_le (value : Option Nat) (before a : List Char)
    (h : (a.takeWhile isHexDigit).foldl appendHex (value.getD 0) ≤ maxCodePoint) :
    bracedDigits value (between before a : Reader σ) =
      (if a.takeWhile isHexDigit = [] then value
        else some ((a.takeWhile isHexDigit).foldl appendHex (value.getD 0)),
        between (before ++ a.takeWhile isHexDigit) (a.dropWhile isHexDigit)) := by
  induction a generalizing value before with
  | nil =>
    rw [bracedDigits_nil]
    simp
  | cons c a ih =>
    rw [bracedDigits_cons]
    by_cases hc : isHexDigit c = true
    · rw [List.takeWhile_cons_of_pos hc] at h ⊢
      have hle := Nat.le_trans (le_foldl_appendHex (a.takeWhile isHexDigit) _) h
      rw [if_pos hc, if_neg (Nat.not_lt.2 hle), ih _ _ h, List.dropWhile_cons_of_pos hc,
        if_neg (List.cons_ne_nil _ _)]
      split
      · next hnil =>
        rw [hnil]
        simp
      · simp
    · rw [if_neg hc, List.takeWhile_cons_of_neg hc, List.dropWhile_cons_of_neg hc]
      simp

/-- Other digits have no value. -/
theorem bracedDigits_of_lt (value : Option Nat) (before a : List Char)
    (hv : value.getD 0 ≤ maxCodePoint)
    (h : maxCodePoint < (a.takeWhile isHexDigit).foldl appendHex (value.getD 0)) :
    (bracedDigits value (between before a : Reader σ)).1 = none := by
  induction a generalizing value before with
  | nil => exact absurd hv (Nat.not_le.2 h)
  | cons c a ih =>
    rw [bracedDigits_cons]
    by_cases hc : isHexDigit c = true
    · rw [List.takeWhile_cons_of_pos hc] at h
      rw [if_pos hc]
      split
      · rfl
      · next hle => exact ih _ _ (Nat.not_lt.1 hle) h
    · rw [List.takeWhile_cons_of_neg hc] at h
      exact absurd hv (Nat.not_le.2 h)

/-- So many digits are read, or there are not so many. -/
theorem fixedDigits_between (n value : Nat) (before a : List Char) :
    if (a.take n).length == n && (a.take n).all isHexDigit then
      fixedDigits n value (between before a : Reader σ) =
        (some ((a.take n).foldl appendHex value), between (before ++ a.take n) (a.drop n))
    else (fixedDigits n value (between before a : Reader σ)).1 = none := by
  induction n generalizing value before a with
  | zero => simp [fixedDigits]
  | succ n ih =>
    rw [fixedDigits]
    cases a with
    | nil => simp
    | cons c a =>
      rw [char?_between, List.head?_cons, Option.bind_some]
      by_cases hc : isHexDigit c = true
      · obtain ⟨d, hd, hn⟩ := hexDigitValue_of_isHexDigit hc value
        rw [hd]
        dsimp only
        rw [hn, advance_between_cons]
        have hrest := ih (appendHex value c) (before ++ [c]) a
        simpa [hc] using hrest
      · have hc : isHexDigit c = false := by simpa using hc
        rw [hexDigitValue_of_not_isHexDigit hc]
        simp [hc]

/-- An escape is read to its end where there is one, unless its value is too great for any
character. -/
def Found (σ : Type) [ExactSource σ] (before v : List Char) (result : Option Char × Reader σ) :
    Prop :=
  (∃ w n rest, v = w ++ rest ∧ Escape w n ∧ result = (scalar n, between (before ++ w) rest)) ∨
    result.1 = none ∧ ∀ w n, w <+: v → Escape w n → maxCodePoint < n

theorem toNat_le_maxCodePoint (c : Char) : c.toNat ≤ maxCodePoint := by
  have hv : c.toNat.isValidChar := c.valid
  unfold Nat.isValidChar at hv
  unfold maxCodePoint
  omega

/-- Digits in braces. -/
theorem found_braced (before a : List Char) :
    Found σ before ('\\' :: 'u' :: '\x7b' :: a)
      (let read := bracedDigits none (between (before ++ ['\\', 'u', '\x7b']) a)
       match read.1 with
        | some n => if read.2.isAt '\x7d' then (scalar n, read.2.advance) else (none, read.2)
        | none => (none, read.2)) := by
  dsimp only
  by_cases hle : hexValue (a.takeWhile isHexDigit) ≤ maxCodePoint
  · have hread := bracedDigits_of_le (σ := σ) none (before ++ ['\\', 'u', '\x7b']) a hle
    rw [hread]
    by_cases hne : a.takeWhile isHexDigit = []
    · -- there are no digits
      rw [if_pos hne]
      exact .inr ⟨rfl, fun w n hw h => absurd hne (h.of_brace hw).1⟩
    · rw [if_neg hne]
      dsimp only
      rw [isAt_between]
      by_cases hclose : (a.dropWhile isHexDigit).head? = some '\x7d'
      · obtain ⟨rest, hrest⟩ := List.head?_eq_some_iff.1 hclose
        have hsplit : a = a.takeWhile isHexDigit ++ '\x7d' :: rest := by
          rw [← hrest, List.takeWhile_append_dropWhile]
        have hds : ∀ c ∈ a.takeWhile isHexDigit, isHexDigit c = true :=
          fun c hc => List.mem_takeWhile_imp hc
        rw [if_pos (beq_iff_eq.2 hclose), hrest, advance_between_cons]
        refine .inl ⟨_, _, rest, ?_, .braced hne hds, ?_⟩
        · conv_lhs => rw [hsplit]
          simp
        · simp [hexValue]
      · -- no brace closes the digits
        rw [if_neg (by simpa using hclose)]
        exact .inr ⟨rfl, fun w n hw h => absurd (h.of_brace hw).2.1 hclose⟩
  · -- the value is too great
    have hread := bracedDigits_of_lt (σ := σ) none (before ++ ['\\', 'u', '\x7b']) a
      (Nat.zero_le _) (Nat.not_le.1 hle)
    generalize bracedDigits none (between (before ++ ['\\', 'u', '\x7b']) a : Reader σ) = read at *
    obtain ⟨value, r⟩ := read
    obtain rfl : value = none := hread
    refine .inr ⟨rfl, fun w n hw h => ?_⟩
    obtain ⟨-, -, -, rfl⟩ := h.of_brace hw
    exact Nat.not_le.1 hle

/-- Four digits. -/
theorem found_fixed (before a : List Char) (ha : a.head? ≠ some '\x7b') :
    Found σ before ('\\' :: 'u' :: a)
      (let read := fixedDigits 4 0 (between (before ++ ['\\', 'u']) a)
       (read.1.bind scalar, read.2)) := by
  have hread := fixedDigits_between (σ := σ) 4 0 (before ++ ['\\', 'u']) a
  dsimp only
  split at hread
  · next h =>
    rw [hread]
    obtain ⟨hlen, hds⟩ := Bool.and_eq_true_iff.1 h
    refine .inl ⟨_, _, a.drop 4, ?_, .fixed (beq_iff_eq.1 hlen) (List.all_eq_true.1 hds), ?_⟩
    · simp
    · simp [hexValue]
  · next h =>
    rw [hread]
    refine .inr ⟨rfl, fun w n hw he => ?_⟩
    obtain ⟨hlen, hds, -⟩ := he.of_not_brace hw ha
    exact absurd (Bool.and_eq_true_iff.2 ⟨beq_iff_eq.2 hlen, List.all_eq_true.2 hds⟩) h

theorem found_unicodeEscape (before a : List Char) :
    Found σ before ('\\' :: a) (unicodeEscape (between before ('\\' :: a))) := by
  unfold unicodeEscape
  dsimp only
  rw [advance_between_cons, isAt_between]
  by_cases hu : a.head? = some 'u'
  · obtain ⟨a, rfl⟩ := List.head?_eq_some_iff.1 hu
    rw [if_pos (beq_iff_eq.2 hu), advance_between_cons, isAt_between]
    by_cases hbrace : a.head? = some '\x7b'
    · obtain ⟨a, rfl⟩ := List.head?_eq_some_iff.1 hbrace
      rw [if_pos (beq_iff_eq.2 hbrace), advance_between_cons, List.append_assoc, List.append_assoc]
      exact found_braced before a
    · rw [if_neg (by simpa using hbrace), List.append_assoc]
      exact found_fixed before a hbrace
  · -- the letter is missing
    rw [if_neg (by simpa using hu)]
    refine .inr ⟨rfl, fun w n hw h => ?_⟩
    obtain ⟨x, rfl⟩ := h.exists_cons
    obtain ⟨b, hb⟩ := hw
    cases hb
    exact absurd rfl hu

/-- **An escape is read just where there is one** of an allowed character. -/
theorem allowedEscape_between (allowed : Char → Bool) (before a : List Char) :
    let result := allowedEscape allowed (between before ('\\' :: a) : Reader σ)
    (∃ w c rest, BeginsEscaped allowed ('\\' :: a) w c rest ∧
        result = (some c, between (before ++ w) rest)) ∨
      result.1 = none ∧ BadEscape allowed ('\\' :: a) := by
  unfold allowedEscape
  dsimp only
  have hfound := found_unicodeEscape (σ := σ) before a
  generalize unicodeEscape (between before ('\\' :: a) : Reader σ) = read at hfound
  rcases hfound with ⟨w, n, rest, hv, he, rfl⟩ | ⟨hnone, hgreat⟩
  · -- there is an escape, and no other one
    have hunique : ∀ w' c rest', BeginsEscaped allowed ('\\' :: a) w' c rest' →
        scalar n = some c ∧ Allows allowed c := by
      rintro w' c rest' ⟨hv', he', hc⟩
      obtain ⟨-, rfl⟩ := he.eq_of_prefix he' ⟨rest, hv.symm⟩ ⟨rest', hv'.symm⟩
      exact ⟨scalar_eq_some_iff.2 rfl, hc⟩
    cases hf : (scalar n).filter fun c => c != '\\' && allowed c with
    | some c =>
      obtain ⟨hn, hc⟩ := Option.filter_eq_some_iff.1 hf
      obtain rfl := scalar_eq_some_iff.1 hn
      exact .inl ⟨w, c, rest, ⟨hv, he, by simpa [Allows] using hc⟩, rfl⟩
    | none =>
      refine .inr ⟨rfl, rfl, fun w' c rest' hb => ?_⟩
      obtain ⟨hn, hc⟩ := hunique w' c rest' hb
      rw [hn] at hf
      simp [hc.1, hc.2] at hf
  · refine .inr ⟨?_, rfl, ?_⟩
    · rw [hnone]
      rfl
    · rintro w c rest ⟨hv, he, -⟩
      exact absurd (hgreat w _ ⟨rest, hv.symm⟩ he) (Nat.not_lt.2 (toNat_le_maxCodePoint c))

end Word

end EcmaLex
