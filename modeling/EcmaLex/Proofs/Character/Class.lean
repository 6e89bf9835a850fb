import EcmaLex.Character.Class
import Mathlib.Tactic.Common

/-!
# How the character classes relate

The rule that reads on is chosen by the class of a character, so it matters which
classes overlap.

## Main results

* `isIdentifierStart_of_isBlank` — what separates tokens starts none.
* `isIdentifierPart_of_isAsciiIdentifier` — the characters of plain words continue identifiers.
* `mem_of_isDecimalDigit`, `mem_of_isHexDigit` — the digits, one by one.
-/

namespace EcmaLex

/-! ### Identifier characters -/

theorem isAscii_of_isAsciiIdentifier {c : Char} (h : isAsciiIdentifier c = true) :
    isAscii c = true := by
  -- the characters of plain words come before `z`, but for `z` itself
  have hle : c ≤ 'z' := by
    simp only [isAsciiIdentifier, isAsciiLetter, isDecimalDigit, Bool.or_eq_true,
      Bool.and_eq_true, decide_eq_true_eq, beq_iff_eq] at h
    rcases h with (((⟨-, h⟩ | ⟨-, h⟩) | ⟨-, h⟩) | rfl) | rfl
    · exact h
    · exact Char.le_trans h (by decide)
    · exact Char.le_trans h (by decide)
    · decide
    · decide
  have : c.toNat ≤ 122 := hle
  simp only [isAscii, decide_eq_true_eq]
  omega

theorem isIdentifierPart_of_isAsciiIdentifier {c : Char} (h : isAsciiIdentifier c = true) :
    isIdentifierPart c = true := by
  simp [isIdentifierPart, isAscii_of_isAsciiIdentifier h, h]

/-- An ASCII character that neither is a backslash nor continues a plain word
continues no identifier. -/
theorem isIdentifierPart_eq_false {c : Char} (ha : isAscii c = true) (hs : c ≠ '\\')
    (hi : isAsciiIdentifier c = false) : isIdentifierPart c = false := by
  simp [isIdentifierPart, ha, hs, hi]

/-! ### Blanks -/

/-- White space does not end lines. -/
theorem isLineTerminator_of_isWhiteSpace {c : Char} (h : isWhiteSpace c = true) :
    isLineTerminator c = false := by
  by_contra hl
  simp only [isLineTerminator, Bool.not_eq_false, Bool.or_eq_true, beq_iff_eq] at hl
  rcases hl with ((rfl | rfl) | rfl) | rfl <;> cases h

theorem isLineTerminator_of_not_isBlank {c : Char} (h : isBlank c = false) :
    isLineTerminator c = false :=
  (Bool.or_eq_false_iff.1 h).2

/-- Nor does a character of a run that a blank ends. -/
theorem isLineTerminator_of_and_not_isBlank {b : Bool} {c : Char}
    (h : (b && !isBlank c) = true) : isLineTerminator c = false := by
  rw [Bool.and_eq_true, Bool.not_eq_true'] at h
  exact isLineTerminator_of_not_isBlank h.2

theorem isIdentifierStart_of_isWhiteSpace {c : Char} (h : isWhiteSpace c = true) :
    isIdentifierStart c = false := by
  -- the one range among the white space characters is looked at by number
  have hrange : ∀ n ∈ List.range' 0x2000 11, isIdentifierStart (Char.ofNat n) = false := by
    decide +kernel
  simp only [isWhiteSpace, Bool.or_eq_true, Bool.and_eq_true, beq_iff_eq, decide_eq_true_eq] at h
  rcases h with (((((((((rfl | rfl) | rfl) | rfl) | rfl) | rfl) | rfl) | ⟨hlo, hhi⟩) | rfl) | rfl)
    | rfl
  case inl.inl.inl.inr =>
    have hlo : 0x2000 ≤ c.toNat := hlo
    have hhi : c.toNat ≤ 0x200a := hhi
    rw [← Char.ofNat_toNat c]
    exact hrange c.toNat (List.mem_range'_1.2 (by omega))
  all_goals decide +kernel

theorem isIdentifierStart_of_isLineTerminator {c : Char} (h : isLineTerminator c = true) :
    isIdentifierStart c = false := by
  simp only [isLineTerminator, Bool.or_eq_true, beq_iff_eq] at h
  rcases h with ((rfl | rfl) | rfl) | rfl <;> decide +kernel

/-- What separates tokens starts none. -/
theorem isIdentifierStart_of_isBlank {c : Char} (h : isBlank c = true) :
    isIdentifierStart c = false := by
  rcases Bool.or_eq_true_iff.1 h with h | h
  · exact isIdentifierStart_of_isWhiteSpace h
  · exact isIdentifierStart_of_isLineTerminator h

/-! ### Digits -/

/-- What can be checked of the characters of a list one by one holds of each of them. -/
theorem forall_mem_of_all {p : Char → Prop} [DecidablePred p] {l : List Char}
    (h : (l.all fun c => decide (p c)) = true) : ∀ c ∈ l, p c := fun c hc =>
  of_decide_eq_true (List.all_eq_true.1 h c hc)

/-- The decimal digits are these. -/
theorem mem_of_isDecimalDigit {c : Char} (h : isDecimalDigit c = true) :
    c ∈ "0123456789".toList := by
  have hrange : ∀ n ∈ List.range' 48 10, Char.ofNat n ∈ "0123456789".toList := by decide
  simp only [isDecimalDigit, Bool.and_eq_true, decide_eq_true_eq] at h
  have hlo : 48 ≤ c.toNat := h.1
  have hhi : c.toNat ≤ 57 := h.2
  rw [← Char.ofNat_toNat c]
  exact hrange c.toNat (List.mem_range'_1.2 (by omega))

/-- The hexadecimal digits are these. -/
theorem mem_of_isHexDigit {c : Char} (h : isHexDigit c = true) :
    c ∈ "0123456789abcdefABCDEF".toList := by
  have hd : ∀ d ∈ "0123456789".toList, d ∈ "0123456789abcdefABCDEF".toList :=
    forall_mem_of_all (by decide)
  have hl : ∀ n ∈ List.range' 97 6, Char.ofNat n ∈ "0123456789abcdefABCDEF".toList := by decide
  have hu : ∀ n ∈ List.range' 65 6, Char.ofNat n ∈ "0123456789abcdefABCDEF".toList := by decide
  simp only [isHexDigit, Bool.or_eq_true, Bool.and_eq_true, decide_eq_true_eq] at h
  rcases h with (h | ⟨hlo, hhi⟩) | ⟨hlo, hhi⟩
  · exact hd c (mem_of_isDecimalDigit h)
  · have hlo : 97 ≤ c.toNat := hlo
    have hhi : c.toNat ≤ 102 := hhi
    rw [← Char.ofNat_toNat c]
    exact hl c.toNat (List.mem_range'_1.2 (by omega))
  · have hlo : 65 ≤ c.toNat := hlo
    have hhi : c.toNat ≤ 70 := hhi
    rw [← Char.ofNat_toNat c]
    exact hu c.toNat (List.mem_range'_1.2 (by omega))

theorem isAscii_of_isHexDigit {c : Char} (h : isHexDigit c = true) : isAscii c = true := by
  have hall : ∀ d ∈ "0123456789abcdefABCDEF".toList, isAscii d = true :=
    forall_mem_of_all (by decide)
  exact hall c (mem_of_isHexDigit h)

theorem isHexDigit_of_isDecimalDigit {c : Char} (h : isDecimalDigit c = true) :
    isHexDigit c = true := by
  simp [isHexDigit, h]

theorem isDecimalDigit_of_isOctalDigit {c : Char} (h : isOctalDigit c = true) :
    isDecimalDigit c = true := by
  simp only [isOctalDigit, Bool.and_eq_true, decide_eq_true_eq] at h
  simp only [isDecimalDigit, Bool.and_eq_true, decide_eq_true_eq]
  exact ⟨h.1, Char.le_trans h.2 (by decide)⟩

theorem isDecimalDigit_of_isBinaryDigit {c : Char} (h : isBinaryDigit c = true) :
    isDecimalDigit c = true := by
  simp only [isBinaryDigit, Bool.or_eq_true, beq_iff_eq] at h
  rcases h with rfl | rfl <;> rfl

theorem isDecimalDigit_of_isNonOctalDecimalDigit {c : Char}
    (h : isNonOctalDecimalDigit c = true) : isDecimalDigit c = true := by
  simp only [isNonOctalDecimalDigit, Bool.or_eq_true, beq_iff_eq] at h
  rcases h with rfl | rfl <;> rfl

/-- A decimal digit is octal, or it is not. -/
theorem isNonOctalDecimalDigit_of_isDecimalDigit {c : Char} (h : isDecimalDigit c = true) :
    isNonOctalDecimalDigit c = !isOctalDigit c := by
  have hall : ∀ d ∈ "0123456789".toList, isNonOctalDecimalDigit d = !isOctalDigit d :=
    forall_mem_of_all (by decide)
  exact hall c (mem_of_isDecimalDigit h)

theorem isIdentifierStart_of_isDecimalDigit {c : Char} (h : isDecimalDigit c = true) :
    isIdentifierStart c = false := by
  have hall : ∀ d ∈ "0123456789".toList, isIdentifierStart d = false :=
    forall_mem_of_all (by decide)
  exact hall c (mem_of_isDecimalDigit h)

theorem isBlank_of_isDecimalDigit {c : Char} (h : isDecimalDigit c = true) :
    isBlank c = false := by
  have hall : ∀ d ∈ "0123456789".toList, isBlank d = false :=
    forall_mem_of_all (by decide)
  exact hall c (mem_of_isDecimalDigit h)

end EcmaLex
