import Mathlib.Data.Nat.Digits.Defs
import EcmaLex.Decimal.Numeral
import EcmaLex.Proofs.Character.Class

/-!
# Decimal digits and what they denote

A list of decimal digits that does not begin with a zero, or that is a zero alone, is the
one way to write the number that it denotes.  So its length tells how great the number is.

## Main results

* `DecimalNumeral.toDigits_ofDigits` — **the digits of the number are the list**.
* `DecimalNumeral.ofDigits_le_of_prefix` — more digits do not make a lesser number.
-/

namespace EcmaLex

/-- The places of the decimal digits. -/
theorem toNat_of_isDecimalDigit {c : Char} (h : isDecimalDigit c = true) :
    48 ≤ c.toNat ∧ c.toNat ≤ 57 := by
  have hall : ∀ d ∈ "0123456789".toList, 48 ≤ d.toNat ∧ d.toNat ≤ 57 :=
    forall_mem_of_all (by decide)
  exact hall c (mem_of_isDecimalDigit h)

/-- A decimal digit has the same value as a hexadecimal one. -/
theorem hexDigitValue_of_isDecimalDigit {c : Char} (h : isDecimalDigit c = true) :
    hexDigitValue c = some (c.toNat - '0'.toNat) := by
  rw [hexDigitValue, if_pos h]

/-- A decimal digit is the numeral of its value. -/
theorem toDigits_of_isDecimalDigit {c : Char} (h : isDecimalDigit c = true) :
    Nat.toDigits 10 (c.toNat - '0'.toNat) = [c] := by
  have hall : ∀ d ∈ "0123456789".toList, Nat.toDigits 10 (d.toNat - '0'.toNat) = [d] :=
    forall_mem_of_all (by decide)
  exact hall c (mem_of_isDecimalDigit h)

/-- Decimal digits take one byte each. -/
theorem utf8ByteSize_ofList_of_isDecimalDigit {ds : List Char}
    (hds : ∀ c ∈ ds, isDecimalDigit c = true) : (String.ofList ds).utf8ByteSize = ds.length := by
  have hone : ∀ d ∈ "0123456789".toList, d.utf8Size = 1 := forall_mem_of_all (by decide)
  induction ds with
  | nil => rfl
  | cons c ds ih =>
    rw [String.ofList_cons, String.utf8ByteSize_append, String.utf8ByteSize_singleton,
      ih fun d hd => hds d (List.mem_cons_of_mem c hd),
      hone c (mem_of_isDecimalDigit (hds c List.mem_cons_self)), List.length_cons, Nat.add_comm]

namespace DecimalNumeral

variable {c : Char} {ds ds' : List Char} {n : Nat}

/-- One more digit of the number is one more digit in its numeral. -/
theorem toDigits_appendDigit (hn : 0 < n) (hc : isDecimalDigit c = true) :
    Nat.toDigits 10 (appendDigit n c) = Nat.toDigits 10 n ++ [c] := by
  have hlt : c.toNat - '0'.toNat < 10 := by
    have := toNat_of_isDecimalDigit hc
    have h0 : '0'.toNat = 48 := rfl
    omega
  rw [appendDigit, ← Nat.toDigits_append_toDigits (by decide) hn hlt,
    toDigits_of_isDecimalDigit hc]

theorem toDigits_foldl_appendDigit (hn : 0 < n) (hds : ∀ c ∈ ds, isDecimalDigit c = true) :
    Nat.toDigits 10 (ds.foldl appendDigit n) = Nat.toDigits 10 n ++ ds := by
  induction ds generalizing n with
  | nil => exact (List.append_nil _).symm
  | cons c ds ih =>
    have hc := hds c List.mem_cons_self
    have hpos : 0 < appendDigit n c := by
      unfold appendDigit
      omega
    rw [List.foldl_cons, ih hpos fun d hd => hds d (List.mem_cons_of_mem c hd),
      toDigits_appendDigit hn hc, List.append_assoc, List.singleton_append]

/-- **The digits of the number that a list of digits denotes are the list**, unless it has
zeros in front. -/
theorem toDigits_ofDigits (hds : ∀ c ∈ ds, isDecimalDigit c = true)
    (h0 : ds = ['0'] ∨ ds ≠ [] ∧ ds.head? ≠ some '0') : Nat.toDigits 10 (ofDigits ds) = ds := by
  rcases h0 with rfl | ⟨hne, h0⟩
  · decide
  · cases ds with
    | nil => exact absurd rfl hne
    | cons c ds =>
      have hc := hds c List.mem_cons_self
      -- the first digit is a number of its own, and it is not zero
      have hfirst : appendDigit 0 c = c.toNat - '0'.toNat := by
        rw [appendDigit, Nat.mul_zero, Nat.zero_add]
      have hpos : 0 < c.toNat - '0'.toNat := by
        have hge := (toNat_of_isDecimalDigit hc).1
        have hne : c.toNat ≠ '0'.toNat := by
          intro h
          exact h0 (congrArg some (Char.toNat_inj.mp h))
        have hzero : '0'.toNat = 48 := rfl
        omega
      rw [ofDigits, List.foldl_cons, hfirst,
        toDigits_foldl_appendDigit hpos fun d hd => hds d (List.mem_cons_of_mem c hd),
        toDigits_of_isDecimalDigit hc, List.singleton_append]

/-- More digits do not make a lesser number. -/
theorem ofDigits_le_of_prefix (h : ds <+: ds') : ofDigits ds ≤ ofDigits ds' := by
  obtain ⟨rest, rfl⟩ := h
  rw [ofDigits, ofDigits, List.foldl_append]
  exact le_foldl_appendDigit rest _

end DecimalNumeral

end EcmaLex
