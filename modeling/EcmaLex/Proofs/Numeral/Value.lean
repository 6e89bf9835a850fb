import EcmaLex.Proofs.Decimal.Grammar
import EcmaLex.Proofs.Numeral.SmallInteger
import EcmaLex.Proofs.Scanner.Errors

/-!
# The values of numbers

The value of a number is read a second time, from its cooked text: as a decimal numeral, or
digit by digit after the mark of the radix.  Neither reading may fail.  Cooking takes the
separators and the suffix away, and what is left of a literal is a decimal numeral, or a mark
with nothing but digits of the radix behind it.

Cooking goes character by character, so that it is enough to look at the parts that literals
are made of.

## Main definitions

* `Literal.Cooks` — cooking makes words of the one language words of the other.
* `Literal.Digital` — the text has digits of the radix, and between them only what is cooked
  away.
* `Literal.digitValues` — the values of the digits of a literal, in their order.

## Main results

* `Literal.cooks_literals` — **cooked decimal literals are decimal numerals**.
* `Literal.exists_lead` — the other literals are a lead and digits.
* `Scanner.numericValue_isSome_iff` — **just the numbers have values**.
-/

namespace EcmaLex

namespace Literal

variable {settings : Settings} {form : NumberForm} {isDigit : Char → Bool} {separators : Bool}
  {radix : Nat} {L L' M M' : Language Char} {u v w : List Char}

/-! ### Cooking -/

theorem cooked_append (u v : List Char) : cooked (u ++ v) = cooked u ++ cooked v :=
  List.filter_append ..

theorem cooked_eq_self (h : ∀ c ∈ w, c ∉ ['_', 'n']) : cooked w = w := by
  refine List.filter_eq_self.2 fun c hc => ?_
  simpa using h c hc

/-- Cooking makes words of the one language words of the other. -/
def Cooks (L M : Language Char) : Prop := ∀ w ∈ L, cooked w ∈ M

namespace Cooks

theorem one : Cooks 1 1 := by
  intro w hw
  rw [(Language.mem_one w).1 hw]
  rfl

theorem add (h : Cooks L M) (h' : Cooks L' M) : Cooks (L + L') M :=
  fun w hw => hw.elim (h w) (h' w)

theorem one_add (h : Cooks L M) : Cooks (1 + L) (1 + M) :=
  add (fun w hw => .inl (one w hw)) fun w hw => .inr (h w hw)

theorem mul (h : Cooks L M) (h' : Cooks L' M') : Cooks (L * L') (M * M') := by
  intro w hw
  obtain ⟨x, hx, y, hy, rfl⟩ := Language.mem_mul.1 hw
  rw [cooked_append]
  exact Language.append_mem_mul (h x hx) (h' y hy)

theorem oneOf {cs : List Char} (h : ∀ c ∈ cs, c ∉ ['_', 'n']) :
    Cooks (EcmaLex.oneOf cs) (EcmaLex.oneOf cs) := by
  rintro _ ⟨c, hc, rfl⟩
  rw [cooked_eq_self fun d hd => List.mem_singleton.1 hd ▸ h c hc]
  exact singleton_mem_oneOf hc

/-- Nothing is left of a suffix. -/
theorem suffix : Cooks (EcmaLex.oneOf ['n']) 1 := by
  rintro _ ⟨c, hc, rfl⟩
  rw [List.mem_singleton.1 hc]
  rfl

/-- The digits of a run are kept, the separators between them are not. -/
theorem run (hd : ∀ c, isDigit c = true → isHexDigit c = true) :
    Cooks (run isDigit separators) (run isDigit false) := by
  intro w hw
  refine mem_run_iff.2 ⟨?_, fun c hc => ?_⟩
  · obtain ⟨c, x, hc, -, rfl⟩ := hw
    have hk := Numeral.notMem_of_isHexDigit (hd c hc)
    rw [← List.singleton_append, cooked_append,
      cooked_eq_self fun d hd => List.mem_singleton.1 hd ▸ hk]
    exact List.cons_ne_nil c _
  · obtain ⟨hw', hc⟩ := List.mem_filter.1 hc
    rcases digit_or_separator_of_mem_run hw c hw' with hd | rfl
    · exact hd
    · cases hc

theorem fraction : Cooks (fraction separators) (fraction false) :=
  mul (oneOf (forall_mem_of_all (by decide))) (one_add (run fun _ => isHexDigit_of_isDecimalDigit))

theorem exponent : Cooks (exponent separators) (exponent false) :=
  mul (oneOf (forall_mem_of_all (by decide))) <|
    mul (one_add (oneOf (forall_mem_of_all (by decide))))
      (run fun _ => isHexDigit_of_isDecimalDigit)

end Cooks

/-! ### Decimal literals -/

/-- The integer of a decimal literal is some digits. -/
theorem cooks_integer (hf : form.isDecimal = true) :
    Cooks (integer separators form) (run isDecimalDigit false) := by
  cases form with
  | decimal =>
    refine .add ?_ fun w hw => Cooks.run (fun _ => isHexDigit_of_isDecimalDigit) w hw.1
    rintro _ ⟨c, hc, rfl⟩
    rw [List.mem_singleton.1 hc]
    exact mem_run_iff.2 ⟨by decide, forall_mem_of_all (by decide)⟩
  | decimalWithLeadingZero =>
    -- the zero in front is a digit like the others
    intro u hu
    obtain ⟨c, hc, w, ⟨⟨d, x, hd, hx, rfl⟩, -⟩, rfl⟩ := mem_oneOf_mul.1 hu
    rw [List.mem_singleton.1 hc]
    have hrun : '0' :: d :: x ∈ run isDecimalDigit false :=
      ⟨'0', d :: x, by decide, .digit hd hx, rfl⟩
    exact Cooks.run (fun _ => isHexDigit_of_isDecimalDigit) _ hrun
  | _ => cases hf

/-- What follows is a fraction and an exponent, each of which may be missing. -/
theorem cooks_tail (hf : form.isDecimal = true) :
    Cooks (tail separators form) ((1 + fraction false) * (1 + exponent false)) := by
  have hparts : ∀ s, Cooks ((1 + fraction s) * (1 + exponent s))
      ((1 + fraction false) * (1 + exponent false)) := fun s =>
    .mul (.one_add .fraction) (.one_add .exponent)
  cases form with
  | decimal =>
    refine .add (fun w hw => ?_) (hparts separators)
    rw [(Language.mem_one _).1 (Cooks.suffix w hw)]
    exact ⟨[], .inl rfl, [], .inl rfl, rfl⟩
  | decimalWithLeadingZero => exact hparts false
  | _ => cases hf

/-- **Cooked decimal literals are decimal numerals.** -/
theorem cooks_literals (hf : form.isDecimal = true) :
    Cooks (form.literals settings) DecimalNumeral.grammar := by
  refine .add (fun u hu => ?_) fun u hu => ?_
  · have hu := Cooks.mul (cooks_integer hf) (cooks_tail hf) u hu
    rw [← mul_assoc] at hu
    obtain ⟨m, hm, e, he, h⟩ := Language.mem_mul.1 hu
    exact ⟨m, .inl hm, e, he, h⟩
  · -- a literal with its point in front
    cases form with
    | decimal =>
      have hu := Cooks.mul (.oneOf (forall_mem_of_all (by decide)))
        (.mul (.run fun _ => isHexDigit_of_isDecimalDigit) (.one_add .exponent)) u hu
      rw [← mul_assoc] at hu
      obtain ⟨m, hm, e, he, h⟩ := Language.mem_mul.1 hu
      exact ⟨m, .inr hm, e, he, h⟩
    | decimalWithLeadingZero => cases hu
    | _ => cases hf

/-! ### Literals of the other forms -/

/-- The text has digits of the radix, and between them only what is cooked away. -/
structure Digital (radix : Nat) (x : List Char) : Prop where
  /-- There is a digit. -/
  exists_digit : ∃ c ∈ x, (digitValue radix c).isSome = true
  /-- All other characters are cooked away. -/
  digit_or_mem : ∀ c ∈ x, (digitValue radix c).isSome = true ∨ c ∈ ['_', 'n']

/-- The values of the digits of a literal, in their order. -/
def digitValues (form : NumberForm) (u : List Char) : List Nat :=
  (u.drop form.leadLength).filterMap (digitValue form.radix)

theorem digitValue_lt {c : Char} {d : Nat} (h : digitValue radix c = some d) : d < radix := by
  have := (Option.filter_eq_some_iff.1 h).2
  simpa using this

/-- Separators and suffixes are no digits. -/
theorem digitValue_of_mem {c : Char} (hc : c ∈ ['_', 'n']) : digitValue radix c = none := by
  have hnone : ∀ c ∈ ['_', 'n'], hexDigitValue c = none := forall_mem_of_all (by decide)
  rw [digitValue, hnone c hc]
  rfl

theorem digitValue_of_isHexDigit {c : Char} (hc : isHexDigit c = true) :
    (digitValue 16 c).isSome = true := by
  have hall : ∀ d ∈ "0123456789abcdefABCDEF".toList, (digitValue 16 d).isSome = true :=
    forall_mem_of_all (by decide)
  exact hall c (mem_of_isHexDigit hc)

theorem digitValue_of_isOctalDigit {c : Char} (hc : isOctalDigit c = true) :
    (digitValue 8 c).isSome = true := by
  have hall : ∀ d ∈ "0123456789".toList, isOctalDigit d = true → (digitValue 8 d).isSome = true :=
    forall_mem_of_all (by decide)
  exact hall c (mem_of_isDecimalDigit (isDecimalDigit_of_isOctalDigit hc)) hc

theorem digitValue_of_isBinaryDigit {c : Char} (hc : isBinaryDigit c = true) :
    (digitValue 2 c).isSome = true := by
  have hall : ∀ d ∈ "0123456789".toList, isBinaryDigit d = true → (digitValue 2 d).isSome = true :=
    forall_mem_of_all (by decide)
  exact hall c (mem_of_isDecimalDigit (isDecimalDigit_of_isBinaryDigit hc)) hc

namespace Digital

variable {x : List Char}

/-- A run of digits and a suffix. -/
theorem run_append (hd : ∀ c, isDigit c = true → (digitValue radix c).isSome = true)
    (hw : w ∈ run isDigit separators) (hv : v ∈ 1 + oneOf ['n']) : Digital radix (w ++ v) where
  exists_digit := by
    obtain ⟨c, x, hc, -, rfl⟩ := hw
    exact ⟨c, List.mem_append_left v List.mem_cons_self, hd c hc⟩
  digit_or_mem c hc := by
    rcases List.mem_append.1 hc with hc | hc
    · rcases digit_or_separator_of_mem_run hw c hc with h | rfl
      · exact .inl (hd c h)
      · exact .inr List.mem_cons_self
    · rcases hv with hv | ⟨d, hd, rfl⟩
      · rw [(Language.mem_one v).1 hv] at hc
        cases hc
      · rw [List.mem_singleton.1 hc]
        exact .inr (List.mem_cons_of_mem _ hd)

/-- What is kept are the digits. -/
theorem cooked_eq (h : Digital radix x) :
    cooked x = x.filter fun c => (digitValue radix c).isSome := by
  refine List.filter_congr fun c hc => ?_
  rcases h.digit_or_mem c hc with hd | hk
  · have hk : c ∉ ['_', 'n'] := by
      intro hk
      rw [digitValue_of_mem hk] at hd
      cases hd
    rw [hd]
    simpa using hk
  · rw [digitValue_of_mem hk]
    simpa [or_iff_not_imp_left] using hk

theorem cooked_mem_run (h : Digital radix x) :
    cooked x ∈ run (fun c => (digitValue radix c).isSome) false := by
  rw [h.cooked_eq]
  refine mem_run_iff.2 ⟨?_, fun c hc => (List.mem_filter.1 hc).2⟩
  obtain ⟨c, hc, hd⟩ := h.exists_digit
  exact List.ne_nil_of_mem (List.mem_filter.2 ⟨hc, hd⟩)

/-- The digits that are kept have the values of all digits. -/
theorem map_cooked (h : Digital radix x) :
    (cooked x).map (digitValue radix) = (x.filterMap (digitValue radix)).map some := by
  rw [h.cooked_eq, List.map_filterMap_some_eq_filter_map_isSome, List.filter_map]
  rfl

end Digital

/-- A literal with a letter after its zero is these two and digits. -/
theorem exists_lead_of_radixInteger {marks : List Char} (hmarks : ∀ c ∈ marks, c ∉ ['_', 'n'])
    (hd : ∀ c, isDigit c = true → (digitValue radix c).isSome = true)
    (hu : u ∈ radixInteger marks isDigit separators * (1 + oneOf ['n'])) :
    ∃ p x, u = p ++ x ∧ p.length = 2 ∧ (∀ c ∈ p, c ∉ ['_', 'n']) ∧ Digital radix x := by
  obtain ⟨i, hi, t, ht, rfl⟩ := Language.mem_mul.1 hu
  obtain ⟨z, hz, y, hy, rfl⟩ := mem_oneOf_mul.1 hi
  obtain ⟨m, hm, w, hw, rfl⟩ := mem_oneOf_mul.1 hy
  refine ⟨[z, m], w ++ t, rfl, rfl, fun c hc => ?_, .run_append hd hw ht⟩
  rcases List.mem_cons.1 hc with rfl | hc
  · rw [List.mem_singleton.1 hz]
    decide
  · rw [List.mem_singleton.1 hc]
    exact hmarks m hm

/-- A legacy octal literal is a zero and digits. -/
theorem exists_lead_of_implicitOctal (hu : u ∈ oneOf ['0'] * run isOctalDigit false) :
    ∃ p x, u = p ++ x ∧ p.length = 1 ∧ (∀ c ∈ p, c ∉ ['_', 'n']) ∧ Digital 8 x := by
  obtain ⟨z, hz, w, hw, rfl⟩ := mem_oneOf_mul.1 hu
  have hx := Digital.run_append (v := []) (fun _ => digitValue_of_isOctalDigit) hw (.inl rfl)
  rw [List.append_nil] at hx
  refine ⟨[z], w, rfl, rfl, fun c hc => ?_, hx⟩
  rw [List.mem_singleton.1 hc, List.mem_singleton.1 hz]
  decide

/-- A literal that is not decimal is a lead and digits. -/
theorem exists_lead (hf : form.isDecimal = false) (h : u ∈ form.literals settings) :
    ∃ p x, u = p ++ x ∧ p.length = form.leadLength ∧ (∀ c ∈ p, c ∉ ['_', 'n']) ∧
      Digital form.radix x := by
  rcases h with h | h
  · cases form with
    | hex =>
      exact exists_lead_of_radixInteger (forall_mem_of_all (by decide))
        (fun _ => digitValue_of_isHexDigit) h
    | octal =>
      exact exists_lead_of_radixInteger (forall_mem_of_all (by decide))
        (fun _ => digitValue_of_isOctalDigit) h
    | binary =>
      exact exists_lead_of_radixInteger (forall_mem_of_all (by decide))
        (fun _ => digitValue_of_isBinaryDigit) h
    | implicitOctal =>
      have h : u ∈ oneOf ['0'] * run isOctalDigit false * 1 := h
      rw [mul_one] at h
      exact exists_lead_of_implicitOctal h
    | decimal => cases hf
    | decimalWithLeadingZero => cases hf
  · -- only decimal literals begin with their point
    cases form with
    | decimal => cases hf
    | _ => cases h

end Literal

/-! ### Values of tokens -/

/-- The value of digits of the radix, which are given by their own values, read one after the
other. -/
def NumberForm.valueOfDigits (radix : Nat) (ds : List Nat) : Float :=
  ds.foldl (fun value d => value * .ofNat radix + .ofNat d) 0

/-- Digits that have values are read to the last one. -/
theorem NumberForm.foldDigits_eq_some {radix : Nat} {cs : List Char} {ds : List Nat}
    (h : cs.map (digitValue radix) = ds.map some) :
    foldDigits radix cs = some (valueOfDigits radix ds) := by
  unfold foldDigits valueOfDigits
  generalize (0 : Float) = value
  induction ds generalizing cs value with
  | nil =>
    rw [List.map_eq_nil_iff.1 h]
    rfl
  | cons d ds ih =>
    obtain ⟨c, cs, rfl, hc, hcs⟩ := List.map_eq_cons_iff.1 h
    rw [List.foldlM_cons, hc]
    exact ih hcs _

open Literal (run digitValues Longest)

/-- The token gives the digits of the literal `u`, and its value is theirs. -/
structure Token.ReadsDigits (t : Token) (form : NumberForm) (u : List Char) : Prop where
  /-- Its cooked text begins with the mark of the literal. -/
  lead : t.cooked.toList.take form.leadLength = u.take form.leadLength
  /-- Behind the mark there is at least one digit, and nothing but digits of the radix. -/
  digits : t.cooked.toList.drop form.leadLength ∈
    run (fun c => (digitValue form.radix c).isSome) false
  /-- They are the digits of the literal, in their order. -/
  values : (t.cooked.toList.drop form.leadLength).map (digitValue form.radix) =
    (digitValues form u).map some
  /-- All of them are below the radix. -/
  lt : ∀ d ∈ digitValues form u, d < form.radix
  /-- The value of the token is worked out from them. -/
  value : t.numericValue = some (NumberForm.valueOfDigits form.radix (digitValues form u))

section Tokens

variable {σ : Type} [ExactSource σ] {settings : Settings} {before u : List Char}
  {form : NumberForm} {t : Token}

theorem Token.IsLiteral.cooked_toList (h : t.IsLiteral σ before form u) :
    t.cooked.toList = Literal.cooked u := by
  rw [h.cooked]
  exact String.toList_ofList

theorem Token.IsLiteral.cooked_mem_grammar (h : t.IsLiteral σ before form u)
    (hu : u ∈ form.literals settings) (hf : form.isDecimal = true) :
    t.cooked.toList ∈ DecimalNumeral.grammar := by
  rw [h.cooked_toList]
  exact Literal.cooks_literals hf u hu

theorem Token.IsLiteral.numericValue_eq (h : t.IsLiteral σ before form u)
    (hs : t.smallInt? = none) : t.numericValue = form.value t.cooked := by
  rw [Token.numericValue, hs, h.form_eq]
  rfl

theorem Token.IsLiteral.readsDigits (h : t.IsLiteral σ before form u)
    (hu : u ∈ form.literals settings) (hf : form.isDecimal = false) (hs : t.smallInt? = none) :
    t.ReadsDigits form u := by
  obtain ⟨p, x, rfl, hp, hplain, hx⟩ := Literal.exists_lead hf hu
  have hcooked : t.cooked.toList = p ++ Literal.cooked x := by
    rw [h.cooked_toList, Literal.cooked_append, Literal.cooked_eq_self hplain]
  have hvalues : digitValues form (p ++ x) = x.filterMap (digitValue form.radix) := by
    rw [digitValues, ← hp, List.drop_left]
  have hdrop : t.cooked.toList.drop form.leadLength = Literal.cooked x := by
    rw [hcooked, ← hp, List.drop_left]
  have hmap : (t.cooked.toList.drop form.leadLength).map (digitValue form.radix) =
      (digitValues form (p ++ x)).map some := by
    rw [hdrop, hvalues, hx.map_cooked]
  refine ⟨?_, ?_, hmap, ?_, ?_⟩
  · rw [hcooked, ← hp, List.take_left, List.take_left]
  · rw [hdrop]
    exact hx.cooked_mem_run
  · intro d hd
    obtain ⟨c, -, hc⟩ := List.mem_filterMap.1 hd
    exact Literal.digitValue_lt hc
  · have hlen : ¬ t.cooked.length < form.leadLength := by
      rw [← String.length_toList, hcooked, List.length_append, hp]
      omega
    rw [h.numericValue_eq hs, NumberForm.value, if_neg (by simp [hf]), if_neg hlen]
    exact NumberForm.foldDigits_eq_some hmap

/-- A literal has a value. -/
theorem Token.IsLiteral.isSome_numericValue (h : t.IsLiteral σ before form u)
    (hu : u ∈ form.literals settings) : t.numericValue.isSome = true := by
  cases hs : t.smallInt? with
  | some n => simp [Token.numericValue, hs]
  | none =>
    cases hf : form.isDecimal with
    | true =>
      have hread := (DecimalNumeral.isSome_ofChars_iff _).2 (h.cooked_mem_grammar hu hf)
      rwa [h.numericValue_eq hs, NumberForm.value, if_pos hf, Option.isSome_map]
    | false =>
      rw [(h.readsDigits hu hf hs).value]
      rfl

/-- A number that was read from the text is a literal of it.  If it is told to be a small
integer, it is decimal, and its cooked text is the numeral of the value that is told. -/
theorem Token.ReadFrom.exists_isLiteral {text : List Char} (h : t.ReadFrom σ settings text)
    (hk : t.kind.isNumeric = true) : ∃ before u v form,
      text = before ++ (u ++ v) ∧ Longest settings (u ++ v) form u v ∧
        t.IsLiteral σ before form u ∧
        ∀ n, t.smallInt? = some n → form = .decimal ∧ t.cooked = Nat.repr n := by
  obtain ⟨before, r, lineBreak, c, a, x, rfl, hx, rfl⟩ := Numeral.exists_of_readFrom h hk
  obtain ⟨verdict, u, v, hr, htaken, -⟩ := hx.exists_taken hk
  rw [Numeral.lexeme_of_ok hr]
  obtain rfl : r = u ++ v := htaken.longest.split
  refine ⟨before, u, v, verdict.form, rfl, htaken.longest, htaken.isLiteral before lineBreak,
    fun n hn => ?_⟩
  obtain ⟨hu, -, rfl⟩ := (Numeral.smallInt?_eq_some_iff htaken (hx.told_of_ok hr) n).1 hn
  exact ⟨((Literal.mem_integer_iff htaken.longest.mem).1 hu).1, Literal.repr_value hu⟩

/-- What is no number has no value. -/
theorem Token.numericValue_eq_none (h : t.Consistent ∨ t = .absent)
    (hk : t.kind.isNumeric = false) : t.numericValue = none := by
  rcases h with h | rfl
  · have hform : t.form? = none := by
      rw [← Option.not_isSome_iff_eq_none, h.form_iff, ← TokenKind.isNumeric_iff, hk]
      exact Bool.false_ne_true
    have hs : t.smallInt? = none := by
      rw [← Option.not_isSome_iff_eq_none, h.smallInt_iff]
      rintro hs
      rw [hs] at hk
      cases hk
    simp [Token.numericValue, hs, hform]
  · rfl

namespace Scanner

/-- After any operations the current token is a literal of the text if it is a number. -/
theorem exists_isLiteral (settings : Settings) (text : List Char) (ops : List Operation) :
    let t := ((ofSource settings (ExactSource.fresh text : σ)).run ops).current
    t.kind.isNumeric = true → ∃ before u v form,
      text = before ++ (u ++ v) ∧ Longest settings (u ++ v) form u v ∧
        t.IsLiteral σ before form u ∧
        ∀ n, t.smallInt? = some n → form = .decimal ∧ t.cooked = Nat.repr n := by
  intro t hk
  have hne : t.kind ≠ .uninitialized := by
    intro h
    rw [h] at hk
    cases hk
  have hg := (Grounded.ofSource (σ := σ) settings text).run ops
  exact (hg.readFrom .current hne).exists_isLiteral hk

/-- The cooked text of a small integer is the numeral of its value. -/
theorem cooked_eq_repr (settings : Settings) (text : List Char) (ops : List Operation) (n : Nat) :
    let t := ((ofSource settings (ExactSource.fresh text : σ)).run ops).current
    t.smallInt? = some n → t.cooked = Nat.repr n := by
  intro t hn
  have hk : t.kind = .smallInt := by
    rcases ((Consistent.ofSource settings (ExactSource.fresh text : σ)).run ops).current with hc | ha
    · exact hc.smallInt_iff.1 (by rw [hn]; rfl)
    · have ha : t = .absent := ha
      rw [ha] at hn
      cases hn
  have hnum : t.kind.isNumeric = true := by
    rw [hk]
    rfl
  obtain ⟨before, u, v, form, -, -, -, hs⟩ := exists_isLiteral settings text ops hnum
  exact (hs n hn).2

end Scanner

end Tokens

/-- **Just the numbers have values.**  After any operations the current token of a scanner has
a value just if it is a number.  Then it is a literal of the text.  If the literal is decimal,
its cooked text is a decimal numeral.  Otherwise the cooked text is the mark of the radix with
digits behind it, which are those of the literal in their order, and the value is worked out
from them. -/
theorem Scanner.numericValue_isSome_iff {σ : Type} [ExactSource σ] (settings : Settings)
    (text : List Char) (ops : List Operation) :
    let s := (ofSource settings (ExactSource.fresh text : σ)).run ops
    (s.numericValue.isSome = true ↔
        s.current.kind = .smallInt ∨ s.current.kind = .number ∨ s.current.kind = .bigInt) ∧
      (s.current.kind.isNumeric = true → ∃ before u v form,
        text = before ++ (u ++ v) ∧ Longest settings (u ++ v) form u v ∧
        s.current.IsLiteral σ before form u ∧
        (form.isDecimal = true → s.current.cooked.toList ∈ DecimalNumeral.grammar) ∧
        (form.isDecimal = false → s.current.ReadsDigits form u)) := by
  intro s
  have hc := ((Consistent.ofSource settings (ExactSource.fresh text : σ)).run ops).current
  refine ⟨?_, fun hk => ?_⟩
  · rw [← TokenKind.isNumeric_iff]
    constructor
    · intro hv
      by_contra hk
      rw [Bool.not_eq_true] at hk
      rw [numericValue, Token.numericValue_eq_none hc hk] at hv
      cases hv
    · intro hk
      obtain ⟨before, u, v, form, -, hl, ht, -⟩ := exists_isLiteral settings text ops hk
      exact ht.isSome_numericValue hl.mem
  · obtain ⟨before, u, v, form, hsplit, hl, ht, hs⟩ := exists_isLiteral settings text ops hk
    refine ⟨before, u, v, form, hsplit, hl, ht, ht.cooked_mem_grammar hl.mem,
      fun hf => ht.readsDigits hl.mem hf ?_⟩
    -- a small integer would be decimal
    rw [Option.eq_none_iff_forall_ne_some]
    intro n hn
    rw [(hs n hn).1] at hf
    cases hf

/-- The digits of a BigInt with a separator. -/
example : Literal.digitValues .binary "0b1_01n".toList = [1, 0, 1] := by decide

end EcmaLex
