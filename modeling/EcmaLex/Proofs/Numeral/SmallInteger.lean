import EcmaLex.Proofs.Decimal.Digits
import EcmaLex.Proofs.Numeral.Tokens

/-!
# Small integers

The value of a decimal integer is worked out from its digits, stuck at the greatest number of
64 bits, and then it is told whether it is a small integer.  That looks at the number of
digits first, then at what follows, then at the value.  All of this comes to one question,
whether the value is that of a small integer: no more than ten digits have such a value, it
is never stuck, and nothing follows that could make the digits part of something else.

## Main definitions

* `Literal.value` — the number that the digits of a literal denote.

## Main results

* `Numeral.smallInt?_of` — what is told of a decimal integer.
* `Numeral.smallInt?_eq_some_iff` — a literal has a value just where it is a small integer.
* `smallInt_iff_integer` — **small integers are the decimal integers that are not too great**.
-/

namespace EcmaLex

open DecimalNumeral (appendDigit ofDigits)

/-! ### Stuck values -/

namespace Numeral

theorem saturatingValue_eq_saturate {ds : List Char}
    (hds : ∀ c ∈ ds, isDecimalDigit c = true) : saturatingValue ds = saturate (ofDigits ds) := by
  -- being stuck before a digit is being stuck after it
  have hstep : ∀ (n : Nat) (c : Char), isDecimalDigit c = true →
      saturate (saturate (saturate n * 10) + (hexDigitValue c).getD 0) =
        saturate (appendDigit n c) := by
    intro n c hc
    rw [hexDigitValue_of_isDecimalDigit hc, Option.getD_some]
    unfold saturate appendDigit
    omega
  have hfold : ∀ n : Nat, (∀ c ∈ ds, isDecimalDigit c = true) →
      ds.foldl (fun v c => saturate (saturate (v * 10) + (hexDigitValue c).getD 0)) (saturate n) =
        saturate (ds.foldl appendDigit n) := by
    clear hds
    induction ds with
    | nil => exact fun _ _ => rfl
    | cons c ds ih =>
      intro n hds
      rw [List.foldl_cons, List.foldl_cons, hstep n c (hds c List.mem_cons_self)]
      exact ih _ fun d hd => hds d (List.mem_cons_of_mem c hd)
  exact hfold 0 hds

/-- A value that is not too great is not stuck. -/
theorem saturatingValue_eq {ds : List Char} (hds : ∀ c ∈ ds, isDecimalDigit c = true)
    (h : ofDigits ds ≤ 0xFFFFFFFFFFFFFFFF) : saturatingValue ds = ofDigits ds := by
  rw [saturatingValue_eq_saturate hds]
  exact Nat.min_eq_left h

/-- No value on the way to one that is not too great is stuck. -/
theorem saturatingValue_of_prefix {ds p : List Char} (hds : ∀ c ∈ ds, isDecimalDigit c = true)
    (h : ofDigits ds ≤ maxSmallInt) (hp : p <+: ds) :
    saturatingValue p = ofDigits p ∧ ofDigits p < 0xFFFFFFFFFFFFFFFF := by
  have hle : ofDigits p ≤ maxSmallInt := Nat.le_trans (DecimalNumeral.ofDigits_le_of_prefix hp) h
  have hlt : ofDigits p < 0xFFFFFFFFFFFFFFFF := Nat.lt_of_le_of_lt hle (by decide)
  exact ⟨saturatingValue_eq (fun c hc => hds c (hp.subset hc)) (Nat.le_of_lt hlt), hlt⟩

theorem saturatingValue_le_iff {ds : List Char} (hds : ∀ c ∈ ds, isDecimalDigit c = true) :
    saturatingValue ds ≤ maxSmallInt ↔ ofDigits ds ≤ maxSmallInt := by
  rw [saturatingValue_eq_saturate hds]
  unfold saturate maxSmallInt
  omega

end Numeral

/-! ### Decimal integers -/

namespace Literal

variable {settings : Settings} {form : NumberForm} {separators : Bool} {r u v : List Char}

/-- The number that the digits of a literal denote, without its separators. -/
def value (u : List Char) : Nat := ofDigits (cooked u)

/-- A decimal integer holds digits and separators, and a digit comes first. -/
theorem digit_or_separator_of_mem_integer (h : u ∈ integer separators .decimal) :
    ∀ c ∈ u, isDecimalDigit c = true ∨ c = '_' := by
  rcases h with ⟨c, hc, rfl⟩ | ⟨h, -⟩
  · intro d hd
    rw [List.mem_singleton.1 hd, List.mem_singleton.1 hc]
    exact .inl rfl
  · exact digit_or_separator_of_mem_run h

/-- Among the literals the decimal integers are those without other characters. -/
theorem mem_integer_iff (h : u ∈ form.literals settings) :
    u ∈ integer settings.numericSeparators .decimal ↔
      form = .decimal ∧ ∀ c ∈ u, isDecimalDigit c = true ∨ c = '_' := by
  constructor
  · intro hu
    refine ⟨?_, digit_or_separator_of_mem_integer hu⟩
    by_contra hf
    -- the other forms have a zero with something after it
    obtain ⟨c, w, rfl, hc⟩ := second_of_mem hf h
    rcases hu with ⟨_, _, hu⟩ | ⟨-, hu⟩
    · cases hu
    · exact hu rfl
  · rintro ⟨rfl, hu⟩
    have hmark := notMem_of_digit_or_separator hu
    rcases h with h | h
    · obtain ⟨x, hx, y, hy, rfl⟩ := Language.mem_mul.1 h
      cases y with
      | nil => rwa [List.append_nil]
      | cons c y =>
        have hc : c ∈ x ++ c :: y := List.mem_append_right x List.mem_cons_self
        exact absurd (head_of_mem_tail hy) (hmark c hc)
    · obtain ⟨c, hc, x, -, rfl⟩ := mem_oneOf_mul.1 h
      rw [List.mem_singleton.1 hc] at hmark
      exact absurd (by decide) (hmark '.' List.mem_cons_self)

/-- What is kept of a decimal integer are its digits. -/
theorem isDecimalDigit_of_mem_cooked (h : u ∈ integer separators .decimal) :
    ∀ c ∈ cooked u, isDecimalDigit c = true := by
  intro c hc
  obtain ⟨hu, hc⟩ := List.mem_filter.1 hc
  rcases digit_or_separator_of_mem_integer h c hu with hd | rfl
  · exact hd
  · cases hc

/-- A decimal integer has no zeros in front. -/
theorem cooked_of_mem_integer (h : u ∈ integer separators .decimal) :
    cooked u = ['0'] ∨ cooked u ≠ [] ∧ (cooked u).head? ≠ some '0' := by
  rcases h with ⟨c, hc, rfl⟩ | ⟨⟨c, w, hc, -, rfl⟩, h0⟩
  · rw [List.mem_singleton.1 hc]
    exact .inl rfl
  · -- the first digit is kept
    have hk := Numeral.notMem_of_isHexDigit (isHexDigit_of_isDecimalDigit hc)
    have hcooked : cooked (c :: w) = c :: cooked w := by
      have h_ : c ≠ '_' := fun h => hk (by rw [h]; decide)
      have hn : c ≠ 'n' := fun h => hk (by rw [h]; decide)
      simp [cooked, h_, hn]
    rw [hcooked]
    exact .inr ⟨List.cons_ne_nil _ _, h0⟩

/-- **The cooked text of a decimal integer is the numeral of its value.** -/
theorem toDigits_value (h : u ∈ integer separators .decimal) :
    Nat.toDigits 10 (value u) = cooked u :=
  DecimalNumeral.toDigits_ofDigits (isDecimalDigit_of_mem_cooked h) (cooked_of_mem_integer h)

theorem repr_value (h : u ∈ integer separators .decimal) :
    .ofList (cooked u) = Nat.repr (value u) := by
  rw [Nat.repr, toDigits_value h]

/-- A small integer has no more than ten digits. -/
theorem length_cooked_le (h : u ∈ integer separators .decimal)
    (hv : value u ≤ Numeral.maxSmallInt) : (cooked u).length ≤ Numeral.maxSmallIntDigits := by
  rw [← toDigits_value h]
  refine (Nat.length_toDigits_le_iff (by decide) (by decide)).2 (Nat.lt_of_le_of_lt hv ?_)
  decide

/-- After a longest literal that is a decimal integer there is no point: it would belong to
the literal. -/
theorem Longest.head?_ne_point (h : Longest settings r form u v)
    (hu : u ∈ integer settings.numericSeparators .decimal) : v.head? ≠ some '.' := by
  intro hv
  obtain ⟨b, rfl⟩ := List.head?_eq_some_iff.1 hv
  have hpoint : ['.'] ∈ tail settings.numericSeparators .decimal := by
    refine .inr (Language.append_mem_mul (.inr ?_) (.inl rfl) : ['.'] ++ [] ∈ _)
    exact mem_oneOf_mul.2 ⟨'.', List.mem_cons_self, [], .inl rfl, rfl⟩
  have hlonger : u ++ ['.'] ∈ NumberForm.literals settings .decimal :=
    .inl (Language.append_mem_mul hu hpoint)
  have hlen := h.longest .decimal (u ++ ['.']) ⟨b, by rw [h.split]; simp⟩ hlonger
  rw [List.length_append, List.length_singleton] at hlen
  omega

end Literal

/-! ### The beginning of a decimal literal -/

namespace Numeral

variable {σ : Type}

/-- The reading takes nothing where it tells that the form is decimal. -/
def Resting (x : Reading σ NumberForm) : Prop :=
  ∀ n n', x n = .ok .decimal n' → n' = n

namespace Resting

theorem pure (form : NumberForm) : Resting (Pure.pure form : Reading σ NumberForm) := by
  intro n n' h
  cases h
  rfl

theorem of_yields {x : Reading σ NumberForm} (h : Yields (· ≠ .decimal) x) : Resting x :=
  fun n n' hr => absurd rfl (h n n' .decimal hr)

theorem get_bind {f : Numeral σ → Reading σ NumberForm} (h : ∀ n, Resting (f n)) :
    Resting (get >>= f) :=
  fun n n' hr => h n n n' hr

theorem ite {p : Prop} [Decidable p] {x y : Reading σ NumberForm} (hx : Resting x)
    (hy : Resting y) : Resting (if p then x else y) := by
  split
  · exact hx
  · exact hy

end Resting

variable [TextSource σ]

theorem resting_radixDigits {isDigit : Char → Bool} {separators : Bool}
    {form : NumberForm} (hf : form ≠ .decimal) :
    Resting (radixDigits (σ := σ) form isDigit separators) :=
  .of_yields <| Yields.bind_any fun _ => Yields.bind_any fun _ => Yields.pure hf

/-- A digit other than zero tells that the form is decimal, and so does what follows a zero. -/
theorem resting_lead (settings : Settings) (first : Char) :
    Resting (lead (σ := σ) settings first) := by
  unfold lead
  refine .ite (.pure _) (.get_bind fun n => ?_)
  split
  · exact .pure _
  · refine .ite (resting_radixDigits (by decide)) <| .ite (resting_radixDigits (by decide)) <|
      .ite (resting_radixDigits (by decide)) <| .ite ?_ <| .ite ?_ <| .ite ?_ (.pure _)
    · refine .of_yields fun n n' form hr => ?_
      cases hr
      split <;> decide
    · exact .of_yields (Yields.pure (by decide))
    · intro n n' hr
      cases hr

end Numeral

/-! ### What is told of a literal -/

namespace Numeral

open Literal (integer value Taken Rejected Longest Abuts Led)

variable {σ : Type} [ExactSource σ] {settings : Settings} {start : Nat} {form : NumberForm}
  {before u a r w v : List Char} {c : Char}

/-- **What is told of a decimal integer**, where neither a point nor an identifier follows: it
is a small integer if its value is that of one. -/
theorem smallInt?_of {separators : Bool} (h : u ∈ integer separators .decimal)
    (hp : v.head? ≠ some '.') (hi : v.head?.any isIdentifierStart = false) :
    (of before u v : Numeral σ).smallInt? =
      if value u ≤ maxSmallInt then some (value u) else none := by
  have hdigits := Literal.isDecimalDigit_of_mem_cooked h
  have hle : saturatingValue (Literal.cooked u) ≤ maxSmallInt ↔ value u ≤ maxSmallInt :=
    saturatingValue_le_iff hdigits
  have hpoint : (v.head? == some '.') = false := beq_eq_false_iff_ne.2 hp
  have htext : (of before u v : Numeral σ).cooked.toList = Literal.cooked u := String.toList_ofList
  have hbytes : (of before u v : Numeral σ).cooked.utf8ByteSize = (Literal.cooked u).length :=
    utf8ByteSize_ofList_of_isDecimalDigit hdigits
  unfold smallInt?
  simp only [htext, hbytes, reader_of, Reader.isAt_between, Reader.isAtAny_between, hpoint, hi]
  by_cases hv : value u ≤ maxSmallInt
  · -- the value is not stuck, and so its digits are few
    have hstuck : saturatingValue (Literal.cooked u) = value u :=
      saturatingValue_eq hdigits (Nat.le_trans hv (by decide))
    rw [if_pos hv, hstuck, if_pos]
    simpa [hv] using Literal.length_cooked_le h hv
  · rw [if_neg hv, if_neg]
    simp [hle, hv]

/-! ### When it is told -/

/-- What is known of the numeral after a reading is known of what was taken. -/
theorem Reads.and {α : Type} {x : Reading σ α} {ok : α → List Char → List Char → Prop}
    {p : α → Numeral σ → Prop} {fails : Prop} (h : Reads x before u a ok fails)
    (hp : ∀ r n, x (of before u a) = .ok r n → p r n) :
    Reads x before u a (fun r w v => ok r w v ∧ p r (of before (u ++ w) v)) fails := by
  unfold Reads at h ⊢
  cases hr : x (of before u a) with
  | error d n =>
    rw [hr] at h
    exact h
  | ok r n =>
    rw [hr] at h
    obtain ⟨w, v, rfl, hok⟩ := h
    exact ⟨w, v, rfl, hok, hp r _ hr⟩

/-- A small integer is told just of the decimal integers, when nothing else has been read. -/
structure Verdict.Told (verdict : Verdict) (n : Numeral σ) : Prop where
  /-- It is told of decimal digits. -/
  digits : verdict.form = .decimal →
    (∀ c ∈ n.raw.toList, isDecimalDigit c = true ∨ c = '_') → verdict.smallInt? = n.smallInt?
  /-- It is told of nothing else. -/
  other : ¬ (verdict.form = .decimal ∧ ∀ c ∈ n.raw.toList, isDecimalDigit c = true ∨ c = '_') →
    verdict.smallInt? = none

theorem toList_raw_of : (of before u v : Numeral σ).raw.toList = u := String.toList_ofList

/-- Of literals with other characters nothing is told. -/
theorem Verdict.told_of_mem {kind : TokenKind} (hc : c ∈ u)
    (h : ¬ (isDecimalDigit c = true ∨ c = '_')) :
    Verdict.Told { kind, form } (of before u v : Numeral σ) := by
  refine ⟨fun _ hall => absurd (hall c ?_) h, fun _ => rfl⟩
  rwa [toList_raw_of]

theorem reads_lead_decimal (hc : isDecimalDigit c = true) :
    Reads (σ := σ) (lead settings c) before [c] a (fun form w _ => form = .decimal → w = [])
      (Rejected settings (c :: a)) := by
  have hrest : ∀ form n, lead settings c (of before [c] a : Numeral σ) = .ok form n →
      form = .decimal → n = of before [c] a := by
    rintro form n hr rfl
    exact resting_lead settings c _ _ hr
  refine ((reads_lead hc).and hrest).mono (fun form w v h hf => ?_) id
  -- the raw text is still the first digit
  have hraw : c :: w = [c] := String.ofList_injective (congrArg Numeral.raw (h.2 hf))
  exact (List.cons.inj hraw).2

/-! ### The rest of a literal -/

/-- Where the digits tell nothing, what follows them does not either. -/
theorem reads_fraction_ending_told
    (hs : form = .decimal → (of before u a : Numeral σ).smallInt? = none) :
    Reads (σ := σ)
      (do
        let pointSeen ← fraction (allowsSeparators settings form)
        return { kind := ← ending settings start form pointSeen, form })
      before u a
      (fun (verdict : Verdict) w v => verdict.Told (of before (u ++ w) v : Numeral σ)) True := by
  refine ((reads_fraction _).mono_fails fun _ => trivial).bind fun point x b hx => ?_
  refine (reads_ending.mono_fails fun _ => trivial).bind fun kind y v ⟨hy, _⟩ => .pure ?_
  rw [List.append_nil]
  rcases hx with ⟨rfl, hx⟩ | ⟨rfl, rfl, rfl, hp⟩
  · -- a point has been read
    obtain ⟨d, hd, q, -, rfl⟩ := mem_oneOf_mul.1 hx.mem
    rw [List.mem_singleton.1 hd]
    refine Verdict.told_of_mem (c := '.') ?_ (by decide)
    simp
  · have htail := Literal.munch_tail_of_ends (fun _ => hp) hy
    cases y with
    | nil =>
      -- nothing has been read
      obtain rfl : b = v := htail.split
      rw [List.append_nil, List.append_nil]
      exact ⟨fun hf _ => (hs hf).symm, fun _ => rfl⟩
    | cons c y =>
      have hmark : ∀ c ∈ ['n', '.', 'e', 'E'], ¬ (isDecimalDigit c = true ∨ c = '_') :=
        forall_mem_of_all (by decide)
      refine Verdict.told_of_mem (c := c) ?_ (hmark c (Literal.head_of_mem_tail htail.mem))
      simp

theorem reads_afterLead_told (hu : form = .decimal → ∀ c ∈ u, isDecimalDigit c = true) :
    Reads (σ := σ) (afterLead settings start form) before u a
      (fun verdict w v => verdict.Told (of before (u ++ w) v : Numeral σ)) True := by
  unfold afterLead
  split
  · next hf =>
    refine ((reads_digits_true fun _ => isHexDigit_of_isDecimalDigit).mono_fails
      fun _ => trivial).bind fun _ w v hw => Reads.get_bind ?_
    split
    · next value hs =>
      obtain ⟨hs, hform⟩ := Option.filter_eq_some_iff.1 hs
      have hform : form = .decimal := by simpa using hform
      -- only digits have been read
      refine .pure ?_
      rw [List.append_nil]
      refine ⟨fun _ _ => hs.symm, fun hn => absurd ⟨hform, ?_⟩ hn⟩
      rw [toList_raw_of]
      intro c hc
      rcases List.mem_append.1 hc with hc | hc
      · exact .inl (hu hform c hc)
      · exact Literal.More.digit_or_separator hw.mem c hc
    · next hs =>
      refine (reads_fraction_ending_told fun hform => ?_).mono (fun _ _ _ ht => ?_) id
      · rw [Option.filter_eq_none_iff] at hs
        rw [Option.eq_none_iff_forall_ne_some]
        intro value hv
        exact hs value hv (by simp [hform])
      · rwa [List.append_assoc] at ht
  · next hf =>
    refine (reads_ending.mono_fails fun _ => trivial).bind fun kind w v _ => .pure ?_
    refine ⟨?_, fun _ => rfl⟩
    rintro rfl
    exact absurd rfl hf

/-- However a number begins, it is told of its digits whether it is a small integer. -/
theorem BeginsWith.reads_told {x : Reading σ Verdict} (h : BeginsWith settings start r c a x)
    (before : List Char) :
    Reads x before [c] a (fun verdict w v => verdict.Told (of before (c :: w) v : Numeral σ))
      True := by
  cases h with
  | digit hc =>
    rw [afterFirstDigit_eq]
    refine ((reads_lead_decimal hc).mono_fails fun _ => trivial).bind fun form w v hw => ?_
    refine (reads_afterLead_told fun hf d hd => ?_)
    rw [hw hf, List.append_nil, List.mem_singleton] at hd
    rw [hd]
    exact hc
  | point hc =>
    unfold afterPoint
    refine ((reads_someDigits fun _ => isHexDigit_of_isDecimalDigit).mono_fails
      fun _ => trivial).bind fun _ w v _ => ?_
    refine (reads_ending.mono_fails fun _ => trivial).bind fun kind y v' _ => .pure ?_
    exact Verdict.told_of_mem (c := '.') List.mem_cons_self (by decide)

theorem BeginsWith.told_of_ok {x : Reading σ Verdict} {verdict : Verdict}
    (h : BeginsWith settings start r c a x)
    (hr : x (of before [c] a) = .ok verdict (of before u v)) :
    verdict.Told (of before u v : Numeral σ) := by
  have ht := h.reads_told before
  unfold Reads at ht
  rw [hr] at ht
  obtain ⟨w, v', hn, ht⟩ := ht
  rwa [hn]

/-- **A literal has a value just where it is a small integer.** -/
theorem smallInt?_eq_some_iff {verdict : Verdict} (ht : Taken settings r verdict u v)
    (h : verdict.Told (of before u v : Numeral σ)) (n : Nat) :
    verdict.smallInt? = some n ↔
      u ∈ integer settings.numericSeparators .decimal ∧ value u ≤ maxSmallInt ∧ n = value u := by
  have hmem := Literal.mem_integer_iff ht.longest.mem
  obtain ⟨hdigits, hother⟩ := h
  rw [toList_raw_of] at hdigits hother
  by_cases hu : u ∈ integer settings.numericSeparators .decimal
  · have hi : v.head?.any isIdentifierStart = false := by
      by_contra hv
      refine ht.not_abuts ?_
      obtain ⟨c, hc, hs⟩ := (Option.any_eq_true _ _).1 (by simpa using hv)
      exact Literal.abuts_of_isIdentifierStart hc hs
    obtain ⟨hform, hall⟩ := hmem.1 hu
    rw [hdigits hform hall, smallInt?_of hu (ht.longest.head?_ne_point hu) hi]
    split
    · next hv => simp [hu, hv, eq_comm]
    · next hv => simp [hv]
  · rw [hother fun hd => hu (hmem.2 hd)]
    simp [hu]

/-- The other numbers have no value. -/
theorem Verdict.Sound.of_kind_ne {verdict : Verdict} (h : verdict.Sound)
    (hk : verdict.kind ≠ .smallInt) :
    (verdict.kind = .number ∨ verdict.kind = .bigInt) ∧ verdict.smallInt? = none := by
  obtain ⟨hnum, hval⟩ := h
  refine ⟨?_, ?_⟩
  · generalize verdict.kind = kind at hnum hk
    cases kind with
    | number => exact .inl rfl
    | bigInt => exact .inr rfl
    | smallInt => exact absurd rfl hk
    | _ => cases hnum
  · rw [beq_eq_false_iff_ne.2 hk] at hval
    simpa using hval

/-- Its kind says so. -/
theorem kind_eq_smallInt_iff {verdict : Verdict} (ht : Taken settings r verdict u v)
    (h : verdict.Told (of before u v : Numeral σ)) (hs : verdict.Sound) :
    verdict.kind = .smallInt ↔
      u ∈ integer settings.numericSeparators .decimal ∧ value u ≤ maxSmallInt := by
  have hkind : verdict.kind = .smallInt ↔ verdict.smallInt?.isSome = true := by
    rw [hs.2, beq_iff_eq]
  rw [hkind, Option.isSome_iff_exists]
  constructor
  · rintro ⟨n, hn⟩
    obtain ⟨hu, hv, -⟩ := (smallInt?_eq_some_iff ht h n).1 hn
    exact ⟨hu, hv⟩
  · rintro ⟨hu, hv⟩
    exact ⟨value u, (smallInt?_eq_some_iff ht h (value u)).2 ⟨hu, hv, rfl⟩⟩

end Numeral

/-! ### Small integers of a text -/

open Literal (integer value Longest Abuts)

variable {σ : Type} [ExactSource σ]

/-- **Small integers are the decimal integers that are not too great.**  Each number that a
scanner holds after any operations is a literal of the text that stands by itself.  It is a
small integer just where it is a decimal integer, with neither zeros in front nor a tail,
whose value is at most `2147483647`.  Then the token has this value, its cooked text is the
numeral of the value, and no value on the way to it is stuck.  All other numbers have no
value. -/
theorem smallInt_iff_integer (settings : Settings) (text : List Char) (ops : List Operation)
    (slot : Slot) :
    let t := ((Scanner.ofSource settings (ExactSource.fresh text : σ)).run ops).token slot
    t.kind.isNumeric = true →
      ∃ before u v form,
        text = before ++ (u ++ v) ∧ Longest settings (u ++ v) form u v ∧ ¬ Abuts v ∧
        t.IsLiteral σ before form u ∧
        (t.kind = .smallInt ↔
          u ∈ integer settings.numericSeparators .decimal ∧ value u ≤ 2147483647) ∧
        (t.kind = .smallInt →
          t.smallInt? = some (value u) ∧ t.cooked = Nat.repr (value u) ∧
            ∀ p, p <+: t.cooked.toList →
              Numeral.saturatingValue p = ofDigits p ∧ ofDigits p < 0xFFFFFFFFFFFFFFFF) ∧
        (t.kind ≠ .smallInt → (t.kind = .number ∨ t.kind = .bigInt) ∧ t.smallInt? = none) := by
  intro t ht
  have hg := (Scanner.Grounded.ofSource (σ := σ) settings text).run ops
  have hne : t.kind ≠ .uninitialized := by
    intro h
    rw [h] at ht
    cases ht
  have hread : t.ReadFrom σ settings text := hg.readFrom slot hne
  generalize t = t at *
  obtain ⟨before, r, lineBreak, c, a, x, rfl, hx, rfl⟩ := Numeral.exists_of_readFrom hread ht
  obtain ⟨verdict, u, v, hr, htaken, hsound⟩ := hx.exists_taken ht
  have htold : verdict.Told (.of before u v : Numeral σ) := hx.told_of_ok hr
  have hkind := Numeral.kind_eq_smallInt_iff htaken htold hsound
  rw [Numeral.lexeme_of_ok hr]
  obtain rfl : r = u ++ v := htaken.longest.split
  refine ⟨before, u, v, verdict.form, rfl, htaken.longest, htaken.not_abuts,
    htaken.isLiteral before lineBreak, hkind, fun hk => ?_, fun hk => ?_⟩
  · obtain ⟨hu, hv⟩ := hkind.1 hk
    refine ⟨?_, Literal.repr_value hu, fun p hp => ?_⟩
    · exact (Numeral.smallInt?_eq_some_iff htaken htold _).2 ⟨hu, hv, rfl⟩
    · have hp' : p <+: Literal.cooked u := by
        rwa [← String.toList_ofList (l := Literal.cooked u)]
      exact Numeral.saturatingValue_of_prefix (Literal.isDecimalDigit_of_mem_cooked hu) hv hp'
  · exact hsound.of_kind_ne hk

/-- The greatest small integer, with separators, as the next token of a text. -/
theorem smallInt_iff_integer_greatest :
    let text := ['2', '_', '1', '4', '7', '_', '4', '8', '3', '_', '6', '4', '7', ';']
    let t := ((Scanner.ofSource {} (ExactSource.fresh text : ByteCursor)).run [.start]).token .next
    t.kind.isNumeric = true ∧ t.kind = .smallInt ∧ ∃ before u v,
      text = before ++ (u ++ v) ∧ u ∈ integer true .decimal ∧ value u ≤ 2147483647 ∧
        t.smallInt? = some (value u) ∧ t.cooked = Nat.repr (value u) := by
  intro text t
  have hnum : t.kind.isNumeric = true := by decide +kernel
  have hk : t.kind = .smallInt := by decide +kernel
  obtain ⟨before, u, v, form, hsplit, -, -, -, hiff, hval, -⟩ :=
    smallInt_iff_integer (σ := ByteCursor) {} text [.start] .next hnum
  obtain ⟨hu, hv⟩ := hiff.1 hk
  obtain ⟨hsome, hrepr, -⟩ := hval hk
  exact ⟨hnum, hk, before, u, v, hsplit, hu, hv, hsome, hrepr⟩

/-- One more, and it is a number like any other. -/
example : ((Scanner.ofSource {} (ByteCursor.ofString "2147483648")).run [.start]).next.kind =
    .number := by
  decide +kernel

end EcmaLex
