import EcmaLex.Proofs.Word.Flags
import EcmaLex.Proofs.Word.Letters
import Mathlib.Data.List.TakeWhile

/-!
# How words are spelled and classified

A word without escapes is a character that starts identifiers and all the
identifier characters after it.  Comparing it with the keywords can be left out when
some character rules that out, since no keyword holds such a character.

The flags gathered for a word include those of the character that ends it, and a
character which is not ASCII counts as one that occurs in no keyword.  So a
keyword right before such a character is taken for an identifier.

## Main results

* `Keyword.lexeme_of_ofText` — a text that spells a keyword is its lexeme.
* `Word.plainRun_append`, `Word.carefulRun_of_not_escaped` — what the two runs read.
* `isWord_of_not_escaped` — **the text, the extent and the kind of a word**.
-/

namespace EcmaLex

/-! ### Keywords -/

namespace Keyword

/-- A text that spells a keyword is its lexeme. -/
theorem lexeme_of_ofText {text : String} {k : Keyword} (h : ofText text = some k) :
    text = k.lexeme := by
  unfold ofText at h
  dsimp only at h
  split at h
  · unfold ofTextOfLength at h
    repeat' split at h
    all_goals cases h
    all_goals rfl
  · cases h

/-- The words are the lexemes, in the order of the keywords. -/
theorem words_eq_map : words = all.map lexeme := rfl

theorem mem_words_iff {word : String} : word ∈ words ↔ ∃ k : Keyword, k.lexeme = word := by
  rw [words_eq_map, List.mem_map]
  exact exists_congr fun k => and_iff_right (mem_all k)

theorem isInKeyword_of_mem_lexeme {k : Keyword} {c : Char} (h : c ∈ k.lexeme.toList) :
    CharFlags.isInKeyword c = true :=
  List.any_eq_true.2 ⟨k.lexeme, mem_words_iff.2 ⟨k, rfl⟩, List.contains_iff_mem.2 h⟩

theorem startsKeyword_of_head_lexeme {k : Keyword} {c : Char}
    (h : k.lexeme.toList.head? = some c) : CharFlags.startsKeyword c = true :=
  List.any_eq_true.2 ⟨k.lexeme, mem_words_iff.2 ⟨k, rfl⟩, beq_iff_eq.2 h⟩

theorem isAscii_of_isInKeyword {c : Char} (h : CharFlags.isInKeyword c = true) :
    isAscii c = true := by
  -- keywords consist of ASCII letters
  have hall : ∀ k : Keyword, ∀ d ∈ k.lexeme.toList, isAscii d = true := by
    intro k
    cases k <;> exact forall_mem_of_all (by decide)
  obtain ⟨word, hword, hc⟩ := List.any_eq_true.1 h
  obtain ⟨k, rfl⟩ := mem_words_iff.1 hword
  exact hall k c (List.contains_iff_mem.1 hc)

end Keyword

namespace TokenKind

theorem ofWord_eq_identifier_iff {text : String} :
    ofWord text = .identifier ↔ Keyword.ofText text = none := by
  unfold ofWord
  cases Keyword.ofText text <;> simp

/-- A text with a character that occurs in no keyword spells none. -/
theorem ofWord_of_mem {text : List Char} {c : Char} (hc : c ∈ text)
    (h : CharFlags.isInKeyword c = false) : ofWord (String.ofList text) = .identifier := by
  unfold ofWord
  cases hk : Keyword.ofText (String.ofList text) with
  | none => rfl
  | some k =>
    have hl := Keyword.lexeme_of_ofText hk
    rw [← String.toList_ofList (l := text), hl] at hc
    rw [Keyword.isInKeyword_of_mem_lexeme hc] at h
    cases h

/-- A text whose first character starts no keyword spells none. -/
theorem ofWord_of_head {c : Char} {text : List Char} (h : CharFlags.startsKeyword c = false) :
    ofWord (String.ofList (c :: text)) = .identifier := by
  unfold ofWord
  cases hk : Keyword.ofText (String.ofList (c :: text)) with
  | none => rfl
  | some k =>
    have hl : k.lexeme.toList.head? = some c := by
      rw [← Keyword.lexeme_of_ofText hk, String.toList_ofList, List.head?_cons]
    rw [Keyword.startsKeyword_of_head_lexeme hl] at h
    cases h

/-- A text spells no keyword if the facts about some characters at its start rule that out. -/
theorem ofWord_of_flags {c : Char} {run : List Char} (text : List Char)
    (h : (CharFlags.startsKeyword c && run.all CharFlags.isInKeyword) = false) :
    ofWord (String.ofList (c :: run ++ text)) = .identifier := by
  rcases Bool.and_eq_false_iff.1 h with h | h
  · exact ofWord_of_head h
  · obtain ⟨d, hd, h⟩ := List.all_eq_false.1 h
    exact ofWord_of_mem (List.mem_append_left text (List.mem_cons_of_mem c hd)) (by simpa using h)

end TokenKind

open Reader

variable {σ : Type} [ExactSource σ]

/-! ### Runs -/

namespace Word

theorem plainRun_nil (flags : CharFlags) (text : String) (before : List Char) :
    plainRun flags text (between before [] : Reader σ) = (flags, text, between before []) := by
  rw [plainRun]
  split
  · rfl
  · next h => cases h

theorem plainRun_cons (flags : CharFlags) (text : String) (before : List Char) (c : Char)
    (after : List Char) :
    plainRun flags text (between before (c :: after) : Reader σ) =
      if isAsciiIdentifier c then
        plainRun (flags ||| CharFlags.ofChar c) (text.push c) (between (before ++ [c]) after)
      else (flags ||| CharFlags.ofChar c, text, between before (c :: after)) := by
  rw [plainRun]
  split
  · next h => cases h
  · next h =>
    cases h
    dsimp only
    rw [CharFlags.isWordEnd_ofChar, advance_between_cons]
    by_cases hc : isAsciiIdentifier c = true <;> simp [hc]

/-- The plain run reads the ASCII identifier characters, and gathers the facts about them and about
the character after them. -/
theorem plainRun_append (flags : CharFlags) (text : String) (before : List Char)
    {run after : List Char} (hrun : ∀ c ∈ run, isAsciiIdentifier c = true)
    (hafter : ∀ c, after.head? = some c → isAsciiIdentifier c = false) :
    plainRun flags text (between before (run ++ after) : Reader σ) =
      (flags.gather (run ++ after.head?.toList), text ++ String.ofList run,
        between (before ++ run) after) := by
  induction run generalizing flags text before with
  | nil =>
    cases after with
    | nil => simp [plainRun_nil]
    | cons c after => simp [plainRun_cons, hafter c rfl]
  | cons c run ih =>
    obtain ⟨hc, hrun⟩ := List.forall_mem_cons.1 hrun
    rw [List.cons_append, plainRun_cons, if_pos hc, ih _ _ _ hrun]
    simp [String.ext_iff]

/-- What has been escaped stays so. -/
theorem escaped_carefulRun {w : Progress σ} (h : w.escaped = true) :
    (carefulRun w).1.escaped = true := by
  fun_induction carefulRun w with
  | case1 => exact h
  | case2 _ _ _ _ _ _ _ ih => exact ih rfl
  | case3 => exact h
  | case4 _ _ _ _ _ ih => exact ih h
  | case5 => exact h

theorem escaped_finish {w : Progress σ} (h : w.escaped = true) :
    (finish w).text.escaped = true := by
  have he := escaped_carefulRun h
  unfold finish
  dsimp only
  split <;> exact he

/-- The careful run reads the identifier characters, as long as it meets no escape. -/
theorem carefulRun_of_not_escaped {w : Progress σ} {before after : List Char}
    (hw : w.reader = between before after) (hn : (carefulRun w).2 = none)
    (he : (carefulRun w).1.escaped = false) :
    ∃ run rest, after = run ++ rest ∧ (∀ c ∈ run, isIdentifierPart c = true ∧ c ≠ '\\') ∧
      (∀ c, rest.head? = some c → isIdentifierPart c = false) ∧
      (carefulRun w).1.canBeKeyword = (w.canBeKeyword && run.all CharFlags.isInKeyword) ∧
      (carefulRun w).1.text = w.text ++ String.ofList run ∧
      (carefulRun w).1.reader = between (before ++ run) rest := by
  obtain ⟨run, d, e, rest, rfl, hrun, ⟨hrest, hread⟩ | ⟨-, dg, hdg, -⟩⟩ :=
    carefulRun_between w _ _ hw
  · rw [hread] at he ⊢
    obtain ⟨rfl, hall⟩ := hrun.eq_of_not_escaped (Bool.or_eq_false_iff.1 he).2
    exact ⟨run, rest, rfl, fun c hc => (hall c hc).symm, hrest, rfl, rfl, rfl⟩
  · rw [hn] at hdg
    cases hdg

/-! ### Kinds -/

/-- A text without escapes is compared with the keywords, unless it cannot be one. -/
theorem kind_not_escaped (canBeKeyword : Bool) (text : String) :
    kind canBeKeyword false text =
      if canBeKeyword then TokenKind.ofWord text else .identifier := by
  unfold kind TokenKind.ofWord
  split
  · cases Keyword.ofText text with
    | none => rfl
    | some k => simp
  · rfl

/-- The facts about its characters rule out no keyword that a text spells. -/
theorem kind_of_flags (c : Char) (run : List Char) :
    kind (CharFlags.startsKeyword c && run.all CharFlags.isInKeyword) false
      (String.ofList (c :: run)) = TokenKind.ofWord (String.ofList (c :: run)) := by
  rw [kind_not_escaped]
  split
  · rfl
  · next h =>
    have hword := TokenKind.ofWord_of_flags [] (Bool.not_eq_true _ ▸ h)
    rw [List.append_nil] at hword
    exact hword.symm

/-- What a word is that is read on with care, if it turns out to have no escape. -/
theorem finish_of_not_escaped {w : Progress σ} {before after : List Char}
    (hw : w.reader = between before after) (hk : (finish w).kind ≠ .illegal)
    (he : (finish w).text.escaped = false) :
    ∃ run rest, after = run ++ rest ∧ (∀ c ∈ run, isIdentifierPart c = true ∧ c ≠ '\\') ∧
      (∀ c, rest.head? = some c → isIdentifierPart c = false) ∧
      (finish w).text.cooked = w.text ++ String.ofList run ∧
      (finish w).reader = between (before ++ run) rest ∧
      (finish w).kind = kind (w.canBeKeyword && run.all CharFlags.isInKeyword) false
        (w.text ++ String.ofList run) := by
  unfold finish at hk he ⊢
  dsimp only at hk he ⊢
  cases hn : (carefulRun w).2 with
  | some d =>
    rw [hn] at hk
    exact absurd rfl hk
  | none =>
    rw [hn] at he
    obtain ⟨run, rest, ha, hrun, hrest, hc, ht, hr⟩ := carefulRun_of_not_escaped hw hn he
    change (carefulRun w).1.escaped = false at he
    refine ⟨run, rest, ha, hrun, hrest, ht, hr, ?_⟩
    show kind _ _ _ = _
    rw [hc, he, ht]

end Word

/-- The lexeme is the given word, which stands between `before` and `rest`.  Its kind is
that of its text, except that a keyword before a character which is not ASCII is
taken for an identifier. -/
structure IsWord (l : Lexeme σ) (before word rest : List Char) : Prop where
  /-- Its characters continue identifiers. -/
  isIdentifierPart : ∀ c ∈ word, isIdentifierPart c = true
  /-- The character after it does not. -/
  maximal : ∀ c, rest.head? = some c → EcmaLex.isIdentifierPart c = false
  /-- Its text is the word. -/
  cooked : l.text.cooked = String.ofList word
  /-- The reader is after the word. -/
  reader : l.reader = between (before ++ word) rest
  /-- Its kind. -/
  kind : l.kind =
    if rest.head?.all isAscii then TokenKind.ofWord (String.ofList word) else .identifier

theorem isInKeyword_of_not_isAscii {c : Char} (h : isAscii c = false) :
    CharFlags.isInKeyword c = false := by
  by_contra hk
  rw [Keyword.isAscii_of_isInKeyword (by simpa using hk)] at h
  cases h

/-- A word that has a character which is not ASCII is an identifier. -/
theorem kind_of_mem {word rest : List Char} {c : Char} (hc : c ∈ word) (ha : isAscii c = false) :
    TokenKind.identifier =
      if rest.head?.all isAscii then TokenKind.ofWord (String.ofList word) else .identifier := by
  rw [TokenKind.ofWord_of_mem hc (isInKeyword_of_not_isAscii ha), ite_self]

/-- A word that turns out to have no escape is not read on at a backslash. -/
theorem head?_of_not_escaped {w : Word.Progress σ} {before after : List Char}
    (hw : w.reader = between before after) (hk : (Word.finish w).kind ≠ .illegal)
    (he : (Word.finish w).text.escaped = false) : after.head? ≠ some '\\' := by
  intro hs
  obtain ⟨run, rest, rfl, hrun, hrest, -⟩ := Word.finish_of_not_escaped hw hk he
  cases run with
  | nil => cases hrest _ hs
  | cons d run =>
    cases hs
    exact (hrun _ List.mem_cons_self).2 rfl

/-- A word that is read on with care, because some character that was read is not ASCII
or because the next one is not. -/
theorem isWord_finish {w : Word.Progress σ} {before start after : List Char}
    (hw : w.reader = between (before ++ start) after) (htext : w.text = String.ofList start)
    (hstart : ∀ d ∈ start, isIdentifierPart d = true) (hkey : w.canBeKeyword = false)
    {c : Char} (ha : isAscii c = false) (hc : c ∈ start ∨ after.head? = some c)
    (hk : (Word.finish w).kind ≠ .illegal) (he : (Word.finish w).text.escaped = false) :
    ∃ run rest, after = run ++ rest ∧ IsWord (Word.finish w) before (start ++ run) rest := by
  obtain ⟨run, rest, rfl, hrun, hrest, ht, hr, hkind⟩ := Word.finish_of_not_escaped hw hk he
  refine ⟨run, rest, rfl, fun d hd => ?_, hrest, ?_, ?_, ?_⟩
  · rcases List.mem_append.1 hd with hd | hd
    · exact hstart d hd
    · exact (hrun d hd).1
  · rw [ht, htext, String.ofList_append]
  · rw [hr, List.append_assoc]
  · rw [hkind, hkey, Bool.false_and, Word.kind_not_escaped, if_neg Bool.false_ne_true]
    by_cases hmem : c ∈ start ++ run
    · exact kind_of_mem hmem ha
    · -- the character is not in the word, so it is the one after it
      rw [List.mem_append, not_or] at hmem
      have hnext : rest.head? = some c := by
        rcases hc with hc | hc
        · exact absurd hc hmem.1
        · cases run with
          | nil => exact hc
          | cons d run =>
            cases hc
            exact absurd List.mem_cons_self hmem.2
      rw [hnext, Option.all_some, ha, if_neg Bool.false_ne_true]

/-- A word whose first character is an ASCII one is read on with care after its plain
run if the character there is a backslash or not an ASCII one. -/
theorem word_append (text : String) (before : List Char) {c : Char} {run rest : List Char}
    (ha : isAscii c = true) (hs : c ≠ '\\') (hrun : ∀ d ∈ run, isAsciiIdentifier d = true)
    (hrest : ∀ d, rest.head? = some d → isAsciiIdentifier d = false) :
    let r : Reader σ := between (before ++ c :: run) rest
    let text' := text ++ String.ofList (c :: run)
    let canBeKeyword := CharFlags.startsKeyword c && run.all CharFlags.isInKeyword
    word text c (between before (c :: (run ++ rest))) =
      if rest.head?.any fun d => d == '\\' || !isAscii d then
        Word.finish ⟨canBeKeyword && rest.head?.all isAscii, false, text', r⟩
      else ⟨.ok (Word.kind (canBeKeyword && rest.head?.all isAscii) false text'),
        { cooked := text' }, r⟩ := by
  -- the facts of the first character and of the run decide how the word is read on
  intro r text' canBeKeyword
  have hr : between (before ++ [c] ++ run) rest = r := by simp [r]
  have htext : text.push c ++ String.ofList run = text' := by simp [text', String.ext_iff]
  rw [word, if_neg (by simpa using hs), if_pos ha, advance_between_cons,
    Word.plainRun_append _ _ _ hrun hrest, hr, htext]
  dsimp only
  rw [CharFlags.canBeKeyword_gather_run _ hrun hrest, CharFlags.canBeKeyword_ofFirst ha,
    CharFlags.isSpecial_gather_run _ hrun, CharFlags.isSpecial_ofFirst ha, Bool.false_or]

/-- Every text begins with a plain run, which may be empty. -/
theorem exists_run (after : List Char) :
    ∃ run rest, after = run ++ rest ∧ (∀ d ∈ run, isAsciiIdentifier d = true) ∧
      ∀ d, rest.head? = some d → isAsciiIdentifier d = false := by
  refine ⟨after.takeWhile isAsciiIdentifier, after.dropWhile isAsciiIdentifier,
    List.takeWhile_append_dropWhile.symm, fun d => List.mem_takeWhile_imp, fun d hd => ?_⟩
  have hnot := List.head?_dropWhile_not isAsciiIdentifier after
  rwa [hd] at hnot

/-- A word that is not read on with care ends at an ASCII character that continues none. -/
theorem ends_of_not_special {rest : List Char}
    (hend : ∀ d, rest.head? = some d → isAsciiIdentifier d = false)
    (hany : ¬ (rest.head?.any fun d => d == '\\' || !isAscii d) = true) {d : Char}
    (hd : rest.head? = some d) : isAscii d = true ∧ isIdentifierPart d = false := by
  rw [hd, Option.any_some] at hany
  simp only [Bool.or_eq_true, not_or, Bool.not_eq_true, Bool.not_eq_false'] at hany
  exact ⟨hany.2, isIdentifierPart_eq_false hany.2 (by simpa using hany.1) (hend d hd)⟩

/-- A word whose first character is an ASCII one. -/
theorem isWord_of_isAscii {before after : List Char} {c : Char}
    (hc : isIdentifierStart c = true) (ha : isAscii c = true) (hs : c ≠ '\\')
    (hk : (word "" c (between before (c :: after) : Reader σ)).kind ≠ .illegal)
    (he : (word "" c (between before (c :: after) : Reader σ)).text.escaped = false) :
    ∃ run rest, after = run ++ rest ∧
      IsWord (word "" c (between before (c :: after) : Reader σ)) before (c :: run) rest := by
  obtain ⟨run, rest, rfl, hrun, hend⟩ := exists_run after
  have hword := word_append (σ := σ) "" before ha hs hrun hend
  simp only [String.empty_append] at hword
  have hpart : ∀ d ∈ c :: run, isIdentifierPart d = true :=
    List.forall_mem_cons.2 ⟨isIdentifierPart_of_isIdentifierStart hc,
      fun d hd => isIdentifierPart_of_isAsciiIdentifier (hrun d hd)⟩
  rw [hword] at hk he ⊢
  clear hword
  split
  · next hany =>
    rw [if_pos hany] at hk he
    obtain ⟨d, hd, hds⟩ := (Option.any_eq_true _ _).1 hany
    -- the word has no escape, so that the character is no backslash
    have hda : isAscii d = false := by
      by_contra hda
      have hda : isAscii d = true := by simpa using hda
      obtain rfl : d = '\\' := by simpa [hda] using hds
      exact head?_of_not_escaped rfl hk he hd
    obtain ⟨run₂, rest₂, rfl, hw⟩ := isWord_finish rfl rfl hpart
      (by rw [hd, Option.all_some, hda, Bool.and_false]) hda (.inr hd) hk he
    exact ⟨run ++ run₂, rest₂, by simp, hw⟩
  · -- the word ends at an ASCII character, which has no say in whether it is a keyword
    next hany =>
    have hall : rest.head?.all isAscii = true := by
      cases hd : rest.head? with
      | none => rfl
      | some d => exact (ends_of_not_special hend hany hd).1
    refine ⟨run, rest, rfl, hpart, fun d hd => (ends_of_not_special hend hany hd).2, rfl, rfl, ?_⟩
    show Word.kind _ _ _ = _
    rw [hall, Bool.and_true, if_pos rfl, Word.kind_of_flags]

/-- **What a word is that has no escapes.** -/
theorem isWord_of_not_escaped {before after : List Char} {c : Char}
    (hc : isIdentifierStart c = true)
    (hk : (word "" c (between before (c :: after) : Reader σ)).kind ≠ .illegal)
    (he : (word "" c (between before (c :: after) : Reader σ)).text.escaped = false) :
    ∃ run rest, after = run ++ rest ∧
      IsWord (word "" c (between before (c :: after) : Reader σ)) before (c :: run) rest := by
  by_cases hs : c = '\\'
  · -- a word that begins with an escape has one
    exfalso
    subst hs
    unfold word at hk he
    simp only [beq_self_eq_true, if_true] at hk he
    split at hk
    · next d r ha =>
      rw [ha] at he
      dsimp only at he
      rw [Word.escaped_finish rfl] at he
      cases he
    · exact hk rfl
  · by_cases ha : isAscii c = true
    · -- read plainly as far as that goes
      exact isWord_of_isAscii hc ha hs hk he
    · have ha : isAscii c = false := by simpa using ha
      have hword : word "" c (between before (c :: after) : Reader σ) =
          Word.finish ⟨false, false, "".push c, between (before ++ [c]) after⟩ := by
        rw [word, if_neg (by simpa using hs), if_neg (by simp [ha]), advance_between_cons]
      rw [hword] at hk he ⊢
      refine isWord_finish rfl (by simp) ?_ rfl ha (.inl List.mem_cons_self) hk he
      simpa using isIdentifierPart_of_isIdentifierStart hc

end EcmaLex
