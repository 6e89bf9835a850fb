import EcmaLex.Proofs.Source.ByteCursor
import EcmaLex.Proofs.Word.Spelling

/-!
# The tables of keywords

The keywords are written down three times: as the list of words that the facts about single
characters are made from, as the texts that a word is compared with, sorted by their length, and as
the spellings of the token kinds.  All three hold the same words.

Most words are never compared with any of them.  What was gathered while a word was read is enough
to leave that out: the union of the facts about its characters, where those about the first one are
shifted by a bit.  The shift moves every fact to where another one stands, so what has to be shown
is that the bit that counts in the end is set by a character that starts no keyword, or by a later
one that occurs in none, and never by the character that ends the word.

## Main definitions

* `CharFlags.gathered` — the facts gathered for a word.

## Main results

* `Keyword.ofText_eq_some_iff` — a keyword is found by its spelling alone.
* `CharFlags.canBeKeyword_gathered` — what the facts gathered for a plain word tell.
* `TokenKind.ofWord_of_gathered` — a word that they rule out is no keyword.
* `kind_word_append` — a word that is read has the kind of its text.
* `keyword_tables_agree` — **the tables agree, and no keyword is ever passed over**.
-/

namespace EcmaLex

/-! ### Spellings -/

namespace Keyword

theorem ofText_lexeme (k : Keyword) : ofText k.lexeme = some k := by
  cases k <;> decide +kernel

/-- A keyword is found by its spelling alone. -/
theorem ofText_eq_some_iff {text : String} {k : Keyword} :
    ofText text = some k ↔ k.lexeme = text := by
  constructor
  · intro h
    exact (lexeme_of_ofText h).symm
  · rintro rfl
    exact ofText_lexeme k

theorem isSome_ofText_iff {text : String} : (ofText text).isSome = true ↔ text ∈ words := by
  simp only [Option.isSome_iff_exists, ofText_eq_some_iff, mem_words_iff]

end Keyword

namespace TokenKind

/-- The words with a kind of their own are those of the list. -/
theorem ofWord_ne_identifier_iff {text : String} :
    ofWord text ≠ .identifier ↔ text ∈ Keyword.words := by
  rw [ne_eq, TokenKind.ofWord_eq_identifier_iff, ← ne_eq, Option.ne_none_iff_isSome,
    Keyword.isSome_ofText_iff]

theorem ofWord_lexeme (k : Keyword) : ofWord k.lexeme = keyword k := by
  rw [ofWord, Keyword.ofText_lexeme]
  rfl

/-- No punctuator is spelled with a letter. -/
theorem isAlpha_front_punctuator (p : Punctuator) : p.lexeme.front.isAlpha = false := by
  cases p <;> decide +kernel

/-- The kinds whose spelling begins with a letter are those of keywords. -/
theorem exists_keyword_of_lexeme {kind : TokenKind} {text : String} (h : kind.lexeme = some text)
    (hfront : text.front.isAlpha = true) : ∃ k : Keyword, kind = keyword k ∧ k.lexeme = text := by
  cases kind with
  | punctuator p =>
    obtain rfl : p.lexeme = text := Option.some.inj h
    rw [isAlpha_front_punctuator] at hfront
    cases hfront
  | keyword k => exact ⟨k, rfl, Option.some.inj h⟩
  | _ => cases h

end TokenKind

/-! ### Gathered facts -/

namespace CharFlags

/-- The facts gathered for a word with the given first character and the given others, where the
character `next?` ends it: those about the first one, in terms of the word, with those about all of
the rest. -/
def gathered (first : Char) (others : List Char) (next? : Option Char) : CharFlags :=
  (ofFirst (ofChar first)).gather (others ++ next?.toList)

/-- What the facts gathered for a plain word tell: whether its first character starts a keyword and
the others occur in some.  The character that ends it has no say, as long as it is an ASCII one. -/
theorem canBeKeyword_gathered {first : Char} {others : List Char} {next? : Option Char}
    (hfirst : isAsciiIdentifier first = true) (hothers : ∀ c ∈ others, isAsciiIdentifier c = true)
    (hnext : ∀ c, next? = some c → isAscii c = true ∧ isAsciiIdentifier c = false) :
    (gathered first others next?).canBeKeyword =
      (startsKeyword first && others.all isInKeyword) := by
  have hall : next?.all isAscii = true := by
    rw [Option.all_eq_true]
    exact fun c hc => (hnext c hc).1
  rw [gathered, canBeKeyword_gather_run _ hothers fun c hc => (hnext c hc).2,
    canBeKeyword_ofFirst (isAscii_of_isAsciiIdentifier hfirst), hall, Bool.and_true]

end CharFlags

/-! ### Words -/

section Words

open Reader

variable {σ : Type} [ExactSource σ] {first : Char} {others after : List Char}

/-- A plain word for which the gathered facts rule a keyword out is none. -/
theorem TokenKind.ofWord_of_gathered {next? : Option Char}
    (hfirst : isAsciiIdentifier first = true) (hothers : ∀ c ∈ others, isAsciiIdentifier c = true)
    (hnext : ∀ c, next? = some c → isAscii c = true ∧ isAsciiIdentifier c = false)
    (h : (CharFlags.gathered first others next?).contains .inNoKeyword = true) :
    ofWord (String.ofList (first :: others)) = .identifier := by
  have hkey : (CharFlags.gathered first others next?).canBeKeyword = false := by
    rw [CharFlags.canBeKeyword, h, Bool.not_true]
  -- the first character starts no keyword, or another one occurs in none
  rw [CharFlags.canBeKeyword_gathered hfirst hothers hnext] at hkey
  have hkind := ofWord_of_flags [] hkey
  rwa [List.append_nil] at hkind

/-- A plain word that an ASCII character ends has the kind of its text, whether it was compared with
the keywords or not. -/
theorem kind_word_append (before : List Char) (hfirst : isAsciiIdentifier first = true)
    (hothers : ∀ c ∈ others, isAsciiIdentifier c = true)
    (hafter : ∀ c, after.head? = some c → isAscii c = true ∧ isAsciiIdentifier c = false)
    (hnext : after.head? ≠ some '\\') :
    (word "" first (between before (first :: others ++ after) : Reader σ)).kind =
      TokenKind.ofWord (String.ofList (first :: others)) := by
  have hne : first ≠ '\\' := by
    rintro rfl
    cases hfirst
  have hspecial : ¬ (after.head?.any fun d => d == '\\' || !isAscii d) = true := by
    rw [Option.any_eq_true]
    rintro ⟨d, hd, hspecial⟩
    rcases Bool.or_eq_true_iff.1 hspecial with h | h
    · rw [beq_iff_eq.1 h] at hd
      exact hnext hd
    · rw [(hafter d hd).1] at h
      cases h
  have hall : after.head?.all isAscii = true := by
    rw [Option.all_eq_true]
    exact fun c hc => (hafter c hc).1
  rw [List.cons_append, word_append "" before (isAscii_of_isAsciiIdentifier hfirst) hne hothers
    fun c hc => (hafter c hc).2, if_neg hspecial, hall, Bool.and_true, String.empty_append]
  show Word.kind _ _ _ = _
  exact Word.kind_of_flags first others

/-- **The tables of keywords agree, and no keyword is passed over.**  The words that have a kind of
their own are those of the list, each with the kind that it is the spelling of; and the kinds whose
spelling begins with a letter are those of their spellings.  A plain word for which the gathered
facts tell that some character rules a keyword out is none, whatever ASCII character ends it.  These
are the facts that the scanner gathers, and unless the word goes on with an escape, it gets the kind
of its text. -/
theorem keyword_tables_agree (σ : Type) [ExactSource σ] :
    (∀ w : String,
      (TokenKind.ofWord w ≠ .identifier ↔ w ∈ Keyword.words) ∧
        (w ∈ Keyword.words → (TokenKind.ofWord w).lexeme = some w)) ∧
    (∀ (kind : TokenKind) (w : String),
      kind.lexeme = some w → w.front.isAlpha = true → TokenKind.ofWord w = kind) ∧
    ∀ (w : String) (first : Char) (others after : List Char),
      w.toList = first :: others → (∀ c ∈ w.toList, isAsciiIdentifier c = true) →
      (∀ c, after.head? = some c → isAscii c = true ∧ isAsciiIdentifier c = false) →
      let flags := CharFlags.gathered first others after.head?
      (flags.contains .inNoKeyword = true → TokenKind.ofWord w = .identifier) ∧
        ∀ before text,
          (Word.plainRun (.ofFirst (.ofChar first)) text
            (between before (others ++ after) : Reader σ)).1 = flags ∧
          (after.head? ≠ some '\\' →
            (word "" first (between before (w.toList ++ after) : Reader σ)).kind =
              TokenKind.ofWord w) := by
  refine ⟨fun w => ⟨TokenKind.ofWord_ne_identifier_iff, fun hw => ?_⟩, fun kind w hk hw => ?_,
    fun w first others after hlist hword hafter => ?_⟩
  · obtain ⟨k, rfl⟩ := Keyword.mem_words_iff.1 hw
    rw [TokenKind.ofWord_lexeme, TokenKind.lexeme_keyword]
  · obtain ⟨k, rfl, rfl⟩ := TokenKind.exists_keyword_of_lexeme hk hw
    exact TokenKind.ofWord_lexeme k
  · obtain rfl : w = String.ofList (first :: others) := by rw [← hlist, String.ofList_toList]
    rw [hlist] at hword ⊢
    obtain ⟨hfirst, hothers⟩ := List.forall_mem_cons.1 hword
    intro flags
    refine ⟨TokenKind.ofWord_of_gathered hfirst hothers hafter, fun before text => ⟨?_, ?_⟩⟩
    · rw [Word.plainRun_append _ _ _ hothers fun c hc => (hafter c hc).2]
      rfl
    · exact kind_word_append before hfirst hothers hafter

/-- A keyword, and a word before a parenthesis that is told to be none by its first character. -/
theorem keyword_tables_agree_jet :
    ("while" ∈ Keyword.words ∧ TokenKind.ofWord "while" ≠ .identifier ∧
      (TokenKind.ofWord "while").lexeme = some "while") ∧
    ((TokenKind.keyword .kwWhile).lexeme = some "while" ∧ "while".front.isAlpha = true ∧
      TokenKind.ofWord "while" = .keyword .kwWhile) ∧
    "jet".toList = 'j' :: ['e', 't'] ∧ (∀ c ∈ "jet".toList, isAsciiIdentifier c = true) ∧
      (∀ c, ['('].head? = some c → isAscii c = true ∧ isAsciiIdentifier c = false) ∧
      (CharFlags.gathered 'j' ['e', 't'] ['('].head?).contains .inNoKeyword = true ∧
      TokenKind.ofWord "jet" = .identifier ∧ ['('].head? ≠ some '\\' ∧
      (word "" 'j' (between [] ("jet".toList ++ ['(']) : Reader ByteCursor)).kind =
        TokenKind.ofWord "jet" := by
  obtain ⟨htables, hkinds, hfilter⟩ := keyword_tables_agree ByteCursor
  have hwhile : "while" ∈ Keyword.words := by decide
  have hchars : ∀ c ∈ "jet".toList, isAsciiIdentifier c = true := forall_mem_of_all (by decide)
  have hend : ∀ c, ['('].head? = some c → isAscii c = true ∧ isAsciiIdentifier c = false := by
    intro c hc
    cases hc
    decide
  have hflags : (CharFlags.gathered 'j' ['e', 't'] ['('].head?).contains .inNoKeyword = true := by
    decide +kernel
  obtain ⟨hnone, hscan⟩ := hfilter "jet" 'j' ['e', 't'] ['('] rfl hchars hend
  exact ⟨⟨hwhile, (htables "while").1.2 hwhile, (htables "while").2 hwhile⟩,
    ⟨rfl, by decide, hkinds (.keyword .kwWhile) "while" rfl (by decide)⟩, rfl, hchars, hend, hflags,
    hnone hflags, by decide, (hscan [] "").2 (by decide)⟩

end Words

end EcmaLex
