import EcmaLex.Proofs.Lexeme.Sound
import EcmaLex.Proofs.Scanner.Place
import EcmaLex.Proofs.Source.ByteCursor
import EcmaLex.Proofs.Word.Spelling

/-!
# The words of a text

Whatever is done with a scanner, each identifier and each keyword that it holds is a
word of the text, in its full length and spelled as it stands there.

## Main definitions

* `TokenKind.isWord` — identifiers and keywords.
* `Token.IsWordOf` — the token is a word of the text.

## Main results

* `exists_word_of_step` — identifiers and keywords are read by the rule for words.
* `isWordOf_of_source` — **every word is what it is spelled like**, but for keywords
  before characters that are not ASCII.
-/

namespace EcmaLex

/-- Whether the kind is that of an identifier or a keyword. -/
def TokenKind.isWord : TokenKind → Bool
  | identifier | keyword _ => true
  | _ => false

/-! ### Which rule reads words -/

section Rules

variable {σ : Type}

theorem isWord_of_isNumeric {k : TokenKind} (h : k.isNumeric = true) : k.isWord = false := by
  cases k <;> first | rfl | cases h

theorem Numeral.isWord_lexeme {x : Reading σ Verdict} (h : Yields Verdict.Sound x)
    (n : Numeral σ) : (lexeme x n).kind.isWord = false := by
  unfold lexeme
  split
  · next v n' hr => exact isWord_of_isNumeric (h n n' v hr).1
  · rfl

theorem isWord_privateName [TextSource σ] (r : Reader σ) :
    (privateName r).kind.isWord = false := by
  unfold privateName
  split
  · next first _ =>
    unfold Lexeme.kind
    dsimp only
    cases (word "#" first r.advance).verdict <;> rfl
  · rfl

theorem isWord_stringLiteral [TextSource σ] (quote : Char) (r : Reader σ) :
    (stringLiteral quote r).kind.isWord = false := by
  unfold stringLiteral
  dsimp only
  split <;> rfl

theorem isWord_templatePiece [TextSource σ] (opening : Nat) (r : Reader σ) :
    (templatePiece opening r).kind.isWord = false := by
  unfold templatePiece
  dsimp only
  split <;> rfl

variable [SearchableSource σ]

/-- At a character that starts identifiers a word is read. -/
theorem step_of_isIdentifierStart (settings : Settings) (lineBreak : Bool) (findings : Findings)
    {r : Reader σ} {c : Char} (hr : r.char? = some c) (hc : isIdentifierStart c = true) :
    step settings lineBreak findings r = .lexeme lineBreak findings (word "" c r) := by
  have hb : isBlank c = false := by
    by_contra hb
    rw [isIdentifierStart_of_isBlank (by simpa using hb)] at hc
    cases hc
  rw [step, hr]
  dsimp only
  rw [if_neg (by simp [hb]), if_pos hc]

/-- Identifiers and keywords are read by the rule for words. -/
theorem exists_word_of_step {settings : Settings} {lineBreak lineBreak' : Bool}
    {findings findings' : Findings} {r : Reader σ} {l : Lexeme σ}
    (h : step settings lineBreak findings r = .lexeme lineBreak' findings' l)
    (hl : l.kind.isWord = true) :
    ∃ c, r.char? = some c ∧ isIdentifierStart c = true ∧ l = word "" c r := by
  cases foundAt_of_step h with
  | word hr hc => exact ⟨_, hr, hc, rfl⟩
  | endOfInput => cases hl
  | numeral =>
    rw [numeral, Numeral.isWord_lexeme (Numeral.yields_afterFirstDigit _ _ _)] at hl
    cases hl
  | stringLiteral =>
    rw [isWord_stringLiteral] at hl
    cases hl
  | templatePiece =>
    rw [isWord_templatePiece] at hl
    cases hl
  | privateName =>
    rw [isWord_privateName] at hl
    cases hl
  | fractionNumeral =>
    rw [fractionNumeral, Numeral.isWord_lexeme (Numeral.yields_afterPoint _ _)] at hl
    cases hl
  | punctuator => cases hl
  | illegal => cases hl

end Rules

/-! ### Words of a text -/

/-- The token is a word of the text: an identifier in its full length, spelled as it
stands there.  Its kind is that of its text, except that a keyword before a
character which is not ASCII is taken for an identifier. -/
def Token.IsWordOf (source : String) (t : Token) : Prop :=
  ∃ before after : String,
    source = before ++ t.cooked ++ after ∧
    t.span = ⟨before.utf8ByteSize, (before ++ t.cooked).utf8ByteSize⟩ ∧
    t.cooked.toList.head?.any isIdentifierStart = true ∧
    (∀ c ∈ t.cooked.toList, isIdentifierPart c = true) ∧
    (∀ c, after.toList.head? = some c → isIdentifierPart c = false) ∧
    t.kind = if after.toList.head?.all isAscii then .ofWord t.cooked else .identifier

open Reader

/-- A word that is read at a place of the text, if it has no escapes. -/
theorem isWordOf_word {before after : List Char} {c : Char} {l : Lexeme ByteCursor}
    (hc : isIdentifierStart c = true) (hl : l = word "" c (between before (c :: after)))
    (hk : l.kind ≠ .illegal) (he : l.text.escaped = false) (lineBreak : Bool) :
    (l.toToken (extent ByteCursor before) lineBreak).IsWordOf
      (String.ofList (before ++ c :: after)) := by
  subst hl
  obtain ⟨run, rest, rfl, hw⟩ := isWord_of_not_escaped hc hk he
  generalize word "" c (between before (c :: (run ++ rest)) : Reader ByteCursor) = l at *
  have hcooked : (l.toToken (extent ByteCursor before) lineBreak).cooked =
      String.ofList (c :: run) := hw.cooked
  have hspan : (l.toToken (extent ByteCursor before) lineBreak).span =
      ⟨extent ByteCursor before, extent ByteCursor (before ++ c :: run)⟩ := by
    rw [Lexeme.toToken, hw.reader, position_between]
  refine ⟨String.ofList before, String.ofList rest, ?_, ?_, ?_, ?_, ?_, ?_⟩
  · rw [hcooked, ← String.ofList_append, ← String.ofList_append]
    simp
  · rw [hspan, hcooked, ← String.ofList_append, ByteCursor.extent_eq_utf8ByteSize,
      ByteCursor.extent_eq_utf8ByteSize]
  · rw [hcooked, String.toList_ofList]
    exact hc
  · rw [hcooked, String.toList_ofList]
    exact hw.isIdentifierPart
  · rw [String.toList_ofList]
    exact hw.maximal
  · rw [hcooked, String.toList_ofList]
    exact hw.kind

/-- **Every word is what it is spelled like**, but for keywords before characters that
are not ASCII.  The first part is about the scan of a word from any place of the
text, the second one about the words that a scanner holds after any operations. -/
theorem isWordOf_of_source (settings : Settings) (source : String) :
    (∀ (before after : List Char) (c : Char) (lineBreak : Bool) (findings : Findings),
      source.toList = before ++ c :: after → isIdentifierStart c = true →
        let t := (scanToken settings lineBreak findings
          (between before (c :: after) : Reader ByteCursor)).token
        t.kind ≠ .illegal → t.escaped = false →
          t.span.start = (String.ofList before).utf8ByteSize ∧ t.IsWordOf source) ∧
    ∀ (ops : List Operation) (slot : Slot),
      let t := ((Scanner.ofSource settings (ByteCursor.ofString source)).run ops).token slot
      t.kind.isWord = true → t.escaped = false → t.IsWordOf source := by
  refine ⟨fun before after c lineBreak findings hs hc => ?_, fun ops slot => ?_⟩
  · rw [scanToken_of_step_eq_lexeme (step_of_isIdentifierStart _ _ _ rfl hc), position_between]
    intro t hk he
    refine ⟨ByteCursor.extent_eq_utf8ByteSize before, ?_⟩
    rw [← String.ofList_toList (s := source), hs]
    exact isWordOf_word hc rfl hk he lineBreak
  · intro t hk he
    have hg := (Scanner.Grounded.ofSource (σ := ByteCursor) settings source.toList).run ops
    rw [← ByteCursor.ofString_eq_fresh] at hg
    -- the slot holds a token, which was read from the text by one of the rules
    have hne : t.kind ≠ .uninitialized := by
      intro h
      rw [h] at hk
      cases hk
    have hr : t.ReadFrom ByteCursor settings source.toList := hg.readFrom slot hne
    generalize t = t at *
    cases hr with
    | before => cases hk
    | template placed start lineBreak =>
      have hn : (templatePiece start _).kind.isWord = true := hk
      rw [isWord_templatePiece] at hn
      cases hn
    | rule split read =>
      -- that rule is the one for words
      obtain ⟨c, hr, hc, rfl⟩ := exists_word_of_step read hk
      obtain ⟨after, rfl⟩ := List.head?_eq_some_iff.1 hr
      rw [← String.ofList_toList (s := source), split]
      refine isWordOf_word hc rfl (fun hi => ?_) he _
      rw [Lexeme.toToken, hi] at hk
      cases hk

/-- A keyword before a space, scanned from the start of a text and held as the next
token. -/
theorem isWordOf_of_source_space :
    let scanned := (scanToken {} true {}
      (between [] ['i', 'f', ' ', 'x'] : Reader ByteCursor)).token
    let held := ((Scanner.ofSource {} (ByteCursor.ofString "if x")).run [.start]).token .next
    ("if x".toList = [] ++ 'i' :: ['f', ' ', 'x'] ∧ isIdentifierStart 'i' = true ∧
        scanned.kind ≠ .illegal ∧ scanned.escaped = false ∧
        scanned.span.start = 0 ∧ scanned.IsWordOf "if x") ∧
      held.kind.isWord = true ∧ held.escaped = false ∧ held.IsWordOf "if x" := by
  intro scanned held
  obtain ⟨hscan, hheld⟩ := isWordOf_of_source {} "if x"
  refine ⟨?_, ?_⟩
  · have hk : scanned.kind ≠ .illegal := by decide +kernel
    have he : scanned.escaped = false := by decide +kernel
    obtain ⟨hs, hw⟩ := hscan [] ['f', ' ', 'x'] 'i' true {} (by decide) (by decide) hk he
    exact ⟨by decide, by decide, hk, he, hs, hw⟩
  · have hk : held.kind.isWord = true := by decide +kernel
    have he : held.escaped = false := by decide +kernel
    exact ⟨hk, he, hheld [.start] .next hk he⟩

/-- A keyword before a no-break space is taken for an identifier. -/
example : ((Scanner.ofSource {} (ByteCursor.ofString "if\u00a0x")).run [.start]).next.kind =
    .identifier := by
  decide +kernel

end EcmaLex
