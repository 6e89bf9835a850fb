import EcmaLex.Proofs.Source.ByteCursor
import EcmaLex.Proofs.Word.Tokens

/-!
# Words with escapes

What is kept of a word is its text with the characters in place of their escapes, and from that
text its kind is told.  The flags that may rule a keyword out do not get in the way, since a
character that occurs in no keyword is still in the text when it is compared.

## Main definitions

* `TokenKind.ofEscapedWord` — the kind of a word with escapes.
* `Token.Decodes` — the token tells what word a text begins with.

## Main results

* `Word.outcome_word` — **how words are read**.
* `decodes_of_isIdentifierStart` — **words decode exactly**, and their kind is that of the
  decoded text.
-/

namespace EcmaLex

open Reader

/-! ### Kinds -/

/-- The kind of a word with escapes and the given text. -/
def TokenKind.ofEscapedWord (text : String) : TokenKind :=
  match Keyword.ofText text with
  | none => .identifier
  | some k =>
    if k.isContextual then .keyword k
    else if k.isStrictReserved then .escapedStrictReservedWord
    else .escapedKeyword

namespace Word

/-- A text is compared with the keywords, unless it is none of them anyway. -/
theorem kind_escaped {canBeKeyword : Bool} {text : String}
    (h : canBeKeyword = false → Keyword.ofText text = none) :
    kind canBeKeyword true text = .ofEscapedWord text := by
  unfold kind TokenKind.ofEscapedWord
  cases canBeKeyword with
  | true =>
    rw [if_pos rfl]
    rfl
  | false => rw [h rfl, if_neg Bool.false_ne_true]

/-! ### Reading words -/

variable {σ : Type} [ExactSource σ] {before r u d : List Char} {e : Bool} {c : Char}

/-- How a word is read whose text is to begin with a given mark: to its end, with a kind of
which something is said, or to an escape that may not stand where it is. -/
def Outcome (mark before r : List Char) (IsKind : List Char → Bool → TokenKind → Prop)
    (l : Lexeme σ) : Prop :=
  (∃ u d e v k, r = u ++ v ∧ Spells u d e ∧ Ends v ∧ IsKind d e k ∧
      l = ⟨.ok k, { cooked := .ofList (mark ++ d), escaped := e }, between (before ++ u) v⟩) ∨
    Malformed r ∧ ∃ d, l.verdict = .error d ∧ d.cause = .invalidUnicodeEscape

/-- What is said of the kind of a word: without a mark, its text decides if it has escapes. -/
def IsEscapedKind (mark d : List Char) (e : Bool) (k : TokenKind) : Prop :=
  mark = [] → e = true → k = .ofEscapedWord (.ofList d)

variable {mark a : List Char}

/-- The outcome of a word that is read on with care.  What has been read of it may rule a
keyword out only if the whole word is none. -/
theorem outcome_finish {canBeKeyword : Bool} (h : Spells u d e)
    (hkey : canBeKeyword = false → ∀ u' d' e' v', a = u' ++ v' → Continues u' d' e' →
      (e || e') = true → Keyword.ofText (.ofList (d ++ d')) = none) :
    Outcome mark before (u ++ a) (IsEscapedKind mark)
      (finish ⟨canBeKeyword, e, .ofList (mark ++ d), between (before ++ u) a⟩ : Lexeme σ) := by
  have hrun := carefulRun_between (σ := σ)
    ⟨canBeKeyword, e, .ofList (mark ++ d), between (before ++ u) a⟩ _ _ rfl
  unfold finish
  generalize carefulRun (⟨canBeKeyword, e, .ofList (mark ++ d), between (before ++ u) a⟩ :
    Progress σ) = run at *
  obtain ⟨p, error?⟩ := run
  obtain ⟨u', d', e', v', rfl, hu', ⟨hv', heq⟩ | ⟨hbad, dg, hdg, hcause⟩⟩ := hrun
  · cases heq
    rw [← String.ofList_append, List.append_assoc, List.append_assoc]
    refine .inl ⟨u ++ u', d ++ d', e || e', v', _, (List.append_assoc _ _ _).symm, h.append hu',
      hv', ?_, rfl⟩
    rintro rfl he
    rw [he]
    refine kind_escaped fun hk => ?_
    rcases Bool.and_eq_false_iff.1 hk with hk | hk
    · exact hkey hk u' d' e' v' rfl hu' he
    · -- a character that occurs in no keyword is in the text
      obtain ⟨c, hc, hk⟩ := List.all_eq_false.1 hk
      exact TokenKind.ofWord_eq_identifier_iff.1
        (TokenKind.ofWord_of_mem (List.mem_append_right d hc) (by simpa using hk))
  · obtain rfl : error? = some dg := hdg
    exact .inr ⟨.inr ⟨_, _, _, v', (List.append_assoc _ _ _).symm, h.append hu', hbad⟩, dg, rfl,
      hcause⟩

theorem outcome_word_of_isAscii (before after : List Char) (hc : isIdentifierStart c = true)
    (ha : isAscii c = true) (hs : c ≠ '\\') :
    Outcome mark before (c :: after) (IsEscapedKind mark)
      (word (.ofList mark) c (between before (c :: after) : Reader σ)) := by
  obtain ⟨run, rest, rfl, hrun, hend⟩ := exists_run after
  have hword := word_append (σ := σ) (.ofList mark) before ha hs hrun hend
  dsimp only at hword
  have hspells : Spells (c :: run) (c :: run) false :=
    .mk (.plain ⟨hs, hc⟩) (continues_of_isAsciiIdentifier hrun)
  rw [hword, ← String.ofList_append]
  split
  · refine outcome_finish hspells ?_
    intro hkey u d e v hrest hu he
    rw [← TokenKind.ofWord_eq_identifier_iff]
    rcases Bool.and_eq_false_iff.1 hkey with hkey | hkey
    · exact TokenKind.ofWord_of_flags d hkey
    · -- the word goes on after the run, with a character that is not ASCII
      obtain ⟨x, hx, hkey⟩ := (Option.all_eq_false _ _).1 hkey
      rw [hrest] at hx
      have hmem := hu.mem_of_not_isAscii he hkey hx
      exact TokenKind.ofWord_of_mem (List.mem_append_right _ hmem)
        (isInKeyword_of_not_isAscii hkey)
  · next hany =>
    have hends : Ends rest := fun d hd => (ends_of_not_special hend hany hd).2
    refine .inl ⟨c :: run, c :: run, false, rest, _, rfl, hspells, hends, ?_, rfl⟩
    intro _ he
    cases he

/-- **How words are read.** -/
theorem outcome_word (mark before after : List Char) (hc : isIdentifierStart c = true) :
    Outcome mark before (c :: after) (IsEscapedKind mark)
      (word (.ofList mark) c (between before (c :: after) : Reader σ)) := by
  have hpush : ∀ c, (String.ofList mark).push c = .ofList (mark ++ [c]) := by simp
  by_cases hs : c = '\\'
  · subst hs
    have hread := allowedEscape_between (σ := σ) isIdentifierStart before after
    rw [word, if_pos (beq_self_eq_true _)]
    rcases hread with ⟨w, d, rest, ⟨hsplit, hw, hd⟩, heq⟩ | ⟨hnone, hbad⟩
    · rw [heq, hsplit]
      have hspells : Spells w [d] true := by
        simpa using Spells.mk (.escape hw hd) .nil
      dsimp only
      rw [hpush]
      refine outcome_finish hspells ?_
      intro hkey u d' e v hrest hu he
      exact TokenKind.ofWord_eq_identifier_iff.1
        (TokenKind.ofWord_of_mem List.mem_cons_self hkey)
    · generalize allowedEscape isIdentifierStart (between before ('\\' :: after) : Reader σ) = read
        at *
      obtain ⟨c?, r⟩ := read
      obtain rfl : c? = none := hnone
      exact .inr ⟨.inl hbad, _, rfl, rfl⟩
  · by_cases ha : isAscii c = true
    · exact outcome_word_of_isAscii before after hc ha hs
    · have ha : isAscii c = false := by simpa using ha
      rw [word, if_neg (by simpa using hs), if_neg (by simp [ha]), advance_between_cons]
      have hspells : Spells [c] [c] false := .mk (.plain ⟨hs, hc⟩) .nil
      rw [hpush]
      refine outcome_finish hspells ?_
      intro hkey u d' e v hrest hu he
      exact TokenKind.ofWord_eq_identifier_iff.1
        (TokenKind.ofWord_of_mem List.mem_cons_self (isInKeyword_of_not_isAscii ha))

variable {IsKind IsKind' : List Char → Bool → TokenKind → Prop} {l : Lexeme σ}

theorem Outcome.imp (h : Outcome mark before r IsKind l)
    (hk : ∀ d e k, IsKind d e k → IsKind' d e k) : Outcome mark before r IsKind' l := by
  rcases h with ⟨u, d, e, v, k, hs, hu, hv, hkind, hl⟩ | h
  · exact .inl ⟨u, d, e, v, k, hs, hu, hv, hk d e k hkind, hl⟩
  · exact .inr h

/-- What is said of the kinds of words is said of other kinds in their place. -/
theorem Outcome.map (h : Outcome mark before r IsKind l) (f : TokenKind → TokenKind)
    (hf : ∀ d e k, IsKind d e k → IsKind' d e (f k)) :
    Outcome mark before r IsKind' { l with verdict := l.verdict.map f } := by
  rcases h with ⟨u, d, e, v, k, hs, hu, hv, hk, rfl⟩ | ⟨hbad, dg, hdg, hcause⟩
  · exact .inl ⟨u, d, e, v, f k, hs, hu, hv, hf d e k hk, rfl⟩
  · refine .inr ⟨hbad, dg, ?_, hcause⟩
    rw [hdg]
    rfl

end Word

/-! ### Words of a text -/

open Word

/-- The token tells what the word is with which a text begins.  The mark is the part of the
token before that text. -/
structure Token.Decodes (σ : Type) [ExactSource σ] (t : Token) (before mark r : List Char)
    (IsKind : List Char → Bool → TokenKind → Prop) : Prop where
  /-- The token is an error if some escape may not stand where it is, and only then. -/
  illegal_iff :
    t.kind = .illegal ∧ t.error?.map Diagnostic.cause = some .invalidUnicodeEscape ↔ Malformed r
  /-- Otherwise it is the whole word, decoded. -/
  decoded : ¬ Malformed r → ∃ u d e v, r = u ++ v ∧ Spells u d e ∧ Ends v ∧
    t.error? = none ∧ t.span = ⟨extent σ before, extent σ (before ++ mark ++ u)⟩ ∧
    t.cooked = .ofList (mark ++ d) ∧ t.escaped = e ∧ IsKind d e t.kind

variable {σ : Type} [ExactSource σ]

theorem Word.Outcome.decodes {before mark r : List Char}
    {IsKind : List Char → Bool → TokenKind → Prop} {l : Lexeme σ}
    (h : Word.Outcome mark (before ++ mark) r IsKind l) (lineBreak : Bool) :
    (l.toToken (extent σ before) lineBreak).Decodes σ before mark r IsKind := by
  rcases h with ⟨u, d, e, v, k, rfl, hu, hv, hk, rfl⟩ | ⟨hbad, dg, hdg, hcause⟩
  · have hgood := hu.not_malformed hv
    refine ⟨⟨fun h => (by cases h.2), fun h => absurd h hgood⟩, fun _ => ?_⟩
    exact ⟨u, d, e, v, rfl, hu, hv, rfl, congrArg (Span.mk _) (position_between _ _), rfl, rfl, hk⟩
  · have hill : (l.toToken (extent σ before) lineBreak).kind = .illegal := by
      simp [Lexeme.toToken, Lexeme.kind, hdg]
    have herr : (l.toToken (extent σ before) lineBreak).error? = some dg := by
      simp [Lexeme.toToken, Lexeme.error?, hdg]
    refine ⟨⟨fun _ => hbad, fun _ => ⟨hill, ?_⟩⟩, fun h => absurd hbad h⟩
    rw [herr, Option.map_some, hcause]

/-- At a number sign a private name is read. -/
theorem step_of_numberSign (settings : Settings) (lineBreak : Bool) (findings : Findings)
    {r : Reader σ} (hr : r.char? = some '#') :
    step settings lineBreak findings r = .lexeme lineBreak findings (privateName r) := by
  rw [step, hr]
  rfl

/-- A private name is a word with a mark before it. -/
theorem outcome_privateName {c : Char} (hc : isIdentifierStart c = true)
    (before after : List Char) :
    Word.Outcome ['#'] (before ++ ['#']) (c :: after) (fun _ _ k => k = .privateName)
      (privateName (between before ('#' :: c :: after) : Reader σ)) := by
  have hpeek : (between before ('#' :: c :: after) : Reader σ).peek.filter isIdentifierStart =
      some c := by simp [hc]
  rw [privateName, hpeek]
  dsimp only
  rw [advance_between_cons]
  exact (outcome_word ['#'] _ after hc).map _ fun _ _ _ _ => rfl

/-- **Words decode exactly.**  A scan from a character that starts identifiers, or from a
number sign before one, gives an error if some backslash of the word begins no escape of a
character that may stand there, and only then.  Otherwise the token is the whole word, and its
text has the characters in place of their escapes.  If there are any, the kind of a word is told
from that text. -/
theorem decodes_of_isIdentifierStart (settings : Settings) (lineBreak : Bool)
    (findings : Findings) (before after : List Char) {c : Char}
    (hc : isIdentifierStart c = true) :
    (scanToken settings lineBreak findings (between before (c :: after) : Reader σ)).token.Decodes σ
        before [] (c :: after) (fun d e k => e = true → k = .ofEscapedWord (.ofList d)) ∧
      (scanToken settings lineBreak findings
        (between before ('#' :: c :: after) : Reader σ)).token.Decodes σ
          before ['#'] (c :: after) (fun _ _ k => k = .privateName) := by
  constructor
  · rw [scanToken_of_step_eq_lexeme (step_of_isIdentifierStart settings lineBreak findings rfl hc),
      position_between]
    have h : Word.Outcome [] (before ++ []) (c :: after) (IsEscapedKind [])
        (word "" c (between before (c :: after) : Reader σ)) := by
      rw [List.append_nil]
      exact outcome_word [] before after hc
    exact (h.imp fun d e k hk => hk rfl).decodes lineBreak
  · rw [scanToken_of_step_eq_lexeme (step_of_numberSign settings lineBreak findings rfl),
      position_between]
    exact (outcome_privateName hc before after).decodes lineBreak

/-- An escaped keyword, and an escape that may not stand at the start of a private name. -/
theorem decodes_of_isIdentifierStart_escaped :
    let scan text := (scanToken {} false {} (between ['é'] text : Reader ByteCursor)).token
    let word := ['i', '\\', 'u', '0', '0', '6', '6', ' ']
    let name := ['\\', 'u', '\x7b', '3', '1', '\x7d']
    (isIdentifierStart 'i' = true ∧ (scan word).kind = .escapedKeyword ∧
        (scan word).cooked = "if" ∧ (scan word).span = ⟨2, 9⟩ ∧
        (scan word).Decodes ByteCursor ['é'] [] word
          fun d e k => e = true → k = .ofEscapedWord (.ofList d)) ∧
      isIdentifierStart '\\' = true ∧ (scan ('#' :: name)).kind = .illegal ∧
        (scan ('#' :: name)).Decodes ByteCursor ['é'] ['#'] name fun _ _ k => k = .privateName := by
  intro scan word name
  refine ⟨⟨by decide, ?_, ?_, ?_, ?_⟩, by decide, ?_, ?_⟩
  · decide +kernel
  · decide +kernel
  · decide +kernel
  · exact (decodes_of_isIdentifierStart {} false {} ['é'] word.tail (by decide)).1
  · decide +kernel
  · exact (decodes_of_isIdentifierStart {} false {} ['é'] name.tail (by decide)).2

end EcmaLex
