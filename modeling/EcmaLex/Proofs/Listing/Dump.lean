import EcmaLex.Listing.Dump
import EcmaLex.Proofs.Listing.ErrorPlaces
import EcmaLex.Proofs.Numeral.Value
import EcmaLex.Proofs.Text.Quoted

/-!
# Reading token dumps

The lines of a dump have no line feeds in them, whatever the tokens hold, so that it falls apart
into its lines again.  From the line of a token its kind, its span and its cooked text can be
read: names and spans have no spaces, and after them the next character tells what follows.  The
value of a small integer stands in place of its cooked text, which is the numeral of the value.

So two listings with the same dump have the same tokens, as far as dumps show them.

## Main definitions

* `Token.IsCanonical` — the cooked text is the numeral of the value.
* `Listing.shown` — what a dump shows of a token.
* `Listing.readLine` — what the line of a token tells.

## Main results

* `Listing.readLine_tokenLine` — the line of a token tells what is shown of it.
* `Listing.splitOn_dump` — the lines of a dump.
* `Listing.dump_unambiguous` — **listings with the same dump have the same tokens**.
-/

namespace EcmaLex

/-! ### Names -/

theorem TokenKind.name_injective : Function.Injective TokenKind.name := by
  have hnodup : (all.map name).Nodup := by decide +kernel
  intro k k' h
  exact List.inj_on_of_nodup_map hnodup (mem_all k) (mem_all k') h

/-- The name of a kind is a single word. -/
theorem TokenKind.notMem_name {c : Char} (k : TokenKind) (hc : c ∈ [' ', '\n']) :
    c ∉ k.name.toList := by
  have hall : (all.all fun k => [' ', '\n'].all fun c => !k.name.toList.contains c) = true := by
    decide +kernel
  have hk := List.all_eq_true.1 (List.all_eq_true.1 hall k (mem_all k)) c hc
  simpa using hk

/-! ### Spans -/

theorem toDigits_injective : Function.Injective (Nat.toDigits 10) :=
  Function.LeftInverse.injective (g := fun ds => Nat.ofDigitChars 10 ds 0) fun _ =>
    Nat.ofDigitChars_toDigits (by decide) (by decide)

/-- The decimal numeral of a number is made of digits. -/
theorem isDigit_of_mem_toDigits {n : Nat} : ∀ c ∈ Nat.toDigits 10 n, c.isDigit = true :=
  fun _ => Nat.isDigit_of_mem_toDigits (by decide) (by decide)

theorem notMem_toDigits {c : Char} (hc : c.isDigit = false) (n : Nat) : c ∉ Nat.toDigits 10 n := by
  intro h
  rw [isDigit_of_mem_toDigits c h] at hc
  cases hc

namespace Span

variable {s s' : Span}

theorem toList_render (h : s ≠ unlocated) :
    s.render.toList = Nat.toDigits 10 s.start ++ '.' :: '.' :: Nat.toDigits 10 s.stop := by
  rw [render, if_neg h]
  simp [toString]

/-- The start of a span is read up to the first point. -/
theorem span_render (h : s ≠ unlocated) :
    s.render.toList.span Char.isDigit =
      (Nat.toDigits 10 s.start, '.' :: '.' :: Nat.toDigits 10 s.stop) := by
  rw [toList_render h]
  refine span_append isDigit_of_mem_toDigits ?_
  rintro _ ⟨⟩
  rfl

/-- The mark for no place is no span: it does not begin with a number. -/
theorem render_ne_unlocated (h : s ≠ unlocated) : s.render ≠ unlocated.render := by
  intro he
  have hmark : unlocated.render.toList.span Char.isDigit = ([], "<invalid>".toList) := by
    decide +kernel
  have hspan := span_render h
  rw [he, hmark] at hspan
  exact Nat.toDigits_ne_nil (Prod.mk.inj hspan).1.symm

theorem render_injective : Function.Injective render := by
  intro s s' he
  by_cases h : s = unlocated
  · by_contra hne
    rw [h] at he hne
    exact render_ne_unlocated (Ne.symm hne) he.symm
  · by_cases h' : s' = unlocated
    · rw [h'] at he
      exact absurd he (render_ne_unlocated h)
    · have hspan := span_render h
      rw [he, span_render h'] at hspan
      obtain ⟨hstart, hstop⟩ := Prod.mk.inj hspan
      have hstart : s'.start = s.start := toDigits_injective hstart
      have hstop : s'.stop = s.stop := toDigits_injective (List.cons.inj (List.cons.inj hstop).2).2
      cases s
      cases s'
      cases hstart
      cases hstop
      rfl

/-- The text of a span is a single word. -/
theorem notMem_render {c : Char} (s : Span) (hc : c ∈ [' ', '\n']) : c ∉ s.render.toList := by
  have hmark : ∀ c ∈ [' ', '\n'], c.isDigit = false ∧ c ≠ '.' ∧ c ∉ unlocated.render.toList :=
    forall_mem_of_all (by decide +kernel)
  obtain ⟨hdigit, hpoint, hinvalid⟩ := hmark c hc
  by_cases h : s = unlocated
  · rwa [h]
  · rw [toList_render h]
    simp [hpoint, notMem_toDigits hdigit]

end Span

/-- If the token has the value of a small integer, its cooked text is the numeral of the value. -/
def Token.IsCanonical (t : Token) : Prop := ∀ n, t.smallInt? = some n → t.cooked = Nat.repr n

namespace Listing

/-! ### The line of a token -/

/-- What a dump shows of a token. -/
def shown (t : Token) : TokenKind × Span × String := (t.kind, t.span, t.cooked)

/-- The texts of what is shown. -/
def spell (x : TokenKind × Span × String) : List Char × List Char × List Char :=
  (x.1.name.toList, x.2.1.render.toList, x.2.2.toList)

theorem spell_injective : Function.Injective spell := by
  rintro ⟨kind, span, cooked⟩ ⟨kind', span', cooked'⟩ h
  simp only [spell, Prod.mk.injEq, String.toList_inj] at h
  obtain ⟨hkind, hspan, rfl⟩ := h
  rw [TokenKind.name_injective hkind, Span.render_injective hspan]

/-- The cooked text that the last part of a line tells: a small integer, a quoted text, or
nothing. -/
def readCooked : List Char → List Char
  | ' ' :: ' ' :: '=' :: ' ' :: r => (r.span Char.isDigit).1
  | ' ' :: ' ' :: '"' :: r => (Quoted.decode r).1
  | _ => []

/-- What the line of a token tells: the name of its kind, the text of its span, and its cooked
text. -/
def readLine (line : List Char) : List Char × List Char × List Char :=
  let (name, r) := (line.drop 2).span (· != ' ')
  let (place, r) := (r.drop 3).span (· != ' ')
  (name, place, readCooked r)

variable {showRaw : Bool} {t : Token}

/-- What a line says about the raw text, if anything. -/
theorem toList_rawPart (showRaw : Bool) (t : Token) :
    (rawPart showRaw t).toList = [] ∨
      (rawPart showRaw t).toList = "  raw ".toList ++ (Quoted.encode t.raw).toList := by
  unfold rawPart
  split
  · exact .inr (String.toList_append ..)
  · exact .inl rfl

/-- What a line says about the cooked text, if anything. -/
theorem toList_cookedPart (t : Token) :
    (∃ n, t.smallInt? = some n ∧
        (cookedPart t).toList = ' ' :: ' ' :: '=' :: ' ' :: Nat.toDigits 10 n) ∨
      (t.cooked = "" ∧ (cookedPart t).toList = []) ∨
      (cookedPart t).toList = ' ' :: ' ' :: (Quoted.encode t.cooked).toList := by
  unfold cookedPart
  cases t.smallInt? with
  | some n => exact .inl ⟨n, rfl, by simp [toString]⟩
  | none =>
    dsimp only
    split
    · next h => exact .inr (.inl ⟨String.isEmpty_iff.1 h, rfl⟩)
    · exact .inr (.inr (String.toList_append ..))

theorem head?_rawPart {c : Char} (hc : (rawPart showRaw t).toList.head? = some c) : c = ' ' := by
  rcases toList_rawPart showRaw t with h | h
  · rw [h] at hc
    cases hc
  · rw [h] at hc
    exact (Option.some.inj hc).symm

/-- The last part of a line is set off by a space. -/
theorem head?_parts {c : Char}
    (hc : ((cookedPart t).toList ++ (rawPart showRaw t).toList).head? = some c) : c = ' ' := by
  rcases toList_cookedPart t with ⟨n, -, h⟩ | ⟨-, h⟩ | h
  · rw [h] at hc
    exact (Option.some.inj hc).symm
  · rw [h, List.nil_append] at hc
    exact head?_rawPart hc
  · rw [h] at hc
    exact (Option.some.inj hc).symm

/-- The raw text is not taken for the cooked one. -/
theorem readCooked_rawPart (showRaw : Bool) (t : Token) :
    readCooked (rawPart showRaw t).toList = [] := by
  rcases toList_rawPart showRaw t with h | h
  · rw [h]
    rfl
  · rw [h]
    rfl

theorem readCooked_parts (ht : t.IsCanonical) :
    readCooked ((cookedPart t).toList ++ (rawPart showRaw t).toList) = t.cooked.toList := by
  rcases toList_cookedPart t with ⟨n, hn, hc⟩ | ⟨hempty, hc⟩ | hc
  · -- the numeral ends with the line, or before a space
    rw [hc, ht n hn, Nat.toList_repr]
    show ((Nat.toDigits 10 n ++ _).span Char.isDigit).1 = _
    rw [span_append isDigit_of_mem_toDigits fun c h => by rw [head?_rawPart h]; rfl]
  · rw [hc, hempty, List.nil_append, readCooked_rawPart]
    rfl
  · obtain ⟨x, hx, hdecode⟩ := Quoted.decode_encode t.cooked (rawPart showRaw t).toList
    rw [hc, List.cons_append, List.cons_append, hx]
    show (Quoted.decode x).1 = _
    rw [hdecode]

/-- **The line of a token tells what is shown of it.** -/
theorem readLine_tokenLine (ht : t.IsCanonical) :
    readLine (tokenLine showRaw t).toList = spell (shown t) := by
  have hline : (tokenLine showRaw t).toList = ' ' :: ' ' :: (t.kind.name.toList ++
      ' ' :: '@' :: ' ' :: (t.span.render.toList ++
        ((cookedPart t).toList ++ (rawPart showRaw t).toList))) := by
    simp [tokenLine]
  have hword : ∀ {w : List Char}, ' ' ∉ w → ∀ c ∈ w, (c != ' ') = true := by
    intro w hw c hc
    exact bne_iff_ne.2 fun h => hw (h ▸ hc)
  unfold readLine
  rw [hline, List.drop_succ_cons, List.drop_succ_cons, List.drop_zero,
    span_append (hword (t.kind.notMem_name List.mem_cons_self)) (by rintro _ ⟨⟩; rfl)]
  dsimp only
  rw [List.drop_succ_cons, List.drop_succ_cons, List.drop_succ_cons, List.drop_zero,
    span_append (hword (t.span.notMem_render List.mem_cons_self))
      fun c hc => by rw [head?_parts hc]; rfl]
  dsimp only
  rw [readCooked_parts ht]
  rfl

/-- What the lines of tokens tell is spelled out by what is shown of these. -/
theorem map_readLine {ts : List Token} (hts : ∀ t ∈ ts, t.IsCanonical) :
    (ts.map (tokenLine showRaw)).map (fun line => readLine line.toList) =
      (ts.map shown).map spell := by
  rw [List.map_map, List.map_map]
  exact List.map_congr_left fun t ht => readLine_tokenLine (hts t ht)

/-- Tokens with the same lines are the same, as far as is shown. -/
theorem shown_of_tokenLine {ts ts' : List Token} (hts : ∀ t ∈ ts, t.IsCanonical)
    (hts' : ∀ t ∈ ts', t.IsCanonical)
    (h : ts.map (tokenLine showRaw) = ts'.map (tokenLine showRaw)) :
    ts.map shown = ts'.map shown := by
  refine List.map_injective_iff.2 spell_injective ?_
  rw [← map_readLine hts, h, map_readLine hts']

/-- The tokens of a listing are canonical. -/
theorem isCanonical_of_mem {settings : Settings} {source : String}
    (ht : t ∈ (tokenize settings source).tokens) : t.IsCanonical := by
  obtain ⟨k, rfl⟩ := exists_stream_of_mem ht
  rw [Scanner.stream_eq_token, ByteCursor.ofString_eq_fresh]
  exact Scanner.cooked_eq_repr settings _ _

/-! ### The lines of a dump -/

section Lines

variable {path : String} (hpath : '\n' ∉ path.toList)

theorem toList_header (path : String) (count : Nat) :
    (header path count).toList =
      "Tokens for '".toList ++ path.toList ++ "' (".toList ++ Nat.toDigits 10 count ++
        " tokens):".toList := by
  have hheader : header path count =
      "Tokens for '" ++ path ++ "' (" ++ Nat.repr count ++ " tokens):" := rfl
  rw [hheader, String.toList_append, String.toList_append, String.toList_append,
    String.toList_append, Nat.toList_repr]

/-- The header tells the number of tokens. -/
theorem header_injective (path : String) : Function.Injective (header path) := by
  intro count count' h
  have hlist := congrArg String.toList h
  rw [toList_header, toList_header] at hlist
  exact toDigits_injective (List.append_cancel_left (List.append_cancel_right hlist))

theorem notMem_cookedPart (t : Token) : '\n' ∉ (cookedPart t).toList := by
  rcases toList_cookedPart t with ⟨n, -, h⟩ | ⟨-, h⟩ | h
  · rw [h]
    simp [notMem_toDigits]
  · rw [h]
    exact List.not_mem_nil
  · rw [h]
    simp [Quoted.notMem_encode]

theorem notMem_rawPart (showRaw : Bool) (t : Token) : '\n' ∉ (rawPart showRaw t).toList := by
  rcases toList_rawPart showRaw t with h | h
  · rw [h]
    exact List.not_mem_nil
  · rw [h]
    simp [Quoted.notMem_encode]

/-- Whatever a token holds, its line has no line feed. -/
theorem notMem_tokenLine (showRaw : Bool) (t : Token) : '\n' ∉ (tokenLine showRaw t).toList := by
  have hname := t.kind.notMem_name (c := '\n') (by decide)
  have hspan := t.span.notMem_render (c := '\n') (by decide)
  simp [tokenLine, hname, hspan, notMem_cookedPart, notMem_rawPart]

/-- Lines that are ended by line feeds fall apart at these. -/
theorem splitOn_join {lines : List String} (h : ∀ line ∈ lines, '\n' ∉ line.toList) :
    (String.join (lines.map (· ++ "\n"))).toList.splitOn '\n' =
      lines.map String.toList ++ [[]] := by
  rw [String.toList_join]
  induction lines with
  | nil => rfl
  | cons line lines ih =>
    have hsplit : ((line :: lines).map (· ++ "\n")).flatMap String.toList =
        line.toList ++ '\n' :: (lines.map (· ++ "\n")).flatMap String.toList := by
      simp
    rw [hsplit, List.splitOn_append_cons_self_of_not_mem (h line List.mem_cons_self),
      ih fun line' hl => h line' (List.mem_cons_of_mem line hl)]
    rfl

include hpath

theorem notMem_dumpLines (showRaw : Bool) (l : Listing) :
    ∀ line ∈ dumpLines path showRaw l, '\n' ∉ line.toList := by
  intro line hline
  simp only [dumpLines, List.mem_cons, List.mem_append, List.mem_map, List.cons_append] at hline
  rcases hline with rfl | ⟨t, -, rfl⟩ | hline
  · rw [toList_header]
    simp [hpath, notMem_toDigits]
  · exact notMem_tokenLine showRaw t
  · split at hline
    · rw [List.mem_singleton.1 hline]
      decide
    · cases hline

/-- **The lines of a dump**: behind the last line feed there is nothing. -/
theorem splitOn_dump (showRaw : Bool) (l : Listing) :
    (l.dump path showRaw).toList.splitOn '\n' =
      (dumpLines path showRaw l).map String.toList ++ [[]] :=
  splitOn_join (notMem_dumpLines hpath showRaw l)

/-- Dumps with the same text have the same lines. -/
theorem dumpLines_eq {l l' : Listing} (h : l.dump path showRaw = l'.dump path showRaw) :
    dumpLines path showRaw l = dumpLines path showRaw l' := by
  have hsplit := splitOn_dump hpath showRaw l
  rw [h, splitOn_dump hpath showRaw l'] at hsplit
  exact List.map_injective_iff.2 (fun _ _ => String.toList_inj.1)
    (List.append_cancel_right hsplit).symm

end Lines

/-- Listings with the same lines have as many tokens, the same lines for them, and both an
HTML-like comment or neither. -/
theorem eq_of_dumpLines {path : String} {l l' : Listing}
    (h : dumpLines path showRaw l = dumpLines path showRaw l') :
    l.tokens.size = l'.tokens.size ∧
      l.tokens.toList.map (tokenLine showRaw) = l'.tokens.toList.map (tokenLine showRaw) ∧
      l.htmlComment = l'.htmlComment := by
  unfold dumpLines at h
  obtain ⟨hheader, hrest⟩ := List.cons.inj h
  have hsize := header_injective path hheader
  have hlen : (l.tokens.toList.map (tokenLine showRaw)).length =
      (l'.tokens.toList.map (tokenLine showRaw)).length := by
    simp [hsize]
  obtain ⟨htokens, hhtml⟩ := List.append_inj hrest hlen
  refine ⟨hsize, htokens, ?_⟩
  cases hl : l.htmlComment <;> cases hl' : l'.htmlComment <;> simp [hl, hl'] at hhtml ⊢

/-- **Listings with the same dump have the same tokens.**  A dump consists of its header, a line
for each token in their order, and the line about HTML-like comments if there is one, each ended
by a line feed.  If the dumps of two texts are the same, so are the numbers of tokens, the kind,
the span and the cooked text of each token, and whether there is an HTML-like comment. -/
theorem dump_unambiguous (settings : Settings) (path : String) (showRaw : Bool)
    (source source' : String) (hpath : '\n' ∉ path.toList) :
    let l := tokenize settings source
    let l' := tokenize settings source'
    (l.dump path showRaw).toList.splitOn '\n' =
        ((header path l.tokens.size :: l.tokens.toList.map (tokenLine showRaw)) ++
          if l.htmlComment then [htmlLine] else []).map String.toList ++ [[]] ∧
      (l.dump path showRaw = l'.dump path showRaw →
        l.tokens.size = l'.tokens.size ∧
          l.tokens.toList.map shown = l'.tokens.toList.map shown ∧
          l.htmlComment = l'.htmlComment) := by
  intro l l'
  refine ⟨splitOn_dump hpath showRaw l, fun h => ?_⟩
  obtain ⟨hsize, hlines, hhtml⟩ := eq_of_dumpLines (dumpLines_eq hpath h)
  have hcanonical : ∀ source, ∀ t ∈ (tokenize settings source).tokens.toList, t.IsCanonical :=
    fun source t ht => isCanonical_of_mem (Array.mem_toList_iff.1 ht)
  exact ⟨hsize, shown_of_tokenLine (hcanonical source) (hcanonical source') hlines, hhtml⟩

/-- Texts that differ in their white space only. -/
theorem dump_unambiguous_blank :
    '\n' ∉ "a.js".toList ∧
      (tokenize {} "'\\n' 7 ").dump "a.js" true = (tokenize {} "'\\n'\t7 ").dump "a.js" true ∧
      (tokenize {} "'\\n' 7 ").tokens.toList.map shown =
        (tokenize {} "'\\n'\t7 ").tokens.toList.map shown := by
  have hpath : '\n' ∉ "a.js".toList := by decide
  have hdump : (tokenize {} "'\\n' 7 ").dump "a.js" true =
      (tokenize {} "'\\n'\t7 ").dump "a.js" true := by
    decide +kernel
  exact ⟨hpath, hdump, ((dump_unambiguous {} "a.js" true _ _ hpath).2 hdump).2.1⟩

end Listing

end EcmaLex
