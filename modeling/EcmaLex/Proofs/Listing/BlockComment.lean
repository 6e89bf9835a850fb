import EcmaLex.Proofs.Listing.Space
import EcmaLex.Proofs.Listing.Strict

/-!
# Block comments make no difference

A block comment in a line can be put into a text wherever a space can stand.  What comes behind it
is found further on, and that is all.  Where the space is in a comment on a line the block comment
is in it, too.  Anywhere else a scan passes both, and notes nothing of either.

## Main definitions

* `Gap.Silent` — a text in a line that every scan passes without noting anything.
* `Token.makeRoom` — a token in a text with room made in it.

## Main results

* `Gap.silent_blockComment` — **a block comment in a line is silent**.
* `Listing.ofSource_silent` — **silent text makes room**, and no other difference.
* `tokenize_blockComment` — **block comments make no difference**.
-/

namespace EcmaLex

open Reader

variable {σ : Type} [ExactSource σ] {settings : Settings} {lineBreak : Bool} {f : Findings}
  {a : List Char}

/-! ### Room between texts -/

/-- A text in a line that every scan passes, without noting anything. -/
structure Gap.Silent (σ : Type) [ExactSource σ] (settings : Settings) (room : List Char) :
    Prop where
  /-- There is no line terminator in it. -/
  line : ∀ c ∈ room, isLineTerminator c = false
  /-- A scan that begins before it is one that begins behind it. -/
  scan : ∀ lineBreak f before rest,
    scanToken settings lineBreak f (between before (room ++ rest) : Reader σ) =
      scanToken settings lineBreak f (between (before ++ room) rest)

namespace Gap

theorem silent_space (settings : Settings) : Silent σ settings [' '] where
  line c hc := by
    rw [List.mem_singleton.1 hc]
    rfl
  scan lineBreak f before rest := by
    have hspace := scanToken_of_isBlank (r := (between before (' ' :: rest) : Reader σ)) rfl rfl
      settings lineBreak f
    rw [show isLineTerminator ' ' = false from rfl, Bool.or_false, advance_between_cons] at hspace
    exact hspace

theorem Silent.append {room room' : List Char} (h : Silent σ settings room)
    (h' : Silent σ settings room') : Silent σ settings (room ++ room') where
  line c hc := (List.mem_append.1 hc).elim (h.line c) (h'.line c)
  scan lineBreak f before rest := by
    rw [List.append_assoc, h.scan, h'.scan, List.append_assoc]

/-- A text without a closing in it has none with an asterisk behind it, either. -/
theorem not_closing_infix_append {inside : List Char} (h : ¬ ['*', '/'] <:+: inside) :
    ¬ ['*', '/'] <:+: inside ++ ['*'] := by
  rw [List.infix_concat_iff, not_or]
  refine ⟨fun hsuffix => ?_, h⟩
  have hlast := hsuffix.getLast (by decide)
  rw [List.getLast_append_singleton] at hlast
  cases hlast

/-- **A block comment in a line is silent.** -/
theorem silent_blockComment {inside : List Char} (hclose : ¬ ['*', '/'] <:+: inside)
    (hline : ∀ c ∈ inside, isLineTerminator c = false) :
    Silent σ settings ('/' :: '*' :: (inside ++ ['*', '/'])) where
  line c hc := by
    simp only [List.mem_cons, List.mem_append, List.not_mem_nil, or_false] at hc
    rcases hc with rfl | rfl | hc | rfl | rfl
    · rfl
    · rfl
    · exact hline c hc
    · rfl
    · rfl
  scan lineBreak f before rest := by
    have hstep := step_blockComment (σ := σ) settings lineBreak f (not_closing_infix_append hclose)
      before rest
    have hnone : inside.any isLineTerminator = false :=
      List.any_eq_false.2 fun c hc => by simp [hline c hc]
    rw [hnone, Bool.or_false] at hstep
    have hscan := scanToken_of_step_eq_gap hstep
    simp only [List.cons_append, List.append_assoc, List.nil_append] at hscan ⊢
    exact hscan

end Gap

/-- Silent text at the beginning of the second text may as well be at the end of the first one. -/
theorem trail_behind_silent {room b : List Char} (h : Gap.Silent σ settings room) (inLine : Bool) :
    trail settings lineBreak f (behind inLine a (room ++ b) : Reader σ) =
      trail settings lineBreak f (behind inLine (a ++ room) b : Reader σ) := by
  cases inLine with
  | false => exact trail_congr (h.scan lineBreak f a b)
  | true =>
    have hroom : ∀ c ∈ room, (!isLineTerminator c) = true := fun c hc => by simp [h.line c hc]
    simp only [behind, if_true]
    rw [List.takeWhile_append_of_pos hroom, List.dropWhile_append_of_pos hroom, List.append_assoc]

/-- Behind a text the scan of another text finds what it would find without the first one, if it
begins at the same place of a line. -/
theorem exists_trail_behind (settings : Settings) (lineBreak inLine : Bool) (b : List Char) :
    ∃ (rest : Trail) (n : Nat), ∀ (text : List Char) (f : Findings), f.octal? = none →
      trail settings lineBreak f (behind inLine text b : Reader σ) =
        rest.shift (extent σ text + n) f.htmlComment := by
  have hbetween : ∃ skipped rest, ∀ text,
      (behind inLine text b : Reader σ) = between (text ++ skipped) rest := by
    cases inLine with
    | false => exact ⟨[], b, fun text => by rw [List.append_nil]; rfl⟩
    | true => exact ⟨_, _, fun text => rfl⟩
  obtain ⟨skipped, rest, hr⟩ := hbetween
  refine ⟨trail settings lineBreak {} (between [] rest : Reader σ), extent σ skipped, ?_⟩
  intro text f hf
  rw [hr text, ← extent_append]
  refine trail_behind ⟨[], rest, rfl, rfl, ?_⟩ ⟨rfl, ?_⟩
  · rw [List.append_nil, List.append_nil]
  · rw [hf]
    exact .none

/-- The trail of two texts with room between them depends on how much room there is only in that
what is found behind the room is further on. -/
theorem Listing.exists_trail_room
    (hok : (ofSource settings (ExactSource.fresh a : σ)).hasErrors = false) (b : List Char) :
    let first := ofSource settings (ExactSource.fresh a : σ)
    ∃ (front : List Entry) (rest : Trail) (n : Nat), (∀ e ∈ front, e.token ∈ first.tokens) ∧
      ∀ room, Gap.Silent σ settings (' ' :: room) →
        trail settings true {}
            (firstReader settings (ExactSource.fresh (a ++ ' ' :: room ++ b) : σ)) =
          (rest.shift (extent σ (a ++ ' ' :: room) + n) first.htmlComment).prepend front := by
  intro first
  obtain ⟨front, last, inLine, htokens, hgoes⟩ := trail_firstReader_goesOn hok
  obtain ⟨rest, n, hbehind⟩ :=
    exists_trail_behind (σ := σ) settings last.afterLineTerminator inLine b
  refine ⟨front, rest, n, fun e he => ?_, fun room hroom => ?_⟩
  · rw [← Array.mem_toList_iff, htokens]
    exact List.mem_append_left _ (List.mem_map_of_mem he)
  · obtain ⟨f', hoctal, hhtml, htrail⟩ := hgoes (room ++ b)
    rw [List.append_assoc, List.cons_append, htrail, ← List.cons_append,
      trail_behind_silent hroom, hbehind _ f' hoctal, hhtml]

/-! ### Making room -/

/-- Where a place of a text is once `d` positions are put in behind the first `n` ones. -/
def makeRoom (n d p : Nat) : Nat := if n < p then p + d else p

/-- The span in a text with room made behind the first `n` positions. -/
def Span.makeRoom (n d : Nat) (s : Span) : Span :=
  ⟨EcmaLex.makeRoom n d s.start, EcmaLex.makeRoom n d s.stop⟩

/-- The same cause in a text with room made in it. -/
def Diagnostic.makeRoom (n d : Nat) (e : Diagnostic) : Diagnostic :=
  { e with span := e.span.makeRoom n d }

/-- The same token in a text with room made in it, with what is wrong with it. -/
def Token.makeRoom (n d : Nat) (t : Token) : Token :=
  { t with span := t.span.makeRoom n d, error? := t.error?.map (·.makeRoom n d) }

section MakeRoom

variable {n d e : Nat}

theorem makeRoom_of_le {p : Nat} (h : p ≤ n) : makeRoom n d p = p := if_neg (Nat.not_lt.2 h)

theorem makeRoom_add (h : n < e) (p : Nat) : makeRoom n d (p + e) = p + (e + d) := by
  rw [makeRoom, if_pos (by omega), Nat.add_assoc]

theorem Span.makeRoom_shift (h : n < e) (s : Span) :
    (s.shift e).makeRoom n d = s.shift (e + d) := by
  unfold makeRoom shift
  rw [makeRoom_add h, makeRoom_add h]

/-- What is behind the room is further on by as much. -/
theorem Token.makeRoom_shift (h : n < e) (t : Token) :
    (t.shift e).makeRoom n d = t.shift (e + d) := by
  have herror : (t.error?.map (·.shift e)).map (·.makeRoom n d) =
      t.error?.map (·.shift (e + d)) := by
    cases t.error? with
    | none => rfl
    | some x =>
      simp only [Option.map_some, Diagnostic.makeRoom, Diagnostic.shift, Span.makeRoom_shift h]
  unfold makeRoom shift
  dsimp only
  rw [Span.makeRoom_shift h, herror]

/-- What is before the room stays where it is. -/
theorem Token.makeRoom_of_le {t : Token} (hstart : t.span.start ≤ n) (hstop : t.span.stop ≤ n)
    (herror : t.error? = none) : t.makeRoom n d = t := by
  unfold makeRoom Span.makeRoom
  rw [EcmaLex.makeRoom_of_le hstart, EcmaLex.makeRoom_of_le hstop, herror, Option.map_none,
    ← herror]

/-- What strict mode code would say is said at the same token. -/
theorem Token.strictDiagnostic?_makeRoom (t : Token) :
    (t.makeRoom n d).strictDiagnostic? = t.strictDiagnostic?.map (·.makeRoom n d) := by
  have hform : (t.makeRoom n d).form? = t.form? := rfl
  unfold strictDiagnostic?
  rw [hform]
  split <;> rfl

end MakeRoom

namespace Listing

/-- The tokens of a listing are in the text. -/
theorem span_of_mem_ofSource {text : List Char} {t : Token}
    (ht : t ∈ (ofSource settings (ExactSource.fresh text : σ)).tokens) :
    t.span.start ≤ t.span.stop ∧ t.span.stop ≤ extent σ text := by
  obtain ⟨n, rfl⟩ := exists_stream_of_mem ht
  obtain ⟨hstop, -, hne, hend⟩ := Scanner.span_stream (σ := σ) settings text n
  refine ⟨?_, hstop⟩
  by_cases hk : ((Scanner.ofSource settings
      (ExactSource.fresh text : σ)).start.stream n).kind = .endOfInput
  · rw [hend hk]
  · exact Nat.le_of_lt (hne hk)

/-- A listing without errors holds no token with an error. -/
theorem error?_of_mem {source : σ} (hok : (ofSource settings source).hasErrors = false) {t : Token}
    (ht : t ∈ (ofSource settings source).tokens) : t.error? = none := by
  rw [ofSource_eq] at hok
  rw [ofSource_eq, ← Array.mem_toList_iff, Trail.tokens_appendTo] at ht
  obtain ⟨e, he, rfl⟩ := List.mem_map.1 ht
  exact Trail.error?_of_hasErrors hok e he

/-- Listings whose tokens are the same but for room that is made list the same errors and strict
diagnostics. -/
theorem errors_of_tokens {source source' : σ} {n d : Nat}
    (h : (ofSource settings source').tokens =
      (ofSource settings source).tokens.map (·.makeRoom n d)) :
    (ofSource settings source').errors =
        (ofSource settings source).errors.map (·.makeRoom n d) ∧
      (ofSource settings source').strictDiagnostics =
        (ofSource settings source).strictDiagnostics.map (·.makeRoom n d) := by
  rw [← Array.toList_inj, ← Array.toList_inj, Array.toList_map, Array.toList_map, errors_ofSource,
    errors_ofSource, strictDiagnostics_ofSource, strictDiagnostics_ofSource, h, Array.toList_map,
    List.filterMap_map, List.filterMap_map, List.map_filterMap, List.map_filterMap]
  refine ⟨rfl, List.filterMap_congr fun t _ => ?_⟩
  exact t.strictDiagnostic?_makeRoom

/-- **Silent text makes room, and no other difference**, if nothing is wrong with what is before
it. -/
theorem ofSource_silent
    (hok : (ofSource settings (ExactSource.fresh a : σ)).hasErrors = false) (b : List Char)
    {room : List Char} (hroom : Gap.Silent σ settings (' ' :: room)) :
    let plain := ofSource settings (ExactSource.fresh (a ++ ' ' :: b) : σ)
    let whole := ofSource settings (ExactSource.fresh (a ++ ' ' :: room ++ b) : σ)
    whole.tokens = plain.tokens.map (·.makeRoom (extent σ a) (extent σ room)) ∧
      whole.htmlComment = plain.htmlComment := by
  intro plain whole
  obtain ⟨front, rest, n, hfront, htrail⟩ := exists_trail_room hok b
  have hplain : plain = _ := ofSource_eq settings _
  have hwhole : whole = _ := ofSource_eq settings _
  have hspace : a ++ ' ' :: b = a ++ [' '] ++ b := by simp
  rw [hspace, htrail [] (Gap.silent_space settings)] at hplain
  rw [htrail room hroom] at hwhole
  rw [hplain, hwhole]
  refine ⟨?_, rfl⟩
  -- the entries of the first text end before the room, all others begin behind it
  have hbefore : ∀ e ∈ front, e.token.makeRoom (extent σ a) (extent σ room) = e.token := by
    intro e he
    obtain ⟨hstart, hstop⟩ := span_of_mem_ofSource (hfront e he)
    exact Token.makeRoom_of_le (hstart.trans hstop) hstop (error?_of_mem hok (hfront e he))
  have hbehind : ∀ e : Entry,
      (e.token.shift (extent σ (a ++ [' ']) + n)).makeRoom (extent σ a) (extent σ room) =
        e.token.shift (extent σ (a ++ ' ' :: room) + n) := by
    intro e
    have hspace := ExactSource.width_pos (σ := σ) ' '
    rw [Token.makeRoom_shift (by rw [extent_append, extent_cons]; omega)]
    congr 1
    simp only [extent_append, extent_cons, extent_nil]
    omega
  rw [← Array.toList_inj, Array.toList_map, Trail.tokens_appendTo, Trail.tokens_appendTo]
  unfold Trail.prepend Trail.shift
  dsimp only
  rw [List.map_append, List.map_append, List.map_append, List.map_map, List.map_map, List.map_map,
    List.map_map]
  congr 1
  · exact List.map_congr_left fun e he => (hbefore e he).symm
  · exact List.map_congr_left fun e _ => (hbehind e).symm

end Listing

/-- **Block comments make no difference.**  If nothing is wrong with the first text, a block comment
without line terminators between a space behind that text and a second text leaves all as it
would be listed with the space alone.  What is found behind the first text is further on by the
length of the comment. -/
theorem tokenize_blockComment (settings : Settings) (a x b : String)
    (hclose : ¬ "*/".toList <:+: x.toList) (hline : ∀ c ∈ x.toList, isLineTerminator c = false)
    (hok : (tokenize settings a).hasErrors = false) :
    let plain := tokenize settings (a ++ " " ++ b)
    let commented := tokenize settings (a ++ " /*" ++ x ++ "*/" ++ b)
    let n := a.utf8ByteSize
    let d := x.utf8ByteSize + 4
    commented.tokens = plain.tokens.map (·.makeRoom n d) ∧
      commented.errors = plain.errors.map (·.makeRoom n d) ∧
      commented.strictDiagnostics = plain.strictDiagnostics.map (·.makeRoom n d) ∧
      commented.htmlComment = plain.htmlComment := by
  intro plain commented n d
  have hsilent : Gap.Silent ByteCursor settings
      (' ' :: '/' :: '*' :: (x.toList ++ ['*', '/'])) :=
    (Gap.silent_space settings).append (Gap.silent_blockComment hclose hline)
  have hn : extent ByteCursor a.toList = n := by
    rw [ByteCursor.extent_eq_utf8ByteSize, String.ofList_toList]
  have hd : extent ByteCursor ('/' :: '*' :: (x.toList ++ ['*', '/'])) = d := by
    have hx : extent ByteCursor x.toList = x.utf8ByteSize := by
      rw [ByteCursor.extent_eq_utf8ByteSize, String.ofList_toList]
    have hslash : ExactSource.width ByteCursor '/' = 1 := rfl
    have hstar : ExactSource.width ByteCursor '*' = 1 := rfl
    simp only [extent_cons, extent_append, extent_nil, hslash, hstar, hx]
    omega
  have hplain : (a ++ " " ++ b).toList = a.toList ++ ' ' :: b.toList := by
    simp
  have hcommented : (a ++ " /*" ++ x ++ "*/" ++ b).toList =
      a.toList ++ ' ' :: '/' :: '*' :: (x.toList ++ ['*', '/']) ++ b.toList := by
    simp
  rw [Listing.tokenize_eq_ofSource] at hok
  obtain ⟨htokens, hhtml⟩ := Listing.ofSource_silent hok b.toList hsilent
  rw [hn, hd] at htokens
  obtain ⟨herrors, hstrict⟩ := Listing.errors_of_tokens htokens
  rw [← hplain, ← hcommented, ← Listing.tokenize_eq_ofSource, ← Listing.tokenize_eq_ofSource]
    at htokens herrors hstrict hhtml
  exact ⟨htokens, herrors, hstrict, hhtml⟩

/-- The comment is part of a comment on a line, which ends before a legacy octal literal. -/
theorem tokenize_blockComment_lineComment :
    ¬ "*/".toList <:+: "*".toList ∧ (∀ c ∈ "*".toList, isLineTerminator c = false) ∧
      (tokenize {} "x//").hasErrors = false ∧
      (tokenize {} ("x//" ++ " /*" ++ "*" ++ "*/" ++ "\n01")).tokens =
        (tokenize {} ("x//" ++ " " ++ "\n01")).tokens.map (·.makeRoom 3 5) ∧
      (tokenize {} ("x//" ++ " /*" ++ "*" ++ "*/" ++ "\n01")).strictDiagnostics =
        (tokenize {} ("x//" ++ " " ++ "\n01")).strictDiagnostics.map (·.makeRoom 3 5) := by
  have hclose : ¬ "*/".toList <:+: "*".toList := by decide +kernel
  have hline : ∀ c ∈ "*".toList, isLineTerminator c = false := by
    intro c hc
    have hx : "*".toList = ['*'] := by decide +kernel
    rw [hx, List.mem_singleton] at hc
    rw [hc]
    rfl
  have hok : (tokenize {} "x//").hasErrors = false := by decide +kernel
  obtain ⟨htokens, -, hstrict, -⟩ := tokenize_blockComment {} "x//" "*" "\n01" hclose hline hok
  exact ⟨hclose, hline, hok, htokens, hstrict⟩

end EcmaLex
