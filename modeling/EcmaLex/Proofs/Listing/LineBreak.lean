import EcmaLex.Proofs.Listing.Trail
import EcmaLex.Proofs.Simulation.Alongside
import EcmaLex.Proofs.Simulation.Scanner
import EcmaLex.Proofs.Source.ByteCursor

/-!
# Texts put together at a line break

If nothing is wrong with a text, a line feed and any other text can be put behind it.  The
listing of the whole is that of the first text, without its end of input, followed by that
of the second one, further on by what is before it.

Up to the end of the first text the two scans go side by side.  There the scan of the
first text finds the end of input, and that of the whole text goes on behind the line
feed.  It has found a line terminator by then, and that is how a scan of the second text
alone would begin.  From there on it goes side by side with such a scan, further on in the
text.

## Main definitions

* `Findings.Continues` — what is noted behind a text, and in that text alone.

## Main results

* `trail_alongside_line` — **up to a line break** a text is scanned as if it ended there.
* `trail_behind` — **behind a line break** a text is scanned as if it began there.
* `tokenize_line_break` — **listings are put together at a line break**.
-/

namespace EcmaLex

/-! ### What is noted of gaps -/

section Gaps

variable {σ : Type}

variable [SearchableSource σ] {settings : Settings} {lineBreak lineBreak' : Bool}
  {f f' : Findings} {r r' : Reader σ}

/-- No literal is noted in a gap. -/
theorem octal?_of_step_eq_gap (h : step settings lineBreak f r = .gap lineBreak' f' r') :
    f'.octal? = f.octal? := by
  have hs := chosen_step settings lineBreak f r
  generalize step settings lineBreak f r = s at h hs
  cases hs with
  | blank =>
    -- white space notes nothing at all
    cases h
    rfl
  | @operator c p =>
    have hf := octal?_operator settings lineBreak f r.position (p.munch r.advance).1
      (p.munch r.advance).2
    rw [h] at hf
    exact hf
  | _ => cases h

/-- No literal is noted with the end of input. -/
theorem octal?_scanToken (settings : Settings) (lineBreak : Bool) (f : Findings) (r : Reader σ)
    (hk : (scanToken settings lineBreak f r).token.kind = .endOfInput) :
    (scanToken settings lineBreak f r).findings.octal? = f.octal? := by
  fun_induction scanToken settings lineBreak f r with
  | case1 lineBreak f r lineBreak₁ f₁ r₁ h ih => exact (ih hk).trans (octal?_of_step_eq_gap h)
  | case2 lineBreak f r lineBreak₁ f₁ l h =>
    cases hc : r.char? with
    | none =>
      rw [step_of_char?_eq_none _ _ _ hc] at h
      cases h
      rfl
    | some c => exact absurd hk (sound_step h hc).kind_ne_endOfInput

/-! ### Trails -/

/-- Only the beginning of a text may name an interpreter. -/
theorem scanToken_hashbang (settings : Settings) (hashbang lineBreak : Bool) (f : Findings)
    (r : Reader σ) :
    scanToken { settings with hashbang } lineBreak f r = scanToken settings lineBreak f r := by
  fun_induction scanToken settings lineBreak f r with
  | case1 lineBreak f r lineBreak₁ f₁ r₁ h ih =>
    have hstep : step { settings with hashbang } lineBreak f r = .gap lineBreak₁ f₁ r₁ := h
    rw [scanToken_of_step_eq_gap hstep]
    exact ih
  | case2 lineBreak f r lineBreak₁ f₁ l h => exact scanToken_of_step_eq_lexeme h

theorem trail_hashbang (settings : Settings) (hashbang lineBreak : Bool) (f : Findings)
    (r : Reader σ) :
    trail { settings with hashbang } lineBreak f r = trail settings lineBreak f r := by
  fun_induction trail settings lineBreak f r with
  | case1 lineBreak f r scanned rest hlast =>
    have hscan : scanToken { settings with hashbang } lineBreak f r =
        ⟨scanned.token, scanned.findings, scanned.reader⟩ :=
      scanToken_hashbang settings hashbang lineBreak f r
    rw [trail_of_isLast hscan hlast, scanToken_hashbang]
  | case2 lineBreak f r scanned rest hlast ih =>
    have hscan : scanToken { settings with hashbang } lineBreak f r =
        ⟨scanned.token, scanned.findings, scanned.reader⟩ :=
      scanToken_hashbang settings hashbang lineBreak f r
    rw [trail_of_not_isLast hscan hlast, ih]

/-- A trail is told by the first token and what comes after it. -/
theorem trail_congr {lineBreak' : Bool}
    (h : scanToken settings lineBreak f r = scanToken settings lineBreak' f' r') :
    trail settings lineBreak f r = trail settings lineBreak' f' r' := by
  rw [trail.eq_def settings lineBreak f r, trail.eq_def settings lineBreak' f' r', h]

/-- The trail with other entries in front. -/
def Trail.prepend (front : List Entry) (t : Trail) : Trail :=
  { t with entries := front ++ t.entries }

theorem Trail.cons_prepend (e : Entry) (front : List Entry) (t : Trail) :
    (t.prepend front).cons e = t.prepend (e :: front) := rfl

end Gaps

/-! ### Up to the line break -/

/-- If nothing is wrong with a token, it is the last one just if it is the end of input. -/
theorem Listing.isLast_iff {t : Token} (h : t.error? = none) :
    isLast t = true ↔ t.kind = .endOfInput := by
  rw [isLast, Token.isFatal, h]
  simp

variable {σ : Type} [ExactSource σ] {settings : Settings} {lineBreak : Bool}
  {f f' : Findings} {r r' : Reader σ}

open Reader

theorem simulation_line (a b : List Char) :
    Simulation (some '\n') (SamePlace σ σ [] a)
      (Alongside [] a ('\n' :: b) : Reader σ → Reader σ → Prop) :=
  simulation_alongside [] a ('\n' :: b) (fun _ hd => (Option.some.inj hd).symm) fun _ _ => rfl

/-- Up to a line break a token is scanned as if the text ended there, if nothing is wrong
with it.  In place of the end of input the first token of the next line is scanned. -/
theorem scanToken_alongside_line {a b : List Char} (h : Alongside [] a ('\n' :: b) r r')
    (hf : f.octal? = none) (hok : (scanToken settings lineBreak f r).token.error? = none) :
    let scanned := scanToken settings lineBreak f r
    (scanned.token.kind ≠ .endOfInput ∧ ∃ r₁',
        scanToken settings lineBreak f r' = ⟨scanned.token, scanned.findings, r₁'⟩ ∧
          Alongside [] a ('\n' :: b) scanned.reader r₁') ∨
      scanned.token.kind = .endOfInput ∧ scanned.reader.char? = none ∧
        scanned.findings.octal? = none ∧
        scanToken settings lineBreak f r' =
          scanToken settings true scanned.findings (between (a ++ ['\n']) b) := by
  intro scanned
  have heq : ∀ {p p'}, SamePlace σ σ [] a p p' → p' = p := fun hp => hp.eq_add
  have hff : Findings.Matches (SamePlace σ σ [] a) f f := by
    refine ⟨rfl, rfl, rfl, ?_⟩
    rw [hf]
    exact .none
  have hoctal := octal?_scanToken settings lineBreak f r
  have hscanned :=
    (simulation_line a b).scanToken (Findings.congruence_matches _) h hff settings lineBreak
  generalize hs : scanToken settings lineBreak f r = left at hscanned hok hoctal
  generalize scanToken settings lineBreak f r' = right at hscanned
  have hleft : scanned = left := hs
  rw [hleft]
  cases hscanned with
  | token ht hkind hf₁ hr₁ =>
    left
    rw [Token.Alike.eq heq (.inl ht), hf₁.eq heq]
    exact ⟨hkind (Option.some_ne_none _), _, rfl, hr₁⟩
  | cut _ herror =>
    rw [hok] at herror
    cases herror
  | ends _ hkind _ hf₁ hr₁ hend =>
    right
    obtain ⟨rfl, rfl⟩ := hr₁.of_none hend
    rw [hf₁.eq heq, advance_between_cons]
    exact ⟨hkind, hend, (hoctal hkind).trans hf, rfl⟩

/-- **Up to a line break a text is scanned as if it ended there**, if nothing is wrong with
it.  Where it would end, the scan goes on in the next line. -/
theorem trail_alongside_line {a b : List Char} (h : Alongside [] a ('\n' :: b) r r')
    (hf : f.octal? = none)
    (hok : ∀ e ∈ (trail settings lineBreak f r).entries, e.token.error? = none) :
    ∃ (front : List Entry) (last : Entry) (f₁ : Findings), f₁.octal? = none ∧
      last.token.kind = .endOfInput ∧ last.octal? = none ∧
      trail settings lineBreak f r = ⟨front ++ [last], f₁.htmlComment⟩ ∧
      trail settings lineBreak f r' =
        (trail settings true f₁ (between (a ++ ['\n']) b : Reader σ)).prepend front := by
  fun_induction trail settings lineBreak f r generalizing r' with
  | case1 lineBreak f r scanned =>
    rename_i rest hlast
    have herror : scanned.token.error? = none := hok _ (List.mem_singleton.2 rfl)
    have hkind := (Listing.isLast_iff herror).1 hlast
    rcases scanToken_alongside_line h hf herror with ⟨hne, -⟩ | ⟨-, hend, hoctal, hs'⟩
    · exact absurd hkind hne
    · refine ⟨[], ⟨scanned.token, scanned.findings.octal?⟩, scanned.findings, hoctal, hkind,
        hoctal, ?_, trail_congr hs'⟩
      -- another scan at the end of the text finds nothing more
      rw [scanToken_of_step_eq_lexeme (step_of_char?_eq_none settings false rest hend)]
      rfl
  | case2 lineBreak f r scanned rest =>
    rename_i hlast ih
    have herror : scanned.token.error? = none := hok _ List.mem_cons_self
    rcases scanToken_alongside_line h hf herror with ⟨-, r₁', hs', hr₁⟩ | ⟨hkind, -⟩
    · obtain ⟨front, last, f₁, hf₁, hkind, hoctal, hleft, hright⟩ :=
        ih hr₁ rfl fun e he => hok e (List.mem_cons_of_mem _ he)
      refine ⟨⟨scanned.token, scanned.findings.octal?⟩ :: front, last, f₁, hf₁, hkind, hoctal,
        ?_, ?_⟩
      · rw [hleft]
        rfl
      · rw [trail_of_not_isLast hs' hlast, hright, Trail.cons_prepend]
    · exact absurd ((Listing.isLast_iff herror).2 hkind) hlast

/-! ### Behind the line break -/

/-- What is noted behind a text, and what would be noted of the second text alone.  `html`
says whether an HTML-like comment was found in the first one. -/
structure Findings.Continues (Q : Nat → Nat → Prop) (html : Bool) (f f' : Findings) : Prop where
  /-- An HTML-like comment is found in one of the texts. -/
  htmlComment : f'.htmlComment = (f.htmlComment || html)
  /-- The same literal is noted for strict mode code. -/
  octal? : Diagnostic.NotedAlike Q f.octal? f'.octal?

theorem Findings.congruence_continues (Q : Nat → Nat → Prop) (html : Bool) :
    Congruence Q (Continues Q html) where
  htmlComment h := ⟨rfl, h.octal?⟩
  set name value? h := by
    cases name with
    | sourceUrl => exact ⟨h.htmlComment, h.octal?⟩
    | sourceMappingUrl => exact ⟨h.htmlComment, h.octal?⟩
  noteLegacyOctal := by
    intro f f' form? s s' hstart hstop h
    unfold Findings.noteLegacyOctal
    cases form?.bind NumberForm.strictCause with
    | none => exact h
    | some cause => exact ⟨h.htmlComment, .some ⟨rfl, hstart, hstop⟩⟩

/-- The entry further on by a distance. -/
def Entry.shift (d : Nat) (e : Entry) : Entry := ⟨e.token.shift d, e.octal?.map (·.shift d)⟩

/-- The trail further on by a distance, behind a text of which `html` says whether it holds
an HTML-like comment. -/
def Trail.shift (d : Nat) (html : Bool) (t : Trail) : Trail where
  entries := t.entries.map (·.shift d)
  htmlComment := t.htmlComment || html

theorem Listing.isLast_shift (d : Nat) (t : Token) : isLast (t.shift d) = isLast t := by
  rw [isLast, isLast, t.isFatal_shift]
  rfl

/-- Behind a text a token is scanned as it would be scanned without that text. -/
theorem scanToken_behind {front b : List Char} {html : Bool} (settings : Settings)
    (lineBreak : Bool) (h : Alongside front b [] r r')
    (hf : f.Continues (SamePlace σ σ front b) html f') :
    let scanned := scanToken settings lineBreak f r
    ∃ f₁' r₁', scanToken settings lineBreak f' r' =
        ⟨scanned.token.shift (extent σ front), f₁', r₁'⟩ ∧
      scanned.findings.Continues (SamePlace σ σ front b) html f₁' ∧
      Alongside front b [] scanned.reader r₁' := by
  intro scanned
  have hsim : Simulation none (SamePlace σ σ front b) (Alongside front b []) :=
    simulation_alongside front b [] (fun _ hd => by cases hd) fun _ _ => rfl
  have hscanned := hsim.scanToken (Findings.congruence_continues _ html) h hf settings lineBreak
  generalize hs : scanToken settings lineBreak f r = left at hscanned
  generalize scanToken settings lineBreak f' r' = right at hscanned
  have hleft : scanned = left := hs
  rw [hleft]
  cases hscanned with
  | token ht _ hf₁ hr₁ =>
    rw [ht.eq_shift SamePlace.eq_add]
    exact ⟨_, _, rfl, hf₁, hr₁⟩
  | cut hb => exact absurd rfl hb
  | ends hb => exact absurd rfl hb

/-- **Behind a line break a text is scanned as if it began there**, and so it is behind any other
text, once it is known whether a line terminator comes before its first token. -/
theorem trail_behind {front b : List Char} {html : Bool} (h : Alongside front b [] r r')
    (hf : f.Continues (SamePlace σ σ front b) html f') :
    trail settings lineBreak f' r' =
      (trail settings lineBreak f r).shift (extent σ front) html := by
  fun_induction trail settings lineBreak f r generalizing f' r' with
  | case1 lineBreak f r scanned =>
    rename_i rest hlast
    obtain ⟨f₁', r₁', hs', hf₁, hr₁⟩ := scanToken_behind settings lineBreak h hf
    have hrest : rest.Continues (SamePlace σ σ front b) html f₁'.forget :=
      ⟨hf₁.htmlComment, .none⟩
    obtain ⟨f₂', r₂', hs₂', hf₂, -⟩ := scanToken_behind settings false hr₁ hrest
    rw [trail_of_isLast hs' ((Listing.isLast_shift _ _).trans hlast), hs₂',
      hf₁.octal?.eq_shift SamePlace.eq_add, hf₂.htmlComment]
    rfl
  | case2 lineBreak f r scanned rest =>
    rename_i hlast ih
    obtain ⟨f₁', r₁', hs', hf₁, hr₁⟩ := scanToken_behind settings lineBreak h hf
    have hrest : rest.Continues (SamePlace σ σ front b) html f₁'.forget :=
      ⟨hf₁.htmlComment, .none⟩
    have hlast' : ¬Listing.isLast (scanned.token.shift (extent σ front)) = true := by
      rwa [Listing.isLast_shift]
    rw [trail_of_not_isLast hs' hlast', ih hr₁ hrest, hf₁.octal?.eq_shift SamePlace.eq_add]
    rfl

/-! ### Listings -/

namespace Trail

/-- A listing without errors holds no token with an error. -/
theorem error?_of_hasErrors {t : Trail} (h : (t.appendTo {}).hasErrors = false) :
    ∀ e ∈ t.entries, e.token.error? = none := by
  simpa [Listing.hasErrors, appendTo] using h

/-- What is listed of entries and of a trail behind them. -/
theorem appendTo_prepend (front : List Entry) (last : Entry) (html : Bool) (t : Trail) (d : Nat)
    (herror : last.token.error? = none) (hoctal : last.octal? = none) :
    ((t.shift d html).prepend front).appendTo {} =
      { tokens := (front.map (·.token)).toArray ++ (t.appendTo {}).tokens.map (·.shift d)
        errors := (appendTo {} ⟨front ++ [last], html⟩).errors ++
          (t.appendTo {}).errors.map (·.shift d)
        strictDiagnostics := (appendTo {} ⟨front ++ [last], html⟩).strictDiagnostics ++
          (t.appendTo {}).strictDiagnostics.map (·.shift d)
        htmlComment := html || (t.appendTo {}).htmlComment } := by
  have htokens : (t.entries.map (·.shift d)).map (·.token) =
      (t.entries.map (·.token)).map (·.shift d) := by
    rw [List.map_map, List.map_map]
    rfl
  have herrors : (t.entries.map (·.shift d)).filterMap (·.token.error?) =
      (t.entries.filterMap (·.token.error?)).map (·.shift d) := by
    rw [List.filterMap_map, List.map_filterMap]
    rfl
  have hstrict : (t.entries.map (·.shift d)).filterMap (·.octal?) =
      (t.entries.filterMap (·.octal?)).map (·.shift d) := by
    rw [List.filterMap_map, List.map_filterMap]
    rfl
  unfold appendTo prepend shift
  dsimp only
  rw [List.map_append, htokens, List.filterMap_append, herrors, List.filterMap_append, hstrict,
    Bool.or_comm]
  simp [herror, hoctal]

end Trail

namespace Listing

/-- Both scans begin on the first character, or behind the line that names an interpreter. -/
theorem alongside_firstReader (settings : Settings) (a b : List Char) :
    Alongside [] a ('\n' :: b) (firstReader settings (ExactSource.fresh a : σ))
      (firstReader settings (ExactSource.fresh (a ++ '\n' :: b) : σ)) := by
  have hmoved : Alongside [] a ('\n' :: b) (between [] a : Reader σ)
      (between [] (a ++ '\n' :: b) : Reader σ) :=
    ⟨[], a, rfl, rfl, rfl⟩
  unfold firstReader
  rw [advance_ofSource_fresh, advance_ofSource_fresh]
  dsimp only
  split
  · exact (simulation_line a b).hashbang SamePlace.eq_zero_iff hmoved
  · exact hmoved

/-- A string is listed like its characters. -/
theorem tokenize_eq_ofSource (settings : Settings) (text : String) :
    tokenize settings text = ofSource settings (ExactSource.fresh text.toList : ByteCursor) := by
  rw [← ByteCursor.ofString_eq_fresh]
  rfl

/-- The listing of a text that names no interpreter. -/
theorem ofSource_of_not_hashbang (settings : Settings) (text : List Char) :
    ofSource { settings with hashbang := false } (ExactSource.fresh text : σ) =
      (trail settings true {} (between [] text : Reader σ)).appendTo {} := by
  rw [ofSource_eq, trail_hashbang, firstReader, advance_ofSource_fresh]
  rfl

/-- The listing of two texts with a line feed between them, if nothing is wrong with the
first one. -/
theorem ofSource_line {a b : List Char}
    (hok : (ofSource settings (ExactSource.fresh a : σ)).hasErrors = false) :
    let first := ofSource settings (ExactSource.fresh a : σ)
    let second := ofSource { settings with hashbang := false } (ExactSource.fresh b : σ)
    let d := extent σ (a ++ ['\n'])
    ∃ tokens last, first.tokens = tokens.push last ∧ last.kind = .endOfInput ∧
      ofSource settings (ExactSource.fresh (a ++ '\n' :: b) : σ) =
        { tokens := tokens ++ second.tokens.map (·.shift d)
          errors := first.errors ++ second.errors.map (·.shift d)
          strictDiagnostics := first.strictDiagnostics ++ second.strictDiagnostics.map (·.shift d)
          htmlComment := first.htmlComment || second.htmlComment } := by
  intro first second d
  have hwrong := hok
  rw [ofSource_eq] at hwrong
  have hnone := Trail.error?_of_hasErrors hwrong
  obtain ⟨front, last, f₁, hf₁, hkind, hoctal, hleft, hright⟩ :=
    trail_alongside_line (alongside_firstReader settings a b) rfl hnone
  have hbehind : trail settings true f₁ (between (a ++ ['\n']) b : Reader σ) =
      (trail settings true {} (between [] b : Reader σ)).shift d f₁.htmlComment := by
    refine trail_behind ⟨[], b, rfl, rfl, ?_⟩ ⟨rfl, ?_⟩
    · rw [List.append_nil, List.append_nil]
    · rw [hf₁]
      exact .none
  have herror : last.token.error? = none := by
    refine hnone last ?_
    rw [hleft]
    exact List.mem_append_right _ (List.mem_singleton.2 rfl)
  have hfirst : first = Trail.appendTo {} ⟨front ++ [last], f₁.htmlComment⟩ := by
    rw [← hleft]
    exact ofSource_eq settings _
  have hsecond : second = (trail settings true {} (between [] b : Reader σ)).appendTo {} :=
    ofSource_of_not_hashbang settings b
  refine ⟨(front.map (·.token)).toArray, last.token, ?_, hkind, ?_⟩
  · rw [hfirst]
    simp [Trail.appendTo]
  · rw [ofSource_eq, hright, hbehind, Trail.appendTo_prepend front last _ _ d herror hoctal,
      hfirst, hsecond]
    rfl

end Listing

/-- **Listings are put together at a line break.**  If nothing is wrong with the first text,
the listing of both texts with a line feed between them holds the tokens of the first
one but for its end of input, and those of the second one, further on by the length of
the first text and the line feed.  The same goes for the errors and for what strict mode
code would say.  The second text is not at the beginning, so that it names no
interpreter. -/
theorem tokenize_line_break (settings : Settings) (a b : String)
    (hok : (tokenize settings a).hasErrors = false) :
    let first := tokenize settings a
    let second := tokenize { settings with hashbang := false } b
    let whole := tokenize settings (a ++ "\n" ++ b)
    let d := a.utf8ByteSize + 1
    (∃ tokens last, first.tokens = tokens.push last ∧ last.kind = .endOfInput ∧
        whole.tokens = tokens ++ second.tokens.map (·.shift d)) ∧
      whole.errors = first.errors ++ second.errors.map (·.shift d) ∧
      whole.strictDiagnostics =
        first.strictDiagnostics ++ second.strictDiagnostics.map (·.shift d) ∧
      whole.htmlComment = (first.htmlComment || second.htmlComment) := by
  intro first second whole d
  have hd : extent ByteCursor (a.toList ++ ['\n']) = d := by
    rw [extent_append, ByteCursor.extent_eq_utf8ByteSize, String.ofList_toList]
    rfl
  have htext : (a ++ "\n" ++ b).toList = a.toList ++ '\n' :: b.toList := by
    rw [String.toList_append, String.toList_append, List.append_assoc]
    rfl
  rw [Listing.tokenize_eq_ofSource] at hok
  obtain ⟨tokens, last, hfirst, hkind, hwhole⟩ := Listing.ofSource_line (b := b.toList) hok
  rw [← htext, ← Listing.tokenize_eq_ofSource, ← Listing.tokenize_eq_ofSource,
    ← Listing.tokenize_eq_ofSource, hd] at hwhole
  rw [← Listing.tokenize_eq_ofSource] at hfirst
  have hwhole : whole = _ := hwhole
  rw [hwhole]
  exact ⟨⟨tokens, last, hfirst, hkind, rfl⟩, rfl, rfl, rfl⟩

/-- A word, and a legacy octal literal in the next line. -/
theorem tokenize_line_break_word :
    (tokenize {} "x").hasErrors = false ∧
      (∃ tokens last, (tokenize {} "x").tokens = tokens.push last ∧ last.kind = .endOfInput ∧
        (tokenize {} ("x" ++ "\n" ++ "01")).tokens =
          tokens ++ (tokenize { hashbang := false } "01").tokens.map (·.shift 2)) ∧
      (tokenize {} ("x" ++ "\n" ++ "01")).strictDiagnostics =
        (tokenize {} "x").strictDiagnostics ++
          (tokenize { hashbang := false } "01").strictDiagnostics.map (·.shift 2) := by
  have hok : (tokenize {} "x").hasErrors = false := by decide +kernel
  obtain ⟨htokens, -, hstrict, -⟩ := tokenize_line_break {} "x" "01" hok
  exact ⟨hok, htokens, hstrict⟩

end EcmaLex
