import EcmaLex.Listing.Basic

/-!
# Listings token by token

A listing is made by a scanner that is always one token ahead.  What it holds can also be
told without the scanner: scanning one token after the other leaves a trail of tokens,
each with the literal that was noted for strict mode code while it was scanned, and the
trail is what the listing holds.

## Main definitions

* `Entry`, `Trail` — what is found out about a text, token by token.
* `trail` — the trail from a place in the text on.
* `Trail.appendTo` — the listing with a trail added.

## Main results

* `Listing.collect_eq`, `Listing.ofSource_eq` — **a listing holds the trail of its text**.
-/

namespace EcmaLex

/-- A token, and the literal for strict mode code that was noted with it. -/
structure Entry where
  /-- The token. -/
  token : Token
  /-- The literal, if there is one. -/
  octal? : Option Diagnostic

/-- What is found out about a text, token by token. -/
structure Trail where
  /-- The tokens, up to the last one that is listed. -/
  entries : List Entry
  /-- Whether the opening of an HTML-like comment was found. -/
  htmlComment : Bool

/-- The findings without the literal for strict mode code. -/
def Findings.forget (f : Findings) : Findings := { f with octal? := none }

namespace Trail

/-- The trail with an entry in front. -/
def cons (e : Entry) (t : Trail) : Trail := { t with entries := e :: t.entries }

/-- The listing with a trail added. -/
def appendTo (l : Listing) (t : Trail) : Listing where
  tokens := l.tokens ++ (t.entries.map (·.token)).toArray
  errors := l.errors ++ (t.entries.filterMap (·.token.error?)).toArray
  strictDiagnostics := l.strictDiagnostics ++ (t.entries.filterMap (·.octal?)).toArray
  htmlComment := t.htmlComment

/-- The entries are added one by one, what was noted with a token before the token. -/
theorem appendTo_cons (l : Listing) (e : Entry) (t : Trail) :
    (t.cons e).appendTo l = t.appendTo ((l.pushStrict e.octal?).pushToken e.token) := by
  have htokens : l.tokens ++ ((e :: t.entries).map (·.token)).toArray =
      l.tokens.push e.token ++ (t.entries.map (·.token)).toArray := by
    simp
  have herrors : l.errors ++ ((e :: t.entries).filterMap (·.token.error?)).toArray =
      e.token.error?.elim l.errors l.errors.push ++
        (t.entries.filterMap (·.token.error?)).toArray := by
    cases he : e.token.error? <;> simp [he]
  have hstrict : l.strictDiagnostics ++ ((e :: t.entries).filterMap (·.octal?)).toArray =
      e.octal?.elim l.strictDiagnostics l.strictDiagnostics.push ++
        (t.entries.filterMap (·.octal?)).toArray := by
    cases he : e.octal? <;> simp [he]
  unfold appendTo cons Listing.pushStrict Listing.pushToken
  dsimp only
  rw [htokens, herrors, hstrict]

@[simp] theorem tokens_appendTo (t : Trail) :
    (t.appendTo {}).tokens.toList = t.entries.map (·.token) := by
  simp [appendTo]

@[simp] theorem errors_appendTo (t : Trail) :
    (t.appendTo {}).errors.toList = t.entries.filterMap (·.token.error?) := by
  simp [appendTo]

@[simp] theorem strictDiagnostics_appendTo (t : Trail) :
    (t.appendTo {}).strictDiagnostics.toList = t.entries.filterMap (·.octal?) := by
  simp [appendTo]

end Trail

variable {σ : Type} [SearchableSource σ]

/-- The trail from a place in the text on.  Another token is scanned after the last one that
is listed, since the scanner is a token ahead; it only matters for the comments before
it. -/
def trail (settings : Settings) (lineBreak : Bool) (f : Findings) (r : Reader σ) : Trail :=
  let scanned := scanToken settings lineBreak f r
  let rest := scanned.findings.forget
  if _h : Listing.isLast scanned.token = true then
    { entries := [⟨scanned.token, scanned.findings.octal?⟩]
      htmlComment := (scanToken settings false rest scanned.reader).findings.htmlComment }
  else
    (trail settings false rest scanned.reader).cons ⟨scanned.token, scanned.findings.octal?⟩
  termination_by r.remaining
  decreasing_by
    refine remaining_scanToken_lt _ _ _ _ fun hk => _h ?_
    rw [Listing.isLast, hk]
    rfl

section Equations

variable {settings : Settings} {lineBreak : Bool} {f f' : Findings} {r r' : Reader σ} {t : Token}

theorem trail_of_isLast (hs : scanToken settings lineBreak f r = ⟨t, f', r'⟩)
    (ht : Listing.isLast t = true) :
    trail settings lineBreak f r =
      ⟨[⟨t, f'.octal?⟩], (scanToken settings false f'.forget r').findings.htmlComment⟩ := by
  rw [trail, hs]
  exact dif_pos ht

theorem trail_of_not_isLast (hs : scanToken settings lineBreak f r = ⟨t, f', r'⟩)
    (ht : ¬Listing.isLast t = true) :
    trail settings lineBreak f r =
      (trail settings false f'.forget r').cons ⟨t, f'.octal?⟩ := by
  rw [trail, hs]
  exact dif_neg ht

end Equations

namespace Listing

/-- A scanner that has scanned the next token, and no other, lists the trail that begins with
that token. -/
theorem collect_eq {settings : Settings} {lineBreak : Bool} {f f' : Findings} {r : Reader σ}
    {s : Scanner σ} (l : Listing) (hsettings : s.settings = settings)
    (hahead : s.isAhead = false) (hfindings : s.findings = f'.forget)
    (hscan : scanToken settings lineBreak f r = ⟨s.next, f', s.reader⟩) :
    collect (l.pushStrict f'.octal?) s = (trail settings lineBreak f r).appendTo l := by
  induction hn : r.remaining using Nat.strongRecOn generalizing l s lineBreak f f' r with
  | ind n ih =>
    subst hn
    have hadvance := Scanner.advance_of_not_isAhead hahead
    rw [collect, Scanner.advance_current]
    by_cases hlast : isLast s.next = true
    · rw [dif_pos hlast, trail_of_isLast hscan hlast]
      have hcons := Trail.appendTo_cons l ⟨s.next, f'.octal?⟩
        ⟨[], (scanToken settings false f'.forget s.reader).findings.htmlComment⟩
      refine Eq.trans ?_ hcons.symm
      rw [hadvance]
      unfold Scanner.scan Trail.appendTo
      simp [hsettings, hfindings]
    · rw [dif_neg hlast, trail_of_not_isLast hscan hlast, Trail.appendTo_cons]
      have hlt : s.reader.remaining < r.remaining := by
        have h := remaining_scanToken_lt settings lineBreak f r
        rw [hscan] at h
        refine h fun hk => hlast ?_
        rw [isLast, hk]
        rfl
      have hnext : scanToken settings false f'.forget s.reader =
          ⟨s.advance.dropOctal.next, s.advance.findings, s.advance.dropOctal.reader⟩ := by
        rw [hadvance, ← hsettings, ← hfindings]
        rfl
      exact ih _ hlt _ (by rw [hadvance]; exact hsettings) (by rw [hadvance]; exact hahead) rfl
        hnext rfl

/-- The reader on the first character of what a source holds, past a line that names an
interpreter if the settings allow one. -/
def firstReader (settings : Settings) (source : σ) : Reader σ :=
  let r := (Reader.ofSource source).advance
  if settings.hashbang then Gap.hashbang r else r

/-- **A listing holds the trail of its text.** -/
theorem ofSource_eq (settings : Settings) (source : σ) :
    ofSource settings source = (trail settings true {} (firstReader settings source)).appendTo {} :=
  collect_eq {} rfl rfl rfl rfl

end Listing

end EcmaLex
