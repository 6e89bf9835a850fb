import EcmaLex.Proofs.Lexeme.ErrorSpan
import EcmaLex.Proofs.Listing.Stream
import EcmaLex.Proofs.Listing.Strict
import EcmaLex.Proofs.Scanner.Slots

/-!
# Where errors are reported

What is wrong with a token is reported at a place that starts in the token, or right after
it.  The place may go on beyond the token, but it is one of the text: it ends no later than
the text, and neither end cuts a character in two.  So the errors of a listing are in the order
of their places, and a report can show each place as it is.

Where a piece of a template is not ended, what is reported is the brace that it goes on after.
That the brace is there, one byte long, has to be known of the token in the slot.

## Main definitions

* `Diagnostic.InPlace` — the error of a token is at a place of the text that fits the token.

## Main results

* `Scanner.slotInvariant_fits` — the errors of all slots fit.
* `errors_inPlace` — **errors are in the text and in order**, for all slots and for listings.
-/

namespace EcmaLex

open Reader

/-! ### Errors in slots -/

variable {text : List Char} {settings : Settings}

theorem Lexeme.verdict_of_error? {σ : Type} {l : Lexeme σ} {d : Diagnostic}
    (h : l.error? = some d) : l.verdict = .error d := by
  unfold Lexeme.error? at h
  split at h
  · cases h
  · next hv =>
    cases h
    exact hv

/-- What is wrong with a token that is scanned fits the token. -/
theorem fits_scanToken {r : Reader ByteCursor} (h : Placed text r) (lineBreak : Bool)
    (findings : Findings) {d : Diagnostic}
    (hd : (scanToken settings lineBreak findings r).token.error? = some d) :
    d.span.Fits text (scanToken settings lineBreak findings r).token.span.start
      (scanToken settings lineBreak findings r).token.span.stop := by
  rcases exists_step_of_scanToken h settings lineBreak findings with
    ⟨_, ht, -⟩ | ⟨passed, rest, lineBreak', findings', _, _, l, rfl, hs, ht, -⟩
  · -- before the text nothing can be wrong
    rw [ht] at hd
    cases hd
  · have hfrom : From (passed ++ rest) (extent ByteCursor passed) (between passed rest) :=
      ⟨passed, rest, rfl, rfl, within_between passed rest⟩
    have hfits := errorFits_step settings lineBreak' findings' hfrom
    rw [hs, position_between] at hfits
    rw [ht] at hd ⊢
    exact hfits d (Lexeme.verdict_of_error? hd)

/-- The reader is not before the place of a punctuator that it is behind. -/
theorem Token.Stands.readerFrom {p : Punctuator} {r : Reader ByteCursor} {t : Token}
    (h : t.Stands text p r) : From text t.span.start r := by
  obtain ⟨before, after, rfl, hspan, passed, rest, rfl, rfl⟩ := h
  exact ⟨before, p.lexeme.toList ++ (passed ++ rest), by simp, (congrArg Span.start hspan).symm,
    p.lexeme.toList ++ passed, rest, by simp, by simp⟩

/-- What is wrong with a piece of a template after a brace fits, as long as the brace stands
in the text before the reader. -/
theorem fits_templatePiece {r : Reader ByteCursor} {t : Token}
    (h : t.Stands text .rightBrace r) {d : Diagnostic}
    (hd : (templatePiece t.span.start r).error? = some d) :
    d.span.Fits text t.span.start (templatePiece t.span.start r).reader.position := by
  have hfrom := h.readerFrom
  obtain ⟨before, after, rfl, hspan, -⟩ := h
  have hstart : t.span.start = extent ByteCursor before := congrArg Span.start hspan
  -- the brace is one byte long
  have hbrace : IsPlace (before ++ Punctuator.rightBrace.lexeme.toList ++ after)
      (t.span.start + 1) := by
    refine ⟨before ++ Punctuator.rightBrace.lexeme.toList, after, rfl, ?_⟩
    rw [extent_append, hstart]
    rfl
  exact errorFits_templatePiece hbrace hfrom d (Lexeme.verdict_of_error? hd)

/-- The errors of all slots fit. -/
theorem Scanner.slotInvariant_fits (settings : Settings) (text : List Char) :
    SlotInvariant settings text fun (r : Reader ByteCursor) t =>
      (∀ p, t.kind = .punctuator p → t.Stands text p r) ∧
        ∀ d, t.error? = some d → d.span.Fits text t.span.start t.span.stop := by
  have hstands := slotInvariant_stands (σ := ByteCursor) settings text
  exact
    { absent := fun r => ⟨hstands.absent r, nofun⟩
      erase := fun h => ⟨hstands.erase h.1, h.2⟩
      movesTo := fun hr h => ⟨hstands.movesTo hr h.1, h.2⟩
      scan := fun lineBreak findings hr =>
        ⟨hstands.scan lineBreak findings hr, fun d hd => fits_scanToken hr _ _ hd⟩
      piece := fun lineBreak hr hk h =>
        ⟨hstands.piece lineBreak hr hk h.1, fun d hd => fits_templatePiece (h.1 _ hk) hd⟩ }

/-! ### Places of the text -/

/-- The error of the token is at a place that starts in the token, or right after it, and is
one of the text. -/
structure Diagnostic.InPlace (source : String) (t : Token) (d : Diagnostic) : Prop where
  /-- It does not start before the token. -/
  start_le : t.span.start ≤ d.span.start
  /-- It does not start past the end of the token. -/
  le_stop : d.span.start ≤ t.span.stop
  /-- It does not run backwards. -/
  ordered : d.span.start ≤ d.span.stop
  /-- It ends no later than the text. -/
  stop_le : d.span.stop ≤ source.utf8ByteSize
  /-- A character of the text starts where it starts, or the text ends there. -/
  isValid_start : (String.Pos.Raw.mk d.span.start).IsValid source
  /-- A character of the text starts where it ends, or the text ends there. -/
  isValid_stop : (String.Pos.Raw.mk d.span.stop).IsValid source

theorem IsPlace.isValid {source : String} {n : Nat} (h : IsPlace source.toList n) :
    (String.Pos.Raw.mk n).IsValid source := by
  obtain ⟨before, after, hsplit, rfl⟩ := h
  rw [String.Pos.Raw.isValid_iff_exists_append]
  refine ⟨String.ofList before, String.ofList after, ?_, ?_⟩
  · rw [← String.ofList_append, ← hsplit, String.ofList_toList]
  · rw [ByteCursor.extent_eq_utf8ByteSize]
    rfl

theorem Span.Fits.inPlace {source : String} {t : Token} {d : Diagnostic}
    (h : d.span.Fits source.toList t.span.start t.span.stop) : d.InPlace source t where
  start_le := h.start_le
  le_stop := h.le_stop
  ordered := h.ordered
  stop_le := by
    have := h.isPlace_stop.le_extent
    rwa [ByteCursor.extent_eq_utf8ByteSize, String.ofList_toList] at this
  isValid_start := h.isPlace_start.isValid
  isValid_stop := h.isPlace_stop.isValid

/-- A span that is in the text is shown as it is. -/
theorem Span.clamp_eq_self {s : Span} {size : Nat} (h : s.start ≤ s.stop) (hs : s.stop ≤ size) :
    s.clamp size = s := by
  rw [Span.clamp, Nat.min_eq_left (Nat.le_trans h hs), Nat.min_eq_left hs, Nat.max_eq_right h]

/-! ### Errors of listings -/

/-- The strict diagnostic of a token is at the place of the token. -/
theorem Token.span_of_strictDiagnostic? {t : Token} {d : Diagnostic}
    (h : t.strictDiagnostic? = some d) : d.span = t.span := by
  unfold Token.strictDiagnostic? at h
  split at h <;> cases h <;> rfl

namespace Scanner

/-- The tokens of a text do not run backwards, and they are in order. -/
theorem span_stream_of_lt (settings : Settings) (source : String) {m n : Nat} (h : m < n) :
    let token := (ofSource settings (ByteCursor.ofString source)).start.stream
    (token m).span.start ≤ (token m).span.stop ∧
      (token m).span.stop ≤ (token n).span.start := by
  rw [ByteCursor.ofString_eq_fresh]
  intro token
  have hordered : ∀ k, (token k).span.start ≤ (token k).span.stop := by
    intro k
    obtain ⟨-, -, hlt, hend⟩ := span_stream (σ := ByteCursor) settings source.toList k
    by_cases hk : (token k).kind = .endOfInput
    · have hspan : (token k).span = _ := hend hk
      rw [hspan]
    · exact Nat.le_of_lt (hlt hk)
  refine ⟨hordered m, ?_⟩
  -- on the number of tokens between the two
  induction h with
  | refl => exact (span_stream settings source.toList m).2.1
  | @step k _ ih =>
    have hnext := (span_stream (σ := ByteCursor) settings source.toList k).2.1
    exact Nat.le_trans ih (Nat.le_trans (hordered _) hnext)

/-- The tokens of a text end no later than the text. -/
theorem stop_stream_le (settings : Settings) (source : String) (n : Nat) :
    ((ofSource settings (ByteCursor.ofString source)).start.stream n).span.stop ≤
      source.utf8ByteSize := by
  have h := (span_stream (σ := ByteCursor) settings source.toList n).1
  rwa [← ByteCursor.ofString_eq_fresh, ByteCursor.extent_eq_utf8ByteSize,
    String.ofList_toList] at h

/-- The tokens of a text get into the slot of the current token. -/
theorem stream_eq_token {σ : Type} [SearchableSource σ] (s : Scanner σ) (n : Nat) :
    s.start.stream n = (s.run (.start :: List.replicate (n + 1) .advance)).token .current := by
  have hrun : ∀ (k : Nat) (s : Scanner σ),
      s.run (List.replicate k .advance) = Scanner.advance^[k] s := by
    intro k
    induction k with
    | zero => exact fun _ => rfl
    | succ k ih => exact fun s => ih s.advance
  exact congrArg Scanner.current (hrun (n + 1) s.start).symm

/-- The error of a token in a slot is at a place of the text that fits the token. -/
theorem inPlace_run (settings : Settings) (source : String) (ops : List Operation) (slot : Slot)
    (d : Diagnostic) :
    let t := ((ofSource settings (ByteCursor.ofString source)).run ops).token slot
    t.error? = some d → d.InPlace source t := by
  intro t hd
  have hfits := (slotInvariant_fits settings source.toList).run ops slot
  rw [← ByteCursor.ofString_eq_fresh] at hfits
  exact (hfits.2 d hd).inPlace

/-- So is the error of a token that the scanner is moved onto. -/
theorem inPlace_stream (settings : Settings) (source : String) (n : Nat) (d : Diagnostic) :
    let t := (ofSource settings (ByteCursor.ofString source)).start.stream n
    t.error? = some d → d.InPlace source t := by
  rw [stream_eq_token]
  exact inPlace_run settings source _ .current d

end Scanner

namespace Listing

/-- The errors of a listing are in the order in which they start. -/
theorem pairwise_errors (settings : Settings) (source : String) :
    (tokenize settings source).errors.toList.Pairwise fun d d' => d.span.start ≤ d'.span.start := by
  obtain ⟨n, htokens, -⟩ := tokens_ofSource settings (ByteCursor.ofString source)
  rw [tokenize, errors_ofSource, htokens, List.pairwise_filterMap, List.pairwise_map]
  apply List.pairwise_lt_range.imp
  intro j k hjk d hd d' hd'
  -- the error of a token starts before the next token does
  calc d.span.start
    _ ≤ _ := (Scanner.inPlace_stream settings source j d hd).le_stop
    _ ≤ _ := (Scanner.span_stream_of_lt settings source hjk).2
    _ ≤ d'.span.start := (Scanner.inPlace_stream settings source k d' hd').start_le

/-- The errors of a listing are shown where they are. -/
theorem clamp_of_mem_errors {settings : Settings} {source : String} {d : Diagnostic}
    (hd : d ∈ (tokenize settings source).errors) : d.span.clamp source.utf8ByteSize = d.span := by
  rw [← Array.mem_toList_iff, tokenize, errors_ofSource, List.mem_filterMap] at hd
  obtain ⟨t, ht, hd⟩ := hd
  obtain ⟨n, rfl⟩ := exists_stream_of_mem (Array.mem_toList_iff.1 ht)
  have hplace := Scanner.inPlace_stream settings source n d hd
  exact Span.clamp_eq_self hplace.ordered hplace.stop_le

/-- The strict diagnostics of a listing are shown where they are, at the places of tokens. -/
theorem clamp_of_mem_strictDiagnostics {settings : Settings} {source : String} {d : Diagnostic}
    (hd : d ∈ (tokenize settings source).strictDiagnostics) :
    d.span.clamp source.utf8ByteSize = d.span := by
  rw [← Array.mem_toList_iff, tokenize, strictDiagnostics_ofSource, List.mem_filterMap] at hd
  obtain ⟨t, ht, hd⟩ := hd
  obtain ⟨n, rfl⟩ := exists_stream_of_mem (Array.mem_toList_iff.1 ht)
  rw [Token.span_of_strictDiagnostic? hd]
  exact Span.clamp_eq_self (Scanner.span_stream_of_lt settings source (Nat.lt_succ_self n)).1
    (Scanner.stop_stream_le settings source n)

end Listing

/-- **Errors are in the text and in order.**  Whatever a scanner is told to do, the error of a
token in a slot is at a place that starts in the token, or right after it, and is one of the
text.  So are the errors of the tokens in a listing.  The errors of a listing are in the
order in which they start, and a report shows these and the strict diagnostics as they are. -/
theorem errors_inPlace (settings : Settings) (source : String) :
    (∀ (ops : List Operation) (slot : Slot) (d : Diagnostic),
      let t := ((Scanner.ofSource settings (ByteCursor.ofString source)).run ops).token slot
      t.error? = some d → d.InPlace source t) ∧
    let listing := tokenize settings source
    (∀ t ∈ listing.tokens, ∀ d, t.error? = some d → d.InPlace source t) ∧
      listing.errors.toList.Pairwise (fun d d' => d.span.start ≤ d'.span.start) ∧
      (∀ d ∈ listing.errors, d.span.clamp source.utf8ByteSize = d.span) ∧
      ∀ d ∈ listing.strictDiagnostics, d.span.clamp source.utf8ByteSize = d.span := by
  refine ⟨Scanner.inPlace_run settings source, ?_, Listing.pairwise_errors settings source, ?_, ?_⟩
  · intro t ht d hd
    obtain ⟨n, rfl⟩ := Listing.exists_stream_of_mem ht
    exact Scanner.inPlace_stream settings source n d hd
  · exact fun d hd => Listing.clamp_of_mem_errors hd
  · exact fun d hd => Listing.clamp_of_mem_strictDiagnostics hd

end EcmaLex
