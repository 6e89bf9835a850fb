import EcmaLex.Proofs.Listing.ErrorPlaces
import EcmaLex.Proofs.Scanner.LegacyOctal

/-!
# Scanning addressable texts

Offsets are machine words, but the numbers that stand for them here know no bound.  A number tells
what is in a word only as long as it is not too large for one, and what is shown of the places in a
text is shown of the numbers.

So nothing may get too large.  As long as the text is addressable nothing does, since every token
that is scanned covers characters of the text, and so does what is reported of it.  The literal that
is kept for strict mode code was in a slot when it was scanned.

## Main definitions

* `Token.Located` — the token covers characters of the text.

## Main results

* `Scanner.slotInvariant_located` — tokens in slots cover characters of the text.
* `Scanner.representable_run` — **no offset is too large**, after any operations.
* `Scanner.stream_covers` — **the tokens and the gaps are the text**.
-/

namespace EcmaLex

open Reader

/-! ### Tokens in slots -/

section Slots

variable {text : List Char} {settings : Settings}

/-- What the reader has passed covers characters of the text. -/
theorem Reader.From.fits {start : Nat} {r : Reader ByteCursor} (h : From text start r) :
    Span.Fits text 0 (extent ByteCursor text) ⟨start, r.position⟩ :=
  ⟨Nat.zero_le _, h.isPlace_start.le_extent, h.le, h.isPlace_start, h.isPlace⟩

/-- The reader is between two characters of the text. -/
theorem Reader.Placed.isPlace {r : Reader ByteCursor} (h : Placed text r) :
    IsPlace text r.position := by
  rcases h with rfl | h
  · exact ⟨[], text, rfl, (ExactSource.position_fresh (σ := ByteCursor) text).symm⟩
  · exact From.isPlace ⟨[], text, rfl, rfl, h⟩

/-- The token covers characters of the text, unless it has never been scanned. -/
def Token.Located (text : List Char) (t : Token) : Prop :=
  t.span = .unlocated ∨ t.span.Fits text 0 (extent ByteCursor text)

theorem located_scanToken {r : Reader ByteCursor} (h : Placed text r) (lineBreak : Bool)
    (findings : Findings) : (scanToken settings lineBreak findings r).token.Located text := by
  right
  rcases exists_step_of_scanToken h settings lineBreak findings with
    ⟨_, ht, -⟩ | ⟨passed, rest, lineBreak', findings', _, _, l, rfl, hs, ht, -⟩
  · -- before the text there is nothing to cover
    have hplace : IsPlace text 0 := ⟨[], text, rfl, rfl⟩
    rw [ht]
    exact ⟨Nat.le_refl 0, Nat.zero_le _, Nat.le_refl 0, hplace, hplace⟩
  · have hwithin := within_reader_step (σ := ByteCursor) settings lineBreak' findings' passed rest
    rw [hs] at hwithin
    rw [ht]
    exact Reader.From.fits ⟨passed, rest, rfl, rfl, hwithin⟩

/-- Tokens in slots cover characters of the text.  What a piece of a template covers begins with
the brace that it replaces, and the brace stands before the reader. -/
theorem Scanner.slotInvariant_located (settings : Settings) (text : List Char) :
    SlotInvariant settings text fun (r : Reader ByteCursor) t =>
      (∀ p, t.kind = .punctuator p → t.Stands text p r) ∧ t.Located text := by
  have hstands := slotInvariant_stands (σ := ByteCursor) settings text
  exact
    { absent := fun r => ⟨hstands.absent r, .inl rfl⟩
      erase := fun h => ⟨hstands.erase h.1, h.2⟩
      movesTo := fun hr h => ⟨hstands.movesTo hr h.1, h.2⟩
      scan := fun lineBreak findings hr =>
        ⟨hstands.scan lineBreak findings hr, located_scanToken hr _ _⟩
      piece := fun lineBreak hr hk h =>
        have hfrom := (from_invariant text _).templatePiece _ (h.1 _ hk).readerFrom
        ⟨hstands.piece lineBreak hr hk h.1, .inr hfrom.fits⟩ }

end Slots

/-! ### Offsets -/

/-- Every place in an addressable text is an offset. -/
theorem IsPlace.le_maxOffset {source : String} {n : Nat} (h : IsPlace source.toList n)
    (hsource : Addressable source) : n ≤ Span.maxOffset := by
  have hle := h.le_extent
  rw [ByteCursor.extent_eq_utf8ByteSize, String.ofList_toList] at hle
  exact Nat.le_trans hle hsource

namespace Scanner

theorem representable_span (settings : Settings) {source : String} (hsource : Addressable source)
    (ops : List Operation) (slot : Slot) :
    (((ofSource settings (ByteCursor.ofString source)).run ops).token slot).span.Representable := by
  have hlocated := ((slotInvariant_located settings source.toList).run ops slot).2
  rw [← ByteCursor.ofString_eq_fresh] at hlocated
  rcases hlocated with h | h
  · rw [h]
    exact Span.representable_unlocated
  · exact Span.representable_of_le h.ordered (h.isPlace_stop.le_maxOffset hsource)

/-- **No offset is too large.**  Whatever a scanner is told to do, in an addressable text the place
of its reader is an offset, and the ends of all spans are: those of the tokens in its slots, of what
is wrong with these, and of the literal that is kept for strict mode code. -/
theorem representable_run (settings : Settings) {source : String} (hsource : Addressable source)
    (ops : List Operation) :
    let s := (ofSource settings (ByteCursor.ofString source)).run ops
    s.reader.position ≤ Span.maxOffset ∧
      (∀ slot, (s.token slot).span.Representable ∧
        ∀ d, (s.token slot).error? = some d → d.span.Representable) ∧
      ∀ d, s.findings.octal? = some d → d.span.Representable := by
  intro s
  refine ⟨?_, fun slot => ⟨representable_span settings hsource ops slot, fun d hd => ?_⟩,
    fun d hd => ?_⟩
  · have hplaced := ((Grounded.ofSource (σ := ByteCursor) settings source.toList).run ops).placed
    rw [← ByteCursor.ofString_eq_fresh] at hplaced
    exact hplaced.isPlace.le_maxOffset hsource
  · have hplace := inPlace_run settings source ops slot d hd
    exact Span.representable_of_le hplace.ordered (Nat.le_trans hplace.stop_le hsource)
  · obtain ⟨earlier, slot, ht⟩ := exists_octal?_eq hd
    rw [Token.span_of_strictDiagnostic? ht]
    exact representable_span settings hsource earlier slot

/-! ### The whole text -/

/-- **The tokens and the gaps are the text.**  An addressable text has no more tokens than bytes,
and ends of input after these, which are at the end of the text.  The ends of all tokens are
offsets.  The tokens are in order, none but the end of input is empty, and the text from the end of
a token, or from the start of the text, to the start of the next one is a row of pieces. -/
theorem stream_covers (settings : Settings) {source : String} (hsource : Addressable source) :
    let token := (ofSource settings (ByteCursor.ofString source)).start.stream
    ∃ count ≤ source.utf8ByteSize,
      (∀ n, (token n).kind = .endOfInput ↔ count ≤ n) ∧
      (∀ n, (token n).span.Representable) ∧
      (∀ n < count, (token n).span.start < (token n).span.stop) ∧
      (∀ n, count ≤ n → (token n).span = ⟨source.utf8ByteSize, source.utf8ByteSize⟩) ∧
      (∀ n, (token n).span.stop ≤ (token (n + 1)).span.start) ∧
      ∀ n, ∃ before gap after : List Char, source.toList = before ++ gap ++ after ∧
        (String.ofList before).utf8ByteSize = (if n = 0 then 0 else (token (n - 1)).span.stop) ∧
        (String.ofList (before ++ gap)).utf8ByteSize = (token n).span.start ∧
        Gap.Pieces settings (n == 0) (n == 0) gap after := by
  intro token
  have hplain : (ofSource settings (ByteCursor.ofString source)).start.Plain :=
    plain_start settings _
  obtain ⟨count, hcount⟩ := hplain.exists_stream_eq_endOfInput_iff
  have hspan := span_stream (σ := ByteCursor) settings source.toList
  have hbound := count_le_extent (σ := ByteCursor) settings source.toList count
  have hfollows := exists_follows_iterate (σ := ByteCursor) settings source.toList
  rw [ByteCursor.extent_eq_utf8ByteSize, String.ofList_toList, ← ByteCursor.ofString_eq_fresh]
    at hspan hbound
  rw [← ByteCursor.ofString_eq_fresh] at hfollows
  refine ⟨count, hbound fun n hn he => ?_, hcount, fun n => ?_, fun n hn => ?_, fun n hn => ?_,
    fun n => ?_, fun n => ?_⟩
  · exact absurd ((hcount n).1 he) (Nat.not_le.2 hn)
  · -- the token gets into a slot when the scanner is moved onto it
    have htoken : token n = _ := stream_eq_token (ofSource settings (ByteCursor.ofString source)) n
    rw [htoken]
    exact ((representable_run settings hsource _).2.1 .current).1
  · exact (hspan n).2.2.1 fun he => absurd ((hcount n).1 he) (Nat.not_le.2 hn)
  · exact (hspan n).2.2.2 ((hcount n).2 hn)
  · exact (hspan n).2.1
  · obtain ⟨before, after, htext, ⟨gap, lexeme, rest, rfl, hpieces, hs, -⟩, hstop⟩ := hfollows n
    rw [← stream_eq_next] at hs
    refine ⟨before, gap, lexeme ++ rest, ?_, ?_, ?_, hpieces⟩
    · rw [htext]
      simp
    · rw [← ByteCursor.extent_eq_utf8ByteSize, hstop]
    · rw [← ByteCursor.extent_eq_utf8ByteSize]
      exact (congrArg Span.start hs).symm

/-- A comment and a line feed between two tokens, after which the text ends. -/
theorem stream_covers_comment :
    let token := (ofSource {} (ByteCursor.ofString "é/*;*/\nz")).start.stream
    Addressable "é/*;*/\nz" ∧
      (token 0).kind = .identifier ∧ (token 0).span = ⟨0, 2⟩ ∧
      (token 1).kind = .identifier ∧ (token 1).span = ⟨8, 9⟩ ∧
      (∃ before gap after : List Char, "é/*;*/\nz".toList = before ++ gap ++ after ∧
        (String.ofList before).utf8ByteSize = 2 ∧ (String.ofList (before ++ gap)).utf8ByteSize = 8 ∧
        Gap.Pieces {} false false gap after) ∧
      ∀ n, 2 ≤ n → (token n).kind = .endOfInput ∧ (token n).span = ⟨9, 9⟩ := by
  intro token
  have hsource : Addressable "é/*;*/\nz" := by decide
  obtain ⟨count, -, hcount, -, -, hend, -, hgap⟩ := stream_covers {} hsource
  have hfirst : (token 0).kind = .identifier ∧ (token 0).span = ⟨0, 2⟩ := by decide +kernel
  have hsecond : (token 1).kind = .identifier ∧ (token 1).span = ⟨8, 9⟩ := by decide +kernel
  have hlast : (token 2).kind = .endOfInput := by decide +kernel
  obtain ⟨before, gap, after, htext, hbefore, hgap, hpieces⟩ := hgap 1
  refine ⟨hsource, hfirst.1, hfirst.2, hsecond.1, hsecond.2,
    ⟨before, gap, after, htext, ?_, ?_, hpieces⟩, fun n hn => ?_⟩
  · exact hbefore.trans (congrArg Span.stop hfirst.2)
  · exact hgap.trans (congrArg Span.start hsecond.2)
  · have hle : count ≤ n := Nat.le_trans ((hcount 2).1 hlast) hn
    exact ⟨(hcount n).2 hle, hend n hle⟩

end Scanner

end EcmaLex
