import EcmaLex.Proofs.Simulation.Alongside
import EcmaLex.Proofs.Simulation.Scanner
import EcmaLex.Proofs.Source.ByteCursor
import EcmaLex.Proofs.Source.CodePoints
import EcmaLex.Proofs.Source.Searches
import EcmaLex.Proofs.Source.Stepwise

/-!
# What a scanner makes of a text does not depend on its source

Two scanners over exact sources of the same text do the same on every operation, from
the state in which they were made on.  Only the offsets depend on the source, and
these are at corresponding places.

A source of its own searches and one that reads on character by character count alike,
so that the scanners over them cannot be told apart.  The byte cursor and a source of
code points count differently: an offset of the one is that many characters on in the
other.

## Main definitions

* `Reader.Together` — readers at the same place of a text, or both before it.
* `Scanner.stepwise` — the scanner whose source is stripped of its own searches.
* `ByteOffset` — the offset in bytes of the character at an index.

## Main results

* `Scanner.run_together` — **scanners of the same text stay together**.
* `Scanner.searches_agree` — **the byte searches find what reading on finds**, in every state
  of a cursor, and no scanner can tell them apart.
* `Scanner.run_codePoints` — **the unit of the offsets does not matter**.
-/

namespace EcmaLex

open ExactSource

variable {σ τ : Type} [ExactSource σ] [ExactSource τ]

/-! ### Readers of the same text -/

/-- The readers are at the same place of a text, or they have not been moved yet. -/
def Reader.Together (text : List Char) (r : Reader σ) (r' : Reader τ) : Prop :=
  Alongside [] text [] r r' ∨ r = .ofSource (fresh text) ∧ r' = .ofSource (fresh text)

namespace Reader

variable {text : List Char} {r : Reader σ} {r' : Reader τ} {c : Char}

/-- With a character under the head, the readers have been moved. -/
theorem Together.alongside (h : Together text r r') (hc : r.char? = some c) :
    Alongside [] text [] r r' := by
  rcases h with h | ⟨rfl, -⟩
  · exact h
  · cases hc

/-- The readers are moved on together, whatever is under their heads. -/
theorem Together.advance (h : Together text r r') : Together text r.advance r'.advance := by
  left
  rcases h with ⟨before, after, rfl, rfl, rfl⟩ | ⟨rfl, rfl⟩
  · cases after with
    | nil =>
      refine ⟨before, [], rfl, ?_, ?_⟩
      · exact advance_between_nil before
      · exact advance_between_nil before
    | cons c after =>
      refine ⟨before ++ [c], after, ?_, ?_, ?_⟩
      · simp
      · simp
      · simp
  · refine ⟨[], text, rfl, advance_ofSource_fresh text, ?_⟩
    rw [advance_ofSource_fresh, List.append_nil, List.append_nil]

/-- The moves keep readers of the same text together. -/
theorem simulation_together (text : List Char)
    (hwidth : ∀ c, isAscii c = true → ExactSource.width σ c = ExactSource.width τ c) :
    Simulation none (SamePlace σ τ [] text) (Together text : Reader σ → Reader τ → Prop) := by
  have h : Simulation none (SamePlace σ τ [] text)
      (Alongside [] text [] : Reader σ → Reader τ → Prop) :=
    simulation_alongside [] text [] (fun d hd => by cases hd) hwidth
  exact
    { blank := h.blank
      line := h.line
      char? := by
        rintro r r' (hr | ⟨rfl, rfl⟩)
        · exact h.char? hr
        · rfl
      position := by
        rintro r r' (hr | ⟨rfl, rfl⟩)
        · exact h.position hr
        · refine ⟨[], List.nil_prefix, ?_, ?_⟩
          · exact position_fresh text
          · exact position_fresh text
      advance := fun hr hc => .inl (h.advance (hr.alongside hc) hc)
      width := fun hr hc => h.width (hr.alongside hc) hc
      peek := fun hr hc => h.peek (hr.alongside hc) hc
      pushBack := fun hr hc => .inl (h.pushBack (hr.alongside (beq_iff_eq.1 hc)) hc)
      skipTo := fun l hr hc => (h.skipTo l (hr.alongside hc) hc).imp .inl id }

end Reader

/-! ### Scanners of the same text -/

namespace Scanner

/-- Scanning keeps scanners of the same text together. -/
theorem simulation_together (text : List Char)
    (hwidth : ∀ c, isAscii c = true → ExactSource.width σ c = ExactSource.width τ c) :
    Simulation (SamePlace σ τ [] text) (Reader.Together text : Reader σ → Reader τ → Prop)
      (Findings.Matches (SamePlace σ τ [] text)) where
  moves := Reader.simulation_together text hwidth
  notes := Findings.congruence_matches _
  dropOctal h := ⟨h.htmlComment, h.sourceUrl?, h.sourceMappingUrl?, .none⟩

theorem matches_ofSource (settings : Settings) (text : List Char) :
    (ofSource settings (fresh text : σ)).Matches (SamePlace σ τ [] text) (Reader.Together text)
      (Findings.Matches (SamePlace σ τ [] text)) (ofSource settings (fresh text : τ)) where
  settings := rfl
  reader := .inr ⟨rfl, rfl⟩
  findings := ⟨rfl, rfl, rfl, .none⟩
  current := .inr ⟨rfl, rfl⟩
  next := .inr ⟨rfl, rfl⟩
  afterNext := .inr ⟨rfl, rfl⟩

/-- **Scanners of the same text stay together**, and answer alike, whatever they are told
to do. -/
theorem run_together (hwidth : ∀ c, isAscii c = true →
      ExactSource.width σ c = ExactSource.width τ c)
    (settings : Settings) (text : List Char) (ops : List Operation) :
    let s := (ofSource settings (fresh text : σ)).run ops
    let s' := (ofSource settings (fresh text : τ)).run ops
    s.Matches (SamePlace σ τ [] text) (Reader.Together text)
        (Findings.Matches (SamePlace σ τ [] text)) s' ∧
      ∀ op : Operation, (op.perform s).1.Matches (SamePlace σ τ [] text) (op.perform s').1 := by
  intro s s'
  have h := simulation_together text hwidth
  have hs := h.run Reader.Together.advance SamePlace.eq_zero_iff
    (matches_ofSource settings text) ops
  exact ⟨hs, fun op => (h.perform Reader.Together.advance SamePlace.eq_zero_iff hs op).1⟩

/-! ### Searches -/

/-- The scanner whose source is stripped of its own searches. -/
def stepwise (s : Scanner σ) : Scanner (Stepwise σ) where
  settings := s.settings
  reader := ⟨⟨s.reader.source⟩, s.reader.char?⟩
  findings := s.findings
  current := s.current
  next := s.next
  afterNext := s.afterNext

/-- Sources that count alike are at equal offsets. -/
theorem eq_of_samePlace {text : List Char} {p p' : Nat}
    (h : SamePlace σ (Stepwise σ) [] text p p') : p' = p := by
  obtain ⟨before, -, rfl, rfl⟩ := h
  rfl

theorem source_of_together {text : List Char} {r : Reader σ} {r' : Reader (Stepwise σ)}
    (h : Reader.Together text r r') : r' = ⟨⟨r.source⟩, r.char?⟩ := by
  rcases h with ⟨before, after, rfl, rfl, rfl⟩ | ⟨rfl, rfl⟩
  · rw [List.nil_append, List.append_nil]
    rfl
  · rfl

theorem eq_stepwise_of_matches {text : List Char} {s : Scanner σ} {s' : Scanner (Stepwise σ)}
    (h : s.Matches (SamePlace σ (Stepwise σ) [] text) (Reader.Together text)
      (Findings.Matches (SamePlace σ (Stepwise σ) [] text)) s') : s' = s.stepwise := by
  have hreader := source_of_together h.reader
  have hfindings := h.findings.eq eq_of_samePlace
  have hcurrent := h.current.eq eq_of_samePlace
  have hnext := h.next.eq eq_of_samePlace
  have hafterNext := h.afterNext.eq eq_of_samePlace
  have hsettings := h.settings
  obtain ⟨settings', reader', findings', current', next', afterNext'⟩ := s'
  dsimp only at hreader hfindings hcurrent hnext hafterNext hsettings
  rw [hreader, hfindings, hcurrent, hnext, hafterNext, hsettings]
  rfl

/-- **The byte searches find what reading on finds.**  They do so in every state that a
cursor over a string can be brought into, the states included in which it stands
inside a character.  A scanner over a cursor that only reads on does the same and
answers the same, whatever it is told to do. -/
theorem searches_agree (source : String) :
    (∀ (moves : List SourceMove) (l : Landmark),
      let s := SourceMove.run (ByteCursor.ofString source) moves
      SearchableSource.skipTo l s = TextSource.advanceUntil l.isAt s) ∧
    ∀ (settings : Settings) (ops : List Operation),
      let s := (ofSource settings (ByteCursor.ofString source)).run ops
      let s' := (ofSource settings (Stepwise.mk (ByteCursor.ofString source))).run ops
      s' = s.stepwise ∧ ∀ op : Operation, (op.perform s').1 = (op.perform s).1 := by
  constructor
  · intro moves l
    exact ((ByteCursor.Inside.ofString source).run moves).skipTo_eq l
  · intro settings ops
    have hrun := run_together (σ := ByteCursor) (τ := Stepwise ByteCursor) (fun _ _ => rfl)
      settings source.toList ops
    rw [Stepwise.fresh_eq, ← ByteCursor.ofString_eq_fresh] at hrun
    obtain ⟨hs, hreply⟩ := hrun
    exact ⟨eq_stepwise_of_matches hs, fun op => (hreply op).eq eq_of_samePlace⟩

end Scanner

/-! ### Units -/

/-- The offset in bytes of the character at an index, or of the end of the text. -/
def ByteOffset (text : String) (index offset : Nat) : Prop :=
  index ≤ text.length ∧ offset = (String.ofList (text.toList.take index)).utf8ByteSize

/-- The same place is at the index of a character, and at its offset in bytes. -/
theorem samePlace_eq_byteOffset (text : String) :
    SamePlace CodePoints ByteCursor [] text.toList = ByteOffset text := by
  ext index offset
  constructor
  · rintro ⟨before, ⟨after, hsplit⟩, rfl, rfl⟩
    have htake : text.toList.take before.length = before := by
      rw [← hsplit, List.take_left]
    have hlength : before.length ≤ text.length := by
      rw [← String.length_toList, ← hsplit, List.length_append]
      exact Nat.le_add_right _ _
    rw [CodePoints.extent_eq_length, ByteCursor.extent_eq_utf8ByteSize, List.nil_append]
    exact ⟨hlength, by rw [htake]⟩
  · rintro ⟨hindex, rfl⟩
    refine ⟨text.toList.take index, List.take_prefix _ _, ?_, ?_⟩
    · rw [CodePoints.extent_eq_length, List.length_take, String.length_toList]
      exact (Nat.min_eq_left hindex).symm
    · rw [List.nil_append, ByteCursor.extent_eq_utf8ByteSize]

/-- **The unit of the offsets does not matter.**  After any operations, a scanner that counts
characters and one that counts bytes hold the same tokens, have noted the same, and
answer every further operation alike.  Where the one has the index of a character, the
other has the offset of that character in bytes.  Whether one byte is enough for each
character of a token, and which number it denotes, is told by its text and so the same. -/
theorem Scanner.run_codePoints (settings : Settings) (text : String) (ops : List Operation) :
    let s := (ofSource settings (CodePoints.ofString text)).run ops
    let s' := (ofSource settings (ByteCursor.ofString text)).run ops
    (∀ slot, (s.token slot).Alike (ByteOffset text) (s'.token slot)) ∧
      s.findings.Matches (ByteOffset text) s'.findings ∧
      ∀ op : Operation, (op.perform s).1.Matches (ByteOffset text) (op.perform s').1 := by
  intro s s'
  have hascii : ∀ c, isAscii c = true →
      ExactSource.width CodePoints c = ExactSource.width ByteCursor c := by
    intro c hc
    have hle : c.toNat < 128 := of_decide_eq_true hc
    exact (Char.utf8Size_eq_one_iff.2 (UInt32.le_iff_toNat_le.2 (Nat.le_of_lt_succ hle))).symm
  have hrun := run_together hascii settings text.toList ops
  rw [← ByteCursor.ofString_eq_fresh, ← CodePoints.ofString_eq_fresh,
    samePlace_eq_byteOffset] at hrun
  obtain ⟨hs, hreply⟩ := hrun
  exact ⟨hs.token, hs.findings, hreply⟩

end EcmaLex
