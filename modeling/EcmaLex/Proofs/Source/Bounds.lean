import EcmaLex.Proofs.Source.Checked

/-!
# The cursor stays in its text

A step back is taken on the word of the caller, who may name any character at any time.  The cursor
then stands at some offset before the one it stood at, perhaps inside a character, and from there on
reads whatever width the byte announces that it finds.  It stays in its text all the same.  Every
offset up to the end of a text lies at the first byte of a character, or at a later one, which
announces no other; so what is read ends in the text.

All offsets are thus at most the length of the text, and at its end there is still a byte to look
at.  So no check ever fails, and as each character that is read moves the cursor on, no reading goes
on for longer than there are bytes.

## Main definitions

* `ByteCursor.InBounds` — the offsets are in their order, up to a byte after the text.

## Main results

* `Checked.run_eq` — no moves fail a check.
* `ByteCursor.Inside.advanceUntil_eq_advance` — reading on takes no more steps than there are bytes.
* `ByteCursor.inBounds_run` — **the cursor never leaves its bytes**, even when it is misused.
-/

namespace EcmaLex

namespace Checked

/-- No moves of a cursor inside its text fail a check. -/
theorem run_eq {text : List Char} {s : ByteCursor} (h : s.Inside text)
    (hword : s.text.size < UInt32.size) (moves : List SourceMove) :
    run s moves = .ok (SourceMove.run s moves) := by
  induction moves generalizing s with
  | nil => rfl
  | cons move moves ih =>
    have hnext := h.perform move
    have htext : (move.perform s).text = s.text := hnext.text_eq.trans h.text_eq.symm
    rw [run, perform_eq h hword, ok_bind, SourceMove.run]
    exact ih hnext (htext ▸ hword)

/-- A lead byte without the bytes that it announces takes the cursor out of a text that is none. -/
example : run ⟨⟨⟨#[0xF0, 0]⟩, 1⟩, 0, 0⟩ [.advance, .skipTo .asterisk] = .error .slice := rfl

end Checked

namespace ByteCursor

/-- The offsets of the cursor are in their order, and after its text there is another byte. -/
structure InBounds (s : ByteCursor) : Prop where
  /-- The current character is not after the next one. -/
  current_le : s.current ≤ s.next
  /-- The next character is in the text, or the text ends there. -/
  next_le : s.next ≤ s.text.size
  /-- The text is not all of the bytes. -/
  size_lt : s.text.size < s.text.bytes.size

/-! ### The order of the offsets -/

/-- A character that is read moves the cursor on. -/
theorem next_lt_of_advance {s s' : ByteCursor} {c : Char} (h : advance s = (some c, s')) :
    s.next < s'.next := by
  cases hread : s.text.decodeAt s.next with
  | none =>
    rw [advance_of_decodeAt_eq_none hread] at h
    cases h
  | some read =>
    rw [advance_of_decodeAt_eq_some hread] at h
    cases h
    exact Nat.lt_add_of_pos_right (PaddedText.decodeAt_width_pos hread)

/-- After reading, the current character is where the next one was. -/
theorem current_le_advance (s : ByteCursor) : s.advance.2.current ≤ s.advance.2.next := by
  cases hread : s.text.decodeAt s.next with
  | none => exact Nat.le_of_eq (by rw [advance_of_decodeAt_eq_none hread])
  | some read =>
    rw [advance_of_decodeAt_eq_some hread]
    exact Nat.le_add_right _ _

theorem current_le_advanceUntil (stop : Char → Bool) (s : ByteCursor) :
    (TextSource.advanceUntil stop s).2.current ≤ (TextSource.advanceUntil stop s).2.next := by
  fun_induction TextSource.advanceUntil stop s with
  | case1 s s' hread =>
    have hle := s.current_le_advance
    rwa [show s.advance = (none, s') from hread] at hle
  | case2 s c s' hread hstop =>
    have hle := s.current_le_advance
    rwa [show s.advance = (some c, s') from hread] at hle
  | case3 s c s' hread hstop ih => exact ih

/-- No move changes the order of the offsets. -/
theorem current_le_perform {s : ByteCursor} (h : s.current ≤ s.next) (move : SourceMove) :
    (move.perform s).current ≤ (move.perform s).next := by
  cases move with
  | advance => exact s.current_le_advance
  | peek => exact h
  | advanceUntil stop => exact current_le_advanceUntil stop s
  | pushBack previous => exact Nat.sub_le _ _
  | skipTo l => exact current_le_advance _

theorem current_le_run {s : ByteCursor} (h : s.current ≤ s.next) (moves : List SourceMove) :
    (SourceMove.run s moves).current ≤ (SourceMove.run s moves).next := by
  induction moves generalizing s with
  | nil => exact h
  | cons move moves ih => exact ih (current_le_perform h move)

/-! ### The length of a search -/

namespace Inside

variable {text : List Char} {s : ByteCursor}

theorem inBounds (h : s.Inside text) (hle : s.current ≤ s.next) : s.InBounds := by
  refine ⟨hle, h.next_le, ?_⟩
  rw [h.text_eq]
  exact Checked.size_lt_size_bytes text

/-- Reading on is to read one character after the other, no more often than there are bytes, until
one satisfies `stop` or none is left.  The induction is on the steps of reading on. -/
theorem advanceUntil_eq_advance (h : s.Inside text) (stop : Char → Bool) :
    ∃ n ≤ s.text.size - s.next,
      let before := SourceMove.run s (List.replicate n .advance)
      TextSource.advanceUntil stop s = before.advance ∧
        ∀ c, before.advance.1 = some c → stop c = true := by
  fun_induction TextSource.advanceUntil stop s with
  | case1 s s' hread =>
    have hread : s.advance = (none, s') := hread
    refine ⟨0, Nat.zero_le _, hread.symm, fun c hc => ?_⟩
    rw [show (SourceMove.run s (List.replicate 0 .advance)).advance = (none, s') from hread] at hc
    cases hc
  | case2 s c s' hread hstop =>
    have hread : s.advance = (some c, s') := hread
    refine ⟨0, Nat.zero_le _, hread.symm, fun d hd => ?_⟩
    rw [show (SourceMove.run s (List.replicate 0 .advance)).advance = (some c, s') from hread] at hd
    cases hd
    exact hstop
  | case3 s c s' hread hstop ih =>
    have hread : s.advance = (some c, s') := hread
    have hnext : s'.Inside text := by
      have ha := h.advance
      rwa [hread] at ha
    obtain ⟨n, hn, heq, hlast⟩ := ih hnext
    -- one more character is read before
    have hrun : SourceMove.run s (List.replicate (n + 1) .advance) =
        SourceMove.run s' (List.replicate n .advance) := by
      show SourceMove.run s.advance.2 _ = _
      rw [hread]
    have hlt := next_lt_of_advance hread
    have hle := hnext.next_le
    rw [hnext.text_eq, ← h.text_eq] at hn hle
    refine ⟨n + 1, by omega, ?_⟩
    rw [hrun]
    exact ⟨heq, hlast⟩

end Inside

/-! ### All moves -/

theorem findLandmark_le {text : List Char} {s : ByteCursor} (h : s.Inside text) (l : Landmark) :
    s.text.findLandmark l s.next ≤ s.text.size := by
  obtain ⟨i?, -, hlt, hfound⟩ := Checked.firstDelimiter_eq
    (show s.next ≤ (PaddedText.ofChars text).size from h.text_eq ▸ h.next_le) l
  rw [← h.text_eq] at hlt hfound
  rw [hfound]
  cases i? with
  | none => exact Nat.le_refl _
  | some i => exact Nat.le_of_lt (hlt i rfl)

/-- **The cursor never leaves its bytes**, even when it is misused.  For every text of fewer bytes
than the greatest machine word counts, and whatever moves are made from its beginning on, with any
steps back at any time: no check fails on the way, and afterwards the offsets are in their order and
in the text, with a byte behind it.  A character that is read moves the cursor on, so that reading
on comes to an end after no more characters than there are bytes left.  And before a search reads,
the offset that it has found is in the text as well. -/
theorem inBounds_run (source : String) (hsize : source.utf8ByteSize < UInt32.size - 1)
    (moves : List SourceMove) :
    let s := SourceMove.run (ofString source) moves
    Checked.run (ofString source) moves = .ok s ∧ s.text.size = source.utf8ByteSize ∧ s.InBounds ∧
      (∀ c s', s.advance = (some c, s') → s.next < s'.next) ∧
      (∀ stop, ∃ n ≤ s.text.size - s.next,
        let before := SourceMove.run s (List.replicate n .advance)
        TextSource.advanceUntil stop s = before.advance ∧
          ∀ c, before.advance.1 = some c → stop c = true) ∧
      ∀ l, let found := { s with next := s.text.findLandmark l s.next }
        found.InBounds ∧
          ∀ c s', s.skipTo l = (some c, s') → s.next ≤ found.next ∧ found.next < s'.next := by
  intro s
  have hstart : (ofString source).Inside source.toList := Inside.ofString source
  have hinside : s.Inside source.toList := hstart.run moves
  have hle : s.current ≤ s.next := current_le_run (Nat.le_refl 0) moves
  have hbounds := hinside.inBounds hle
  have hlength : ∀ t : ByteCursor, t.Inside source.toList → t.text.size = source.utf8ByteSize := by
    intro t ht
    rw [ht.text_eq, PaddedText.ofChars, String.ofList_toList]
    rfl
  refine ⟨Checked.run_eq hstart ?_ moves, hlength s hinside, hbounds, fun c s' => next_lt_of_advance,
    hinside.advanceUntil_eq_advance, fun l => ⟨?_, fun c s' h => ?_⟩⟩
  · rw [hlength _ hstart]
    omega
  · exact ⟨Nat.le_trans hle (s.text.le_findLandmark l s.next), findLandmark_le hinside l,
      hbounds.size_lt⟩
  · -- a search is one step of reading, from the place that was found
    exact ⟨s.text.le_findLandmark l s.next, next_lt_of_advance h⟩

/-- Two steps back, both told the wrong character, leave the cursor inside the first one. -/
theorem inBounds_run_misused :
    let moves := [SourceMove.advance, .advance, .pushBack 'x', .pushBack 'x']
    let s := SourceMove.run (ofString "é*") moves
    "é*".utf8ByteSize < UInt32.size - 1 ∧ Checked.run (ofString "é*") moves = .ok s ∧ s.InBounds ∧
      s.next = 1 ∧ s.advance.1 = some replacementCharacter ∧ s.next < s.advance.2.next ∧
      (s.skipTo .asterisk).1 = some '*' ∧ s.next < (s.skipTo .asterisk).2.next := by
  intro moves s
  have hsize : "é*".utf8ByteSize < UInt32.size - 1 := by decide
  obtain ⟨hrun, -, hbounds, hnext, -, hsearch⟩ := inBounds_run "é*" hsize moves
  have hread : s.advance.1 = some replacementCharacter := by decide +kernel
  have hfound : (s.skipTo .asterisk).1 = some '*' := by decide +kernel
  obtain ⟨hle, hlt⟩ := (hsearch .asterisk).2 '*' (s.skipTo .asterisk).2 (Prod.ext hfound rfl)
  exact ⟨hsize, hrun, hbounds, by decide +kernel, hread,
    hnext replacementCharacter s.advance.2 (Prod.ext hread rfl), hfound, Nat.lt_of_le_of_lt hle hlt⟩

end ByteCursor

end EcmaLex
