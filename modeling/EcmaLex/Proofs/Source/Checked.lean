import EcmaLex.Proofs.Source.Searches
import Mathlib.Data.List.Find

/-!
# The byte cursor with its checks

The cursor reads bytes by their index, takes slices of them and adds up machine words.  Each of
these can fail: the index or a bound of the slice may lie outside the bytes, and the sum may not
fit.  `PaddedText.byteAt` and the other functions of the cursor pass over this, since they give some
value in any case.

Here the same moves are written down once more with all of their checks, as a computation that stops
at the first fault.  A search of the bytes gets a slice of them and answers with an index into that.
Separators are looked for in a slice that ends at the byte which the search for single bytes has
found, and each candidate is compared in a slice of its own.

As long as the offsets are inside a text whose length fits into a machine word, no check fails, and
the moves are those of the cursor.

## Main definitions

* `Fault` — what a check can find wrong.
* `Checked.decodeAt`, `Checked.firstDelimiter` — reading a character and searching the bytes.
* `Checked.perform`, `Checked.run` — the moves of the cursor with their checks.

## Main results

* `Checked.decodeAt_eq`, `Checked.firstDelimiter_eq` — inside the text no check fails, and what is
  found is what the cursor finds.
* `Checked.perform_eq` — no move of a cursor inside its text fails a check.
-/

namespace EcmaLex

/-- What a check can find wrong. -/
inductive Fault where
  /-- A byte is read past the last one. -/
  | index
  /-- A slice does not lie inside the bytes. -/
  | slice
  /-- A sum does not fit into a machine word. -/
  | overflow
  deriving DecidableEq, Repr

namespace Checked

/-! ### Single checks -/

/-- The byte at an index. -/
def byteAt (bytes : ByteArray) (i : Nat) : Except Fault UInt8 :=
  if h : i < bytes.size then .ok bytes[i] else .error .index

/-- The bytes from one offset to another. -/
def slice (bytes : ByteArray) (start stop : Nat) : Except Fault ByteArray :=
  if start ≤ stop ∧ stop ≤ bytes.size then .ok (bytes.extract start stop) else .error .slice

/-- The sum of two machine words. -/
def add (a b : Nat) : Except Fault Nat :=
  if a + b < UInt32.size then .ok (a + b) else .error .overflow

theorem byteAt_eq {t : PaddedText} {i : Nat} (h : i < t.bytes.size) :
    byteAt t.bytes i = .ok (t.byteAt i) := by
  rw [byteAt, dif_pos h, PaddedText.byteAt_eq_getElem h]

theorem slice_eq {bytes : ByteArray} {start stop : Nat} (h : start ≤ stop)
    (h' : stop ≤ bytes.size) : slice bytes start stop = .ok (bytes.extract start stop) :=
  if_pos ⟨h, h'⟩

theorem size_slice {bytes : ByteArray} {start stop : Nat} (h : stop ≤ bytes.size) :
    (bytes.extract start stop).size = stop - start := by
  rw [ByteArray.size_extract, Nat.min_eq_left h]

theorem add_eq {a b : Nat} (h : a + b < UInt32.size) : add a b = .ok (a + b) := if_pos h

/-- A step that does not fail hands on its result. -/
theorem ok_bind {α β : Type} (a : α) (f : α → Except Fault β) : (Except.ok a >>= f) = f a := rfl

/-- Where a computation does not fail, neither does its first step. -/
theorem exists_of_bind_eq_ok {α β : Type} {x : Except Fault α} {f : α → Except Fault β} {b : β}
    (h : (x >>= f) = .ok b) : ∃ a, x = .ok a ∧ f a = .ok b := by
  cases x with
  | error fault => cases h
  | ok a => exact ⟨a, rfl, h⟩

/-! ### Reading a character -/

/-- The character that starts at an offset, and its width in bytes.  The bytes of a sequence are cut
off at the end of the text, and they are a character only as a whole. -/
def decodeAt (t : PaddedText) (offset : Nat) : Except Fault (Option (Char × Nat)) := do
  let lead ← byteAt t.bytes offset
  if lead < 0x80 then
    return if lead == 0 && t.size ≤ offset then none else some (Char.ofUInt8 lead, 1)
  else
    let width := leadWidth lead
    let encoding ← slice t.bytes offset (min (← add offset width) t.size)
    let c? := (String.fromUTF8? encoding).bind fun s => s.toList.head?
    return some (c?.getD replacementCharacter, width)

/-- A character takes some bytes, and the first of them was checked. -/
theorem lt_of_decodeAt {t : PaddedText} {offset width : Nat} {c : Char}
    (h : decodeAt t offset = .ok (some (c, width))) : offset < t.bytes.size ∧ 0 < width := by
  obtain ⟨lead, hlead, h⟩ := exists_of_bind_eq_ok h
  have hlt : offset < t.bytes.size := by
    by_contra hge
    rw [byteAt, dif_neg hge] at hlead
    cases hlead
  refine ⟨hlt, ?_⟩
  split at h
  · split at h
    · cases h
    · cases h
      exact Nat.one_pos
  · obtain ⟨stop, -, h⟩ := exists_of_bind_eq_ok h
    obtain ⟨encoding, -, h⟩ := exists_of_bind_eq_ok h
    cases h
    exact leadWidth_pos lead

section Text

open PaddedText

variable {text : List Char}

theorem size_lt_size_bytes (text : List Char) :
    (ofChars text).size < (ofChars text).bytes.size := by
  have hpad := lt_paddedSize (ofChars text).size
  simp only [ofString, String.toUTF8_eq_toByteArray, String.toByteArray_ofList,
    ByteArray.size_append] at hpad ⊢
  show _ < _ + (Array.replicate _ _).size
  rw [Array.size_replicate]
  omega

/-- The slice that a character is decoded from holds just its encoding. -/
theorem extract_append_cons (before : List Char) (c : Char) (after : List Char) :
    (ofChars (before ++ c :: after)).bytes.extract before.utf8Encode.size
      (before.utf8Encode.size + c.utf8Size) = [c].utf8Encode := by
  obtain ⟨pad, hpad⟩ := bytes_ofChars (before ++ c :: after)
  have hc : c.utf8Size = [c].utf8Encode.size := by simp [List.utf8Encode_singleton]
  rw [hpad, List.utf8Encode_append, List.utf8Encode_cons, ByteArray.append_assoc,
    ByteArray.append_assoc, hc]
  -- the bytes before are cut off first, and then those after
  have hcut := ByteArray.extract_append_size_add (a := before.utf8Encode)
    (b := [c].utf8Encode ++ (after.utf8Encode ++ pad)) (i := 0) (j := [c].utf8Encode.size)
  rwa [Nat.add_zero, ByteArray.extract_append_eq_left rfl] at hcut

theorem fromUTF8?_utf8Encode (text : List Char) :
    String.fromUTF8? text.utf8Encode = some (String.ofList text) :=
  dif_pos ByteArray.isValidUTF8_utf8Encode

/-- A slice is no text if the first of its bytes begins no character. -/
theorem fromUTF8?_eq_none {bytes : ByteArray} (h0 : 0 < bytes.size)
    (h : ¬ bytes[0].IsUTF8FirstByte) : String.fromUTF8? bytes = none :=
  dif_neg fun hvalid => h (hvalid.isUTF8FirstByte_getElem_zero h0)

/-- The bytes that a lead byte announces are all in the text, and they are the character that is
decoded there.  At a byte inside a character there is only that byte, and it is no character. -/
theorem fromUTF8?_extract {i : Nat} (h : i < (ofChars text).size) :
    i + leadWidth ((ofChars text).byteAt i) ≤ (ofChars text).size ∧
      (String.fromUTF8?
        ((ofChars text).bytes.extract i (i + leadWidth ((ofChars text).byteAt i)))).bind
          (fun s => s.toList.head?) = (ofChars text).bytes.utf8DecodeChar? i := by
  have hbytes := size_lt_size_bytes text
  have hi : i < (ofChars text).bytes.size := by omega
  have hlt := h
  rw [size_ofChars] at hlt
  obtain ⟨before, c, after, k, rfl, hk, rfl⟩ := exists_char_of_lt_size hlt
  rcases Nat.eq_zero_or_pos k with rfl | hk0
  · -- at the first byte of a character
    have hdecode := utf8DecodeChar?_append_cons before c after
    have hwidth : leadWidth ((ofChars (before ++ c :: after)).byteAt
        (before.utf8Encode.size + 0)) = c.utf8Size := by
      rw [byteAt_eq_getElem hi]
      exact (leadWidth_of_utf8DecodeChar? hdecode hi).1
    rw [hwidth, Nat.add_zero, extract_append_cons, fromUTF8?_utf8Encode, hdecode]
    refine ⟨?_, by simp⟩
    rw [size_ofChars, size_utf8Encode_append, size_utf8Encode_cons]
    omega
  · -- inside a character
    have hfirst := not_isUTF8FirstByte_inside before c after hk0 hk
    obtain ⟨hwidth, -⟩ := leadWidth_of_not_isUTF8FirstByte _ hfirst
    have hsize : 0 < ((ofChars (before ++ c :: after)).bytes.extract
        (before.utf8Encode.size + k) (before.utf8Encode.size + k + 1)).size := by
      rw [size_slice (by omega)]
      omega
    rw [hwidth, utf8DecodeChar?_eq_none hfirst, fromUTF8?_eq_none hsize]
    · exact ⟨h, rfl⟩
    · rw [ByteArray.getElem_extract]
      rwa [byteAt_eq_getElem hi] at hfirst

/-- Up to the end of the text no check fails, and the character is the one that the cursor finds. -/
theorem decodeAt_eq {offset : Nat} (h : offset ≤ (ofChars text).size)
    (hword : (ofChars text).size < UInt32.size) :
    decodeAt (ofChars text) offset = .ok ((ofChars text).decodeAt offset) := by
  have hbytes := size_lt_size_bytes text
  rw [decodeAt, byteAt_eq (by omega), ok_bind, PaddedText.decodeAt]
  dsimp only
  split
  · rfl
  · next hlead =>
    -- the byte after the text is a zero, so that this one is in the text
    have hlt : offset < (ofChars text).size := by
      refine Nat.lt_of_le_of_ne h fun he => hlead ?_
      rw [he, byteAt_of_size_le_ofChars (Nat.le_of_eq (size_ofChars text).symm)]
      decide
    obtain ⟨hle, hdecode⟩ := fromUTF8?_extract hlt
    rw [add_eq (by omega), ok_bind, Nat.min_eq_left hle, slice_eq (by omega) (by omega), ok_bind,
      hdecode]
    rfl

end Text

/-! ### Searching the bytes -/

/-- The index of the first byte that satisfies `p`. -/
def firstIndex (p : UInt8 → Bool) (bytes : ByteArray) : Option Nat :=
  (List.range bytes.size).find? fun i => bytes[i]?.any p

/-- The indexes of all bytes that satisfy `p`, in their order. -/
def indexes (p : UInt8 → Bool) (bytes : ByteArray) : List Nat :=
  (List.range bytes.size).filter fun i => bytes[i]?.any p

/-- Whether the bytes begin with the encoding of a line or paragraph separator. -/
def startsWithSeparator (bytes : ByteArray) : Bool :=
  bytes[0]?.any (· == 0xE2) && bytes[1]?.any (· == 0x80) &&
    bytes[2]?.any fun b => b == 0xA8 || b == 0xA9

/-- The index of the first landmark among the bytes.  A separator is looked for only before the
single byte that was found. -/
def firstDelimiter (l : Landmark) (bytes : ByteArray) : Except Fault (Option Nat) := do
  let hit := firstIndex l.isAtByte bytes
  if l.stopsAtLines then
    let limited ← slice bytes 0 (hit.getD bytes.size)
    let separator ← (indexes (· == 0xE2) limited).findM? fun i => do
      return startsWithSeparator (← slice bytes i bytes.size)
    return separator.or hit
  else return hit

/-- A search of which no test fails is a search by plain tests. -/
theorem findM?_eq {α : Type} {f : α → Except Fault Bool} {p : α → Bool} {l : List α}
    (h : ∀ a ∈ l, f a = .ok (p a)) : l.findM? f = .ok (l.find? p) := by
  induction l with
  | nil => rfl
  | cons a l ih =>
    obtain ⟨ha, hl⟩ := List.forall_mem_cons.1 h
    rw [List.findM?, ha, ok_bind, List.find?_cons]
    cases p a with
    | true => rfl
    | false => exact ih hl

/-- A search from an offset on gives the first place that passes the test, if any. -/
theorem eq_find?_of_search {f : Nat → Nat → Nat} {q : Nat → Bool}
    (h : ∀ i stop, f i stop = if i < stop then if q i then i else f (i + 1) stop else i)
    (i n : Nat) : f i (i + n) = i + ((List.range n).find? fun k => q (i + k)).getD n := by
  induction n generalizing i with
  | zero => simp [h i]
  | succ n ih =>
    rw [h, if_pos (by omega), List.range_succ_eq_map, List.find?_cons, List.find?_map, Nat.add_zero]
    cases hq : q i with
    | true => simp
    | false =>
      have hnext := ih (i + 1)
      rw [show i + 1 + n = i + (n + 1) by omega] at hnext
      rw [if_neg Bool.false_ne_true, hnext]
      have hshift : (fun k => q (i + 1 + k)) = (fun k => q (i + k)) ∘ Nat.succ := by
        funext k
        exact congrArg q (by omega)
      rw [hshift]
      cases (List.range n).find? ((fun k => q (i + k)) ∘ Nat.succ) with
      | none => simp; omega
      | some k => simp; omega

section Search

open PaddedText

variable {text : List Char} {offset : Nat}

theorem findByte_eq (t : PaddedText) (p : UInt8 → Bool) (offset n : Nat) :
    t.findByte p offset (offset + n) =
      offset + ((List.range n).find? fun k => p (t.byteAt (offset + k))).getD n := by
  refine eq_find?_of_search (f := t.findByte p) (q := fun i => p (t.byteAt i))
    (fun i stop => ?_) offset n
  rw [findByte]

theorem findSeparator_eq (t : PaddedText) (offset n : Nat) :
    t.findSeparator offset (offset + n) =
      offset + ((List.range n).find? fun k => t.separatorAt (offset + k)).getD n := by
  refine eq_find?_of_search (f := t.findSeparator) (q := t.separatorAt) (fun i stop => ?_) offset n
  rw [findSeparator]

/-- The bytes of a slice are those from its first offset on. -/
theorem getElem?_extract {t : PaddedText} {start stop k : Nat} (h : stop ≤ t.bytes.size) :
    (t.bytes.extract start stop)[k]? =
      if start + k < stop then some (t.byteAt (start + k)) else none := by
  have hsize : (t.bytes.extract start stop).size = stop - start := size_slice h
  split
  · rw [getElem?_pos _ _ (by omega), ByteArray.getElem_extract, byteAt_eq_getElem (by omega)]
  · rw [getElem?_neg _ _ (by omega)]

theorem any_getElem?_extract {t : PaddedText} {start stop k : Nat} (h : stop ≤ t.bytes.size)
    (hk : k ∈ List.range (stop - start)) (p : UInt8 → Bool) :
    (t.bytes.extract start stop)[k]?.any p = p (t.byteAt (start + k)) := by
  have hlt := List.mem_range.1 hk
  rw [getElem?_extract h, if_pos (by omega), Option.any_some]

theorem firstIndex_extract {t : PaddedText} {start stop : Nat} (h : stop ≤ t.bytes.size)
    (p : UInt8 → Bool) :
    firstIndex p (t.bytes.extract start stop) =
      (List.range (stop - start)).find? fun k => p (t.byteAt (start + k)) := by
  rw [firstIndex, size_slice h]
  exact List.find?_congr fun k hk => any_getElem?_extract h hk p

theorem indexes_extract {t : PaddedText} {start stop : Nat} (h : stop ≤ t.bytes.size)
    (p : UInt8 → Bool) :
    indexes p (t.bytes.extract start stop) =
      (List.range (stop - start)).filter fun k => p (t.byteAt (start + k)) := by
  rw [indexes, size_slice h]
  exact List.filter_congr fun k hk => any_getElem?_extract h hk p

/-- The bytes after the text are zeros, so that no separator reaches over its end. -/
theorem startsWithSeparator_extract (i : Nat) :
    startsWithSeparator ((ofChars text).bytes.extract i (ofChars text).size) =
      (ofChars text).separatorAt i := by
  have hbytes := size_lt_size_bytes text
  have hany : ∀ (k : Nat) (p : UInt8 → Bool), p 0 = false →
      ((ofChars text).bytes.extract i (ofChars text).size)[k]?.any p =
        p ((ofChars text).byteAt (i + k)) := by
    intro k p hp
    rw [getElem?_extract (by omega)]
    split
    · rfl
    · next hlt =>
      rw [byteAt_of_size_le_ofChars (by rw [← size_ofChars]; omega), hp]
      rfl
  rw [startsWithSeparator, hany 0 _ rfl, hany 1 _ rfl, hany 2 _ rfl, separatorAt]
  rfl

theorem byteAt_of_separatorAt {t : PaddedText} {i : Nat} (h : t.separatorAt i = true) :
    (t.byteAt i == 0xE2) = true := by
  rw [separatorAt, Bool.and_eq_true, Bool.and_eq_true] at h
  exact h.1.1

/-- The search for separators ends at the limit, and finds the first place where one starts. -/
theorem findM?_separators {limit : Nat} (h : offset + limit ≤ (ofChars text).size) :
    let bytes := (ofChars text).bytes.extract offset (ofChars text).size
    (indexes (· == 0xE2) (bytes.extract 0 limit)).findM?
        (fun i => do return startsWithSeparator (← slice bytes i bytes.size)) =
      .ok ((List.range limit).find? fun k => (ofChars text).separatorAt (offset + k)) := by
  intro bytes
  have hbytes := size_lt_size_bytes text
  have hsize : bytes.size = (ofChars text).size - offset := size_slice (by omega)
  have hlimited : bytes.extract 0 limit = (ofChars text).bytes.extract offset (offset + limit) := by
    rw [ByteArray.extract_extract, Nat.add_zero, Nat.min_eq_left h]
  have hindexes : indexes (· == 0xE2) (bytes.extract 0 limit) =
      (List.range limit).filter fun k => (ofChars text).byteAt (offset + k) == 0xE2 := by
    rw [hlimited, indexes_extract (by omega), Nat.add_sub_cancel_left]
  rw [hindexes]
  -- no candidate lies past the end of the slice
  have hfind := findM?_eq (f := fun i => do return startsWithSeparator (← slice bytes i bytes.size))
    (p := fun k => (ofChars text).separatorAt (offset + k))
    (l := (List.range limit).filter fun k => (ofChars text).byteAt (offset + k) == 0xE2) ?_
  · rw [hfind, List.find?_filter]
    congr 2
    funext k
    rw [Bool.eq_iff_iff, decide_eq_true_iff]
    exact and_iff_right_of_imp byteAt_of_separatorAt
  · intro k hk
    have hk := List.mem_range.1 (List.mem_filter.1 hk).1
    rw [slice_eq (by omega) (Nat.le_refl _), ok_bind, hsize, ByteArray.extract_extract,
      Nat.add_sub_cancel' (by omega), Nat.min_self, startsWithSeparator_extract]
    rfl

/-- The first of the unread bytes that satisfies `p` is the one that the cursor finds. -/
theorem findByte_eq_firstIndex (h : offset ≤ (ofChars text).size) (p : UInt8 → Bool) :
    (ofChars text).findByte p offset (ofChars text).size =
      offset + (firstIndex p ((ofChars text).bytes.extract offset (ofChars text).size)).getD
        ((ofChars text).size - offset) := by
  have hbytes := size_lt_size_bytes text
  have hfind := findByte_eq (ofChars text) p offset ((ofChars text).size - offset)
  rwa [Nat.add_sub_cancel' h, ← firstIndex_extract (by omega)] at hfind

theorem lt_of_firstIndex {p : UInt8 → Bool} {bytes : ByteArray} {k : Nat}
    (h : firstIndex p bytes = some k) : k < bytes.size :=
  List.mem_range.1 (List.mem_of_find?_eq_some h)

/-- Up to the end of the text no check fails, and the search finds what the cursor finds. -/
theorem firstDelimiter_eq (h : offset ≤ (ofChars text).size) (l : Landmark) :
    ∃ i?, firstDelimiter l ((ofChars text).bytes.extract offset (ofChars text).size) = .ok i? ∧
      (∀ i, i? = some i → offset + i < (ofChars text).size) ∧
      (ofChars text).findLandmark l offset = i?.elim (ofChars text).size (offset + ·) := by
  have hbytes := size_lt_size_bytes text
  have hbyte := findByte_eq_firstIndex h l.isAtByte
  obtain ⟨bytes, hunread⟩ :
      ∃ bytes, (ofChars text).bytes.extract offset (ofChars text).size = bytes := ⟨_, rfl⟩
  have hsize : bytes.size = (ofChars text).size - offset := hunread ▸ size_slice (by omega)
  rw [hunread] at hbyte ⊢
  obtain ⟨hit, hhit⟩ : ∃ hit, firstIndex l.isAtByte bytes = hit := ⟨_, rfl⟩
  have hlt : ∀ k, hit = some k → k < bytes.size := fun k hk => lt_of_firstIndex (hhit.trans hk)
  rw [hhit, ← hsize] at hbyte
  rw [firstDelimiter, hhit]
  cases hl : l.stopsAtLines with
  | false =>
    refine ⟨hit, rfl, fun k hk => ?_, ?_⟩
    · have := hlt k hk
      omega
    · rw [findLandmark_of_not_stopsAtLines hl, hbyte]
      cases hit with
      | none => exact (by omega : offset + bytes.size = (ofChars text).size)
      | some k => rfl
  | true =>
    have hle : hit.getD bytes.size ≤ bytes.size := by
      cases hk : hit with
      | none => exact Nat.le_refl _
      | some k => exact Nat.le_of_lt (hlt k hk)
    -- the separators before that byte
    have hsearch := findM?_separators
      (show offset + hit.getD bytes.size ≤ (ofChars text).size by omega)
    obtain ⟨separator, hseparator⟩ : ∃ separator, (List.range (hit.getD bytes.size)).find?
        (fun k => (ofChars text).separatorAt (offset + k)) = separator := ⟨_, rfl⟩
    rw [hunread, hseparator] at hsearch
    refine ⟨separator.or hit, ?_, fun k hk => ?_, ?_⟩
    · dsimp only at hsearch ⊢
      rw [slice_eq (Nat.zero_le _) hle, if_pos rfl, ok_bind, hsearch, ok_bind]
      rfl
    · have hk : k < bytes.size := by
        rcases Option.or_eq_some_iff.1 hk with rfl | ⟨-, hk⟩
        · have := List.mem_range.1 (List.mem_of_find?_eq_some hseparator)
          omega
        · exact hlt k hk
      omega
    · rw [findLandmark_of_stopsAtLines hl, hbyte, findSeparator_eq, hseparator]
      cases separator with
      | some k => rfl
      | none =>
        cases hit with
        | none => exact (by omega : offset + bytes.size = (ofChars text).size)
        | some k => rfl

end Search

/-! ### Moves -/

/-- Consumes the character at `next`, if there is one. -/
def advance (s : ByteCursor) : Except Fault (Option Char × ByteCursor) := do
  let moved := { s with current := s.next }
  match ← decodeAt s.text s.next with
  | none => return (none, moved)
  | some (c, width) => return (some c, { moved with next := ← add s.next width })

/-- Moves on to the first landmark among the unread bytes and reads it.  An index into these is cut
to a machine word before it is added. -/
def skipTo (l : Landmark) (s : ByteCursor) : Except Fault (Option Char × ByteCursor) := do
  let unread ← slice s.text.bytes s.next s.text.size
  match ← firstDelimiter l unread with
  | none => advance { s with next := s.text.size }
  | some i => advance { s with next := ← add s.next (i % UInt32.size) }

/-- A character that was read lies inside the bytes, and the cursor has moved on. -/
theorem lt_of_advance {s s' : ByteCursor} {c : Char} (h : advance s = .ok (some c, s')) :
    s.next < s.text.bytes.size ∧ s'.text = s.text ∧ s.next < s'.next := by
  obtain ⟨found, hfound, h⟩ := exists_of_bind_eq_ok h
  cases found with
  | none => cases h
  | some read =>
    obtain ⟨hlt, hwidth⟩ := lt_of_decodeAt hfound
    obtain ⟨next, hnext, h⟩ := exists_of_bind_eq_ok h
    cases h
    refine ⟨hlt, rfl, ?_⟩
    unfold add at hnext
    split at hnext
    · cases hnext
      exact Nat.lt_add_of_pos_right hwidth
    · cases hnext

/-- Reads on until a character satisfies `stop`.  No character is read without a check, so that this
ends in any case. -/
def advanceUntil (stop : Char → Bool) (s : ByteCursor) : Except Fault (Option Char × ByteCursor) :=
  match _h : advance s with
  | .error fault => .error fault
  | .ok (none, s') => .ok (none, s')
  | .ok (some c, s') => if stop c then .ok (some c, s') else advanceUntil stop s'
  termination_by s.text.bytes.size - s.next
  decreasing_by
    obtain ⟨hlt, htext, hnext⟩ := lt_of_advance _h
    rw [htext]
    omega

/-- The cursor after a move. -/
def perform (s : ByteCursor) : SourceMove → Except Fault ByteCursor
  | .advance => return (← advance s).2
  | .peek => do
    let _ ← decodeAt s.text s.next
    return s
  | .advanceUntil stop => return (← advanceUntil stop s).2
  | .pushBack previous => return s.pushBack previous
  | .skipTo l => return (← skipTo l s).2

/-- The cursor after a list of moves. -/
def run (s : ByteCursor) : List SourceMove → Except Fault ByteCursor
  | [] => return s
  | move :: moves => do run (← perform s move) moves

/-! ### Moves inside the text -/

section Moves

open PaddedText

variable {text : List Char} {s : ByteCursor}

theorem advance_eq (h : s.Inside text) (hword : s.text.size < UInt32.size) :
    advance s = .ok s.advance := by
  have hstop := h.advance.next_le
  rw [h.text_eq] at hword
  have hdecode : decodeAt s.text s.next = .ok (s.text.decodeAt s.next) := by
    have hle := h.next_le
    rw [h.text_eq] at hle ⊢
    exact decodeAt_eq hle hword
  rw [advance, hdecode, ok_bind]
  cases hread : s.text.decodeAt s.next with
  | none =>
    rw [ByteCursor.advance_of_decodeAt_eq_none hread]
    rfl
  | some read =>
    -- the character ends inside the text, so that the offset of its end is a machine word
    rw [ByteCursor.advance_of_decodeAt_eq_some hread] at hstop ⊢
    have hstop : s.next + read.2 ≤ s.text.size := hstop
    rw [h.text_eq] at hstop
    show (add s.next read.2 >>= _) = _
    rw [add_eq (by omega)]
    rfl

theorem skipTo_eq (h : s.Inside text) (hword : s.text.size < UInt32.size) (l : Landmark) :
    skipTo l s = .ok (s.skipTo l) := by
  have hbytes := size_lt_size_bytes text
  have hle := h.next_le
  have hmoved : ∀ next, next ≤ s.text.size →
      advance { s with next := next } = .ok (ByteCursor.advance { s with next := next }) := by
    intro next hnext
    have hinside : { s with next := next }.Inside text := ⟨h.text_eq, hnext, h.current_le⟩
    exact advance_eq hinside hword
  rw [← h.text_eq] at hbytes
  obtain ⟨i?, hfirst, hlt, hfound⟩ :=
    firstDelimiter_eq (show s.next ≤ (ofChars text).size from h.text_eq ▸ hle) l
  rw [← h.text_eq] at hfirst hlt hfound
  rw [skipTo, slice_eq hle (by omega), ok_bind, hfirst, ok_bind, ByteCursor.skipTo, hfound]
  cases i? with
  | none => exact hmoved _ (Nat.le_refl _)
  | some i =>
    have hlt := hlt i rfl
    dsimp only
    rw [Nat.mod_eq_of_lt (by omega), add_eq (by omega), ok_bind]
    exact hmoved _ (by omega)

theorem advanceUntil_eq (h : s.Inside text) (hword : s.text.size < UInt32.size)
    (stop : Char → Bool) : advanceUntil stop s = .ok (TextSource.advanceUntil stop s) := by
  have hread := advance_eq h hword
  have hmoved : s.advance.2.Inside text := h.advance
  fun_induction advanceUntil stop s with
  | case1 s fault hfault =>
    rw [hread] at hfault
    cases hfault
  | case2 s s' hend =>
    rw [hread, Except.ok.injEq] at hend
    exact congrArg _ (TextSource.advanceUntil_of_advance_eq_none hend).symm
  | case3 s c s' hnext hstop =>
    rw [hread, Except.ok.injEq] at hnext
    rw [TextSource.advanceUntil_of_advance_eq_some hnext, if_pos hstop]
  | case4 s c s' hnext hstop ih =>
    rw [hread, Except.ok.injEq] at hnext
    rw [hnext] at hmoved
    have htext : s'.text = s.text := hmoved.text_eq.trans h.text_eq.symm
    rw [TextSource.advanceUntil_of_advance_eq_some hnext, if_neg hstop]
    exact ih hmoved (htext ▸ hword) (advance_eq hmoved (htext ▸ hword)) hmoved.advance

/-- No move of a cursor inside its text fails a check. -/
theorem perform_eq (h : s.Inside text) (hword : s.text.size < UInt32.size) (move : SourceMove) :
    perform s move = .ok (move.perform s) := by
  cases move with
  | advance =>
    rw [perform, advance_eq h hword]
    rfl
  | peek =>
    have hle := h.next_le
    rw [h.text_eq] at hle hword
    rw [perform, h.text_eq, decodeAt_eq hle hword]
    rfl
  | advanceUntil stop =>
    rw [perform, advanceUntil_eq h hword]
    rfl
  | pushBack previous => rfl
  | skipTo l =>
    rw [perform, skipTo_eq h hword]
    rfl

end Moves

end Checked

end EcmaLex
