import EcmaLex.Source.ByteCursor
import Mathlib.Tactic

/-!
# Padded texts byte by byte

The bytes of a padded text are the UTF-8 encodings of its characters, one after
the other.  An offset below the size of the text lies at the first byte of a
character, where that character is decoded, or inside one, where the replacement
character is read over a single byte.  No byte inside a character can be mistaken
for a landmark, so the byte search and the decoded characters agree at every
offset, whether a character starts there or not.

## Main results

* `PaddedText.decodeAt_append_cons` — a character is decoded where it starts.
* `PaddedText.read_of_lt_size` — what is read at any offset below the size.
* `PaddedText.findLandmark_eq_self`, `PaddedText.findLandmark_add` — the byte search stops at
  landmarks and passes everything else.
-/

namespace EcmaLex

/-! ### Encodings -/

theorem size_utf8Encode_cons (c : Char) (text : List Char) :
    (c :: text).utf8Encode.size = c.utf8Size + text.utf8Encode.size := by
  rw [List.utf8Encode_cons, ByteArray.size_append, List.utf8Encode_singleton,
    List.size_toByteArray, String.length_utf8EncodeChar]

theorem size_utf8Encode_append (a b : List Char) :
    (a ++ b).utf8Encode.size = a.utf8Encode.size + b.utf8Encode.size := by
  rw [List.utf8Encode_append, ByteArray.size_append]

/-- Distinct characters have distinct encodings. -/
theorem utf8EncodeChar_inj {c d : Char} (h : String.utf8EncodeChar c = String.utf8EncodeChar d) :
    c = d := by
  have hc := List.utf8DecodeChar?_utf8Encode_singleton (c := c)
  rw [List.utf8Encode_singleton, h, ← List.utf8Encode_singleton,
    List.utf8DecodeChar?_utf8Encode_singleton] at hc
  exact (Option.some.inj hc).symm

/-- Every offset into the encoding of a text belongs to one of its characters. -/
theorem exists_char_of_lt_size {text : List Char} {i : Nat} (h : i < text.utf8Encode.size) :
    ∃ before c after k, text = before ++ c :: after ∧ k < c.utf8Size ∧
      i = before.utf8Encode.size + k := by
  induction text generalizing i with
  | nil => simp at h
  | cons c text ih =>
    rw [size_utf8Encode_cons] at h
    rcases Nat.lt_or_ge i c.utf8Size with hi | hi
    · exact ⟨[], c, text, i, rfl, hi, by simp⟩
    · obtain ⟨before, d, after, k, rfl, hk, hik⟩ := ih (i := i - c.utf8Size) (by omega)
      refine ⟨c :: before, d, after, k, rfl, hk, ?_⟩
      rw [size_utf8Encode_cons]
      omega

/-! ### Lead bytes -/

/-- What holds of the 256 bytes by number holds of every byte. -/
theorem forall_byte {p : UInt8 → Prop} (h : ∀ n : Fin 256, p (UInt8.ofNat n)) (b : UInt8) :
    p b := by
  have := h ⟨b.toNat, b.toNat_lt⟩
  simpa only [UInt8.ofNat_toNat] using this

theorem leadWidth_of_isUTF8FirstByte :
    ∀ (b : UInt8) (h : b.IsUTF8FirstByte), leadWidth b = b.utf8ByteSize h :=
  forall_byte (by decide +kernel)

theorem lt_iff_utf8ByteSize_eq_one :
    ∀ (b : UInt8) (h : b.IsUTF8FirstByte), b < 0x80 ↔ b.utf8ByteSize h = 1 :=
  forall_byte (by decide +kernel)

/-- A byte that leads no sequence counts as one. -/
theorem leadWidth_of_not_isUTF8FirstByte :
    ∀ b : UInt8, ¬ b.IsUTF8FirstByte → leadWidth b = 1 ∧ ¬ b < 0x80 :=
  forall_byte (by decide +kernel)

/-- Where a character is decoded, the lead byte tells its width. -/
theorem leadWidth_of_utf8DecodeChar? {bytes : ByteArray} {i : Nat} {c : Char}
    (h : bytes.utf8DecodeChar? i = some c) (hi : i < bytes.size) :
    leadWidth bytes[i] = c.utf8Size ∧ (bytes[i] < 0x80 ↔ c.utf8Size = 1) := by
  have hs : (bytes.utf8DecodeChar? i).isSome := by rw [h]; rfl
  have hc : bytes.utf8DecodeChar i hs = c := by simp [ByteArray.utf8DecodeChar, h]
  have hw := ByteArray.utf8Size_utf8DecodeChar (h := hs)
  rw [hc] at hw
  have hb := ByteArray.isUTF8FirstByte_of_isSome_utf8DecodeChar? hs
  rw [leadWidth_of_isUTF8FirstByte _ hb, hw]
  exact ⟨rfl, lt_iff_utf8ByteSize_eq_one _ hb⟩

/-- The single byte of an ASCII character is its code point. -/
theorem ofUInt8_of_utf8DecodeChar? {bytes : ByteArray} {i : Nat} {c : Char}
    (h : bytes.utf8DecodeChar? i = some c) (hi : i < bytes.size) (hw : c.utf8Size = 1) :
    Char.ofUInt8 bytes[i] = c := by
  have hs : (bytes.utf8DecodeChar? i).isSome := by rw [h]; rfl
  have hc : bytes.utf8DecodeChar i hs = c := by simp [ByteArray.utf8DecodeChar, h]
  have he := ByteArray.utf8EncodeChar_utf8DecodeChar (h := hs)
  rw [hc, String.utf8EncodeChar_eq_singleton hw, hw] at he
  -- the encoding of the character is this byte and no other
  have hb : bytes[i] = c.val.toUInt8 := by
    have h0 : (bytes.extract i (i + 1)).size = 1 := by simp; omega
    have : (bytes.extract i (i + 1))[0] = bytes[i] := by
      rw [ByteArray.getElem_extract]
      rfl
    rw [← this]
    simp [← he]
  have hv := Char.utf8Size_eq_one_iff.1 hw
  rw [hb]
  apply Char.ext
  apply UInt32.toNat_inj.1
  -- the number of an ASCII character is not changed by its conversion to a byte
  have : c.val.toNat ≤ 127 := hv
  show c.val.toUInt8.toUInt32.toNat = c.val.toNat
  rw [UInt8.toNat_toUInt32, UInt32.toNat_toUInt8]
  omega

namespace PaddedText

variable {text : List Char}

/-- The padded text of a list of characters. -/
abbrev ofChars (text : List Char) : PaddedText := ofString (String.ofList text)

theorem size_ofChars (text : List Char) : (ofChars text).size = text.utf8Encode.size := by
  simp [ofString]

theorem bytes_ofChars (text : List Char) :
    ∃ pad, (ofChars text).bytes = text.utf8Encode ++ pad := by
  simp [ofString]

/-- The bytes from the start of a character on begin with its encoding. -/
theorem byteAt_append_cons (before : List Char) (c : Char) (after : List Char) {k : Nat}
    (hk : k < c.utf8Size) :
    (ofChars (before ++ c :: after)).byteAt (before.utf8Encode.size + k) =
      getElem (String.utf8EncodeChar c) k (by rwa [String.length_utf8EncodeChar]) := by
  obtain ⟨pad, hpad⟩ := bytes_ofChars (before ++ c :: after)
  rw [List.utf8Encode_append, List.utf8Encode_cons, List.utf8Encode_singleton,
    ByteArray.append_assoc, ByteArray.append_assoc] at hpad
  have hc : (String.utf8EncodeChar c).toByteArray.size = c.utf8Size := by simp
  rw [byteAt, dif_pos (by rw [hpad]; simp; omega)]
  simp only [hpad]
  rw [ByteArray.getElem_append_right (by omega), ByteArray.getElem_append_left (by omega)]
  simp

/-- Past the end of the text every byte is zero. -/
theorem byteAt_of_size_le_ofChars {i : Nat} (h : text.utf8Encode.size ≤ i) :
    (ofChars text).byteAt i = 0 := by
  unfold byteAt
  split
  · next hi =>
    simp only [ofString, String.toUTF8_eq_toByteArray, String.toByteArray_ofList] at hi ⊢
    rw [ByteArray.getElem_append_right h, ByteArray.getElem_eq_getElem_data]
    simp
  · rfl

theorem utf8DecodeChar?_append_cons (before : List Char) (c : Char) (after : List Char) :
    (ofChars (before ++ c :: after)).bytes.utf8DecodeChar? before.utf8Encode.size = some c := by
  obtain ⟨pad, hpad⟩ := bytes_ofChars (before ++ c :: after)
  rw [List.utf8Encode_append, List.utf8Encode_cons, ByteArray.append_assoc,
    ByteArray.append_assoc] at hpad
  rw [ByteArray.utf8DecodeChar?_eq_utf8DecodeChar?_extract, hpad, ByteArray.size_append,
    ByteArray.extract_append_eq_right rfl rfl, List.utf8DecodeChar?_utf8Encode_singleton_append]

theorem byteAt_eq_getElem {t : PaddedText} {i : Nat} (h : i < t.bytes.size) :
    t.byteAt i = t.bytes[i] := dif_pos h

/-! ### Reading at an offset -/

/-- A character is decoded where it starts. -/
theorem decodeAt_append_cons (before : List Char) (c : Char) (after : List Char) :
    (ofChars (before ++ c :: after)).decodeAt before.utf8Encode.size = some (c, c.utf8Size) := by
  have hd := utf8DecodeChar?_append_cons before c after
  have hs : before.utf8Encode.size < (ofChars (before ++ c :: after)).size := by
    have := c.utf8Size_pos
    rw [size_ofChars, size_utf8Encode_append, size_utf8Encode_cons]
    omega
  have hi := ByteArray.lt_size_of_isSome_utf8DecodeChar? (by rw [hd]; rfl)
  obtain ⟨hw, hlt⟩ := leadWidth_of_utf8DecodeChar? hd hi
  unfold decodeAt
  rw [byteAt_eq_getElem hi]
  dsimp only
  split
  · -- an ASCII character stands for itself, as long as it is in the text
    next h =>
    rw [ofUInt8_of_utf8DecodeChar? hd hi (hlt.1 h), hlt.1 h]
    rw [if_neg (by simp [Nat.not_le.2 hs])]
  · rw [hd, hw]
    rfl

/-- Nothing is read past the end of the text. -/
theorem decodeAt_of_size_le {i : Nat} (h : text.utf8Encode.size ≤ i) :
    (ofChars text).decodeAt i = none := by
  rw [decodeAt, byteAt_of_size_le_ofChars h, size_ofChars]
  simp [h]

/-! ### Landmarks among the bytes -/

/-- Whether a landmark starts at an offset, as far as the bytes tell. -/
def landmarkAt (t : PaddedText) (l : Landmark) (i : Nat) : Bool :=
  l.isAtByte (t.byteAt i) || (l.stopsAtLines && t.separatorAt i)

theorem findByte_eq_self {t : PaddedText} {p : UInt8 → Bool} {i : Nat} (h : p (t.byteAt i) = true)
    (hi : i < t.size) : t.findByte p i t.size = i := by
  rw [findByte, if_pos hi, if_pos h]

theorem findByte_succ {t : PaddedText} {p : UInt8 → Bool} {i : Nat} (h : p (t.byteAt i) = false)
    (hi : i < t.size) : t.findByte p i t.size = t.findByte p (i + 1) t.size := by
  rw [findByte, if_pos hi, if_neg (by simp [h])]

theorem findSeparator_of_le {t : PaddedText} {i stop : Nat} (h : stop ≤ i) :
    t.findSeparator i stop = i := by
  rw [findSeparator, if_neg (Nat.not_lt.2 h)]

theorem findSeparator_eq_self {t : PaddedText} {i stop : Nat} (h : t.separatorAt i = true) :
    t.findSeparator i stop = i := by
  rw [findSeparator]
  split <;> rfl

theorem findSeparator_succ {t : PaddedText} {i stop : Nat} (h : t.separatorAt i = false)
    (hi : i < stop) : t.findSeparator i stop = t.findSeparator (i + 1) stop := by
  rw [findSeparator, if_pos hi, if_neg (by simp [h])]

theorem findLandmark_of_stopsAtLines {l : Landmark} (h : l.stopsAtLines = true) (t : PaddedText)
    (i : Nat) : t.findLandmark l i = t.findSeparator i (t.findByte l.isAtByte i t.size) :=
  if_pos h

theorem findLandmark_of_not_stopsAtLines {l : Landmark} (h : l.stopsAtLines = false)
    (t : PaddedText) (i : Nat) : t.findLandmark l i = t.findByte l.isAtByte i t.size :=
  if_neg (by simp [h])

/-- The byte search stops where a landmark starts. -/
theorem findLandmark_eq_self {t : PaddedText} {l : Landmark} {i : Nat}
    (h : t.landmarkAt l i = true) (hi : i < t.size) : t.findLandmark l i = i := by
  rw [landmarkAt, Bool.or_eq_true, Bool.and_eq_true] at h
  cases hl : l.stopsAtLines with
  | true =>
    rw [findLandmark_of_stopsAtLines hl]
    rcases h with h | ⟨-, h⟩
    · rw [findByte_eq_self h hi, findSeparator_of_le (Nat.le_refl _)]
    · exact findSeparator_eq_self h
  | false =>
    rcases h with h | ⟨h, -⟩
    · rw [findLandmark_of_not_stopsAtLines hl, findByte_eq_self h hi]
    · rw [hl] at h
      cases h

/-- The byte search passes an offset where no landmark starts. -/
theorem findLandmark_succ {t : PaddedText} {l : Landmark} {i : Nat}
    (h : t.landmarkAt l i = false) (hi : i < t.size) :
    t.findLandmark l i = t.findLandmark l (i + 1) := by
  rw [landmarkAt, Bool.or_eq_false_iff, Bool.and_eq_false_iff] at h
  obtain ⟨hb, h⟩ := h
  cases hl : l.stopsAtLines with
  | true =>
    -- the search for separators starts where that for single bytes stops, which is further on
    have hle := t.le_findByte l.isAtByte (i + 1) t.size
    rw [hl] at h
    rw [findLandmark_of_stopsAtLines hl, findLandmark_of_stopsAtLines hl, findByte_succ hb hi,
      findSeparator_succ (by simpa using h) hle]
  | false =>
    rw [findLandmark_of_not_stopsAtLines hl, findLandmark_of_not_stopsAtLines hl,
      findByte_succ hb hi]

/-- The byte search passes any number of offsets where no landmark starts. -/
theorem findLandmark_add {t : PaddedText} {l : Landmark} {i : Nat} (w : Nat)
    (h : ∀ k < w, t.landmarkAt l (i + k) = false) (hi : i + w ≤ t.size) :
    t.findLandmark l i = t.findLandmark l (i + w) := by
  induction w with
  | zero => rfl
  | succ w ih =>
    rw [ih (fun k hk => h k (by omega)) (by omega), findLandmark_succ (h w (by omega)) (by omega),
      Nat.add_assoc]

theorem findLandmark_of_size_le {t : PaddedText} {l : Landmark} {i : Nat} (h : t.size ≤ i) :
    t.findLandmark l i = i := by
  have hb : t.findByte l.isAtByte i t.size = i := by
    rw [findByte, if_neg (Nat.not_lt.2 h)]
  cases hl : l.stopsAtLines with
  | true => rw [findLandmark_of_stopsAtLines hl, hb, findSeparator_of_le (Nat.le_refl _)]
  | false => rw [findLandmark_of_not_stopsAtLines hl, hb]

/-! ### Landmarks and characters -/

/-- Every byte that a landmark begins with is the first byte of a character. -/
theorem landmarkAt_of_not_isUTF8FirstByte {t : PaddedText} {i : Nat}
    (h : ¬ (t.byteAt i).IsUTF8FirstByte) (l : Landmark) : t.landmarkAt l i = false := by
  have key : ∀ b : UInt8, ¬ b.IsUTF8FirstByte → b ≠ 0x2A ∧ b ≠ 0x0A ∧ b ≠ 0x0D ∧ b ≠ 0xE2 :=
    forall_byte (by decide +kernel)
  obtain ⟨h1, h2, h3, h4⟩ := key _ h
  simp [landmarkAt, Landmark.isAtByte, separatorAt, h1, h2, h3, h4]

/-- The first byte of a character tells its width. -/
theorem leadWidth_utf8EncodeChar (c : Char) :
    leadWidth (getElem (String.utf8EncodeChar c) 0 (by simp [c.utf8Size_pos])) = c.utf8Size := by
  have hd := utf8DecodeChar?_append_cons [] c []
  have hi := ByteArray.lt_size_of_isSome_utf8DecodeChar? (by rw [hd]; rfl)
  have hb := byteAt_append_cons [] c [] c.utf8Size_pos
  rw [Nat.add_zero, byteAt_eq_getElem hi] at hb
  rw [← hb]
  exact (leadWidth_of_utf8DecodeChar? hd hi).1

/-- A character is told by its bytes. -/
theorem eq_iff_byteAt (before : List Char) (c : Char) (after : List Char) (d : Char) :
    c = d ↔ ∀ k (hk : k < d.utf8Size),
      (ofChars (before ++ c :: after)).byteAt (before.utf8Encode.size + k) =
        getElem (String.utf8EncodeChar d) k (by rwa [String.length_utf8EncodeChar]) := by
  constructor
  · rintro rfl k hk
    exact byteAt_append_cons before c after hk
  · intro h
    have h0 := h 0 d.utf8Size_pos
    -- the first bytes agree, and so the widths do
    rw [byteAt_append_cons before c after c.utf8Size_pos] at h0
    have hw : c.utf8Size = d.utf8Size := by
      rw [← leadWidth_utf8EncodeChar c, ← leadWidth_utf8EncodeChar d, h0]
    apply utf8EncodeChar_inj
    apply List.ext_getElem (by simp [hw])
    intro k hk _
    rw [String.length_utf8EncodeChar] at hk
    rw [← h k (by omega), byteAt_append_cons before c after hk]

theorem eq_iff_byteAt_of_ascii (before : List Char) (c : Char) (after : List Char) {d : Char}
    {b : UInt8} (h : String.utf8EncodeChar d = [b]) :
    c = d ↔ (ofChars (before ++ c :: after)).byteAt before.utf8Encode.size = b := by
  have hw : d.utf8Size = 1 := by rw [← String.length_utf8EncodeChar, h]; rfl
  rw [eq_iff_byteAt before c after d]
  simp [hw, h]

theorem eq_iff_byteAt_of_three (before : List Char) (c : Char) (after : List Char) {d : Char}
    {x y z : UInt8} (h : String.utf8EncodeChar d = [x, y, z]) :
    c = d ↔ (ofChars (before ++ c :: after)).byteAt before.utf8Encode.size = x ∧
      (ofChars (before ++ c :: after)).byteAt (before.utf8Encode.size + 1) = y ∧
      (ofChars (before ++ c :: after)).byteAt (before.utf8Encode.size + 2) = z := by
  have hw : d.utf8Size = 3 := by rw [← String.length_utf8EncodeChar, h]; rfl
  rw [eq_iff_byteAt before c after d]
  simp only [hw, h]
  constructor
  · intro hk
    exact ⟨hk 0 (by omega), hk 1 (by omega), hk 2 (by omega)⟩
  · rintro ⟨h0, h1, h2⟩ k hk
    match k with
    | 0 => exact h0
    | 1 => exact h1
    | 2 => exact h2

/-- Where a character starts, the bytes tell the landmark that it is. -/
theorem landmarkAt_append_cons (l : Landmark) (before : List Char) (c : Char)
    (after : List Char) :
    (ofChars (before ++ c :: after)).landmarkAt l before.utf8Encode.size = l.isAt c := by
  have hstar := eq_iff_byteAt_of_ascii before c after (d := '*') (b := 0x2A) rfl
  have hlf := eq_iff_byteAt_of_ascii before c after (d := '\n') (b := 0x0A) rfl
  have hcr := eq_iff_byteAt_of_ascii before c after (d := '\r') (b := 0x0D) rfl
  have hls := eq_iff_byteAt_of_three before c after (d := '\u2028') (x := 0xE2) (y := 0x80)
    (z := 0xA8) rfl
  have hps := eq_iff_byteAt_of_three before c after (d := '\u2029') (x := 0xE2) (y := 0x80)
    (z := 0xA9) rfl
  -- the separators are the only characters of three bytes among the landmarks
  have hsep : separatorAt (ofChars (before ++ c :: after)) before.utf8Encode.size =
      (c == '\u2028' || c == '\u2029') := by
    rw [Bool.eq_iff_iff]
    simp only [separatorAt, Bool.and_eq_true, Bool.or_eq_true, beq_iff_eq, hls, hps, and_or_left,
      and_assoc]
  rw [landmarkAt, hsep, Landmark.isAtByte, Landmark.isAt, isLineTerminator, Bool.eq_iff_iff]
  simp only [Bool.or_eq_true, Bool.and_eq_true, beq_iff_eq, ← hstar, ← hlf, ← hcr, and_or_left,
    or_assoc]

/-- Inside a character no character starts. -/
theorem not_isUTF8FirstByte_inside (before : List Char) (c : Char) (after : List Char) {k : Nat}
    (h0 : 0 < k) (hk : k < c.utf8Size) :
    ¬ ((ofChars (before ++ c :: after)).byteAt (before.utf8Encode.size + k)).IsUTF8FirstByte := by
  rw [byteAt_append_cons before c after hk, UInt8.isUTF8FirstByte_getElem_utf8EncodeChar]
  omega

/-- What is decodable begins with a first byte. -/
theorem utf8DecodeChar?_eq_none {t : PaddedText} {i : Nat}
    (h : ¬ (t.byteAt i).IsUTF8FirstByte) : t.bytes.utf8DecodeChar? i = none := by
  rw [Option.eq_none_iff_forall_ne_some]
  intro c hc
  have hs : (t.bytes.utf8DecodeChar? i).isSome := by rw [hc]; rfl
  rw [byteAt_eq_getElem (ByteArray.lt_size_of_isSome_utf8DecodeChar? hs)] at h
  exact h (ByteArray.isUTF8FirstByte_of_isSome_utf8DecodeChar? hs)

/-- A byte that begins no character reads as the replacement character. -/
theorem decodeAt_of_not_isUTF8FirstByte {t : PaddedText} {i : Nat}
    (h : ¬ (t.byteAt i).IsUTF8FirstByte) : t.decodeAt i = some (replacementCharacter, 1) := by
  obtain ⟨hw, hlt⟩ := leadWidth_of_not_isUTF8FirstByte _ h
  rw [decodeAt, if_neg hlt, hw, utf8DecodeChar?_eq_none h]
  rfl

theorem isAt_replacementCharacter (l : Landmark) : l.isAt replacementCharacter = false := by
  cases l <;> decide

/-- What is read at an offset below the size of the text.  It is a landmark just where
the bytes begin one, and no landmark begins inside it. -/
theorem read_of_lt_size {text : List Char} {i : Nat} (h : i < (ofChars text).size)
    (l : Landmark) :
    ∃ c w, (ofChars text).decodeAt i = some (c, w) ∧ i + w ≤ (ofChars text).size ∧
      (ofChars text).landmarkAt l i = l.isAt c ∧
      ∀ k, 0 < k → k < w → (ofChars text).landmarkAt l (i + k) = false := by
  rw [size_ofChars] at h
  rw [size_ofChars]
  obtain ⟨before, c, after, k, rfl, hk, rfl⟩ := exists_char_of_lt_size h
  -- at the first byte of a character, or inside it
  rcases Nat.eq_zero_or_pos k with rfl | hk0
  · refine ⟨c, c.utf8Size, decodeAt_append_cons before c after, ?_,
      landmarkAt_append_cons l before c after, ?_⟩
    · rw [size_utf8Encode_append, size_utf8Encode_cons]
      omega
    · intro j hj0 hj
      exact landmarkAt_of_not_isUTF8FirstByte (not_isUTF8FirstByte_inside before c after hj0 hj) l
  · have hb := not_isUTF8FirstByte_inside before c after hk0 hk
    refine ⟨replacementCharacter, 1, decodeAt_of_not_isUTF8FirstByte hb, h, ?_, ?_⟩
    · rw [landmarkAt_of_not_isUTF8FirstByte hb, isAt_replacementCharacter]
    · intro j hj0 hj
      exact absurd hj (by omega)

end PaddedText

end EcmaLex
