import EcmaLex.Proofs.Word.Escape
import EcmaLex.Text.Quoted

/-!
# Reading quoted text

Quoted text is on one line, and it can be read off exactly: an unescaped quote ends it, and the
character after a backslash tells what the backslash begins.  Whatever stands behind the closing
quote is left alone.

## Main definitions

* `Quoted.decode` — the text up to the closing quote, and what stands behind the quote.

## Main results

* `Quoted.decode_encode` — **quoting loses nothing**.
* `Quoted.notMem_encode` — quoted text has no line feed.
-/

namespace EcmaLex

namespace Quoted

/-! ### Reading -/

/-- The character that a letter after a backslash stands for. -/
def unescape (c : Char) : Char :=
  if c = '0' then '\x00'
  else if c = 't' then '\t'
  else if c = 'n' then '\n'
  else if c = 'r' then '\r'
  else c

mutual

/-- Reads up to the closing quote.  The result is the text and what stands behind the quote. -/
def decode : List Char → List Char × List Char
  | [] => ([], [])
  | '"' :: r => ([], r)
  | '\\' :: 'u' :: '\x7b' :: r => decodeBraces 0 r
  | '\\' :: c :: r => (unescape c :: (decode r).1, (decode r).2)
  | c :: r => (c :: (decode r).1, (decode r).2)

/-- Reads on inside the braces of a code point, of whose digits `n` has been read. -/
def decodeBraces (n : Nat) : List Char → List Char × List Char
  | [] => ([], [])
  | '\x7d' :: r => (Char.ofNat n :: (decode r).1, (decode r).2)
  | c :: r => decodeBraces (Word.appendHex n c) r

end

variable {c : Char} {r : List Char}

theorem decode_escape (hc : c ≠ 'u') :
    decode ('\\' :: c :: r) = (unescape c :: (decode r).1, (decode r).2) := by
  rw [decode.eq_def]
  simp [hc]

theorem decode_plain (hq : c ≠ '"') (hb : c ≠ '\\') :
    decode (c :: r) = (c :: (decode r).1, (decode r).2) := by
  rw [decode]
  · exact hq
  · rintro _ rfl
    exact absurd rfl hb
  · rintro _ _ rfl
    exact absurd rfl hb

/-! ### Code points -/

/-- The digits of a code point are read one by one. -/
theorem decodeBraces_append {ds : List Char} (hds : ∀ d ∈ ds, isHexDigit d = true) (n : Nat) :
    decodeBraces n (ds ++ '\x7d' :: r) =
      (Char.ofNat (ds.foldl Word.appendHex n) :: (decode r).1, (decode r).2) := by
  induction ds generalizing n with
  | nil => rw [List.nil_append, decodeBraces]; rfl
  | cons d ds ih =>
    have hd : d ≠ '\x7d' := by
      rintro rfl
      exact absurd (hds _ List.mem_cons_self) (by decide)
    rw [List.cons_append, decodeBraces.eq_3 _ _ _ hd, List.foldl_cons]
    exact ih (fun d' hd' => hds d' (List.mem_cons_of_mem d hd')) _

/-- The hexadecimal numeral of a number is made of hexadecimal digits. -/
theorem isHexDigit_of_mem_toDigits (n : Nat) : ∀ d ∈ Nat.toDigits 16 n, isHexDigit d = true := by
  have hdigit : ∀ d < 16, isHexDigit (Nat.digitChar d) = true := by decide
  induction n using Nat.strongRecOn with
  | ind n ih =>
    intro d hd
    rw [Nat.toDigits_eq_if (by decide)] at hd
    split at hd
    · next hn => exact List.mem_singleton.1 hd ▸ hdigit n hn
    · rcases List.mem_append.1 hd with hd | hd
      · exact ih (n / 16) (by omega) d hd
      · exact List.mem_singleton.1 hd ▸ hdigit _ (Nat.mod_lt n (by decide))

/-- The numeral denotes the number. -/
theorem hexValue_toDigits (n : Nat) : Word.hexValue (Nat.toDigits 16 n) = n := by
  have hdigit : ∀ d < 16, hexDigitValue (Nat.digitChar d) = some d := by decide
  have happend : ∀ d < 16, ∀ n, Word.appendHex n (Nat.digitChar d) = n * 16 + d := by
    intro d hd n
    rw [Word.appendHex, hdigit d hd, Option.getD_some]
  unfold Word.hexValue
  induction n using Nat.strongRecOn with
  | ind n ih =>
    rw [Nat.toDigits_eq_if (by decide)]
    split
    · next hn => rw [List.foldl_cons, List.foldl_nil, happend n hn, Nat.zero_mul, Nat.zero_add]
    · rw [List.foldl_append, ih (n / 16) (by omega), List.foldl_cons, List.foldl_nil,
        happend _ (Nat.mod_lt n (by decide))]
      omega

theorem decode_codePoint : decode (codePoint c ++ r) = (c :: (decode r).1, (decode r).2) := by
  unfold codePoint
  rw [List.cons_append, List.cons_append, List.cons_append, List.append_assoc, decode,
    List.singleton_append, decodeBraces_append (isHexDigit_of_mem_toDigits c.toNat)]
  show (Char.ofNat (Word.hexValue _) :: _, _) = _
  rw [hexValue_toDigits, Char.ofNat_toNat]

/-! ### Quoted text -/

theorem decode_encodeChar : decode (encodeChar c ++ r) = (c :: (decode r).1, (decode r).2) := by
  unfold encodeChar
  split_ifs with hself hnul htab hlf hcr hinvisible
  · -- a quote or a backslash stands for itself behind a backslash
    rcases (by simpa using hself : c = '"' ∨ c = '\\') with rfl | rfl <;>
      exact decode_escape (by decide)
  · exact hnul ▸ decode_escape (by decide)
  · exact htab ▸ decode_escape (by decide)
  · exact hlf ▸ decode_escape (by decide)
  · exact hcr ▸ decode_escape (by decide)
  · exact decode_codePoint
  · obtain ⟨hq, hb⟩ : c ≠ '"' ∧ c ≠ '\\' := by simpa using hself
    exact decode_plain hq hb

/-- The text between the quotes is read to its end. -/
theorem decode_flatMap (cs r : List Char) :
    decode (cs.flatMap encodeChar ++ '"' :: r) = (cs, r) := by
  induction cs with
  | nil => rw [List.flatMap_nil, List.nil_append, decode]
  | cons c cs ih => rw [List.flatMap_cons, List.append_assoc, decode_encodeChar, ih]

/-- **Quoting loses nothing**: behind the opening quote the text is read, and what follows the
closing quote is left. -/
theorem decode_encode (text : String) (r : List Char) :
    ∃ x, (encode text).toList ++ r = '"' :: x ∧ decode x = (text.toList, r) := by
  refine ⟨text.toList.flatMap encodeChar ++ '"' :: r, ?_, decode_flatMap _ _⟩
  simp [encode]

theorem notMem_encodeChar : '\n' ∉ encodeChar c := by
  unfold encodeChar
  split_ifs with hself hnul htab hlf hcr hinvisible
  · rcases (by simpa using hself : c = '"' ∨ c = '\\') with rfl | rfl <;> decide
  · decide
  · decide
  · decide
  · decide
  · intro h
    simp only [codePoint, List.mem_cons, List.mem_append, List.not_mem_nil, or_false] at h
    rcases h with h | h | h | h | h
    · cases h
    · cases h
    · cases h
    · exact absurd (isHexDigit_of_mem_toDigits _ _ h) (by decide)
    · cases h
  · simpa [eq_comm] using hlf

/-- Quoted text is on one line. -/
theorem notMem_encode (text : String) : '\n' ∉ (encode text).toList := by
  intro h
  simp only [encode, String.toList_ofList, List.mem_cons, List.mem_append, List.mem_flatMap,
    List.not_mem_nil, or_false] at h
  rcases h with h | ⟨c, -, h⟩ | h
  · cases h
  · exact notMem_encodeChar h
  · cases h

end Quoted

end EcmaLex
