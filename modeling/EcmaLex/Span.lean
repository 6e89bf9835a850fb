/-!
# Spans of source text

A span is a half-open range of offsets, `start` included and `stop` excluded.
Offsets are words of 32 bits; the greatest of them is set aside, so that the span
which holds it at both ends can stand for "nowhere".

The ends of a span are kept as natural numbers, which know no bound.  A span is
`Representable` when both of them are offsets, and a text is `Addressable` when its
length is one.

## Main definitions

* `Span` — a range of offsets.
* `Span.unlocated` — the span of a token that has not been scanned yet.
* `Span.ofRange` — a span from a range of arbitrary offsets, or the end that is too large.
* `Span.Representable` — both ends are offsets.
* `Addressable` — every place in the text is an offset.
* `Span.render` — the text of a span in dumps and messages.
-/

namespace EcmaLex

/-- A half-open range of offsets in the source text. -/
structure Span where
  /-- The offset of the first position covered. -/
  start : Nat
  /-- The offset just past the last position covered. -/
  stop : Nat
  deriving DecidableEq, Repr

/-- Which end of a range is no offset. -/
inductive SpanError where
  /-- The start lies past the greatest offset. -/
  | startTooLarge (offset : Nat)
  /-- The stop lies past the greatest offset. -/
  | stopTooLarge (offset : Nat)
  deriving DecidableEq, Repr

namespace SpanError

/-- The upper-case hexadecimal numeral of `n`. -/
def upperHex (n : Nat) : String :=
  String.ofList ((Nat.toDigits 16 n).map Char.toUpper)

/-- The text of the error: the offending offset in decimal and in hexadecimal. -/
def message : SpanError → String
  | startTooLarge n => s!"location begin {n} (0x{upperHex n}) exceeds u32::MAX"
  | stopTooLarge n => s!"location end {n} (0x{upperHex n}) exceeds u32::MAX"

end SpanError

namespace Span

/-- The greatest offset. -/
def maxOffset : Nat := 0xFFFFFFFF

/-- The span that stands for no place in the text. -/
def unlocated : Span := ⟨maxOffset, maxOffset⟩

instance : Inhabited Span := ⟨unlocated⟩

/-- The span from `start` to `stop`.  When both ends are too large, the start is
the one reported. -/
def ofRange (start stop : Nat) : Except SpanError Span :=
  if maxOffset < start then .error (.startTooLarge start)
  else if maxOffset < stop then .error (.stopTooLarge stop)
  else .ok ⟨start, stop⟩

/-- Both ends of the span are offsets, so that their range makes the span. -/
def Representable (s : Span) : Prop := ofRange s.start s.stop = .ok s

theorem representable_unlocated : unlocated.Representable := rfl

/-- A span that does not run backwards has only its end to be looked at. -/
theorem representable_of_le {s : Span} (h : s.start ≤ s.stop) (hstop : s.stop ≤ maxOffset) :
    s.Representable := by
  rw [Representable, ofRange, if_neg (Nat.not_lt.2 (Nat.le_trans h hstop)),
    if_neg (Nat.not_lt.2 hstop)]

/-- A span is valid unless it stands for no place or runs backwards. -/
def isValid (s : Span) : Bool :=
  s.start != maxOffset && s.start ≤ s.stop

/-- The number of positions covered; a span that runs backwards covers none. -/
def length (s : Span) : Nat := s.stop - s.start

/-- Whether the span covers no position. -/
def isEmpty (s : Span) : Bool := s.length == 0

/-- The text of a span: its two ends, or a mark for the unlocated one. -/
def render (s : Span) : String :=
  if s = unlocated then "<invalid>" else s!"{s.start}..{s.stop}"

/-- The part of the span inside a text of `size` positions.  Both ends are moved
back to the end of the text when they lie past it, and a span that runs
backwards becomes empty at its start. -/
def clamp (s : Span) (size : Nat) : Span :=
  let start := min s.start size
  ⟨start, max start (min s.stop size)⟩

end Span

/-- Every place in the text, its end included, is an offset. -/
def Addressable (source : String) : Prop := source.utf8ByteSize ≤ Span.maxOffset

instance (source : String) : Decidable (Addressable source) :=
  inferInstanceAs (Decidable (_ ≤ _))

end EcmaLex
