import EcmaLex.Diagnostic
import EcmaLex.Report.Lines

/-!
# Reports

A report draws a diagnostic below the line of the source text that it is about:
a heading with the message, the place, the line in a frame with its number, and
for what only strict mode code minds a label that points at the span.

Of a span over several lines only the frame is drawn.  Blanks at the end of the
line are dropped, a tab fills up to the next multiple of four columns, and other
blanks are single spaces.

## Main definitions

* `Severity` — an error or a warning.
* `Report.drawLines` — the lines of the report of one diagnostic.
* `Report.drawAll` — the reports of several.
-/

namespace EcmaLex

/-- How grave a diagnostic is. -/
inductive Severity where
  | error
  | warning
  deriving DecidableEq, Repr

namespace Report

/-! ### Ink -/

/-- The control sequence that sets a style of the terminal. -/
def style (code : String) : String := "\x1b[" ++ code ++ "m"

/-- A text in a style, after which the style is reset. -/
def styled (color : Bool) (code text : String) : String :=
  if color then style code ++ text ++ style "0" else text

/-- A text in one of the 256 colors of the terminal. -/
def paint (color : Bool) (n : Nat) (text : String) : String := styled color s!"38;5;{n}" text

/-- The color of the frame. -/
def frameColor : Nat := 246

/-- The color of the frame beside a label. -/
def labelFrameColor : Nat := 240

/-- The color of the text outside the span. -/
def plainColor : Nat := 249

/-- So many copies of a character. -/
def copies (n : Nat) (c : Char) : String := String.ofList (List.replicate n c)

/-- The word that a report begins with. -/
def severityWord (color : Bool) : Severity → String
  | .error => styled color "31" "Error:"
  | .warning => styled color "33" "Warning:"

/-! ### The line of the source text -/

/-- The number of columns between the character at an index of its line and the next
one that are filled by a tab there. -/
def tabColumns (index : Nat) : Nat := (index / 4 + 1) * 4 - index

/-- What is drawn for the character at an index of its line. -/
def drawn (index : Nat) (c : Char) : List Char :=
  if c = '\t' then List.replicate (tabColumns index) ' '
  else if isUnicodeSpace c then [' ']
  else [c]

/-- The number of columns that this takes. -/
def drawnColumns (index : Nat) (c : Char) : Nat :=
  if c = '\t' then tabColumns index else if isUnicodeSpace c then 1 else columns c

/-- A line as it is drawn, with the characters outside `[start, stop)` in the plain
color, each by itself. -/
def drawLine (color : Bool) (start stop : Nat) (line : TextLine) : String :=
  String.join <| (line.trimmed.zipIdx).flatMap fun (c, i) =>
    (drawn i c).map fun d =>
      if start ≤ i && i < stop then d.toString else paint color plainColor d.toString

/-! ### Labels -/

/-- What a label shows under one character of the line: one character, and another
to fill the columns where that takes more than one. -/
structure Mark where
  /-- The first character. -/
  head : Char
  /-- The filling. -/
  tail : Char

/-- A mark over so many columns.  Over no column it is not drawn. -/
def Mark.fill (m : Mark) : Nat → List Char
  | 0 => []
  | n + 1 => m.head :: List.replicate n m.tail

/-- What the line under the span shows under the character at an index. -/
def underMark (start stop middle index : Nat) : Mark :=
  if index = middle then
    if start ≤ middle && middle < stop then ⟨'┬', '─'⟩ else ⟨'│', ' '⟩
  else if start ≤ index && index < stop then ⟨'─', '─'⟩
  else ⟨' ', ' '⟩

/-- What the line of the label shows under the character at an index. -/
def labelMark (middle index : Nat) : Mark :=
  if index = middle then ⟨'╰', '─'⟩
  else if middle < index then ⟨'─', '─'⟩
  else ⟨' ', ' '⟩

/-- A line of marks, one for each of the first `count` characters.  Past the end of
the line a mark takes one column. -/
def drawMarks (line : TextLine) (count : Nat) (mark : Nat → Mark) : String :=
  let cs := line.trimmed.toArray
  String.ofList <| (List.range count).flatMap fun i =>
    (mark i).fill (cs[i]?.elim 1 (drawnColumns i))

/-! ### The whole report -/

/-- The text of the label of a cause, if it has one. -/
def labelText (cause : Cause) : Option String :=
  if cause.isStrictOnly then some "an error in strict mode code" else none

/-- The number of characters in the decimal numeral of `n`. -/
def numeralWidth (n : Nat) : Nat := (Nat.toDigits 10 n).length

/-- A numeral filled up with spaces on the left. -/
def alignRight (width n : Nat) : String :=
  copies (width - numeralWidth n) ' ' ++ toString n

/-- The margin of a line of a label. -/
def labelMargin (color : Bool) (width : Nat) (bar : String) : String :=
  " " ++ paint color labelFrameColor (copies (width + 1) ' ' ++ bar) ++ " "

/-- The lines of a report below its heading, for a span that lies in the text and
starts in the line `first` and ends in the line `last`. -/
def body (color : Bool) (path : String) (label? : Option String) (span : Span)
    (first last : TextLine) : List String :=
  let frame := paint color frameColor
  let width := numeralWidth last.number
  let margin := copies (width + 2) ' '
  let start := first.charsBefore span.start
  let stop := first.charsBefore span.stop
  let place := s!"{path}:{first.number}:{start + 1}"
  let top :=
    [margin ++ frame "╭" ++ frame "─" ++ frame "[" ++ place ++ frame "]",
      margin ++ frame "│"]
  let middle :=
    if first.number = last.number then
      let shown :=
        " " ++ frame (alignRight width first.number ++ " │") ++ " " ++
          drawLine color start stop first
      let label :=
        match label? with
        | none => []
        | some text =>
          let point := (start + stop) / 2
          let margin := labelMargin color width "│"
          [margin ++ drawMarks first (stop + 2) (underMark start stop point),
            margin ++ drawMarks first (stop + 2) (labelMark point) ++ " " ++ text]
      shown :: label
    else [labelMargin color width (if start = 0 then "┆" else "│")]
  top ++ middle ++ [frame (copies (width + 2) '─' ++ "╯")]

/-- The lines of the report of a diagnostic of a text of `size` bytes with the given
lines.  An empty text has no line to show. -/
def drawLines (color : Bool) (path : String) (size : Nat) (lines : List TextLine)
    (severity : Severity) (d : Diagnostic) : List String :=
  let span := d.span.clamp size
  let heading := severityWord color severity ++ " " ++ d.cause.message
  match lineAt lines span.start, lineAt lines (if span.isEmpty then span.start else span.stop - 1)
  with
  | some first, some last => heading :: body color path (labelText d.cause) span first last
  | _, _ => [heading]

/-- The reports of the diagnostics of a text, one after the other, every line ended by
a line feed. -/
def drawAll (color : Bool) (path source : String) (severity : Severity)
    (ds : List Diagnostic) : String :=
  let lines := TextLine.ofString source
  let drawn := ds.flatMap (drawLines color path source.utf8ByteSize lines severity)
  String.join (drawn.map (· ++ "\n"))

end Report

end EcmaLex
