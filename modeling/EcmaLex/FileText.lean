/-!
# Texts of files

What a program gets of a file that it reads: a text, or the reason why there is none.

## Main definitions

* `ReadError` — why a file could not be read.
* `fileText` — the text that the bytes of a file are.
-/

namespace EcmaLex

/-- Why the text of a file could not be read. -/
inductive ReadError where
  /-- Nothing has that name. -/
  | notFound
  /-- Reading is not allowed. -/
  | permissionDenied
  /-- The bytes are no text. -/
  | invalidUtf8
  /-- The path leads to a folder. -/
  | isFolder
  /-- The path leads through a file. -/
  | notFolder
  /-- The path, or a name in it, is longer than any can be. -/
  | nameTooLong
  /-- The system gave another reason. -/
  | other (reason : String)
  deriving DecidableEq, Repr

/-- The text of the error for a file. -/
def ReadError.message (path : String) : ReadError → String
  | notFound => s!"cannot find file '{path}'"
  | permissionDenied => s!"permission denied reading '{path}'"
  | invalidUtf8 => s!"'{path}' contains invalid UTF-8 data"
  | isFolder => s!"error reading '{path}': Is a directory (os error 21)"
  | notFolder => s!"error reading '{path}': Not a directory (os error 20)"
  | nameTooLong => s!"error reading '{path}': File name too long (os error 36)"
  | other reason => s!"error reading '{path}': {reason}"

/-- The text that the bytes of a file are. -/
def fileText (bytes : ByteArray) : Except ReadError String :=
  match String.fromUTF8? bytes with
  | some text => .ok text
  | none => .error .invalidUtf8

end EcmaLex
