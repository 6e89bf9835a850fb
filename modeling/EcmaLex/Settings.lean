/-!
# Scanner settings

The options that hold for the whole of one scan.

## Main definitions

* `Goal` — script or module code.
* `Settings` — the options, with their usual values as defaults.
* `Settings.maxBigIntDigits` — the length limit of BigInt literals, in digits.
-/

namespace EcmaLex

/-- The goal symbol of the source text.  Module code rejects HTML-like comments. -/
inductive Goal where
  | script
  | module
  deriving DecidableEq, Repr

/-- The options of a scan. -/
structure Settings where
  /-- What kind of code the text is. -/
  goal : Goal := .script
  /-- Whether `_` may stand between the digits of a numeric literal. -/
  numericSeparators : Bool := true
  /-- Whether a `#!` line at the very start of the text is skipped. -/
  hashbang : Bool := true
  /-- The greatest size of a BigInt literal, in bits. -/
  maxBigIntBits : Nat := 0x40000000
  deriving DecidableEq, Repr

namespace Settings

instance : Inhabited Settings := ⟨{}⟩

/-- The usual settings for module code. -/
def forModule : Settings := { goal := .module }

/-- Whether the text is module code. -/
def isModule (s : Settings) : Bool := s.goal == .module

/-- The most digits a BigInt literal may have: each stands for four bits. -/
def maxBigIntDigits (s : Settings) : Nat := s.maxBigIntBits / 4

end Settings

end EcmaLex
