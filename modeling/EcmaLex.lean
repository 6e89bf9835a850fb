import EcmaLex.CommandLine
import EcmaLex.Main
import EcmaLex.Proofs.Listing.BlockComment
import EcmaLex.Proofs.Listing.ErrorPlaces
import EcmaLex.Proofs.Listing.Settings
import EcmaLex.Proofs.Numeral.BigInt
import EcmaLex.Proofs.Numeral.Literals
import EcmaLex.Proofs.Numeral.SmallInteger
import EcmaLex.Proofs.Quoted.StringLiteral
import EcmaLex.Proofs.Quoted.Template
import EcmaLex.Proofs.Scanner.LineTerminators
import EcmaLex.Proofs.Scanner.LongestPunctuator
import EcmaLex.Proofs.Scanner.MagicComment
import EcmaLex.Proofs.Scanner.SameText
import EcmaLex.Proofs.Scanner.TemplateContinuation
import EcmaLex.Proofs.Word.Decoding
import EcmaLex.Proofs.Scanner.LegacyOctal
import EcmaLex.Proofs.Source.Zipper
import EcmaLex.Proofs.Decimal.Grammar
import EcmaLex.Proofs.Numeral.Value
import EcmaLex.Proofs.Listing.Dump
import EcmaLex.Proofs.Word.Keywords
import EcmaLex.Proofs.Source.Checked
import EcmaLex.Proofs.Source.Bounds
import EcmaLex.Proofs.Scanner.Addressable
