/-
When two messages count as the same: case, spacing and invisible characters do not change what a message
says. Lower case and the hash of a text come from the standard library, as functions.
-/
import Genzh.Domain.Text

namespace Genzh.Domain

/-- Characters that occupy no space on screen. -/
def isInvisible (c : Char) : Bool :=
  (0x200B ≤ c.toNat && c.toNat ≤ 0x200F) || (0x2060 ≤ c.toNat && c.toNat ≤ 0x2064) || c.toNat == 0xFEFF || c.toNat == 0xAD

/-- `normalize` from `out` on: the text read so far, and whether a space is pending after it. -/
def normalizeFrom (toLowercase : Char → List Char) (out : List Char) (pendingSpace : Bool) : List Char → List Char
  | [] => out
  | c :: rest =>
    if isInvisible c then normalizeFrom toLowercase out pendingSpace rest
    else if isWhitespace c then normalizeFrom toLowercase out (!out.isEmpty) rest
    else normalizeFrom toLowercase (out ++ (if pendingSpace then [' '] else []) ++ toLowercase c) false rest

/-- Case-folded, whitespace-collapsed, invisible characters removed. -/
def normalize (toLowercase : Char → List Char) (content : String) : String :=
  String.ofList (normalizeFrom toLowercase [] false content.toList)

/-- A fingerprint of what a message says, for spotting repeats. -/
def digest (toLowercase : Char → List Char) (hash : String → UInt64) (content : String) : UInt64 :=
  hash (normalize toLowercase content)

example : normalize (fun c => [c.toLower]) "  hi   THERE\u200b " = "hi there" := by decide +kernel

end Genzh.Domain
