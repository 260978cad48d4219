import GhciRelay.Location.Path
import GhciRelay.Text.Utf8

/-!
# File URIs

The editor knows a file by its URI: `file://` and the normal form of its absolute path, in which
every byte that is not an unreserved character or a slash is written as a percent sign and two
hexadecimal digits. Different spellings of a path thus name the same file, and different normal
forms never share a URI.
-/

namespace GhciRelay.FileUri

/-- The byte stands for itself in a URI. -/
def isUnreserved (b : UInt8) : Bool :=
  let n := b.toNat
  (0x30 ≤ n && n ≤ 0x39) || (0x41 ≤ n && n ≤ 0x5a) || (0x61 ≤ n && n ≤ 0x7a)
    || n == 0x5f || n == 0x2e || n == 0x2d || n == 0x7e || n == 0x2f

/-- A hexadecimal digit, in upper case. -/
def hexDigit (n : Nat) : Char := if n < 10 then Char.ofNat (0x30 + n) else Char.ofNat (0x37 + n)

/-- A byte in a URI. -/
def encodeByte (b : UInt8) : List Char :=
  if isUnreserved b then [Char.ofNat b.toNat]
  else ['%', hexDigit (b.toNat / 16), hexDigit (b.toNat % 16)]

/-- A path in a URI. -/
def encode (path : List Char) : List Char := (Text.Utf8.encode path).flatMap encodeByte

/-- **The URI of a path** as seen from a directory. There is none if the result is relative. -/
def ofPath? (base path : String) : Option String :=
  let p := (Path.parse (Path.join base.toList path.toList)).collapse
  if p.isAbsolute then some (String.ofList ("file://".toList ++ encode p.render)) else none

/-- The words in which a relative path is refused. -/
def relativeMessage : String := "relative path can't be expressed as a file URI"

end GhciRelay.FileUri
