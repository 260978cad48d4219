import GhciRelay.Proofs.Refusal
import GhciRelay.Proofs.Utf8

/-!
# What a file URI stands for

A URI can be read back: without its percent signs it is the UTF-8 text of the normal path
(`ofPath?_faithful`). So a URI names one normal path, and each normal path has one URI.

`Escaped` says which characters a URI may have, and `unescape` takes the percent signs away. Neither
knows how a URI is made.
-/

namespace GhciRelay

namespace Text.Utf8

/-- **A text that is written as bytes is read back.** -/
theorem decode_encode (s : List Char) : decode (encode s) = s := by
  refine decodes_iff.mp ?_
  induction s with
  | nil => exact .nothing
  | cons c s ih => exact .char c ih

end Text.Utf8

namespace FileUri

open GhciRelay.Text

/-! ### Escaped texts -/

/-- The character stands for itself: a letter or a digit of ASCII, or one of five marks. -/
def isPlain (c : Char) : Bool := c.isAlphanum || ['_', '.', '-', '~', '/'].contains c

/-- The hexadecimal digits, in upper case. -/
def hexDigits : List Char := "0123456789ABCDEF".toList

/-- **An escaped text** has characters that stand for themselves, and percent signs with two
hexadecimal digits. -/
inductive Escaped : List Char → Prop
  | nil : Escaped []
  | plain {c : Char} {rest : List Char} (self : isPlain c = true) (more : Escaped rest) :
    Escaped (c :: rest)
  | percent {high low : Char} {rest : List Char} (first : high ∈ hexDigits) (second : low ∈ hexDigits)
    (more : Escaped rest) : Escaped ('%' :: high :: low :: rest)

/-- **The bytes of an escaped text**: a percent sign with two hexadecimal digits is a byte, and any
other character is its UTF-8 bytes. -/
def unescape : List Char → List UInt8
  | [] => []
  | '%' :: high :: low :: rest =>
    match Json.hexDigit? high, Json.hexDigit? low with
    | some h, some l => UInt8.ofNat (16 * h + l) :: unescape rest
    | _, _ => 0x25 :: unescape (high :: low :: rest)
  | c :: rest => Utf8.encodeChar c ++ unescape rest

theorem unescape_of_ne {c : Char} (h : c ≠ '%') (rest : List Char) :
    unescape (c :: rest) = Utf8.encodeChar c ++ unescape rest := by
  rw [unescape]
  exact fun _ _ _ hc => absurd hc h

/-! ### Bytes -/

theorem hexDigit_mem {n : Nat} (h : n < 16) : hexDigit n ∈ hexDigits := by
  have hall : ∀ n < 16, hexDigit n ∈ hexDigits := by decide
  exact hall n h

theorem hexDigit?_hexDigit {n : Nat} (h : n < 16) : Json.hexDigit? (hexDigit n) = some n := by
  have hall : ∀ n < 16, Json.hexDigit? (hexDigit n) = some n := by decide
  exact hall n h

theorem isPlain_of_isUnreserved {b : UInt8} (h : isUnreserved b = true) :
    isPlain (Char.ofNat b.toNat) = true ∧ Char.ofNat b.toNat ≠ '%' ∧
      Utf8.encodeChar (Char.ofNat b.toNat) = [b] := by
  have hall : ∀ n < 0x80, isUnreserved (UInt8.ofNat n) = true →
      isPlain (Char.ofNat n) = true ∧ Char.ofNat n ≠ '%' ∧
        Utf8.encodeChar (Char.ofNat n) = [UInt8.ofNat n] := by decide
  have hb : b.toNat < 0x80 := by
    simp only [isUnreserved, Bool.or_eq_true, Bool.and_eq_true, decide_eq_true_eq, beq_iff_eq] at h
    omega
  have hbyte := hall b.toNat hb
  rw [UInt8.ofNat_toNat] at hbyte
  exact hbyte h

theorem escaped_encodeByte (b : UInt8) {rest : List Char} (hrest : Escaped rest) :
    Escaped (encodeByte b ++ rest) := by
  have hb := b.toNat_lt
  unfold encodeByte
  split
  · next h => exact .plain (isPlain_of_isUnreserved h).1 hrest
  · exact .percent (hexDigit_mem (by omega)) (hexDigit_mem (by omega)) hrest

theorem unescape_encodeByte (b : UInt8) (rest : List Char) :
    unescape (encodeByte b ++ rest) = b :: unescape rest := by
  have hb := b.toNat_lt
  unfold encodeByte
  split
  · next h =>
    obtain ⟨-, hne, hbyte⟩ := isPlain_of_isUnreserved h
    rw [List.singleton_append, unescape_of_ne hne, hbyte, List.singleton_append]
  · have hvalue : 16 * (b.toNat / 16) + b.toNat % 16 = b.toNat := by omega
    have hhigh := hexDigit?_hexDigit (show b.toNat / 16 < 16 by omega)
    have hlow := hexDigit?_hexDigit (show b.toNat % 16 < 16 by omega)
    simp only [List.cons_append, List.nil_append, unescape, hhigh, hlow, hvalue, UInt8.ofNat_toNat]

/-! ### Paths -/

theorem escaped_encode (path : List Char) : Escaped (encode path) := by
  rw [encode]
  induction Utf8.encode path with
  | nil => exact .nil
  | cons b bytes ih => exact escaped_encodeByte b ih

theorem unescape_encode (path : List Char) : unescape (encode path) = Utf8.encode path := by
  rw [encode]
  induction Utf8.encode path with
  | nil => rfl
  | cons b bytes ih => rw [List.flatMap_cons, unescape_encodeByte, ih]

/-- **A path is read back** from what stands for it in a URI. -/
theorem decode_unescape_encode (path : List Char) : Utf8.decode (unescape (encode path)) = path := by
  rw [unescape_encode, Utf8.decode_encode]

/-- The URI of a normal path. -/
def ofNormal (path : List Char) : String := String.ofList ("file://".toList ++ encode path)

theorem ofNormal_injective {p q : List Char} (h : ofNormal p = ofNormal q) : p = q := by
  have hlist : encode p = encode q := List.append_cancel_left (String.ofList_injective h)
  rw [← decode_unescape_encode p, hlist, decode_unescape_encode]

/-- **The URI of a path** is that of its normal form, if the path or the directory is absolute. -/
theorem ofPath?_eq (base path : String) : ofPath? base path =
    if Path.isRooted path || Path.isRooted base then
      some (ofNormal (Path.normalize (Path.join base.toList path.toList))) else none := by
  simp only [ofPath?, Path.isAbsolute_join]
  rfl

theorem eq_of_ofPath? {base path uri : String} (h : ofPath? base path = some uri) :
    uri = ofNormal (Path.normalize (Path.join base.toList path.toList)) := by
  rw [ofPath?_eq] at h
  split at h
  · exact (Option.some_inj.mp h).symm
  · cases h

/-- **URIs are a faithful encoding of normal paths.** If a path has a URI, it is `file://` and an
escaped text that is read back as the normal path, and its bytes are those of the normal path. The URIs
of two paths are thus the same exactly if the normal paths are. And a path has no URI exactly if neither
it nor the directory that it is seen from begins with a slash. -/
theorem ofPath?_faithful (base path : String) :
    (∀ uri, ofPath? base path = some uri → ∃ text, uri = "file://" ++ String.ofList text ∧
      Escaped text ∧
      unescape text = Utf8.encode (Path.normalize (Path.join base.toList path.toList)) ∧
      Utf8.decode (unescape text) = Path.normalize (Path.join base.toList path.toList)) ∧
    (∀ base' path' uri uri', ofPath? base path = some uri → ofPath? base' path' = some uri' →
      (uri = uri' ↔ Path.normalize (Path.join base.toList path.toList) =
        Path.normalize (Path.join base'.toList path'.toList))) ∧
    (ofPath? base path = none ↔ Path.isRooted path = false ∧ Path.isRooted base = false) := by
  refine ⟨fun uri huri => ?_, fun base' path' uri uri' huri huri' => ?_, ?_⟩
  · obtain rfl := eq_of_ofPath? huri
    have hfront : ∀ text, String.ofList ("file://".toList ++ text) = "file://" ++ String.ofList text :=
      fun text => by rw [String.ofList_append, String.ofList_toList]
    exact ⟨encode (Path.normalize (Path.join base.toList path.toList)), hfront _, escaped_encode _,
      unescape_encode _, decode_unescape_encode _⟩
  · obtain rfl := eq_of_ofPath? huri
    obtain rfl := eq_of_ofPath? huri'
    exact ⟨ofNormal_injective, congrArg ofNormal⟩
  · rw [← Bool.or_eq_false_iff, ← isSome_ofPath?, Option.isSome_eq_false_iff, Option.isNone_iff_eq_none]

end FileUri

end GhciRelay
