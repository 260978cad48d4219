import GhciRelay.Proofs.JsonNotation
import Mathlib.Data.List.TakeDrop

/-!
# Reading JSON numbers

Every way to write a number is read as that number (`ofText?_of_spelling`). The digits in front of
the point are those that `Nat.toDigits` gives, so they have no leading zero; what stands behind them
begins with a point, with the letter of an exponent, or is nothing.
-/

namespace GhciRelay.Json

open GhciRelay.Text

/-! ### Digits -/

theorem isAsciiDigit_eq (c : Char) : isAsciiDigit c = c.isDigit := by
  rw [Bool.eq_iff_iff, Char.isDigit_iff_toNat, isAsciiDigit, asciiDigit?]
  split <;> simp_all

theorem digit?_of_isDigit {c : Char} (h : c.isDigit = true) :
    digit? c = some (c.toNat - '0'.toNat) := by
  rw [Char.isDigit_iff_toNat] at h
  have h₁ : 0x30 ≤ c.toNat ∧ c.toNat < 0x30 + 10 := by
    have h₂ : '0'.toNat = 0x30 := rfl
    have h₃ : '9'.toNat = 0x39 := rfl
    omega
  unfold digit? zeros
  rw [List.findSome?_cons, if_pos h₁]
  rfl

theorem numberOf_eq_valueOf {cs : List Char} (h : Digits cs) : numberOf cs = valueOf cs := by
  have hmap : cs.filterMap digit? = cs.map fun c => c.toNat - '0'.toNat := by
    induction cs with
    | nil => rfl
    | cons d ds ih =>
      rw [List.filterMap_cons_some (digit?_of_isDigit (h d (by simp))), List.map_cons,
        ih fun c hc => h c (by simp [hc])]
  rw [numberOf, Text.number, hmap, List.foldl_map]
  rfl

theorem digits_toDigits (n : Nat) : Digits (Nat.toDigits 10 n) :=
  fun _ hc => Nat.isDigit_of_mem_toDigits (by decide) (by decide) hc

theorem toList_toString (n : Nat) : (toString n).toList = Nat.toDigits 10 n := by
  rw [Nat.toString_eq_ofList_toDigits, String.toList_ofList]

theorem toDigits_injective {m n : Nat} (h : Nat.toDigits 10 m = Nat.toDigits 10 n) : m = n := by
  rw [← Nat.ofDigitChars_ten_toDigits (n := m), h, Nat.ofDigitChars_ten_toDigits]

theorem Digits.append {cs ds : List Char} (hc : Digits cs) (hd : Digits ds) : Digits (cs ++ ds) :=
  fun c h => (List.mem_append.mp h).elim (hc c) (hd c)

theorem toDigits_ne_nil (n : Nat) : Nat.toDigits 10 n ≠ [] := by
  rw [Nat.toDigits_eq_if (by decide)]
  split <;> simp

theorem head?_toDigits : ∀ (n : Nat), 0 < n → (Nat.toDigits 10 n).head? ≠ some '0' := by
  intro n
  induction n using Nat.strongRecOn with
  | ind n ih =>
    intro hn
    rw [Nat.toDigits_eq_if (by decide)]
    split
    · next hlt =>
      have hdigit : ∀ d, d < 10 → 0 < d → Nat.digitChar d ≠ '0' := by decide
      simpa using hdigit n hlt hn
    · rw [List.head?_append, Option.or_of_isSome (by simp)]
      exact ih (n / 10) (by omega) (by omega)

theorem wellFormedWhole_toDigits {n : Nat} (h : (Nat.toDigits 10 n).length ≤ digitLimit) :
    Number.wellFormedWhole (Nat.toDigits 10 n) = true := by
  rcases Nat.eq_zero_or_pos n with rfl | hn
  · rfl
  · have hhead := head?_toDigits n hn
    unfold Number.wellFormedWhole
    split
    · next hnil => exact absurd hnil (toDigits_ne_nil n)
    · rfl
    · next c cs _ hcons =>
      rw [hcons] at hhead
      have hc : c ≠ '0' := by simpa using hhead
      simp [hc, h]

/-! ### Digits and what follows them -/

/-- What follows a run of digits begins with none. -/
def Stops (rest : List Char) : Prop := ∀ c ∈ rest.head?, c.isDigit = false

theorem span_digits {ds rest : List Char} (hd : Digits ds) (hr : Stops rest) :
    (ds ++ rest).span isAsciiDigit = (ds, rest) := by
  have hall : ∀ c ∈ ds, isAsciiDigit c = true := fun c hc => (isAsciiDigit_eq c).trans (hd c hc)
  rw [List.span_eq_takeWhile_dropWhile, List.takeWhile_append_of_pos hall,
    List.dropWhile_append_of_pos hall]
  cases rest with
  | nil => simp
  | cons c rest =>
    have hc : isAsciiDigit c = false := (isAsciiDigit_eq c).trans (hr c rfl)
    simp [hc]

theorem stops_point {fraction rest : List Char} (hr : Stops rest) :
    Stops (point fraction ++ rest) := by
  cases fraction with
  | nil => exact hr
  | cons d ds =>
    intro c hc
    cases hc
    decide

theorem splitFraction_point {fraction rest : List Char} (hf : Digits fraction) (hr : Stops rest)
    (hp : rest.head? ≠ some '.') :
    Number.splitFraction (point fraction ++ rest) = some (fraction, rest) := by
  cases fraction with
  | nil =>
    unfold point Number.splitFraction
    split
    · next rest' he =>
      rw [List.nil_append] at he
      rw [he] at hp
      exact absurd rfl hp
    · rfl
  | cons d ds =>
    have hs := span_digits hf hr
    rw [List.cons_append] at hs
    simp only [point, Number.splitFraction, List.cons_append, hs]

theorem exponentOf_of_spelling {e : Int} {es : List Char} (h : ExponentSpelling e es) :
    Number.exponentOf es = some e := by
  have hall : ∀ {ds : List Char}, Digits ds → ds ≠ [] →
      (ds.isEmpty || !ds.all isAsciiDigit) = false := by
    intro ds hd hne
    have hds : ds.all isAsciiDigit = true := by
      rw [List.all_eq_true]
      exact fun c hc => (isAsciiDigit_eq c).trans (hd c hc)
    simp [hds, hne]
  cases h with
  | plain hd hne =>
    unfold Number.exponentOf
    split
    next negative ds' he =>
    split at he
    · next ds => exact absurd (hd '-' (by simp)) (by decide)
    · next ds => exact absurd (hd '+' (by simp)) (by decide)
    · cases he
      rw [hall hd hne, numberOf_eq_valueOf hd]
      rfl
  | plus hd hne =>
    simp only [Number.exponentOf]
    rw [hall hd hne, numberOf_eq_valueOf hd]
    rfl
  | minus hd hne =>
    simp only [Number.exponentOf]
    rw [hall hd hne, numberOf_eq_valueOf hd]
    rfl

theorem splitExponent_of_spelling {e : Int} {es : List Char} {mark : Char}
    (hm : mark = 'e' ∨ mark = 'E') (h : ExponentSpelling e es) :
    Number.splitExponent (mark :: es) = some (some e) := by
  rcases hm with rfl | rfl
  all_goals simp only [Number.splitExponent, exponentOf_of_spelling h, Option.map_some]

/-! ### Numbers -/

/-- A number without its sign: digits, perhaps a fraction, and perhaps an exponent. -/
theorem unsigned?_digits (negative : Bool) {n : Nat} (fraction tail : List Char) {e : Option Int}
    (short : (Nat.toDigits 10 n).length ≤ digitLimit) (hf : Digits fraction) (hr : Stops tail)
    (hp : tail.head? ≠ some '.') (he : Number.splitExponent tail = some e) :
    Number.unsigned? negative (Nat.toDigits 10 n ++ (point fraction ++ tail)) =
      match e with
      | none =>
        if fraction.isEmpty then
          some (.integer (if negative then -(n : Int) else n))
        else some (.decimal negative (valueOf (Nat.toDigits 10 n ++ fraction)) (-(fraction.length : Int)))
      | some e =>
        some (.decimal negative (valueOf (Nat.toDigits 10 n ++ fraction)) (e - fraction.length)) := by
  have hn : numberOf (Nat.toDigits 10 n) = n :=
    (numberOf_eq_valueOf (digits_toDigits n)).trans Nat.ofDigitChars_ten_toDigits
  have hv := numberOf_eq_valueOf ((digits_toDigits n).append hf)
  unfold Number.unsigned?
  rw [span_digits (digits_toDigits n) (stops_point hr)]
  simp only [wellFormedWhole_toDigits short, if_true, splitFraction_point hf hr hp, he, hn, hv]
  cases e <;> rfl

theorem ofText?_sign (negative : Bool) {d : Char} (hd : d.isDigit = true) (cs : List Char) :
    Number.ofText? (sign negative ++ d :: cs) = Number.unsigned? negative (d :: cs) := by
  have hN : d ≠ 'N' := by rintro rfl; revert hd; decide
  have hI : d ≠ 'I' := by rintro rfl; revert hd; decide
  have hm : d ≠ '-' := by rintro rfl; revert hd; decide
  cases negative with
  | true =>
    have hs : sign true ++ d :: cs = '-' :: d :: cs := rfl
    rw [hs]
    unfold Number.ofText?
    rw [if_neg (by simp), if_neg (by simp), if_neg (by simp [hI])]
    rfl
  | false =>
    have hs : sign false ++ d :: cs = d :: cs := rfl
    rw [hs]
    unfold Number.ofText?
    rw [if_neg (by simp [hN]), if_neg (by simp [hI]), if_neg (by simp [hm])]
    split
    · next he =>
      injection he with hd
      exact absurd hd hm
    · rfl

/-- **Every way to write a number is read as that number.** -/
theorem ofText?_of_spelling {v : Number} {cs : List Char} (h : NumberSpelling v cs) :
    Number.ofText? cs = some v := by
  have hstops : Stops [] := fun c hc => by cases hc
  have hsign : ∀ (negative : Bool) (n : Nat) (rest : List Char),
      Number.ofText? (sign negative ++ (Nat.toDigits 10 n ++ rest)) =
        Number.unsigned? negative (Nat.toDigits 10 n ++ rest) := by
    intro negative n rest
    obtain ⟨d, ds, hds⟩ := List.exists_cons_of_ne_nil (toDigits_ne_nil n)
    rw [hds, List.cons_append]
    exact ofText?_sign negative (digits_toDigits n d (by simp [hds])) _
  cases h with
  | integer negative n short =>
    have hu := unsigned?_digits negative [] [] (e := none) short (fun c hc => by cases hc) hstops
      (by simp) rfl
    rw [← hsign, point, List.append_nil, List.append_nil] at hu
    exact hu
  | fraction negative n short hf hne =>
    have hu := unsigned?_digits negative _ [] (e := none) short hf hstops (by simp) rfl
    rw [← hsign, List.append_nil] at hu
    simpa [hne] using hu
  | @exponent negative n short fraction es mark e hf hm he =>
    have hmark : Stops (mark :: es) ∧ (mark :: es).head? ≠ some '.' := by
      rcases hm with rfl | rfl
      · exact ⟨fun c hc => by cases hc; decide, by simp⟩
      · exact ⟨fun c hc => by cases hc; decide, by simp⟩
    have hu := unsigned?_digits negative fraction (mark :: es) short hf hmark.1 hmark.2
      (splitExponent_of_spelling hm he)
    rw [← hsign] at hu
    exact hu
  | nan => rfl
  | infinite negative => cases negative <;> rfl

end GhciRelay.Json
