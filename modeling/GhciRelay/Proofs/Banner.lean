import GhciRelay.Output.Banner
import GhciRelay.Proofs.JsonNumber

/-!
# Reading the banners that are printed

The interpreter prints a banner with the path as it is, and the path is read up to the first comma. So
a banner comes back as it was printed if its path has no comma in it; otherwise it comes back with the
piece of the path in front of the comma, or not at all (`read_text`). `understood` tells which.

What a reader of a part of a banner takes is determined by the part and by what follows: a run ends
where a character follows that does not belong to it.
-/

namespace GhciRelay.Banner

open GhciRelay.Text

/-! ### Runs -/

theorem span_append {p : Char → Bool} {run rest : List Char} (hrun : ∀ c ∈ run, p c = true)
    (hrest : ∀ c ∈ rest.head?, p c = false) : (run ++ rest).span p = (run, rest) := by
  rw [List.span_eq_takeWhile_dropWhile, List.takeWhile_append_of_pos hrun,
    List.dropWhile_append_of_pos hrun]
  cases rest with
  | nil => simp
  | cons c rest => simp [hrest c rfl]

theorem after?_append (start rest : List Char) : after? start (start ++ rest) = some rest := by
  have hprefix : start.isPrefixOf (start ++ rest) = true :=
    List.isPrefixOf_iff_prefix.mpr (List.prefix_append _ _)
  rw [after?, if_pos hprefix, List.drop_left]

theorem digits?_append {run rest : List Char} (hne : run ≠ []) (hrun : ∀ c ∈ run, isDigit c = true)
    (hrest : ∀ c ∈ rest.head?, isDigit c = false) : digits? (run ++ rest) = some (run, rest) := by
  rw [digits?, span_append hrun hrest]
  cases run with
  | nil => exact absurd rfl hne
  | cons c run => rfl

theorem span_comma {path rest : List Char} (hp : ',' ∉ path) (hrest : ∀ c ∈ rest.head?, c = ',') :
    (path ++ rest).span (· != ',') = (path, rest) := by
  refine span_append (fun c hc => ?_) fun c hc => ?_
  · rw [bne_iff_ne]
    rintro rfl
    exact hp hc
  · rw [hrest c hc]
    rfl

/-- A path is read up to the first comma, if it is not empty and a space follows. -/
theorem path?_comma {path : List Char} (hp : ',' ∉ path) (rest : List Char) :
    path? (['(', ' '] ++ (path ++ ',' :: rest)) =
      if path ≠ [] ∧ rest.head? = some ' ' then some path else none := by
  have hspan : (path ++ ',' :: rest).span (· != ',') = (path, ',' :: rest) :=
    span_comma hp (by simp)
  simp only [path?, after?_append, hspan]
  cases path with
  | nil => simp
  | cons c path =>
    cases rest with
    | nil => simp
    | cons d rest =>
      by_cases hd : d = ' '
      · subst hd; simp
      · split
        · next he => cases he
        · next he => cases he; exact absurd rfl hd
        · simp [hd]

/-! ### The digits of a number -/

theorem not_digit_behind_index (rest : List Char) :
    ∀ c ∈ (" of ".toList ++ rest).head?, isDigit c = false := by
  intro c hc
  cases hc
  decide

theorem not_digit_behind_total (rest : List Char) :
    ∀ c ∈ ("] Compiling ".toList ++ rest).head?, isDigit c = false := by
  intro c hc
  cases hc
  decide

theorem isDigit_of_mem_toDigits {n : Nat} {c : Char} (h : c ∈ Nat.toDigits 10 n) : isDigit c = true := by
  rw [isDigit, Json.digit?_of_isDigit (Json.digits_toDigits n c h)]
  rfl

theorem boundedNumber_toDigits {n : Nat} (h : (Nat.toDigits 10 n).length ≤ digitLimit) :
    boundedNumber (Nat.toDigits 10 n) = .ok n := by
  have hvalue : numberOf (Nat.toDigits 10 n) = n := by
    rw [Json.numberOf_eq_valueOf (Json.digits_toDigits n)]
    exact Nat.ofDigitChars_ten_toDigits
  rw [boundedNumber, if_pos h, hvalue]

/-! ### The line of a banner -/

/-- **The line that is printed** for a banner. -/
def text (b : Banner) : String :=
  "[" ++ toString b.index ++ " of " ++ toString b.total ++ "] Compiling " ++ b.moduleName ++ " ( "
    ++ b.sourcePath ++ ", interpreted )"

/-- **A banner that can be printed**: its numbers are not too long to be read, the name is a run of
characters that are no blanks, and there is a path. -/
structure Printable (b : Banner) : Prop where
  index : (toString b.index).length ≤ digitLimit
  total : (toString b.total).length ≤ digitLimit
  moduleName : b.moduleName ≠ ""
  unbroken : ∀ c ∈ b.moduleName.toList, isBlank c = false
  sourcePath : b.sourcePath ≠ ""

/-- **What a printed banner is read as.** If there is a comma in the path, only what stands in front
of it is read, and only if a space follows it. If nothing stands in front of it, a bracket at the end
of the name can pass for the one before the path, and the proper one for the path. -/
def understood (b : Banner) : Option Banner :=
  match b.sourcePath.toList.span (· != ',') with
  | (_, []) => some b
  | (front, _ :: rest) =>
    if rest.head? ≠ some ' ' then none
    else if front ≠ [] then some { b with sourcePath := String.ofList front }
    else if b.moduleName.toList.dropLast ≠ [] ∧ b.moduleName.toList.getLast? = some '(' then
      some { b with moduleName := String.ofList b.moduleName.toList.dropLast, sourcePath := "( " }
    else none

theorem understood_of_not_mem {b : Banner} (h : ',' ∉ b.sourcePath.toList) : b.understood = some b := by
  have hspan : (b.sourcePath.toList ++ []).span (· != ',') = (b.sourcePath.toList, []) :=
    span_comma h (by simp)
  rw [List.append_nil] at hspan
  rw [understood, hspan]

/-- A name, a space and a bracket: the name is either all of the run or the run without its last
character. -/
theorem nameAndPath?_append {name : List Char} (hne : name ≠ [])
    (hname : ∀ c ∈ name, isBlank c = false) (inner : List Char) :
    nameAndPath? (name ++ ' ' :: (['(', ' '] ++ inner)) =
      ((path? (['(', ' '] ++ inner)).map fun path => (name, path)).or
        (if name.dropLast ≠ [] ∧ name.getLast? = some '(' then
          (path? (['(', ' '] ++ (['(', ' '] ++ inner))).map fun path => (name.dropLast, path)
        else none) := by
  have hspan : (name ++ ' ' :: (['(', ' '] ++ inner)).span (!isBlank ·) =
      (name, ' ' :: (['(', ' '] ++ inner)) := by
    refine span_append (fun c hc => by rw [hname c hc]; rfl) fun c hc => ?_
    cases hc
    decide
  have hskip : (' ' :: (['(', ' '] ++ inner)).dropWhile (· == ' ') = ['(', ' '] ++ inner := by
    rw [List.dropWhile_cons_of_pos (by decide)]
    exact List.dropWhile_cons_of_neg (by decide)
  have hbracket : '(' :: ' ' :: (['(', ' '] ++ inner) = ['(', ' '] ++ (['(', ' '] ++ inner) := rfl
  simp only [nameAndPath?, hspan, wholeRun?, bracketRun?, hskip, hbracket]
  by_cases hlast : name.getLast? = some '(' <;> by_cases hinit : name.dropLast = [] <;>
    simp [hne, hlast, hinit]

theorem nameAndPath?_text {b : Banner} (hb : b.Printable) {tail : List Char} :
    nameAndPath? (b.moduleName.toList ++ ' ' :: (['(', ' '] ++
      (b.sourcePath.toList ++ ',' :: ' ' :: tail))) =
      b.understood.map fun b' => (b'.moduleName.toList, b'.sourcePath.toList) := by
  have hname : b.moduleName.toList ≠ [] := by simpa using hb.moduleName
  have hpath : b.sourcePath.toList ≠ [] := by simpa using hb.sourcePath
  rw [nameAndPath?_append hname hb.unbroken]
  by_cases hcomma : ',' ∈ b.sourcePath.toList
  · obtain ⟨front, rest, hsplit, hfront⟩ := List.eq_append_cons_of_mem hcomma
    have hspan : b.sourcePath.toList.span (· != ',') = (front, ',' :: rest) := by
      rw [hsplit]
      exact span_comma hfront (by simp)
    have hassoc : b.sourcePath.toList ++ ',' :: ' ' :: tail =
        front ++ ',' :: (rest ++ ',' :: ' ' :: tail) := by rw [hsplit]; simp
    have hhead : (rest ++ ',' :: ' ' :: tail).head? = some ' ' ↔ rest.head? = some ' ' := by
      cases rest <;> simp
    -- the bracket that passes for the one before the path belongs to the path then
    have hfront' : ',' ∉ ['(', ' '] ++ front := by simpa using hfront
    rw [hassoc, path?_comma hfront, ← List.append_assoc ['(', ' '] front, path?_comma hfront',
      understood, hspan]
    simp only [hhead]
    by_cases hr : rest.head? = some ' '
    · by_cases hf : front = []
      · by_cases hl : b.moduleName.toList.dropLast = [] <;>
          by_cases hg : b.moduleName.toList.getLast? = some '(' <;> simp [hr, hf, hl, hg]
      · simp [hr, hf]
    · simp [hr]
  · rw [path?_comma hcomma, understood_of_not_mem hcomma]
    simp [hpath]

theorem toList_text (b : Banner) : b.text.toList =
    ['['] ++ (Nat.toDigits 10 b.index ++ (" of ".toList ++ (Nat.toDigits 10 b.total ++
      ("] Compiling ".toList ++ (b.moduleName.toList ++ ' ' :: (['(', ' '] ++
        (b.sourcePath.toList ++ ',' :: ' ' :: "interpreted )".toList))))))) := by
  simp [text]

theorem digits?_toDigits (n : Nat) {rest : List Char} (hrest : ∀ c ∈ rest.head?, isDigit c = false) :
    digits? (Nat.toDigits 10 n ++ rest) = some (Nat.toDigits 10 n, rest) :=
  digits?_append (Json.toDigits_ne_nil n) (fun _ hc => isDigit_of_mem_toDigits hc) hrest

theorem dropWhile_space_toDigits (n : Nat) (rest : List Char) :
    (Nat.toDigits 10 n ++ rest).dropWhile (· == ' ') = Nat.toDigits 10 n ++ rest := by
  obtain ⟨c, cs, hcs⟩ := List.exists_cons_of_ne_nil (Json.toDigits_ne_nil n)
  have hc : c ≠ ' ' := by
    rintro rfl
    have hdigit : isDigit ' ' = true := isDigit_of_mem_toDigits (n := n) (by simp [hcs])
    exact absurd hdigit (by decide)
  rw [hcs, List.cons_append, List.dropWhile_cons_of_neg (by simpa using hc)]

/-- **The parts of a printed banner.** -/
theorem parts?_text {b : Banner} (hb : b.Printable) : parts? b.text.toList =
    b.understood.map fun b' => ⟨Nat.toDigits 10 b.index, Nat.toDigits 10 b.total,
      b'.moduleName.toList, b'.sourcePath.toList⟩ := by
  rw [toList_text]
  simp only [parts?, after?_append, dropWhile_space_toDigits,
    digits?_toDigits _ (not_digit_behind_index _), digits?_toDigits _ (not_digit_behind_total _),
    nameAndPath?_text hb, Option.bind_eq_bind, Option.bind_some]
  cases b.understood <;> rfl

theorem understood_numbers {b b' : Banner} (h : b.understood = some b') :
    b'.index = b.index ∧ b'.total = b.total := by
  unfold understood at h
  split at h
  · cases h; exact ⟨rfl, rfl⟩
  · split at h
    · cases h
    · split at h
      · cases h; exact ⟨rfl, rfl⟩
      · split at h
        · cases h; exact ⟨rfl, rfl⟩
        · cases h

/-- **A printed banner is read as what is understood of it.** -/
theorem read_text {b : Banner} (hb : b.Printable) : read b.text.toList = .ok b.understood := by
  have hindex := hb.index
  have htotal := hb.total
  rw [← String.length_toList, Json.toList_toString] at hindex htotal
  rw [read, parts?_text hb]
  cases hu : b.understood with
  | none => rfl
  | some b' =>
    obtain ⟨h₁, h₂⟩ := understood_numbers hu
    rw [← h₁] at hindex ⊢
    rw [← h₂] at htotal ⊢
    simp only [Option.map_some, ofParts, boundedNumber_toDigits hindex, boundedNumber_toDigits htotal,
      String.ofList_toList]
    rfl

end GhciRelay.Banner
