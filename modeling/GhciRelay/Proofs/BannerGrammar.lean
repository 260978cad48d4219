import GhciRelay.Proofs.Banner
import GhciRelay.Proofs.Refusal
import Mathlib.Data.List.Induction
import Mathlib.Data.Nat.Digits.Defs

/-!
# The grammar of banners

What it is for a text to begin with a banner, said without a reader: a `Layout` is a banner with all
that is written around its four parts, and a text begins with a banner if it is the text of a layout.
All layouts of a text agree up to the name of the module. What follows is read in at most two ways, by
whether there are spaces in front of the bracket (`Naming.span_text`): if so, the name is the whole run
of characters that are no blanks; if not, the run ends in the bracket and the name is one character
shorter. So one layout has the longest name, and that is the one that is read (`read_longest_layout`).
-/

namespace GhciRelay.Banner

open GhciRelay.Text

/-! ### Layouts -/

/-- **A module and its source as they are written**: the name, any number of spaces, a bracket and a
space, the path, a comma and a space, and whatever comes then. -/
structure Naming where
  moduleName : List Char
  gap : Nat
  sourcePath : List Char
  rest : List Char
  named : moduleName ≠ []
  unbroken : ∀ c ∈ moduleName, isBlank c = false
  located : sourcePath ≠ []
  commaFree : ',' ∉ sourcePath

/-- The text of a module and its source. -/
def Naming.text (n : Naming) : List Char :=
  n.moduleName ++ (List.replicate n.gap ' ' ++ (['(', ' '] ++ (n.sourcePath ++ ',' :: ' ' :: n.rest)))

/-- **A banner as it is written.** -/
structure Layout extends Naming where
  indent : Nat
  index : List Char
  total : List Char
  indexed : index ≠ []
  indexDigits : ∀ c ∈ index, isDigit c = true
  counted : total ≠ []
  totalDigits : ∀ c ∈ total, isDigit c = true

/-- **The text of a banner.** -/
def Layout.text (l : Layout) : List Char :=
  ['['] ++ (List.replicate l.indent ' ' ++ (l.index ++ (" of ".toList ++ (l.total ++
    ("] Compiling ".toList ++ l.toNaming.text)))))

/-- The four parts of a banner, without what is written around them. -/
def Layout.parts (l : Layout) : Parts := ⟨l.index, l.total, l.moduleName, l.sourcePath⟩

/-- The number that digits of any script write, the last digit being the lowest. -/
def value (run : List Char) : Nat := Nat.ofDigits 10 (run.reverse.filterMap digit?)

/-! ### The readers of the parts -/

theorem span_eq_iff {p : Char → Bool} {s run rest : List Char} : s.span p = (run, rest) ↔
    s = run ++ rest ∧ (∀ c ∈ run, p c = true) ∧ ∀ c ∈ rest.head?, p c = false := by
  constructor
  · intro h
    rw [List.span_eq_takeWhile_dropWhile, Prod.mk.injEq] at h
    obtain ⟨rfl, rfl⟩ := h
    refine ⟨List.takeWhile_append_dropWhile.symm, List.all_eq_true.mp List.all_takeWhile, ?_⟩
    intro c hc
    have hnot := List.head?_dropWhile_not p s
    rw [hc] at hnot
    simpa using hnot
  · rintro ⟨rfl, hrun, hrest⟩
    exact span_append hrun hrest

theorem run_inj {p : Char → Bool} {run run' rest rest' : List Char} (hrun : ∀ c ∈ run, p c = true)
    (hrest : ∀ c ∈ rest.head?, p c = false) (hrun' : ∀ c ∈ run', p c = true)
    (hrest' : ∀ c ∈ rest'.head?, p c = false) (h : run ++ rest = run' ++ rest') :
    run = run' ∧ rest = rest' := by
  have hspan := span_append hrun hrest
  rw [h, span_append hrun' hrest', Prod.mk.injEq] at hspan
  exact ⟨hspan.1.symm, hspan.2.symm⟩

theorem after?_eq_some_iff {start s rest : List Char} :
    after? start s = some rest ↔ s = start ++ rest := by
  constructor
  · intro h
    unfold after? at h
    split at h
    · next hp =>
      obtain ⟨tail, rfl⟩ := List.isPrefixOf_iff_prefix.mp hp
      rw [List.drop_left, Option.some_inj] at h
      rw [h]
    · cases h
  · rintro rfl
    exact after?_append start rest

theorem digits?_eq_some_iff {s run rest : List Char} : digits? s = some (run, rest) ↔
    s = run ++ rest ∧ run ≠ [] ∧ (∀ c ∈ run, isDigit c = true) ∧
      ∀ c ∈ rest.head?, isDigit c = false := by
  constructor
  · intro h
    unfold digits? at h
    split at h
    · cases h
    · next hne hspan =>
      rw [Option.some_inj, Prod.mk.injEq] at h
      obtain ⟨rfl, rfl⟩ := h
      obtain ⟨hs, hrun, hrest⟩ := span_eq_iff.mp hspan
      exact ⟨hs, fun h => hne h, hrun, hrest⟩
  · rintro ⟨rfl, hne, hrun, hrest⟩
    exact digits?_append hne hrun hrest

theorem path?_eq_some_iff {s path : List Char} : path? s = some path ↔
    path ≠ [] ∧ ',' ∉ path ∧ ∃ rest, s = ['(', ' '] ++ (path ++ ',' :: ' ' :: rest) := by
  constructor
  · intro h
    unfold path? at h
    split at h
    · cases h
    · next inner hinner =>
      have hs := after?_eq_some_iff.mp hinner
      split at h
      · cases h
      · next hne hspan =>
        cases h
        obtain ⟨rfl, hpath, -⟩ := span_eq_iff.mp hspan
        refine ⟨fun h => hne h, fun hmem => ?_, _, hs⟩
        exact absurd (hpath ',' hmem) (by decide)
      · cases h
  · rintro ⟨hne, hcomma, rest, rfl⟩
    rw [path?_comma hcomma, if_pos ⟨hne, rfl⟩]

theorem span_spaces (count : Nat) {rest : List Char} (hrest : rest.head? ≠ some ' ') :
    (List.replicate count ' ' ++ rest).span (· == ' ') = (List.replicate count ' ', rest) := by
  refine span_append (fun c hc => ?_) fun c hc => ?_
  · rw [List.eq_of_mem_replicate hc]
    rfl
  · rw [beq_eq_false_iff_ne]
    rintro rfl
    exact hrest hc

theorem spaces_inj {count count' : Nat} {rest rest' : List Char} (hrest : rest.head? ≠ some ' ')
    (hrest' : rest'.head? ≠ some ' ')
    (h : List.replicate count ' ' ++ rest = List.replicate count' ' ' ++ rest') :
    count = count' ∧ rest = rest' := by
  have hspan := span_spaces count hrest
  rw [h, span_spaces count' hrest', Prod.mk.injEq] at hspan
  exact ⟨by simpa using congrArg List.length hspan.1.symm, hspan.2.symm⟩

theorem dropWhile_spaces (count : Nat) {rest : List Char} (hrest : rest.head? ≠ some ' ') :
    (List.replicate count ' ' ++ rest).dropWhile (· == ' ') = rest := by
  have hspan := span_spaces count hrest
  rw [List.span_eq_takeWhile_dropWhile, Prod.mk.injEq] at hspan
  exact hspan.2

theorem exists_replicate_dropWhile (s : List Char) :
    ∃ count, s = List.replicate count ' ' ++ s.dropWhile (· == ' ') := by
  obtain ⟨count, rest, rfl, hrest⟩ := Text.exists_replicate_append ' ' s
  exact ⟨count, by rw [dropWhile_spaces count hrest]⟩

/-! ### The name and the path -/

namespace Naming

theorem head?_afterName (n : Naming) :
    (List.replicate n.gap ' ' ++ (['(', ' '] ++ (n.sourcePath ++ ',' :: ' ' :: n.rest))).head? =
      some (if n.gap = 0 then '(' else ' ') := by
  cases n.gap <;> simp [List.replicate_succ]

/-- **The run of characters that are no blanks** is the name, if there is a space behind it, and the
name with the bracket otherwise. -/
theorem span_text (n : Naming) : n.text.span (!isBlank ·) =
    if n.gap = 0 then (n.moduleName ++ ['('], ' ' :: (n.sourcePath ++ ',' :: ' ' :: n.rest))
    else (n.moduleName, List.replicate n.gap ' ' ++
      (['(', ' '] ++ (n.sourcePath ++ ',' :: ' ' :: n.rest))) := by
  have hname : ∀ c ∈ n.moduleName, (!isBlank c) = true := fun c hc => by rw [n.unbroken c hc]; rfl
  split
  · next hgap =>
    have htext : n.text =
        (n.moduleName ++ ['(']) ++ ' ' :: (n.sourcePath ++ ',' :: ' ' :: n.rest) := by
      simp [text, hgap]
    rw [htext]
    refine span_append (fun c hc => ?_) fun c hc => ?_
    · rcases List.mem_append.mp hc with hc | hc
      · exact hname c hc
      · rw [List.mem_singleton.mp hc]
        decide
    · cases hc
      decide
  · next hgap =>
    refine span_append hname fun c hc => ?_
    rw [n.head?_afterName, if_neg hgap] at hc
    cases hc
    decide

/-- A name without a space behind it is one character shorter than one with a space. -/
theorem name_of_gap {n k : Naming} (h : n.text = k.text) (hn : n.gap ≠ 0) (hk : k.gap = 0) :
    n.moduleName = k.moduleName ++ ['('] := by
  have hspan := n.span_text
  rw [h, k.span_text, if_pos hk, if_neg hn, Prod.mk.injEq] at hspan
  exact hspan.1.symm

theorem name_of_gap_iff {n k : Naming} (h : n.text = k.text) (hgap : n.gap = 0 ↔ k.gap = 0) :
    n.moduleName = k.moduleName := by
  have hspan := n.span_text
  rw [h, k.span_text] at hspan
  by_cases hn : n.gap = 0
  · rw [if_pos hn, if_pos (hgap.mp hn), Prod.mk.injEq] at hspan
    exact (List.append_inj_left' hspan.1 rfl).symm
  · rw [if_neg hn, if_neg (mt hgap.mpr hn), Prod.mk.injEq] at hspan
    exact hspan.1.symm

/-- **All else is known from the name**: the spaces end at the bracket, and the path at the comma. -/
theorem eq_of_moduleName {n k : Naming} (h : n.text = k.text)
    (hname : n.moduleName = k.moduleName) : n = k := by
  have hbracket : ∀ inner : List Char, (['(', ' '] ++ inner).head? ≠ some ' ' := by simp
  have hpath : ∀ m : Naming, ∀ c ∈ m.sourcePath, (c != ',') = true := fun m c hc => by
    rw [bne_iff_ne]
    rintro rfl
    exact m.commaFree hc
  have hcomma : ∀ rest : List Char, ∀ c ∈ (',' :: rest).head?, (c != ',') = false := by simp
  rw [text, text, hname] at h
  obtain ⟨hgap, hinner⟩ := spaces_inj (hbracket _) (hbracket _) (List.append_cancel_left h)
  obtain ⟨hsource, htail⟩ := run_inj (hpath n) (hcomma _) (hpath k) (hcomma _)
    (List.append_cancel_left hinner)
  obtain ⟨-, hrest⟩ := List.cons_eq_cons.mp htail
  cases n
  cases k
  simp_all

/-- **The name is the longest one** that the text can be read with. -/
def IsLongest (n : Naming) : Prop :=
  ∀ k : Naming, k.text = n.text → k.moduleName.length ≤ n.moduleName.length

theorem isLongest_of_gap {n : Naming} (hn : n.gap ≠ 0) : n.IsLongest := by
  intro k hk
  by_cases hgap : k.gap = 0
  · rw [name_of_gap hk.symm hn hgap, List.length_append]
    exact Nat.le_add_right _ _
  · rw [name_of_gap_iff hk (iff_of_false hgap hn)]

theorem IsLongest.gap_eq_zero {n k : Naming} (hn : n.IsLongest) (h : k.text = n.text)
    (hgap : n.gap = 0) : k.gap = 0 := by
  by_contra hk
  have hle := hn k h
  rw [name_of_gap h hk hgap, List.length_append, List.length_singleton] at hle
  omega

theorem exists_isLongest (n : Naming) : ∃ m : Naming, m.text = n.text ∧ m.IsLongest := by
  by_cases h : ∃ m : Naming, m.text = n.text ∧ m.gap ≠ 0
  · obtain ⟨m, hm, hgap⟩ := h
    exact ⟨m, hm, isLongest_of_gap hgap⟩
  · push Not at h
    refine ⟨n, rfl, fun k hk => ?_⟩
    rw [name_of_gap_iff hk (iff_of_true (h k hk) (h n rfl))]

theorem IsLongest.lt_of_ne {n k : Naming} (hn : n.IsLongest) (h : k.text = n.text) (hne : k ≠ n) :
    k.moduleName.length < n.moduleName.length := by
  refine lt_of_le_of_ne (hn k h) fun hlen => hne (eq_of_moduleName h ?_)
  have happend : k.moduleName ++ _ = n.moduleName ++ _ := h
  exact (List.append_inj happend hlen).1

theorem wholeRun?_text (n : Naming) :
    wholeRun? n.moduleName (List.replicate n.gap ' ' ++
      (['(', ' '] ++ (n.sourcePath ++ ',' :: ' ' :: n.rest))) =
      some (n.moduleName, n.sourcePath) := by
  have hpath : path? (['(', ' '] ++ (n.sourcePath ++ ',' :: ' ' :: n.rest)) = some n.sourcePath :=
    path?_eq_some_iff.mpr ⟨n.located, n.commaFree, n.rest, rfl⟩
  have hhead : (['(', ' '] ++ (n.sourcePath ++ ',' :: ' ' :: n.rest)).head? ≠ some ' ' := by simp
  rw [wholeRun?, dropWhile_spaces _ hhead, hpath, if_neg (by simpa using n.named)]
  rfl

end Naming

theorem exists_naming_of_wholeRun? {s run rest name path : List Char}
    (hspan : s.span (!isBlank ·) = (run, rest)) (h : wholeRun? run rest = some (name, path)) :
    ∃ n : Naming, n.text = s ∧ n.gap ≠ 0 := by
  obtain ⟨rfl, hrun, hrest⟩ := span_eq_iff.mp hspan
  unfold wholeRun? at h
  split at h
  · cases h
  · next hne =>
    obtain ⟨path', hpath, he⟩ := Option.map_eq_some_iff.mp h
    obtain ⟨rfl, rfl⟩ := Prod.mk.inj he
    obtain ⟨hlocated, hcomma, tail, htail⟩ := path?_eq_some_iff.mp hpath
    obtain ⟨gap, hgap⟩ := exists_replicate_dropWhile rest
    rw [htail] at hgap
    refine ⟨⟨run, gap, path', tail, by simpa using hne, fun c hc => by simpa using hrun c hc,
      hlocated, hcomma⟩, by rw [Naming.text, ← hgap], ?_⟩
    -- without a space the bracket would belong to the run
    rintro rfl
    rw [hgap] at hrest
    exact absurd (hrest '(' rfl) (by decide)

theorem exists_naming_of_bracketRun? {s run rest name path : List Char}
    (hspan : s.span (!isBlank ·) = (run, rest)) (h : bracketRun? run rest = some (name, path)) :
    ∃ n : Naming, n.text = s ∧ n.gap = 0 := by
  obtain ⟨rfl, hrun, -⟩ := span_eq_iff.mp hspan
  unfold bracketRun? at h
  split at h
  · cases h
  · next hne =>
    simp only [Bool.or_eq_true, List.isEmpty_iff, bne_iff_ne, not_or, not_not] at hne
    obtain ⟨hinit, hlast⟩ := hne
    obtain ⟨init, rfl⟩ := List.getLast?_eq_some_iff.mp hlast
    rw [List.dropLast_concat] at hinit
    obtain ⟨path', hpath, -⟩ := Option.map_eq_some_iff.mp h
    obtain ⟨hlocated, hcomma, tail, htail⟩ := path?_eq_some_iff.mp hpath
    refine ⟨⟨init, 0, path', tail, hinit, fun c hc => ?_, hlocated, hcomma⟩, ?_, rfl⟩
    · simpa using hrun c (List.mem_append_left _ hc)
    · rw [List.append_assoc, List.singleton_append, htail]
      rfl

theorem exists_naming_of_nameAndPath? {s : List Char} (h : (nameAndPath? s).isSome = true) :
    ∃ n : Naming, n.text = s := by
  obtain ⟨⟨name, path⟩, h⟩ := Option.isSome_iff_exists.mp h
  rcases Option.or_eq_some_iff.mp h with hw | ⟨-, hb⟩
  · obtain ⟨n, hn, -⟩ := exists_naming_of_wholeRun? rfl hw
    exact ⟨n, hn⟩
  · obtain ⟨n, hn, -⟩ := exists_naming_of_bracketRun? rfl hb
    exact ⟨n, hn⟩

/-- **The longest name is the one that is read.** -/
theorem Naming.IsLongest.nameAndPath? {n : Naming} (hn : n.IsLongest) :
    Banner.nameAndPath? n.text = some (n.moduleName, n.sourcePath) := by
  by_cases hgap : n.gap = 0
  · have hwhole : wholeRun? (n.moduleName ++ ['('])
        (' ' :: (n.sourcePath ++ ',' :: ' ' :: n.rest)) = none := by
      by_contra hne
      obtain ⟨⟨name, path⟩, h⟩ := Option.ne_none_iff_exists'.mp hne
      have hspan := n.span_text
      rw [if_pos hgap] at hspan
      obtain ⟨k, hk, hk'⟩ := exists_naming_of_wholeRun? hspan h
      exact hk' (hn.gap_eq_zero hk hgap)
    have hpath : path? ('(' :: ' ' :: (n.sourcePath ++ ',' :: ' ' :: n.rest)) = some n.sourcePath :=
      path?_eq_some_iff.mpr ⟨n.located, n.commaFree, n.rest, rfl⟩
    simp only [Banner.nameAndPath?, n.span_text, if_pos hgap, hwhole, bracketRun?, hpath]
    simp [n.named]
  · simp only [Banner.nameAndPath?, n.span_text, if_neg hgap, n.wholeRun?_text, Option.some_or]

/-! ### Whole banners -/

namespace Layout

theorem ne_space_of_isDigit {c : Char} (h : isDigit c = true) : c ≠ ' ' := by
  rintro rfl
  exact absurd h (by decide)

theorem head?_index (l : Layout) (rest : List Char) : (l.index ++ rest).head? ≠ some ' ' := by
  obtain ⟨c, cs, hcs⟩ := List.exists_cons_of_ne_nil l.indexed
  have hc : c ≠ ' ' := ne_space_of_isDigit (l.indexDigits c (by simp [hcs]))
  simpa [hcs] using hc

theorem parts?_text (l : Layout) : parts? l.text =
    (nameAndPath? l.toNaming.text).map fun r => ⟨l.index, l.total, r.1, r.2⟩ := by
  simp only [parts?, text, after?_append, dropWhile_spaces _ (l.head?_index _),
    digits?_append l.indexed l.indexDigits (not_digit_behind_index _),
    digits?_append l.counted l.totalDigits (not_digit_behind_total _), Option.bind_eq_bind,
    Option.bind_some]
  cases nameAndPath? l.toNaming.text <;> rfl

/-- **Layouts of one text** differ at most behind the word `Compiling`. -/
theorem front_inj {l k : Layout} (h : l.text = k.text) : l.indent = k.indent ∧ l.index = k.index ∧
    l.total = k.total ∧ l.toNaming.text = k.toNaming.text := by
  obtain ⟨hindent, h₁⟩ := spaces_inj (l.head?_index _) (k.head?_index _) (List.append_cancel_left h)
  obtain ⟨hi, h₂⟩ := run_inj l.indexDigits (not_digit_behind_index _) k.indexDigits
    (not_digit_behind_index _) h₁
  obtain ⟨ht, h₃⟩ := run_inj l.totalDigits (not_digit_behind_total _) k.totalDigits
    (not_digit_behind_total _) (List.append_cancel_left h₂)
  exact ⟨hindent, hi, ht, List.append_cancel_left h₃⟩

/-- A text is only read as a banner if it begins with one. -/
theorem exists_of_parts? {t : List Char} {p : Parts} (h : parts? t = some p) :
    ∃ l : Layout, l.text = t := by
  simp only [parts?, Option.bind_eq_bind, Option.bind_eq_some_iff, Prod.exists] at h
  obtain ⟨s, hs, index, s₁, hindex, s₂, hs₂, total, s₃, htotal, s₄, hs₄, name, path, hname, -⟩ := h
  obtain rfl := after?_eq_some_iff.mp hs
  obtain ⟨hsplit, hi, hidigits, -⟩ := digits?_eq_some_iff.mp hindex
  obtain rfl := after?_eq_some_iff.mp hs₂
  obtain ⟨rfl, ht, htdigits, -⟩ := digits?_eq_some_iff.mp htotal
  obtain rfl := after?_eq_some_iff.mp hs₄
  obtain ⟨n, rfl⟩ := exists_naming_of_nameAndPath? (Option.isSome_iff_exists.mpr ⟨_, hname⟩)
  obtain ⟨indent, hindent⟩ := exists_replicate_dropWhile s
  rw [hsplit] at hindent
  exact ⟨⟨n, indent, index, total, hi, hidigits, ht, htdigits⟩, by rw [hindent]; rfl⟩

/-- **The layout with the longest name** of all layouts of its text. -/
def IsLongest (l : Layout) : Prop :=
  ∀ k : Layout, k.text = l.text → k.moduleName.length ≤ l.moduleName.length

theorem text_toNaming {l : Layout} {n : Naming} (h : n.text = l.toNaming.text) :
    ({ l with toNaming := n } : Layout).text = l.text := by
  simp only [text, h]

theorem IsLongest.toNaming {l : Layout} (hl : l.IsLongest) : l.toNaming.IsLongest :=
  fun n hn => hl { l with toNaming := n } (text_toNaming hn)

theorem exists_isLongest (l : Layout) : ∃ m : Layout, m.text = l.text ∧ m.IsLongest := by
  obtain ⟨n, hn, hlongest⟩ := l.toNaming.exists_isLongest
  refine ⟨{ l with toNaming := n }, text_toNaming hn, fun k hk => hlongest k.toNaming ?_⟩
  exact (front_inj hk).2.2.2

theorem IsLongest.lt_of_ne {l k : Layout} (hl : l.IsLongest) (h : k.text = l.text) (hne : k ≠ l) :
    k.moduleName.length < l.moduleName.length := by
  obtain ⟨hindent, hindex, htotal, hnaming⟩ := front_inj h
  refine hl.toNaming.lt_of_ne hnaming fun heq => hne ?_
  cases k
  cases l
  simp_all

/-- **The layout with the longest name is the one that is read.** -/
theorem IsLongest.parts? {l : Layout} (hl : l.IsLongest) : Banner.parts? l.text = some l.parts := by
  rw [l.parts?_text, hl.toNaming.nameAndPath?]
  rfl

theorem IsLongest.read {l : Layout} (hl : l.IsLongest) :
    Banner.read l.text = (ofParts l.parts).map some := by
  rw [Banner.read, hl.parts?]

end Layout

theorem read_eq_none_iff {t : List Char} : read t = .ok none ↔ ∀ l : Layout, l.text ≠ t := by
  constructor
  · rintro h l rfl
    obtain ⟨m, hm, hlongest⟩ := l.exists_isLongest
    rw [← hm, hlongest.read] at h
    cases hp : ofParts m.parts <;> rw [hp] at h <;> cases h
  · intro h
    unfold read
    split
    · rfl
    · next p hp =>
      obtain ⟨l, hl⟩ := Layout.exists_of_parts? hp
      exact absurd hl (h l)

/-! ### The numbers -/

theorem numberOf_eq_value (run : List Char) : numberOf run = value run := by
  have hnumber : ∀ digits : List Nat, number digits = Nat.ofDigits 10 digits.reverse := by
    intro digits
    induction digits using List.reverseRecOn with
    | nil => rfl
    | append_singleton digits d ih =>
      rw [number] at ih ⊢
      rw [List.foldl_concat, ih, List.reverse_append, List.reverse_singleton, List.singleton_append,
        Nat.ofDigits_cons, Nat.add_comm]
  rw [numberOf, hnumber, value, List.filterMap_reverse]

theorem ofParts_of_short {p : Parts} (hindex : p.index.length ≤ digitLimit)
    (htotal : p.total.length ≤ digitLimit) : ofParts p =
      .ok ⟨value p.index, value p.total, String.ofList p.moduleName, String.ofList p.sourcePath⟩ := by
  simp only [ofParts, boundedNumber, if_pos hindex, if_pos htotal, numberOf_eq_value]
  rfl

/-- **A banner is read by its grammar.** A text is taken for a banner exactly if it is the text of some
layout. One of its layouts then has a longer name than all others; from this one the numbers, the name
and the path are read, unless one of the numbers has more than 4300 digits: exactly then the text is
refused. -/
theorem read_longest_layout (t : List Char) :
    (read t ≠ .ok none ↔ ∃ l : Layout, l.text = t) ∧
      ((∃ l : Layout, l.text = t) → ∃ m : Layout, m.text = t ∧
        (∀ l : Layout, l.text = t → l ≠ m → l.moduleName.length < m.moduleName.length) ∧
        (m.index.length ≤ 4300 ∧ m.total.length ≤ 4300 →
          read t = .ok (some ⟨value m.index, value m.total, String.ofList m.moduleName,
            String.ofList m.sourcePath⟩)) ∧
        ((∃ e, read t = .error e) ↔ 4300 < m.index.length ∨ 4300 < m.total.length)) := by
  refine ⟨?_, ?_⟩
  · rw [ne_eq, read_eq_none_iff]
    push Not
    rfl
  · rintro ⟨l, rfl⟩
    obtain ⟨m, hm, hlongest⟩ := l.exists_isLongest
    rw [← hm]
    refine ⟨m, rfl, fun k hk hne => hlongest.lt_of_ne hk hne, ?_, ?_⟩
    · rintro ⟨hindex, htotal⟩
      rw [hlongest.read, ofParts_of_short hindex htotal]
      rfl
    · rw [exists_error_iff, read_fails_iff, hlongest.parts?]
      simp only [Option.some_inj, exists_eq_left']
      rfl

end GhciRelay.Banner
