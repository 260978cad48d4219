import GhciRelay.Proofs.Refusal

/-!
# Normal paths

The laws of reading, resolving and writing paths. A text is cut at its slashes, so joining two texts
with a slash joins their segments (`segments_slash`); a path seen from a directory has the segments of
both (`parse_join`). Resolving `..` segments works on a stack, and what is on it is never `..` if the
path is absolute (`mem_foldl_push`). So the result is normal, and a normal path is not changed by
writing, reading and resolving it again (`normalize_render`).
-/

namespace GhciRelay.Path

/-! ### Segments -/

theorem splitSlash_cons (c : Char) (s : List Char) :
    splitSlash (c :: s) = splitStep c (splitSlash s) := rfl

theorem splitSlash_eq_splitOn (s : List Char) : splitSlash s = s.splitOn '/' := by
  induction s with
  | nil => rfl
  | cons c s ih =>
    obtain ⟨segment, rest, hs⟩ := List.exists_cons_of_ne_nil (List.splitOn_ne_nil '/' s)
    rw [splitSlash_cons, ih, List.splitOn_cons_eq_if_modifyHead, hs]
    rfl

theorem splitSlash_slash (front rest : List Char) :
    splitSlash (front ++ '/' :: rest) = splitSlash front ++ splitSlash rest := by
  simp only [splitSlash_eq_splitOn, List.splitOn_append_cons_self]

theorem splitSlash_intercalate {segments : List (List Char)} (hne : segments ≠ [])
    (h : ∀ segment ∈ segments, '/' ∉ segment) : splitSlash (['/'].intercalate segments) = segments := by
  rw [splitSlash_eq_splitOn]
  exact List.splitOn_intercalate '/' h hne

theorem intercalate_splitSlash (s : List Char) : ['/'].intercalate (splitSlash s) = s := by
  rw [splitSlash_eq_splitOn]
  exact List.intercalate_splitOn '/'

theorem slash_notMem_of_mem_splitSlash {s : List Char} :
    ∀ segment ∈ splitSlash s, '/' ∉ segment := by
  induction s with
  | nil => simp [splitSlash]
  | cons c s ih =>
    rw [splitSlash_cons, splitStep.eq_def]
    split
    · intro segment hsegment
      rcases List.mem_cons.mp hsegment with rfl | hsegment
      · exact List.not_mem_nil
      · exact ih segment hsegment
    · next hc =>
      have hslash : '/' ≠ c := fun h => hc (beq_iff_eq.mpr h.symm)
      cases hs : splitSlash s with
      | nil => simpa using hslash
      | cons first rest =>
        rw [hs] at ih
        intro segment hsegment
        rcases List.mem_cons.mp hsegment with rfl | hsegment
        · simp [hslash, ih first (by simp)]
        · exact ih segment (by simp [hsegment])

/-- **The segments of two texts with a slash between them.** -/
theorem segments_slash (front rest : List Char) :
    (parse (front ++ '/' :: rest)).segments = (parse front).segments ++ (parse rest).segments := by
  simp only [parse, splitSlash_slash, List.filter_append]

theorem segments_replicate (count : Nat) (rest : List Char) :
    (parse (List.replicate count '/' ++ rest)).segments = (parse rest).segments := by
  induction count with
  | zero => rfl
  | succ count ih =>
    have hslash := segments_slash [] (List.replicate count '/' ++ rest)
    rw [ih] at hslash
    exact hslash

theorem segments_intercalate {segments : List (List Char)}
    (h : ∀ segment ∈ segments, '/' ∉ segment) :
    (parse (['/'].intercalate segments)).segments = segments.filter isProper := by
  by_cases hne : segments = []
  · rw [hne]
    rfl
  · simp only [parse, splitSlash_intercalate hne h]

/-! ### Leading slashes -/

/-- How many leading slashes count, of those that there are. -/
def significant : Nat → Nat
  | 0 => 0
  | 2 => 2
  | _ => 1

theorem leadingSlashes_replicate (count : Nat) {rest : List Char} (h : rest.head? ≠ some '/') :
    leadingSlashes (List.replicate count '/' ++ rest) = significant count := by
  have hrest : ∀ more, rest ≠ '/' :: more := fun more hmore => h (by rw [hmore]; rfl)
  match count with
  | 0 => exact leadingSlashes.eq_4 rest (fun _ => hrest _) (fun _ => hrest _) hrest
  | 1 => exact leadingSlashes.eq_3 rest (fun _ => hrest _) hrest
  | 2 => exact leadingSlashes.eq_2 rest hrest
  | count + 3 => rfl

theorem leadingSlashes_append {base rest : List Char}
    (h : rest.head? = some '/' → base ≠ [] ∧ base.getLast? ≠ some '/') :
    leadingSlashes (base ++ rest) = leadingSlashes base := by
  obtain ⟨count, body, rfl, hbody⟩ := Text.exists_replicate_append '/' base
  have hhead : (body ++ rest).head? ≠ some '/' := by
    cases body with
    | cons c body => exact hbody
    | nil =>
      intro hrest
      obtain ⟨hne, hlast⟩ := h hrest
      rw [List.append_nil] at hne hlast
      exact hlast (by simpa [List.getLast?_replicate] using hne)
  rw [List.append_assoc, leadingSlashes_replicate count hhead, leadingSlashes_replicate count hbody]

/-! ### Texts and their segments -/

/-- **A text is made of leading slashes and segments**, the first of which is not empty. -/
structure Segmented (s : List Char) (slashes : Nat) (segments : List (List Char)) : Prop where
  text : s = List.replicate slashes '/' ++ ['/'].intercalate segments
  slashFree : ∀ segment ∈ segments, '/' ∉ segment
  first : segments.head? ≠ some []

theorem exists_segmented (s : List Char) : ∃ slashes segments, Segmented s slashes segments := by
  obtain ⟨slashes, body, rfl, hbody⟩ := Text.exists_replicate_append '/' s
  by_cases hempty : body = []
  · exact ⟨slashes, [], by rw [hempty]; rfl, by simp, by simp⟩
  · refine ⟨slashes, splitSlash body, by rw [intercalate_splitSlash], slash_notMem_of_mem_splitSlash,
      fun hfirst => ?_⟩
    obtain ⟨rest, hrest⟩ := List.head?_eq_some_iff.mp hfirst
    have hback := intercalate_splitSlash body
    rw [hrest] at hback
    cases rest with
    | nil => exact hempty hback.symm
    | cons segment rest =>
      rw [List.intercalate_cons_cons] at hback
      exact hbody (by rw [← hback]; rfl)

namespace Segmented

variable {s : List Char} {slashes : Nat} {segments : List (List Char)} (h : Segmented s slashes segments)
include h

theorem head?_ne : (['/'].intercalate segments).head? ≠ some '/' := by
  cases hs : segments with
  | nil => simp
  | cons segment rest =>
    have hfirst : segment ≠ [] := fun he => h.first (by rw [hs, he]; rfl)
    obtain ⟨c, cs, rfl⟩ := List.exists_cons_of_ne_nil hfirst
    have hslash : '/' ∉ c :: cs := h.slashFree _ (by simp [hs])
    have hc : c ≠ '/' := fun hc => hslash (by simp [hc])
    cases rest with
    | nil => simpa using hc
    | cons next rest =>
      rw [List.intercalate_cons_cons]
      simpa using hc

/-- **What is read** of the text. -/
theorem parse_eq : parse s = ⟨significant slashes, segments.filter isProper⟩ := by
  have hslashes : leadingSlashes s = significant slashes := by
    rw [h.text, leadingSlashes_replicate slashes h.head?_ne]
  have hsegments : (parse s).segments = segments.filter isProper := by
    rw [h.text, segments_replicate, segments_intercalate h.slashFree]
  rw [← hsegments, ← hslashes]
  rfl

theorem head?_eq_iff : s.head? = some '/' ↔ slashes ≠ 0 := by
  rw [h.text]
  cases slashes with
  | zero => simpa using h.head?_ne
  | succ slashes => simp [List.replicate_succ]

end Segmented

/-! ### Paths seen from a directory -/

/-- **A path seen from a directory**: the slashes of the directory, and the segments of both. -/
theorem parse_join (base : List Char) {path : List Char} (h : path.head? ≠ some '/') :
    parse (join base path) =
      ⟨(parse base).slashes, (parse base).segments ++ (parse path).segments⟩ := by
  have hparse : ∀ s segments, leadingSlashes s = leadingSlashes base → (parse s).segments = segments →
      parse s = ⟨(parse base).slashes, segments⟩ := by
    rintro s segments hs rfl
    rw [parse, hs]
    rfl
  rw [join, if_neg h]
  by_cases hend : base = [] ∨ base.getLast? = some '/'
  · rw [if_pos (by simpa using hend)]
    refine hparse _ _ (leadingSlashes_append fun hp => absurd hp h) ?_
    rcases hend with rfl | hlast
    · rfl
    · obtain ⟨front, rfl⟩ := List.getLast?_eq_some_iff.mp hlast
      have hfront : (parse (front ++ ['/'])).segments = (parse front).segments := by
        rw [segments_slash]
        exact List.append_nil _
      rw [List.append_assoc, List.singleton_append, segments_slash, hfront]
  · rw [if_neg (by simpa using hend)]
    exact hparse _ _ (leadingSlashes_append fun _ => not_or.mp hend) (segments_slash base path)

/-! ### Resolving -/

theorem push_of_ne {absolute : Bool} {segment : List Char} (h : segment ≠ parent)
    (stack : List (List Char)) : push absolute stack segment = segment :: stack := by
  unfold push
  exact if_neg h

/-- **A segment and the way back** leave the stack as it was. -/
theorem push_parent {absolute : Bool} {segment : List Char} (h : segment ≠ parent)
    (stack : List (List Char)) : push absolute (push absolute stack segment) parent = stack := by
  rw [push_of_ne h]
  unfold push
  rw [if_pos rfl]
  exact if_neg h

/-- On an absolute path a segment is added, unless it is `..`, or the last one is taken away. -/
theorem mem_push {stack : List (List Char)} (hstack : parent ∉ stack) {segment x : List Char}
    (h : x ∈ push true stack segment) : x ∈ stack ∨ x = segment ∧ x ≠ parent := by
  unfold push at h
  split at h
  · split at h
    · cases h
    · next top rest =>
      have htop : top ≠ parent := fun htop => hstack (by simp [htop])
      rw [if_neg htop] at h
      exact .inl (List.mem_cons_of_mem _ h)
  · next hne =>
    rcases List.mem_cons.mp h with rfl | h
    · exact .inr ⟨rfl, hne⟩
    · exact .inl h

/-- **What is on the stack** when an absolute path is resolved: segments of the path, but never
`..`. -/
theorem mem_foldl_push : ∀ (segments : List (List Char)) {stack : List (List Char)},
    parent ∉ stack → ∀ x ∈ segments.foldl (push true) stack, (x ∈ stack ∨ x ∈ segments) ∧ x ≠ parent
  | [], stack, hstack, x, hx => ⟨.inl hx, fun h => hstack (h ▸ hx)⟩
  | segment :: segments, stack, hstack, x, hx => by
    have hpush : parent ∉ push true stack segment := fun h =>
      (mem_push hstack h).elim hstack fun h => h.2 rfl
    obtain ⟨hmem, hne⟩ := mem_foldl_push segments hpush x hx
    refine ⟨?_, hne⟩
    rcases hmem with hmem | hmem
    · rcases mem_push hstack hmem with hmem | ⟨rfl, -⟩
      · exact .inl hmem
      · exact .inr List.mem_cons_self
    · exact .inr (List.mem_cons_of_mem _ hmem)

theorem foldl_push_of_notMem {absolute : Bool} : ∀ {segments : List (List Char)}
    (stack : List (List Char)), parent ∉ segments →
    segments.foldl (push absolute) stack = segments.reverse ++ stack
  | [], _, _ => rfl
  | segment :: segments, stack, h => by
    have hne : segment ≠ parent := fun hs => h (by simp [hs])
    rw [List.foldl_cons, push_of_ne hne, foldl_push_of_notMem _ fun hs => h (by simp [hs])]
    simp

/-! ### The normal form -/

/-- **A normal path** is absolute, and each of its segments leads somewhere. -/
structure IsNormal (p : Path) : Prop where
  slashes : p.slashes = 1 ∨ p.slashes = 2
  proper : ∀ segment ∈ p.segments, isProper segment = true
  resolved : parent ∉ p.segments
  slashFree : ∀ segment ∈ p.segments, '/' ∉ segment

theorem leadingSlashes_cases (s : List Char) :
    leadingSlashes s = 0 ∨ leadingSlashes s = 1 ∨ leadingSlashes s = 2 := by
  unfold leadingSlashes
  split <;> simp

/-- **An absolute path is normal** when it is resolved. -/
theorem isNormal_collapse {s : List Char} (h : (parse s).isAbsolute = true) :
    (parse s).collapse.IsNormal := by
  have hmem : ∀ x ∈ ((parse s).segments.foldl (push true) []).reverse,
      x ∈ (parse s).segments ∧ x ≠ parent := by
    intro x hx
    obtain ⟨hmem, hne⟩ := mem_foldl_push (parse s).segments List.not_mem_nil x (List.mem_reverse.mp hx)
    exact ⟨hmem.resolve_left List.not_mem_nil, hne⟩
  have hsegments : (parse s).collapse.segments =
      ((parse s).segments.foldl (push true) []).reverse := by rw [collapse, h]
  refine ⟨?_, ?_, ?_, ?_⟩
  · have hslashes : leadingSlashes s ≠ 0 := by simpa [isAbsolute, parse] using h
    exact (leadingSlashes_cases s).resolve_left hslashes
  · intro x hx
    rw [hsegments] at hx
    exact (List.mem_filter.mp (hmem x hx).1).2
  · intro hx
    rw [hsegments] at hx
    exact (hmem parent hx).2 rfl
  · intro x hx
    rw [hsegments] at hx
    exact slash_notMem_of_mem_splitSlash x (List.mem_filter.mp (hmem x hx).1).1

namespace IsNormal

variable {p : Path} (hp : p.IsNormal)
include hp

theorem collapse_eq : p.collapse = p := by
  rw [collapse, foldl_push_of_notMem [] hp.resolved, List.append_nil, List.reverse_reverse]

theorem render_eq : p.render = List.replicate p.slashes '/' ++ ['/'].intercalate p.segments := by
  unfold render
  split
  · next h =>
    have hnone : p.slashes = 0 := by simpa using (List.append_eq_nil_iff.mp h).1
    have := hp.slashes
    omega
  · rfl

/-- The text of a normal path has the slashes and the segments of the path. -/
theorem segmented : Segmented p.render p.slashes p.segments := by
  refine ⟨hp.render_eq, hp.slashFree, fun h => ?_⟩
  exact absurd (hp.proper [] (List.mem_of_mem_head? h)) (by decide)

/-- **A normal path is read back** from its text. -/
theorem parse_render : parse p.render = p := by
  have hslashes : significant p.slashes = p.slashes := by
    rcases hp.slashes with h | h <;> rw [h] <;> rfl
  rw [hp.segmented.parse_eq, hslashes, List.filter_eq_self.mpr hp.proper]

/-- **A normal path is not changed** when its text is read and resolved again. -/
theorem normalize_render : normalize p.render = p.render := by
  rw [normalize, hp.parse_render, hp.collapse_eq]

end IsNormal

end GhciRelay.Path
