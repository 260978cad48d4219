import GhciRelay.Proofs.PathSpelling

/-!
# Spellings of a root

The root that paths are seen from may be given as it is, or simplified: without repeated slashes, `.`
segments and slashes at its end. Simplifying keeps `..` segments, which only mean something once the
path of a file stands behind them. Still both roots lead to the same URI for every path, or to none
(`simplified_root_agrees`): what is read of a simplified text is what is read of the text itself
(`parse_render_parse`), and a path sees nothing else of its root (`parse_join_congr`).

So an aggregator may be given its roots in either way: it does the same and knows the same
(`run_simplified`).
-/

namespace GhciRelay

namespace Path

/-! ### Simplified texts -/

theorem significant_eq_zero {count : Nat} (h : significant count = 0) : count = 0 := by
  match count with
  | 0 => rfl
  | 1 => cases h
  | 2 => cases h
  | _ + 3 => cases h

theorem significant_idem (count : Nat) : significant (significant count) = significant count := by
  match count with
  | 0 => rfl
  | 1 => rfl
  | 2 => rfl
  | _ + 3 => rfl

theorem render_eq_written (p : Path) :
    p.render = if written p.slashes p.segments = [] then ['.'] else written p.slashes p.segments := by
  unfold render written
  split
  · next h => rw [if_pos h]
  · next h => rw [if_neg h]

/-- The leading slashes that count and the segments that say something make a text. -/
theorem Segmented.simplified {s : List Char} {slashes : Nat} {segments : List (List Char)}
    (hs : Segmented s slashes segments) :
    Segmented (written (significant slashes) (segments.filter isProper)) (significant slashes)
      (segments.filter isProper) := by
  refine ⟨rfl, fun segment h => hs.slashFree segment (List.mem_filter.mp h).1, fun h => ?_⟩
  have hproper := (List.mem_filter.mp (List.mem_of_mem_head? h)).2
  exact absurd hproper (by decide)

theorem Segmented.parse_simplified {s : List Char} {slashes : Nat} {segments : List (List Char)}
    (hs : Segmented s slashes segments) :
    parse (written (significant slashes) (segments.filter isProper)) = parse s := by
  rw [hs.simplified.parse_eq, hs.parse_eq, significant_idem, List.filter_filter]
  simp only [Bool.and_self]

/-- **What is read of a text** is read again of its simplified form. -/
theorem parse_render_parse (s : List Char) : parse (parse s).render = parse s := by
  obtain ⟨slashes, segments, hs⟩ := exists_segmented s
  have hread := hs.parse_simplified
  rw [hs.parse_eq] at hread
  rw [hs.parse_eq, render_eq_written]
  split
  · next h =>
    -- a text without anything and `.` are read alike
    rw [h] at hread
    exact hread
  · exact hread

/-- **A simplified text** has the leading slashes of the text that count, and its segments that say
something; where there is neither, it is `.`. -/
theorem toList_simplify {s : String} {slashes : Nat} {segments : List (List Char)}
    (hs : Segmented s.toList slashes segments) : (simplify s).toList =
      if slashes = 0 ∧ segments.filter isProper = [] then ['.']
      else written (significant slashes) (segments.filter isProper) := by
  have hnothing : written (significant slashes) (segments.filter isProper) = [] ↔
      slashes = 0 ∧ segments.filter isProper = [] := by
    constructor
    · intro h
      have hread := hs.simplified.parse_eq
      rw [h] at hread
      have hslashes := congrArg Path.slashes hread
      have hsegments := congrArg Path.segments hread
      rw [List.filter_filter] at hsegments
      simp only [Bool.and_self] at hsegments
      exact ⟨significant_eq_zero (significant_eq_zero hslashes.symm), hsegments.symm⟩
    · rintro ⟨rfl, h⟩
      rw [h]
      rfl
  rw [simplify, String.toList_ofList, hs.parse_eq, render_eq_written]
  simp only [hnothing]

theorem parse_join_congr {base base' : List Char} (h : parse base = parse base') (path : List Char) :
    parse (join base path) = parse (join base' path) := by
  by_cases hp : path.head? = some '/'
  · rw [join, join, if_pos hp, if_pos hp]
  · rw [parse_join base hp, parse_join base' hp, h]

end Path

theorem FileUri.ofPath?_simplify (root path : String) :
    ofPath? (Path.simplify root) path = ofPath? root path := by
  have hparse : Path.parse (Path.simplify root).toList = Path.parse root.toList := by
    rw [Path.simplify, String.toList_ofList, Path.parse_render_parse]
  rw [ofPath?, ofPath?, Path.parse_join_congr hparse]

/-! ### Aggregators with simplified roots -/

namespace Aggregator

/-- The aggregator with its root simplified. -/
def simplified (a : Aggregator) : Aggregator := { a with root := a.root.map Path.simplify }

/-- The operation with the root that it gives simplified. -/
def Operation.simplified : Operation → Operation
  | .relocate root => .relocate (root.map Path.simplify)
  | op => op

/-- What comes of an operation, with the root simplified. -/
def simplifiedResult (result : Aggregator × List Effect) : Aggregator × List Effect :=
  (result.1.simplified, result.2)

variable (a : Aggregator)

theorem uriOf_simplified (path : String) : a.simplified.uriOf path = a.uriOf path := by
  have hbase : FileUri.ofPath? (a.simplified.root.getD a.simplified.directory) path =
      FileUri.ofPath? (a.root.getD a.directory) path := by
    unfold simplified
    cases a.root with
    | none => rfl
    | some root => exact FileUri.ofPath?_simplify root path
  rw [uriOf, uriOf, hbase]

theorem handle_simplified (record : Record) :
    a.simplified.handle record = (a.handle record).map simplifiedResult := by
  cases record with
  | report r =>
    simp only [handle, handleReport, uriOf_simplified]
    cases a.uriOf r.span.file with
    | error e => rfl
    | ok u =>
      have hsource : a.simplified.source = a.source := rfl
      rw [hsource]
      cases r.diagnostic a.source <;> rfl
  | compiling b =>
    simp only [handle, handleBanner, uriOf_simplified]
    cases a.uriOf b.sourcePath <;> rfl
  | interactive line => rfl
  | prompt line => rfl
  | plain line => rfl

theorem onStdout_simplified (line : String) :
    a.simplified.onStdout line = (a.onStdout line).map simplifiedResult := by
  have hsentinel : a.simplified.sentinel = a.sentinel := rfl
  unfold onStdout
  rw [hsentinel]
  cases a.sentinel with
  | none => rfl
  | some s =>
    dsimp only
    cases s.classify line with
    | error e => rfl
    | ok record => exact a.handle_simplified record

/-- **One operation** comes to the same, whether roots are simplified or not. -/
theorem apply_simplified (op : Operation) :
    a.simplified.apply op.simplified = (a.apply op).map simplifiedResult := by
  cases op with
  | beginSession prompt =>
    simp only [Operation.simplified, apply, beginSession]
    cases Sentinel.ofText? prompt <;> rfl
  | stdout line => exact a.onStdout_simplified line
  | handle record => exact a.handle_simplified record
  | _ => rfl

theorem perform_simplified (op : Operation) :
    a.simplified.perform op.simplified = simplifiedResult (a.perform op) := by
  rw [perform, perform, apply_simplified]
  cases a.apply op <;> rfl

/-- **A run** comes to the same, whether roots are simplified or not. -/
theorem run_simplified : ∀ (ops : List Operation) (a : Aggregator),
    a.simplified.run (ops.map Operation.simplified) = simplifiedResult (a.run ops)
  | [], _ => rfl
  | op :: ops, a => by
    have hop := a.perform_simplified op
    have ih := run_simplified ops (a.perform op).1
    simp only [simplifiedResult] at hop ih
    simp only [List.map_cons, run, hop, ih, simplifiedResult]

/-- **A root may be simplified.** For every root and every path,

* the simplified root and the root itself lead to the same URI, or neither leads to any;
* the simplified root is the leading slashes of the root that count and the segments that are neither
  empty nor `.`, or `.` where there is nothing;
* an aggregator with simplified roots, this one and those that it is given later, does the same in every
  run as with the roots themselves, and in the end differs from the other in its root at most. -/
theorem simplified_root_agrees (root path : String) :
    FileUri.ofPath? (Path.simplify root) path = FileUri.ofPath? root path ∧
    (∃ slashes segments, Path.Segmented root.toList slashes segments ∧
      (Path.simplify root).toList =
        if slashes = 0 ∧ segments.filter Path.isProper = [] then ['.']
        else Path.written (Path.significant slashes) (segments.filter Path.isProper)) ∧
    ∀ directory source ops,
      (start directory (some (Path.simplify root)) source).run (ops.map Operation.simplified) =
        (((start directory (some root) source).run ops).1.simplified,
          ((start directory (some root) source).run ops).2) := by
  obtain ⟨slashes, segments, hs⟩ := Path.exists_segmented root.toList
  exact ⟨FileUri.ofPath?_simplify root path, ⟨slashes, segments, hs, Path.toList_simplify hs⟩,
    fun directory source ops => run_simplified ops (start directory (some root) source)⟩

/-- Two leading slashes and `..` segments are kept. -/
example : Path.simplify "//w/.//x/../" = "//w/x/.." := by decide +kernel

end Aggregator

end GhciRelay
