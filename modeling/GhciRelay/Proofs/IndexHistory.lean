import GhciRelay.Proofs.Index
import Mathlib.Data.List.DropRight

/-!
# The index and its history

Three calls change an index: a diagnostic comes, a file is cleared, a file is forgotten. What the index
holds after any calls is a function of the list of them (`replay_refines_history`). A file is tracked
by its *standing* calls, those that come after it was last forgotten, and has its place by the first of
them; its diagnostics are its *additions*, those that came since it was last cleared or forgotten.

The functions of the history know nothing of maps. `Reflects` ties an index to them; it holds of no
calls, and `Reflects.change` adds one call at the end.
-/

namespace GhciRelay.Index

/-- **A call** that changes an index. -/
inductive Change where
  | upsert (uri : String) (key : Key) (d : Diagnostic)
  | clear (uri : String)
  | evict (uri : String)
deriving DecidableEq

/-- The index after a call. -/
def change (i : Index) : Change → Index
  | .upsert u k d => i.upsert u k d
  | .clear u => i.clear u
  | .evict u => i.evict u

/-- **The index after calls**, on nothing. -/
def replay (h : List Change) : Index := h.foldl change empty

/-! ### What a history says -/

namespace Change

/-- The file that the call tracks. -/
def tracked? : Change → Option String
  | .upsert u _ _ => some u
  | .clear u => some u
  | .evict _ => none

/-- The call forgets the file. -/
def evicts (u : String) : Change → Bool
  | .evict v => v = u
  | _ => false

/-- The call takes all diagnostics from the file. -/
def empties (u : String) : Change → Bool
  | .upsert _ _ _ => false
  | .clear v => v = u
  | .evict v => v = u

/-- The diagnostic that the call gives the file, with its key. -/
def addition? (u : String) : Change → Option (Key × Diagnostic)
  | .upsert v k d => if v = u then some (k, d) else none
  | _ => none

end Change

/-- **The standing calls**: the files of those that track one which is not forgotten later, in order. -/
def standing : List Change → List String
  | [] => []
  | c :: later => (c.tracked?.filter fun u => !later.any (·.evicts u)).toList ++ standing later

/-- **The additions** to a file: the diagnostics that it was given since it was last emptied, with their
keys, in order. -/
def additions (u : String) (h : List Change) : List (Key × Diagnostic) :=
  (h.rtakeWhile (!·.empties u)).filterMap (·.addition? u)

/-- A file stands if a call tracks it and no later call forgets it. -/
theorem mem_standing_iff {u : String} : ∀ {h : List Change}, u ∈ standing h ↔
    ∃ before c after, h = before ++ c :: after ∧ c.tracked? = some u ∧ .evict u ∉ after
  | [] => by simp [standing]
  | c :: later => by
    have hevicts : later.any (·.evicts u) = false ↔ .evict u ∉ later := by
      rw [List.any_eq_false]
      constructor
      · intro h hu
        exact h _ hu (by simp [Change.evicts])
      · rintro h (_ | _ | v) hc
        · exact Bool.false_ne_true
        · exact Bool.false_ne_true
        · simp only [Change.evicts, decide_eq_true_eq]
          rintro rfl
          exact h hc
    have hfirst : u ∈ (c.tracked?.filter fun v => !later.any (·.evicts v)).toList ↔
        c.tracked? = some u ∧ .evict u ∉ later := by
      rw [Option.mem_toList, Option.filter_eq_some_iff, Bool.not_eq_true', hevicts]
    rw [standing, List.mem_append, hfirst, mem_standing_iff]
    constructor
    · rintro (⟨hc, hu⟩ | ⟨before, c', after, rfl, hc, hu⟩)
      · exact ⟨[], c, later, rfl, hc, hu⟩
      · exact ⟨c :: before, c', after, rfl, hc, hu⟩
    · rintro ⟨before, c', after, he, hc, hu⟩
      cases before with
      | nil =>
        obtain ⟨rfl, rfl⟩ := List.cons.inj he
        exact .inl ⟨hc, hu⟩
      | cons d before =>
        obtain ⟨-, rfl⟩ := List.cons.inj he
        exact .inr ⟨before, c', after, rfl, hc, hu⟩

/-! ### One call more -/

theorem standing_append : ∀ (h : List Change) (c : Change),
    standing (h ++ [c]) = (standing h).filter (fun u => !c.evicts u) ++ c.tracked?.toList
  | [], c => by cases c <;> simp [standing, Change.tracked?]
  | d :: later, c => by
    have hfilter : ((d.tracked?.filter fun u => !(later ++ [c]).any (·.evicts u)).toList) =
        (d.tracked?.filter fun u => !later.any (·.evicts u)).toList.filter
          (fun u => !c.evicts u) := by
      cases d.tracked? with
      | none => rfl
      | some u =>
        cases hlater : later.any (·.evicts u) <;> cases hc : c.evicts u <;>
          simp [Option.filter_some, hlater, hc]
    rw [List.cons_append, standing, standing, standing_append later c, hfilter, List.filter_append,
      List.append_assoc]

theorem additions_append (u : String) (h : List Change) (c : Change) : additions u (h ++ [c]) =
    if c.empties u then [] else additions u h ++ (c.addition? u).toList := by
  cases hc : c.empties u with
  | true => simp [additions, hc]
  | false =>
    cases ha : c.addition? u <;> simp [additions, hc, ha]

theorem lookup_reverse_append (k : Key) (l : List (Key × Diagnostic)) (k' : Key) (d : Diagnostic) :
    (l ++ [(k', d)]).reverse.lookup k = if k = k' then some d else l.reverse.lookup k := by
  rw [List.reverse_append, List.reverse_singleton, List.singleton_append, List.lookup_cons]
  by_cases hk : k = k'
  · simp [hk]
  · simp [beq_eq_false_iff_ne.mpr hk, hk]

/-! ### A file is forgotten -/

section Evict

variable (i : Index)

theorem diagnosticsOf_evict (u u' : String) :
    (i.evict u).diagnosticsOf u' = if u' = u then .empty else i.diagnosticsOf u' := by
  rw [diagnosticsOf, evict, OrderedMap.get?_erase]
  split <;> rfl

theorem tracked_evict (u : String) : (i.evict u).tracked = i.tracked.filter (· ≠ u) :=
  OrderedMap.keys_filter _ _ _ fun _ _ _ => rfl

end Evict

/-! ### The index that a history leads to -/

/-- **The index is the one that a history leads to.** -/
structure Reflects (i : Index) (h : List Change) : Prop where
  tracked : i.tracked = (standing h).eraseDups
  keys : ∀ u, (i.diagnosticsOf u).keys = ((additions u h).map Prod.fst).eraseDups
  get : ∀ u k, (i.diagnosticsOf u).get? k = (additions u h).reverse.lookup k

theorem Reflects.empty : Reflects .empty [] where
  tracked := rfl
  keys _ := rfl
  get _ _ := rfl

section Reflects

variable {i : Index} {h : List Change} (hr : Reflects i h)
include hr

theorem Reflects.upsert (u : String) (k : Key) (d : Diagnostic) :
    Reflects (i.upsert u k d) (h ++ [.upsert u k d]) := by
  have hsame : additions u (h ++ [.upsert u k d]) = additions u h ++ [(k, d)] := by
    simp [additions_append, Change.empties, Change.addition?]
  have hother : ∀ v, v ≠ u → additions v (h ++ [.upsert u k d]) = additions v h := by
    intro v hv
    simp [additions_append, Change.empties, Change.addition?, Ne.symm hv]
  refine ⟨?_, fun v => ?_, fun v k' => ?_⟩
  · have hstanding : standing (h ++ [.upsert u k d]) = standing h ++ [u] := by
      simp [standing_append, Change.evicts, Change.tracked?]
    rw [hstanding]
    exact OrderedMap.keys_insert_eraseDups hr.tracked u _
  · rw [diagnosticsOf_upsert]
    by_cases hv : v = u
    · subst hv
      rw [if_pos rfl, hsame, List.map_append]
      exact OrderedMap.keys_insert_eraseDups (hr.keys v) k d
    · rw [if_neg hv, hother v hv, hr.keys v]
  · rw [diagnosticsOf_upsert]
    by_cases hv : v = u
    · subst hv
      rw [if_pos rfl, hsame, OrderedMap.get?_insert, lookup_reverse_append, hr.get]
    · rw [if_neg hv, hother v hv, hr.get]

theorem Reflects.emptied {j : Index} {c : Change} {u : String}
    (htracked : j.tracked = (standing (h ++ [c])).eraseDups)
    (hof : ∀ v, j.diagnosticsOf v = if v = u then .empty else i.diagnosticsOf v)
    (hempties : ∀ v, c.empties v = decide (v = u)) (hadds : ∀ v, c.addition? v = none) :
    Reflects j (h ++ [c]) := by
  have hadditions : ∀ v, additions v (h ++ [c]) = if v = u then [] else additions v h := by
    intro v
    rw [additions_append, hempties, hadds]
    by_cases hv : v = u <;> simp [hv]
  refine ⟨htracked, fun v => ?_, fun v k => ?_⟩
  · rw [hof, hadditions]
    split
    · rfl
    · exact hr.keys v
  · rw [hof, hadditions]
    split
    · rfl
    · exact hr.get v k

theorem Reflects.clear (u : String) : Reflects (i.clear u) (h ++ [.clear u]) := by
  refine hr.emptied ?_ (i.diagnosticsOf_clear u) (fun v => ?_) fun v => rfl
  · have hstanding : standing (h ++ [.clear u]) = standing h ++ [u] := by
      simp [standing_append, Change.evicts, Change.tracked?]
    rw [hstanding]
    exact OrderedMap.keys_insert_eraseDups hr.tracked u _
  · simp [Change.empties, eq_comm]

theorem Reflects.evict (u : String) : Reflects (i.evict u) (h ++ [.evict u]) := by
  refine hr.emptied ?_ (i.diagnosticsOf_evict u) (fun v => ?_) fun v => rfl
  · rw [tracked_evict, hr.tracked, ← OrderedMap.eraseDups_filter, standing_append]
    simp [Change.evicts, Change.tracked?, eq_comm]
  · simp [Change.empties, eq_comm]

/-- **One call** leads to the index of the longer history. -/
theorem Reflects.change (c : Change) : Reflects (i.change c) (h ++ [c]) := by
  cases c with
  | upsert u k d => exact hr.upsert u k d
  | clear u => exact hr.clear u
  | evict u => exact hr.evict u

/-- One diagnostic for each key, in order, the last one that came with it. -/
theorem Reflects.snapshot (u : String) : (i.snapshot u).map some =
    ((additions u h).map Prod.fst).eraseDups.map fun k => (additions u h).reverse.lookup k := by
  rw [Index.snapshot, OrderedMap.values_eq, hr.keys]
  exact List.map_congr_left fun k _ => hr.get u k

end Reflects

/-- **All calls**, one after the other. -/
theorem reflects_replay (h : List Change) : Reflects (replay h) h := by
  induction h using List.reverseRecOn with
  | nil => exact Reflects.empty
  | append_singleton h c ih =>
    rw [replay, List.foldl_append]
    exact ih.change c

theorem contains_eq (i : Index) (u : String) : i.contains u = decide (u ∈ i.tracked) := by
  rw [Bool.eq_iff_iff, decide_eq_true_iff, mem_tracked, contains, OrderedMap.contains,
    Option.isSome_iff_exists]

theorem size_eq (i : Index) : i.size = i.tracked.length := by
  rw [size, OrderedMap.size, tracked, OrderedMap.keys, List.length_map]

/-- **The index refines its history.** After every sequence of calls, on nothing,

* a file is tracked if and only if some call tracks it and no later call forgets it;
* the tracked files come once each, in the order of the first of these calls;
* a file has one diagnostic for each key of its additions, in the order in which the keys first came,
  and each is the last one that came with its key; a file that is not tracked has none;
* membership, the number of files and the test for an empty file say the same. -/
theorem replay_refines_history (h : List Change) :
    let i := replay h
    (∀ u, u ∈ i.tracked ↔
      ∃ before c after, h = before ++ c :: after ∧ c.tracked? = some u ∧ .evict u ∉ after) ∧
    i.tracked = (standing h).eraseDups ∧ i.tracked.Nodup ∧
    (∀ u, (i.snapshot u).map some =
      ((additions u h).map Prod.fst).eraseDups.map fun k => (additions u h).reverse.lookup k) ∧
    (∀ u, u ∈ i.tracked ∨ i.snapshot u = []) ∧
    (∀ u, i.contains u = decide (u ∈ i.tracked)) ∧ i.size = i.tracked.length ∧
    ∀ u, i.isEmptyFile u = true ↔ i.snapshot u = [] := by
  intro i
  have hr : Reflects i h := reflects_replay h
  refine ⟨fun u => ?_, hr.tracked, i.nodup_tracked, hr.snapshot, fun u => ?_, i.contains_eq, i.size_eq,
    fun u => i.isEmptyFile_iff⟩
  · rw [hr.tracked, List.mem_eraseDups, mem_standing_iff]
  · by_cases hu : u ∈ i.tracked
    · exact .inl hu
    · exact .inr (i.snapshot_of_not_mem hu)

/-- A file that is cleared keeps its place, and one that was forgotten comes last. -/
example : (replay [.clear "a", .clear "b", .clear "c", .evict "b", .clear "a", .clear "b"]).tracked =
    ["a", "c", "b"] := by decide

end GhciRelay.Index
