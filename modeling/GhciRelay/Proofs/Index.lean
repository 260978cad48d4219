import GhciRelay.Diagnostic.Index
import GhciRelay.Proofs.OrderedMap

/-!
# The index of diagnostics: the laws

The index is looked at through its tracked files and the diagnostics of each file. An operation that
concerns a file leaves the diagnostics of the other files alone. `prune` only ever takes away files
without diagnostics, so it changes which files are tracked and never what is known of a file
(`diagnosticsOf_prune`).
-/

namespace GhciRelay.Index

variable (i : Index)

theorem mem_tracked {u : String} : u ∈ i.tracked ↔ ∃ ds, i.files.get? u = some ds :=
  OrderedMap.mem_keys

theorem nodup_tracked : i.tracked.Nodup := i.files.nodup_keys

theorem diagnosticsOf_of_get? {u : String} {ds : OrderedMap Key Diagnostic}
    (h : i.files.get? u = some ds) : i.diagnosticsOf u = ds := by
  rw [diagnosticsOf, h]; rfl

theorem diagnosticsOf_of_not_mem {u : String} (h : u ∉ i.tracked) : i.diagnosticsOf u = .empty := by
  rw [diagnosticsOf, OrderedMap.get?_eq_none.mpr h]; rfl

theorem snapshot_of_not_mem {u : String} (h : u ∉ i.tracked) : i.snapshot u = [] := by
  rw [snapshot, i.diagnosticsOf_of_not_mem h]; rfl

theorem isEmptyFile_iff {u : String} : i.isEmptyFile u = true ↔ i.snapshot u = [] := by
  simp [isEmptyFile, snapshot, OrderedMap.isEmpty, OrderedMap.values]

theorem snapshots_eq : i.snapshots = i.tracked.map fun u => (u, i.snapshot u) := by
  rw [snapshots, tracked, OrderedMap.keys, List.map_map]
  refine List.map_congr_left fun e he => ?_
  have h := i.diagnosticsOf_of_get? (OrderedMap.get?_eq_some.mpr he)
  simp only [Function.comp, snapshot, h]

/-! ### A diagnostic comes, a file is cleared -/

theorem diagnosticsOf_upsert (u u' : String) (k : Key) (d : Diagnostic) :
    (i.upsert u k d).diagnosticsOf u' =
      if u' = u then (i.diagnosticsOf u).insert k d else i.diagnosticsOf u' := by
  rw [diagnosticsOf, upsert, OrderedMap.get?_insert]
  split <;> rfl

theorem mem_tracked_upsert {u u' : String} {k : Key} {d : Diagnostic} :
    u' ∈ (i.upsert u k d).tracked ↔ u' = u ∨ u' ∈ i.tracked :=
  OrderedMap.mem_keys_insert

theorem snapshot_upsert_ne_nil (u : String) (k : Key) (d : Diagnostic) :
    (i.upsert u k d).snapshot u ≠ [] := by
  rw [Ne, ← isEmptyFile_iff, isEmptyFile, diagnosticsOf_upsert, if_pos rfl, OrderedMap.isEmpty_iff]
  exact List.ne_nil_of_mem (OrderedMap.mem_keys_insert.mpr (Or.inl rfl))

theorem snapshot_upsert_of_ne {u u' : String} (h : u' ≠ u) (k : Key) (d : Diagnostic) :
    (i.upsert u k d).snapshot u' = i.snapshot u' := by
  rw [snapshot, diagnosticsOf_upsert, if_neg h]; rfl

theorem snapshot_upsert_forall (h : ∀ v ∈ i.tracked, i.snapshot v ≠ []) (u : String) (k : Key)
    (d : Diagnostic) : ∀ v ∈ (i.upsert u k d).tracked, (i.upsert u k d).snapshot v ≠ [] := by
  intro v hv
  by_cases hvu : v = u
  · rw [hvu]
    exact i.snapshot_upsert_ne_nil u k d
  · rw [i.snapshot_upsert_of_ne hvu]
    exact h v ((i.mem_tracked_upsert.mp hv).resolve_left hvu)

theorem diagnosticsOf_clear (u u' : String) :
    (i.clear u).diagnosticsOf u' = if u' = u then .empty else i.diagnosticsOf u' := by
  rw [diagnosticsOf, clear, OrderedMap.get?_insert]
  split <;> rfl

theorem mem_tracked_clear {u u' : String} : u' ∈ (i.clear u).tracked ↔ u' = u ∨ u' ∈ i.tracked :=
  OrderedMap.mem_keys_insert

theorem snapshot_clear (u u' : String) :
    (i.clear u).snapshot u' = if u' = u then [] else i.snapshot u' := by
  rw [snapshot, diagnosticsOf_clear]
  split <;> rfl

/-! ### Every file is cleared -/

theorem tracked_foldl_clear : ∀ (us : List String) (i : Index), (∀ u ∈ us, u ∈ i.tracked) →
    (us.foldl clear i).tracked = i.tracked
  | [], _, _ => rfl
  | u :: us, i, h => by
    have hm : u ∈ i.files.keys := h u (by simp)
    have hu : (i.clear u).tracked = i.tracked := by
      rw [tracked, clear, OrderedMap.keys_insert, if_pos hm]; rfl
    rw [List.foldl_cons, tracked_foldl_clear us (i.clear u) fun v hv => ?_, hu]
    rw [hu]; exact h v (by simp [hv])

theorem diagnosticsOf_foldl_clear (u : String) : ∀ (us : List String) (i : Index),
    (us.foldl clear i).diagnosticsOf u = if u ∈ us then .empty else i.diagnosticsOf u
  | [], i => by simp
  | v :: us, i => by
    rw [List.foldl_cons, diagnosticsOf_foldl_clear u us (i.clear v), diagnosticsOf_clear]
    by_cases h : u ∈ us <;> by_cases h' : u = v <;> simp [h, h']

theorem tracked_clearAll : i.clearAll.tracked = i.tracked :=
  tracked_foldl_clear i.tracked i fun _ h => h

theorem diagnosticsOf_clearAll (u : String) : i.clearAll.diagnosticsOf u = .empty := by
  rw [clearAll, diagnosticsOf_foldl_clear]
  split
  · rfl
  · next h => exact i.diagnosticsOf_of_not_mem h

theorem snapshot_clearAll (u : String) : i.clearAll.snapshot u = [] := by
  rw [snapshot, diagnosticsOf_clearAll]; rfl

theorem snapshots_clearAll : i.clearAll.snapshots = i.tracked.map fun u => (u, []) := by
  rw [snapshots_eq, tracked_clearAll]
  exact List.map_congr_left fun u _ => by rw [snapshot_clearAll]

/-! ### Files without diagnostics are forgotten -/

theorem diagnosticsOf_prune (u : String) : i.prune.diagnosticsOf u = i.diagnosticsOf u := by
  rw [diagnosticsOf, prune, OrderedMap.get?_filter, diagnosticsOf]
  cases h : i.files.get? u with
  | none => rfl
  | some ds =>
    by_cases he : ds.isEmpty = true
    · rw [OrderedMap.eq_empty_of_isEmpty he]; rfl
    · simp [Option.filter_some, he]

theorem snapshot_prune (u : String) : i.prune.snapshot u = i.snapshot u := by
  rw [snapshot, diagnosticsOf_prune]; rfl

theorem tracked_prune : i.prune.tracked = i.tracked.filter fun u => !i.isEmptyFile u := by
  refine OrderedMap.keys_filter _ _ _ fun u ds h => ?_
  rw [isEmptyFile, i.diagnosticsOf_of_get? h]

theorem mem_tracked_prune {u : String} : u ∈ i.prune.tracked ↔ u ∈ i.tracked ∧ i.snapshot u ≠ [] := by
  rw [tracked_prune, List.mem_filter, Ne, ← isEmptyFile_iff]
  simp

/-- Where every tracked file has diagnostics, none is forgotten. -/
theorem prune_of_forall (h : ∀ u ∈ i.tracked, i.snapshot u ≠ []) : i.prune = i := by
  have hentries : ∀ e ∈ i.files.entries, (!e.2.isEmpty) = true := by
    intro e he
    have hmem : e.1 ∈ i.tracked := List.mem_map.mpr ⟨e, he, rfl⟩
    have hne := h e.1 hmem
    rw [Ne, ← isEmptyFile_iff, isEmptyFile,
      i.diagnosticsOf_of_get? (OrderedMap.get?_eq_some.mpr he)] at hne
    simpa using hne
  have hfiles : i.prune.files = i.files := OrderedMap.ext (List.filter_eq_self.mpr hentries)
  exact congrArg Index.mk hfiles

theorem isEmptyFile_clear (u v : String) :
    (i.clear u).isEmptyFile v = if v = u then true else i.isEmptyFile v := by
  rw [isEmptyFile, diagnosticsOf_clear]
  split <;> rfl

theorem tracked_prune_clear (h : ∀ v ∈ i.tracked, i.snapshot v ≠ []) (u : String) :
    (i.clear u).prune.tracked = i.tracked.filter (· ≠ u) := by
  have hp : ∀ v ∈ i.tracked, (!(i.clear u).isEmptyFile v) = decide (v ≠ u) := by
    intro v hv
    have hs := h v hv
    rw [Ne, ← isEmptyFile_iff] at hs
    rw [isEmptyFile_clear]
    by_cases hvu : v = u
    · simp [hvu]
    · simpa [hvu] using hs
  have ht : (i.clear u).tracked = if u ∈ i.tracked then i.tracked else i.tracked ++ [u] :=
    OrderedMap.keys_insert _ _ _
  rw [tracked_prune, ht]
  split
  · exact List.filter_congr hp
  · rw [List.filter_append, List.filter_congr hp]
    simp [isEmptyFile_clear]

end GhciRelay.Index
