import GhciRelay.Proofs.Aggregator

/-!
# What the editor shows

The editor shows for a file what was last published for it, and nothing for a file of which it never
heard. This is always what the index holds (`shown_eq_snapshot`): whatever changes the index publishes
every file that is tracked before or after the change, and a file is only forgotten once it has been
published without diagnostics.
-/

namespace GhciRelay.Aggregator

/-- **What the editor shows** for a file after effects. -/
def shown (u : String) (effects : List Effect) : List Diagnostic :=
  (Editor.lastPublished u (Effect.calls effects)).getD []

theorem lastPublished_calls (u : String) (effects : List Effect) :
    Editor.lastPublished u (Effect.calls effects) = (publications effects).reverse.lookup u := by
  rw [Editor.lastPublished, publications, List.filterMap_reverse]

theorem shown_append (u : String) (e₁ e₂ : List Effect) :
    shown u (e₁ ++ e₂) = ((publications e₂).reverse.lookup u).getD (shown u e₁) := by
  rw [shown, shown, lastPublished_calls, lastPublished_calls, publications_append,
    List.reverse_append, List.lookup_append]
  cases (publications e₂).reverse.lookup u <;> rfl

theorem lookup_map (f : String → List Diagnostic) (u : String) : ∀ l : List String,
    (l.map fun v => (v, f v)).lookup u = if u ∈ l then some (f u) else none
  | [] => rfl
  | v :: l => by
    rw [List.map_cons, List.lookup_cons, lookup_map f u l]
    by_cases huv : u = v
    · simp [huv]
    · have hb : (u == v) = false := by simpa using huv
      simp [hb, huv]

theorem shown_publishes {i : Index} {result : Aggregator × List Effect} (hp : Publishes i result)
    (u : String) (effects : List Effect) :
    shown u (effects ++ result.2) = if u ∈ i.tracked then i.snapshot u else shown u effects := by
  rw [shown_append, hp.publications, Index.snapshots_eq, ← List.map_reverse, lookup_map]
  simp only [List.mem_reverse]
  split <;> rfl

/-! ### The view and the index agree -/

/-- **The editor shows what the index holds**, after the given effects, and no file is tracked without
diagnostics. -/
structure Shows (i : Index) (effects : List Effect) : Prop where
  view : ∀ u, shown u effects = i.snapshot u
  nonempty : ∀ u ∈ i.tracked, i.snapshot u ≠ []

theorem Shows.start : Shows .empty [] where
  view _ := rfl
  nonempty u hu := by simp [Index.tracked, Index.empty, OrderedMap.keys_empty] at hu

/-- Publishing an index that still tracks all files restores the agreement. -/
theorem Shows.publishes {i j : Index} {effects : List Effect} (hs : Shows i effects)
    {result : Aggregator × List Effect} (hp : Publishes j result)
    (hsub : ∀ u ∈ i.tracked, u ∈ j.tracked) : Shows result.1.index (effects ++ result.2) where
  view u := by
    rw [shown_publishes hp, hp.index, Index.snapshot_prune]
    split
    · rfl
    · next h =>
      have hi : u ∉ i.tracked := fun h' => h (hsub u h')
      rw [hs.view u, i.snapshot_of_not_mem hi, j.snapshot_of_not_mem h]
  nonempty u hu := by
    rw [hp.index] at hu ⊢
    rw [Index.snapshot_prune]
    exact ((Index.mem_tracked_prune j).mp hu).2

/-- **One operation** keeps the agreement. -/
theorem shows_does {a : Aggregator} {e : Option Event} {result : Aggregator × List Effect}
    (hd : Does a e result) {effects : List Effect} (hs : Shows a.index effects) :
    Shows result.1.index (effects ++ result.2) := by
  cases hd with
  | nothing index quiet =>
    rw [index]
    refine ⟨fun u => ?_, hs.nonempty⟩
    rw [shown_append, quiet]
    exact hs.view u
  | republish hp => exact hs.publishes hp fun _ h => h
  | report u r d _ hp => exact hs.publishes hp fun _ h => a.index.mem_tracked_upsert.mpr (.inr h)
  | compile u hp => exact hs.publishes hp fun _ h => a.index.mem_tracked_clear.mpr (.inr h)
  | retract hp => exact hs.publishes hp fun _ h => by rwa [a.index.tracked_clearAll]

/-- **A run** keeps the agreement. -/
theorem shows_run : ∀ (ops : List Operation) (a : Aggregator) (effects : List Effect),
    Shows a.index effects → Shows (a.run ops).1.index (effects ++ (a.run ops).2)
  | [], a, effects, hs => by simpa [run] using hs
  | op :: ops, a, effects, hs => by
    have := shows_run ops (a.perform op).1 _ (shows_does (a.perform_does op) hs)
    rw [List.append_assoc] at this
    exact this

/-- **The editor's view is the index.** After every run, what was last published for a file, or
nothing if the file was never published, is what the index holds for it; and a file is tracked exactly
if that is not empty. -/
theorem shown_eq_snapshot (directory source : String) (root : Option String) (ops : List Operation)
    (u : String) :
    let (a, effects) := (start directory root source).run ops
    (Editor.lastPublished u (Effect.calls effects)).getD [] = a.index.snapshot u ∧
      (u ∈ a.index.tracked ↔ (Editor.lastPublished u (Effect.calls effects)).getD [] ≠ []) := by
  have hs := shows_run ops (start directory root source) [] Shows.start
  rw [List.nil_append] at hs
  have hv := hs.view u
  refine ⟨hv, ?_⟩
  change _ ↔ shown u _ ≠ []
  rw [hv]
  refine ⟨hs.nonempty u, fun h => ?_⟩
  by_contra hu
  exact h (Index.snapshot_of_not_mem _ hu)

end GhciRelay.Aggregator
