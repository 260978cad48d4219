import GhciRelay.Proofs.Aggregator

/-!
# A line is handled step by step

`Aggregator.onStdout` returns the new state and all effects at once, or an error in their place.
Here the same work is done one step after the other on a state that each step changes for good: what
was done before a step fails stays done. `work_run` says that it makes no difference: every step that
can fail comes before the first one that changes something, so a line that is refused leaves the
aggregator as it was and nothing has been done.

The publishing loop looks at the files one after the other and forgets a file as soon as it was
published without diagnostics (`publishing_run`).
-/

namespace GhciRelay

/-! ### Forgetting files one by one -/

namespace Index

variable (i : Index)

/-- A file without diagnostics is forgotten, any other is kept. -/
def evictEmpty (u : String) : Index := if (i.snapshot u).isEmpty then i.evict u else i

theorem entries_evictEmpty (u : String) : (i.evictEmpty u).files.entries =
    i.files.entries.filter fun e => !(e.1 == u && e.2.isEmpty) := by
  have hempty : ∀ e ∈ i.files.entries, e.1 = u → (e.2.isEmpty ↔ (i.snapshot u).isEmpty) := by
    rintro ⟨v, ds⟩ he rfl
    have hd := i.diagnosticsOf_of_get? (OrderedMap.get?_eq_some.mpr he)
    rw [snapshot, hd]
    simp [OrderedMap.isEmpty, OrderedMap.values]
  unfold evictEmpty
  split
  · next h =>
    refine List.filter_congr fun e he => ?_
    by_cases hu : e.1 = u
    · simp [hu, (hempty e he hu).mpr h]
    · simp [hu]
  · next h =>
    refine (List.filter_eq_self.mpr fun e he => ?_).symm
    by_cases hu : e.1 = u
    · have hn : ¬ e.2.isEmpty = true := fun hd => h ((hempty e he hu).mp hd)
      simp [hn]
    · simp [hu]

theorem snapshot_evictEmpty (u v : String) : (i.evictEmpty u).snapshot v = i.snapshot v := by
  unfold evictEmpty
  split
  · next h =>
    by_cases hv : v = u
    · subst hv
      have hnone : (i.evict v).files.get? v = none := by
        rw [evict, OrderedMap.get?_erase, if_pos rfl]
      rw [snapshot, diagnosticsOf, hnone, List.isEmpty_iff.mp h]
      rfl
    · have hsame : (i.evict u).files.get? v = i.files.get? v := by
        rw [evict, OrderedMap.get?_erase, if_neg hv]
      rw [snapshot, diagnosticsOf, hsame]
      rfl
  · rfl

theorem entries_foldl_evictEmpty : ∀ (us : List String) (i : Index),
    (us.foldl evictEmpty i).files.entries =
      i.files.entries.filter fun e => !(us.contains e.1 && e.2.isEmpty)
  | [], i => by simp
  | u :: us, i => by
    rw [List.foldl_cons, entries_foldl_evictEmpty us (i.evictEmpty u), entries_evictEmpty,
      List.filter_filter]
    refine List.filter_congr fun e _ => ?_
    by_cases hu : e.1 = u
    · cases e.2.isEmpty <;> simp [hu]
    · simp [hu]

/-- **Forgetting the files without diagnostics one by one** is forgetting them all. -/
theorem foldl_evictEmpty_tracked : i.tracked.foldl evictEmpty i = i.prune := by
  have hfiles : (i.tracked.foldl evictEmpty i).files = i.prune.files := by
    refine OrderedMap.ext ?_
    rw [entries_foldl_evictEmpty]
    refine List.filter_congr fun e he => ?_
    have hm : e.1 ∈ i.tracked := List.mem_map.mpr ⟨e, he, rfl⟩
    simp [hm]
  exact congrArg Index.mk hfiles

end Index

namespace Aggregator

/-! ### The steps -/

/-- **The work so far**: the aggregator as it is now, and what it has done. -/
structure Progress where
  aggregator : Aggregator
  effects : List Effect

/-- A step of the work. One that fails leaves behind what was done before it. -/
abbrev Work := EStateM Error Progress

/-- Something is done. -/
def emit (e : Effect) : Work Unit := modify fun p => { p with effects := p.effects ++ [e] }

/-- The index is changed. -/
def changeIndex (f : Index → Index) : Work Unit :=
  modify fun p => { p with aggregator := { p.aggregator with index := f p.aggregator.index } }

/-- The activity is changed. -/
def changeActivity (activity : Activity) : Work Unit :=
  modify fun p => { p with aggregator := { p.aggregator with activity := activity } }

/-- A computation that changes nothing and may fail. -/
def attempt {α : Type} (f : Aggregator → Except Error α) : Work α := do
  match f (← get).aggregator with
  | .ok x => return x
  | .error e => throw e

/-- A file is published, and forgotten if it has no diagnostics. -/
def publishFile (u : String) : Work Unit := do
  let ds := (← get).aggregator.index.snapshot u
  emit (.tell (.publish u ds))
  if ds.isEmpty then changeIndex (·.evict u)

/-- **The tracked files are published**, one after the other. -/
def publishing : Work Unit := do
  forM (← get).aggregator.index.tracked publishFile

/-- **A record is handled.** -/
def handling : Record → Work Unit
  | .report r => do
    let u ← attempt (·.uriOf r.span.file)
    let d ← attempt fun a => (r.diagnostic a.source).mapError .offset
    changeIndex (·.upsert u r.key d)
    publishing
  | .compiling b => do
    let u ← attempt (·.uriOf b.sourcePath)
    emit (.note ⟨.debug, origin, "event=compiling module=" ++ b.moduleName ++ " uri=" ++ u⟩)
    changeIndex (·.clear u)
    publishing
  | .prompt _ => do
    changeActivity .idle
    emit (.tell (.status "Idle"))
  | .interactive line => emit (.tell (.log ("[stdout] " ++ line)))
  | .plain line => emit (.tell (.log ("[stdout] " ++ line)))

/-- **A line is handled.** -/
def work (line : String) : Work Unit := do
  let s ← attempt fun a => a.sentinel.elim (.error .noSession) .ok
  let record ← attempt fun _ => (s.classify line).mapError .tooManyDigits
  handling record

/-! ### What the steps come to -/

/-- The outcome of work that is done at once or not at all. -/
def outcome (a : Aggregator) (done : List Effect) : Result → EStateM.Result Error Progress Unit
  | .ok (a', effects) => .ok () ⟨a', done ++ effects⟩
  | .error e => .error e ⟨a, done⟩

variable (a : Aggregator) (done : List Effect)

/-- An attempt leaves everything as it was, also when it fails. -/
theorem attempt_run {α : Type} (f : Aggregator → Except Error α) : attempt f ⟨a, done⟩ =
    match f a with
    | .ok x => .ok x ⟨a, done⟩
    | .error e => .error e ⟨a, done⟩ := by
  have hread : attempt f ⟨a, done⟩ =
      EStateM.run (match f a with | .ok x => pure x | .error e => throw e) ⟨a, done⟩ := rfl
  rw [hread]
  cases f a with
  | ok x => rfl
  | error e => rfl

theorem attempt_ok {α β : Type} {f : Aggregator → Except Error α} {x : α} (h : f a = .ok x)
    (next : α → Work β) :
    EStateM.run (attempt f >>= next) ⟨a, done⟩ = EStateM.run (next x) ⟨a, done⟩ := by
  simp only [EStateM.run, bind, EStateM.bind, attempt_run, h]

theorem attempt_error {α β : Type} {f : Aggregator → Except Error α} {e : Error} (h : f a = .error e)
    (next : α → Work β) :
    EStateM.run (attempt f >>= next) ⟨a, done⟩ = .error e ⟨a, done⟩ := by
  simp only [EStateM.run, bind, EStateM.bind, attempt_run, h]

theorem publishFile_run (u : String) : EStateM.run (publishFile u) ⟨a, done⟩ =
    .ok () ⟨{ a with index := a.index.evictEmpty u },
      done ++ [.tell (.publish u (a.index.snapshot u))]⟩ := by
  have hrun : EStateM.run (publishFile u) ⟨a, done⟩ =
      EStateM.run (if (a.index.snapshot u).isEmpty then changeIndex (·.evict u) else pure ())
        ⟨a, done ++ [.tell (.publish u (a.index.snapshot u))]⟩ := rfl
  rw [hrun, Index.evictEmpty]
  split <;> rfl

theorem forM_publishFile_run : ∀ (us : List String) (a : Aggregator) (done : List Effect),
    EStateM.run (forM us publishFile) ⟨a, done⟩ =
      .ok () ⟨{ a with index := us.foldl Index.evictEmpty a.index },
        done ++ us.map fun u => .tell (.publish u (a.index.snapshot u))⟩
  | [], a, done => by
    rw [List.forM_nil, List.map_nil, List.append_nil]
    rfl
  | u :: us, a, done => by
    have hu := publishFile_run a done u
    have ih := forM_publishFile_run us { a with index := a.index.evictEmpty u }
      (done ++ [.tell (.publish u (a.index.snapshot u))])
    simp only [EStateM.run, Index.snapshot_evictEmpty] at hu ih
    simp only [List.forM_cons, EStateM.run, bind, EStateM.bind, hu, ih, List.foldl_cons,
      List.map_cons, List.append_assoc, List.singleton_append]

/-- **The loop publishes the index.** -/
theorem publishing_run : EStateM.run publishing ⟨a, done⟩ = outcome a done (.ok a.republish) := by
  have h := forM_publishFile_run a.index.tracked a done
  rw [Index.foldl_evictEmpty_tracked] at h
  have hsnapshots : a.republish.2 =
      a.index.tracked.map fun u => .tell (.publish u (a.index.snapshot u)) := by
    rw [republish, Index.snapshots_eq, List.map_map]
    rfl
  simp only [outcome, hsnapshots]
  exact h

theorem handling_run (record : Record) :
    EStateM.run (handling record) ⟨a, done⟩ = outcome a done (a.handle record) := by
  cases record with
  | report r =>
    unfold handling
    cases hu : a.uriOf r.span.file with
    | error e => rw [attempt_error a done hu]; simp only [handle, handleReport, hu]; rfl
    | ok u =>
      rw [attempt_ok a done hu]
      cases hd : r.diagnostic a.source with
      | error e =>
        rw [attempt_error a done (e := .offset e) (by rw [hd]; rfl)]
        simp only [handle, handleReport, hu, hd]
        rfl
      | ok d =>
        rw [attempt_ok a done (x := d) (by rw [hd]; rfl)]
        simp only [handle, handleReport, hu, hd]
        exact publishing_run { a with index := a.index.upsert u r.key d } done
  | compiling b =>
    unfold handling
    cases hu : a.uriOf b.sourcePath with
    | error e => rw [attempt_error a done hu]; simp only [handle, handleBanner, hu]; rfl
    | ok u =>
      rw [attempt_ok a done hu]
      simp only [handle, handleBanner, hu]
      refine (publishing_run { a with index := a.index.clear u } _).trans ?_
      simp only [outcome, List.append_assoc, List.singleton_append]
      rfl
  | interactive line => rfl
  | prompt line => rfl
  | plain line => rfl

/-- **Handling a line step by step** comes to the same as handling it at once; if it fails, nothing
was changed and nothing was done. -/
theorem work_run (line : String) :
    EStateM.run (work line) ⟨a, done⟩ = outcome a done (a.onStdout line) := by
  unfold work
  cases hs : a.sentinel with
  | none =>
    rw [attempt_error a done (e := .noSession) (by rw [hs]; rfl)]
    simp only [onStdout, hs, outcome]
  | some s =>
    rw [attempt_ok a done (x := s) (by rw [hs]; rfl)]
    cases hc : s.classify line with
    | error e =>
      rw [attempt_error a done (e := .tooManyDigits e) rfl]
      simp only [onStdout, hs, hc, outcome]
    | ok record =>
      rw [attempt_ok a done (x := record) rfl, onStdout_of_classify hs hc]
      exact handling_run a done record

end Aggregator

end GhciRelay
