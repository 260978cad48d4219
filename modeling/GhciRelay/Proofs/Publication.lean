import GhciRelay.Proofs.EditorView

/-!
# What is published, and when

An operation publishes all tracked files or none. What it publishes depends on what it does
(`Announces`): a report, and the request to publish, show each tracked file once, as it is; the compiler
beginning with a file shows in addition that nothing is known of this file; taking everything back shows
just this, of every file. So an editor is only told that a file has no diagnostics where this was said
of the file, and publishing once more tells it nothing new (`publications_exact`).

The carrying fact is that between operations no file is tracked without diagnostics (`Shows.nonempty`):
what is forgotten while an index is published is what the operation itself has emptied. That the files
are gone through one by one, over a list made before, and forgotten on the way, is `publishing_run`.
-/

namespace GhciRelay.Aggregator

/-! ### An index that is published -/

section Publishes

variable {i : Index} {result : Aggregator × List Effect}

/-- An index whose files all have diagnostics stays as it is when it is published. -/
theorem publications_kept (hp : Publishes i result) (hne : ∀ u ∈ i.tracked, i.snapshot u ≠ []) :
    publications result.2 =
      result.1.index.tracked.map fun u => (u, result.1.index.snapshot u) := by
  rw [hp.publications, hp.index, i.prune_of_forall hne, Index.snapshots_eq]

/-- **A file that was cleared** is published without diagnostics, once and besides all others, and is
forgotten. -/
theorem publications_cleared {u : String} (hp : Publishes (i.clear u) result)
    (hne : ∀ v ∈ i.tracked, i.snapshot v ≠ []) :
    ∃ front back, publications result.2 = front ++ (u, []) :: back ∧
      front ++ back = (result.1.index.tracked.map fun v => (v, result.1.index.snapshot v)) ∧
      u ∉ result.1.index.tracked := by
  have hmem : u ∈ (i.clear u).tracked := i.mem_tracked_clear.mpr (.inl rfl)
  have hempty : (i.clear u).snapshot u = [] := by rw [Index.snapshot_clear, if_pos rfl]
  obtain ⟨front, back, hsplit⟩ := List.append_of_mem hmem
  have hnodup := (i.clear u).nodup_tracked
  rw [hsplit, List.nodup_middle, List.nodup_cons] at hnodup
  have hkept : ∀ v ∈ front ++ back, (!(i.clear u).isEmptyFile v) = true := by
    intro v hv
    have hvu : v ≠ u := fun h => hnodup.1 (h ▸ hv)
    have hv' : v ∈ (i.clear u).tracked := by
      rw [hsplit]
      exact List.perm_middle.mem_iff.mpr (List.mem_cons_of_mem u hv)
    have hsome := hne v ((i.mem_tracked_clear.mp hv').resolve_left hvu)
    rw [Bool.not_eq_true', ← Bool.not_eq_true, Index.isEmptyFile_iff, Index.snapshot_clear, if_neg hvu]
    exact hsome
  have htracked : result.1.index.tracked = front ++ back := by
    have hgone : (i.clear u).isEmptyFile u = true := (i.clear u).isEmptyFile_iff.mpr hempty
    rw [hp.index, Index.tracked_prune, hsplit, List.filter_append, List.filter_cons, hgone,
      Bool.not_true, if_neg Bool.false_ne_true, ← List.filter_append, List.filter_eq_self.mpr hkept]
  refine ⟨front.map fun v => (v, (i.clear u).snapshot v), back.map fun v => (v, (i.clear u).snapshot v),
    ?_, ?_, ?_⟩
  · rw [hp.publications, Index.snapshots_eq, hsplit, List.map_append, List.map_cons, hempty]
  · rw [htracked, hp.index, ← List.map_append]
    exact List.map_congr_left fun v _ => by rw [Index.snapshot_prune]
  · rw [htracked]
    exact hnodup.1

end Publishes

/-! ### Operations -/

/-- **What an operation publishes**, by what it does: the operation, the aggregator after it, and the
publications. -/
inductive Announces (a : Aggregator) :
    Operation → Aggregator → List (String × List Diagnostic) → Prop
  /-- a report is handled: each file that is now tracked, as it is -/
  | reported {op : Operation} {a' : Aggregator} {r : Report}
    (record : a.recordOf op = some (.report r)) :
    Announces a op a' (a'.index.tracked.map fun u => (u, a'.index.snapshot u))
  /-- publishing is asked for: the same -/
  | republished {a' : Aggregator} :
    Announces a .republish a' (a'.index.tracked.map fun u => (u, a'.index.snapshot u))
  /-- the compiler begins with a file: the same, and once more this file, of which nothing is known -/
  | compiling {op : Operation} {a' : Aggregator} {b : Banner} {u : String}
    {front back : List (String × List Diagnostic)} (record : a.recordOf op = some (.compiling b))
    (uri : a.uriOf b.sourcePath = .ok u)
    (others : front ++ back = a'.index.tracked.map fun v => (v, a'.index.snapshot v))
    (forgotten : u ∉ a'.index.tracked) : Announces a op a' (front ++ (u, []) :: back)
  /-- everything is taken back: each file that was tracked, of which nothing is known -/
  | retracted {a' : Aggregator} :
    Announces a .retractAll a' (a.index.tracked.map fun u => (u, []))
  /-- anything else: nothing -/
  | quiet {op : Operation} {a' : Aggregator} (noReport : ∀ r, a.recordOf op ≠ some (.report r))
    (noBanner : ∀ b, a.recordOf op ≠ some (.compiling b)) (notAsked : op ≠ .republish)
    (notTaken : op ≠ .retractAll) : Announces a op a' []

section Announces

variable {a : Aggregator} (hne : ∀ u ∈ a.index.tracked, a.index.snapshot u ≠ [])
  {result : Aggregator × List Effect}
include hne

theorem announces_handle {op : Operation} {record : Record} (hr : a.recordOf op = some record)
    (h : a.handle record = .ok result) : Announces a op result.1 (publications result.2) := by
  have hquiet : publications result.2 = [] → (∀ r, record ≠ .report r) → (∀ b, record ≠ .compiling b) →
      Announces a op result.1 (publications result.2) := by
    intro hnone hreport hbanner
    rw [hnone]
    refine .quiet (fun r hr' => hreport r ?_) (fun b hr' => hbanner b ?_) ?_ ?_
    · exact Option.some_inj.mp (hr.symm.trans hr')
    · exact Option.some_inj.mp (hr.symm.trans hr')
    · rintro rfl
      cases hr
    · rintro rfl
      cases hr
  cases record with
  | report r =>
    obtain ⟨u, d, -, -, rfl⟩ := handleReport_ok h
    have hp := publishes_republish { a with index := a.index.upsert u r.key d }
    rw [publications_kept hp (a.index.snapshot_upsert_forall hne u r.key d)]
    exact .reported hr
  | compiling b =>
    obtain ⟨u, e, hu, h₁, h₂⟩ := handleBanner_ok h
    have hp : Publishes (a.index.clear u) result := by
      have hp := publishes_republish { a with index := a.index.clear u }
      exact ⟨by rw [h₁]; exact hp.index, by rw [h₂]; exact hp.publications⟩
    obtain ⟨front, back, hpublished, hothers, hforgotten⟩ := publications_cleared hp hne
    rw [hpublished]
    exact .compiling hr hu hothers hforgotten
  | interactive line => cases h; exact hquiet rfl nofun nofun
  | prompt line => cases h; exact hquiet rfl nofun nofun
  | plain line => cases h; exact hquiet rfl nofun nofun

/-- **Every operation that is not refused** publishes what it is to publish. -/
theorem announces_apply {op : Operation} (h : a.apply op = .ok result) :
    Announces a op result.1 (publications result.2) := by
  have hquiet : publications result.2 = [] → a.recordOf op = none → op ≠ .republish →
      op ≠ .retractAll → Announces a op result.1 (publications result.2) := by
    intro hnone hrecord hasked htaken
    rw [hnone]
    exact .quiet (by simp [hrecord]) (by simp [hrecord]) hasked htaken
  cases op with
  | stdout line =>
    obtain ⟨record, hr, hh⟩ := onStdout_ok h
    exact announces_handle hne hr hh
  | handle record => exact announces_handle hne rfl h
  | republish =>
    cases h
    rw [publications_kept (publishes_republish a) hne]
    exact .republished
  | retractAll =>
    cases h
    rw [(publishes_retractAll a).publications, Index.snapshots_clearAll]
    exact .retracted
  | beginSession prompt =>
    obtain ⟨s, -, rfl⟩ := beginSession_ok h
    exact hquiet rfl rfl nofun nofun
  | relocate root => cases h; exact hquiet rfl rfl nofun nofun
  | commandSent command => cases h; exact hquiet rfl rfl nofun nofun
  | stderr line => cases h; exact hquiet rfl rfl nofun nofun

omit hne in
/-- **A file is published without diagnostics** only where the compiler begins with it, or where it is
taken back with all others. -/
theorem Announces.of_empty {op : Operation} {a' : Aggregator} {ps : List (String × List Diagnostic)}
    (h : Announces a op a' ps) (hne' : ∀ u ∈ a'.index.tracked, a'.index.snapshot u ≠ []) {u : String}
    (hu : (u, []) ∈ ps) :
    (∃ b, a.recordOf op = some (.compiling b) ∧ a.uriOf b.sourcePath = .ok u) ∨
      op = .retractAll ∧ u ∈ a.index.tracked := by
  have hnone : (u, []) ∉ a'.index.tracked.map fun v => (v, a'.index.snapshot v) := by
    intro hm
    obtain ⟨v, hv, he⟩ := List.mem_map.mp hm
    exact hne' v hv (Prod.mk.inj he).2
  cases h with
  | reported record => exact absurd hu hnone
  | republished => exact absurd hu hnone
  | @compiling _ _ b v front back record uri others forgotten =>
    rcases List.mem_cons.mp (List.perm_middle.mem_iff.mp hu) with he | hm
    · obtain ⟨rfl, -⟩ := Prod.mk.inj he
      exact .inl ⟨b, record, uri⟩
    · rw [others] at hm
      exact absurd hm hnone
  | retracted =>
    obtain ⟨v, hv, he⟩ := List.mem_map.mp hu
    obtain ⟨rfl, -⟩ := Prod.mk.inj he
    exact .inr ⟨rfl, hv⟩
  | quiet => cases hu

theorem republish_eq_self : a.republish.1 = a := by
  rw [republish, a.index.prune_of_forall hne]

end Announces

theorem lastPublished_republish {a : Aggregator} {before : List Effect} (hs : Shows a.index before)
    (u : String) : Editor.lastPublished u (Effect.calls (before ++ a.republish.2)) =
      Editor.lastPublished u (Effect.calls before) := by
  rw [lastPublished_calls, lastPublished_calls, publications_append, List.reverse_append,
    List.lookup_append, (publishes_republish a).publications, Index.snapshots_eq, ← List.map_reverse,
    lookup_map]
  by_cases hu : u ∈ a.index.tracked
  · have hview := hs.view u
    have hsome := hs.nonempty u hu
    rw [shown, lastPublished_calls] at hview
    rw [if_pos (List.mem_reverse.mpr hu), ← hview]
    cases hlast : (publications before).reverse.lookup u with
    | none => rw [hlast] at hview; exact absurd hview.symm hsome
    | some ds => rfl
  · rw [if_neg (fun h => hu (List.mem_reverse.mp h))]
    rfl

/-- **Publications are exact**, after every run.

* An operation that is not refused publishes what it is to publish, and no file is tracked twice.
* A file is published without diagnostics only where the compiler begins with it, or where it is tracked
  and everything is taken back.
* Publishing once more changes neither the aggregator nor what was last published for any file. -/
theorem publications_exact (directory source : String) (root : Option String) (ops : List Operation) :
    let a := ((start directory root source).run ops).1
    let before := ((start directory root source).run ops).2
    a.index.tracked.Nodup ∧
    (∀ op a' effects, a.apply op = .ok (a', effects) →
      Announces a op a' (publications effects) ∧ a'.index.tracked.Nodup) ∧
    (∀ op u, (u, []) ∈ publications (a.perform op).2 →
      (∃ b, a.recordOf op = some (.compiling b) ∧ a.uriOf b.sourcePath = .ok u) ∨
        op = .retractAll ∧ u ∈ a.index.tracked) ∧
    a.republish.1 = a ∧ ∀ u, Editor.lastPublished u (Effect.calls (before ++ a.republish.2)) =
      Editor.lastPublished u (Effect.calls before) := by
  intro a before
  have hs : Shows a.index before := shows_run ops (start directory root source) [] Shows.start
  refine ⟨a.index.nodup_tracked,
    fun op a' effects h => ⟨announces_apply hs.nonempty h, a'.index.nodup_tracked⟩,
    fun op u hu => ?_, republish_eq_self hs.nonempty, lastPublished_republish hs⟩
  cases h : a.apply op with
  | error e =>
    rw [perform, h] at hu
    cases hu
  | ok result =>
    have hperform : a.perform op = result := by rw [perform, h]
    have hafter := shows_does (a.perform_does op) hs
    rw [hperform] at hu hafter
    exact (announces_apply hs.nonempty h).of_empty hafter.nonempty hu

/-- The compiler begins with a file of which nothing was known, while two others have diagnostics. -/
theorem publications_exact_unknown_file :
    let report (file : String) : Operation :=
      .handle (.report ⟨⟨file, 3, 1, 3, 9⟩, none, "SevError", "not in scope"⟩)
    let a := ((start "/w" none "ghci").run [report "B.hs", report "A.hs"]).1
    let op : Operation := .handle (.compiling ⟨3, 3, "C", "./C.hs"⟩)
    a.apply op = .ok (a.perform op) ∧
      Announces a op (a.perform op).1 (publications (a.perform op).2) ∧
      (publications (a.perform op).2).map Prod.fst =
        ["file:///w/B.hs", "file:///w/A.hs", "file:///w/C.hs"] ∧
      ("file:///w/C.hs", []) ∈ publications (a.perform op).2 ∧
      ∃ b, a.recordOf op = some (.compiling b) ∧ a.uriOf b.sourcePath = .ok "file:///w/C.hs" := by
  intro report a op
  obtain ⟨-, hannounces, honly, -⟩ :=
    publications_exact "/w" "ghci" none [report "B.hs", report "A.hs"]
  have hok : (a.apply op).isOk = true := by decide +kernel
  have happly : a.apply op = .ok (a.perform op) := by
    cases h : a.apply op with
    | error e => rw [h] at hok; cases hok
    | ok result => rw [perform, h]
  have hempty : ("file:///w/C.hs", []) ∈ publications (a.perform op).2 := by decide +kernel
  refine ⟨happly, (hannounces op _ _ happly).1, by decide +kernel, hempty, ?_⟩
  exact (honly op _ hempty).resolve_right fun h => nomatch h.1

end GhciRelay.Aggregator
