import GhciRelay.Proofs.Aggregator

/-!
# Compile cycles

The *cycle* of a file is the list of reports on it since the compiler last began with the file, or
since everything was last taken back. The index is a function of the history alone: it holds, for
each file, one diagnostic per key of the file's cycle, in the order in which the keys came, each made
from the last report with its key; and it tracks the files whose cycle is not empty, in the order of
their first reports (`index_eq_cycles`).

The proof goes along the history, one event at a time: `Follows` says that an index is the one that a
history leads to, and `follows_does` that every operation keeps it so.
-/

namespace GhciRelay.Aggregator

/-- The event ends the cycle of a file. -/
def Event.ends (u : String) : Event → Bool
  | .reported .. => false
  | .compiling v => v = u
  | .retracted => true

/-- The report on a file that the event is. -/
def Event.reportOn (u : String) : Event → Option Report
  | .reported v r => if v = u then some r else none
  | _ => none

/-- The event concerns a file. -/
def Event.concerns (u : String) (e : Event) : Bool := e.ends u || (e.reportOn u).isSome

/-- The events since the last one that ended the cycle of a file. -/
def since (u : String) (h : List Event) : List Event := (h.reverse.takeWhile (!·.ends u)).reverse

/-- **The cycle of a file**: the reports on it since its last end. -/
def cycle (u : String) (h : List Event) : List Report := (since u h).filterMap (·.reportOn u)

/-- **The live reports**: those of all cycles, with their files, in the order in which they came. -/
def live : List Event → List (String × Report)
  | [] => []
  | .reported u r :: later => if later.any (·.ends u) then live later else (u, r) :: live later
  | _ :: later => live later

/-- The last of the reports with a key. -/
def latest (k : Key) (reports : List Report) : Option Report := reports.reverse.find? (·.key = k)

/-! ### One event more -/

theorem cycle_append (u : String) (h : List Event) (e : Event) :
    cycle u (h ++ [e]) = if e.ends u then [] else cycle u h ++ (e.reportOn u).toList := by
  by_cases he : e.ends u = true
  · simp [cycle, since, he]
  · cases hr : e.reportOn u <;> simp [cycle, since, he, hr]

theorem cycle_reported (u : String) (h : List Event) (r : Report) :
    cycle u (h ++ [.reported u r]) = cycle u h ++ [r] := by
  simp [cycle_append, Event.ends, Event.reportOn]

theorem cycle_reported_of_ne {u v : String} (hvu : v ≠ u) (h : List Event) (r : Report) :
    cycle u (h ++ [.reported v r]) = cycle u h := by
  simp [cycle_append, Event.ends, Event.reportOn, hvu]

theorem cycle_compiling (u v : String) (h : List Event) :
    cycle u (h ++ [.compiling v]) = if v = u then [] else cycle u h := by
  simp [cycle_append, Event.ends, Event.reportOn]

theorem cycle_retracted (u : String) (h : List Event) : cycle u (h ++ [.retracted]) = [] := by
  simp [cycle_append, Event.ends]

theorem live_append : ∀ (h : List Event) (e : Event),
    live (h ++ [e]) = (live h).filter (fun p => !e.ends p.1) ++ live [e]
  | [], _ => rfl
  | .reported u r :: later, e => by
    rw [List.cons_append, live, live, live_append later e, List.any_append]
    by_cases hl : later.any (·.ends u) = true
    · simp [hl]
    · by_cases he : e.ends u = true
      · simp [hl, he]
      · simp [hl, he]
  | .compiling u :: later, e => live_append later e
  | .retracted :: later, e => live_append later e

theorem cycle_eq_live (u : String) (h : List Event) :
    cycle u h = ((live h).filter (·.1 = u)).map Prod.snd := by
  induction h using List.reverseRecOn with
  | nil => rfl
  | append_singleton h e ih =>
    rw [cycle_append, live_append, List.filter_append, List.map_append, List.filter_filter]
    by_cases he : e.ends u = true
    · have hf : ∀ p ∈ live h, ¬ (decide (p.1 = u) && !e.ends p.1) = true := by
        rintro ⟨v, r⟩ -
        simp only [Bool.and_eq_true, decide_eq_true_eq, not_and]
        rintro rfl
        simp [he]
      rw [if_pos he, List.filter_eq_nil_iff.mpr hf]
      cases e with
      | reported v r => simp [Event.ends] at he
      | _ => rfl
    · have hf : ∀ p ∈ live h, (decide (p.1 = u) && !e.ends p.1) = decide (p.1 = u) := by
        rintro ⟨v, r⟩ -
        by_cases hv : v = u
        · simp [hv, he]
        · simp [hv]
      rw [if_neg he, List.filter_congr hf, ← ih]
      congr 1
      cases e with
      | reported v r => by_cases hv : v = u <;> simp [Event.reportOn, live, hv]
      | _ => rfl

theorem mem_live_iff (u : String) (h : List Event) : u ∈ (live h).map Prod.fst ↔ cycle u h ≠ [] := by
  rw [cycle_eq_live, Ne, List.map_eq_nil_iff, List.filter_eq_nil_iff]
  simp

theorem latest_append (k : Key) (reports : List Report) (r : Report) :
    latest k (reports ++ [r]) = if r.key = k then some r else latest k reports := by
  by_cases hk : r.key = k <;> simp [latest, hk]

/-! ### The index that a history leads to -/

/-- **The index is the one that a history leads to**, with diagnostics that name the given source. -/
structure Follows (source : String) (i : Index) (h : List Event) : Prop where
  tracked : i.tracked = ((live h).map Prod.fst).eraseDups
  keys : ∀ u, (i.diagnosticsOf u).keys = ((cycle u h).map Report.key).eraseDups
  get : ∀ u k, (i.diagnosticsOf u).get? k =
    (latest k (cycle u h)).bind fun r => (r.diagnostic source).toOption

theorem Follows.start (source : String) : Follows source .empty [] where
  tracked := rfl
  keys _ := rfl
  get _ _ := rfl

theorem Follows.mem_tracked {source : String} {i : Index} {h : List Event} (hf : Follows source i h)
    (u : String) : u ∈ i.tracked ↔ cycle u h ≠ [] := by
  rw [hf.tracked, List.mem_eraseDups, mem_live_iff]

theorem Follows.snapshot_eq_nil {source : String} {i : Index} {h : List Event}
    (hf : Follows source i h) (u : String) : i.snapshot u = [] ↔ cycle u h = [] := by
  rw [← Index.isEmptyFile_iff, Index.isEmptyFile, OrderedMap.isEmpty_iff, hf.keys,
    OrderedMap.eraseDups_eq_nil, List.map_eq_nil_iff]

theorem Follows.snapshot_ne_nil {source : String} {i : Index} {h : List Event}
    (hf : Follows source i h) : ∀ u ∈ i.tracked, i.snapshot u ≠ [] := by
  intro u hu
  rw [Ne, hf.snapshot_eq_nil]
  exact (hf.mem_tracked u).mp hu

/-- One diagnostic per key, in order, each made from the last report with its key. -/
theorem Follows.snapshot {source : String} {i : Index} {h : List Event} (hf : Follows source i h)
    (u : String) : (i.snapshot u).map some = ((cycle u h).map Report.key).eraseDups.map fun k =>
      (latest k (cycle u h)).bind fun r => (r.diagnostic source).toOption := by
  rw [Index.snapshot, OrderedMap.values_eq, hf.keys]
  exact List.map_congr_left fun k _ => hf.get u k

theorem Follows.report {source : String} {i : Index} {h : List Event} (hf : Follows source i h)
    (u : String) {r : Report} {d : Diagnostic} (hd : r.diagnostic source = .ok d) :
    Follows source (i.upsert u r.key d).prune (h ++ [.reported u r]) where
  tracked := by
    have hne := i.snapshot_upsert_forall hf.snapshot_ne_nil u r.key d
    rw [Index.prune_of_forall _ hne, live_append, List.map_append]
    simp only [Event.ends, Bool.not_false, List.filter_true]
    exact OrderedMap.keys_insert_eraseDups hf.tracked u _
  keys v := by
    rw [Index.diagnosticsOf_prune, Index.diagnosticsOf_upsert]
    by_cases hvu : v = u
    · subst hvu
      rw [if_pos rfl, cycle_reported, List.map_append]
      exact OrderedMap.keys_insert_eraseDups (hf.keys v) r.key d
    · rw [if_neg hvu, cycle_reported_of_ne (Ne.symm hvu)]
      exact hf.keys v
  get v k := by
    rw [Index.diagnosticsOf_prune, Index.diagnosticsOf_upsert]
    by_cases hvu : v = u
    · subst hvu
      rw [if_pos rfl, cycle_reported, latest_append]
      by_cases hk : r.key = k
      · subst hk
        rw [OrderedMap.get?_insert_self, if_pos rfl, Option.bind_some, hd]; rfl
      · rw [OrderedMap.get?_insert_of_ne _ (Ne.symm hk), if_neg hk]
        exact hf.get v k
    · rw [if_neg hvu, cycle_reported_of_ne (Ne.symm hvu)]
      exact hf.get v k

theorem Follows.compile {source : String} {i : Index} {h : List Event} (hf : Follows source i h)
    (u : String) : Follows source (i.clear u).prune (h ++ [.compiling u]) where
  tracked := by
    rw [i.tracked_prune_clear hf.snapshot_ne_nil, hf.tracked, ← OrderedMap.eraseDups_filter,
      live_append, List.filter_map]
    simp [Event.ends, live, Function.comp_def, eq_comm]
  keys v := by
    rw [Index.diagnosticsOf_prune, Index.diagnosticsOf_clear, cycle_compiling]
    by_cases hvu : v = u
    · rw [if_pos hvu, if_pos hvu.symm]; rfl
    · rw [if_neg hvu, if_neg (Ne.symm hvu)]
      exact hf.keys v
  get v k := by
    rw [Index.diagnosticsOf_prune, Index.diagnosticsOf_clear, cycle_compiling]
    by_cases hvu : v = u
    · rw [if_pos hvu, if_pos hvu.symm]; rfl
    · rw [if_neg hvu, if_neg (Ne.symm hvu)]
      exact hf.get v k

theorem Follows.retract {source : String} {i : Index} {h : List Event} :
    Follows source i.clearAll.prune (h ++ [.retracted]) where
  tracked := by
    have hl : live (h ++ [.retracted]) = [] := by simp [live_append, Event.ends, live]
    rw [hl, List.map_nil, List.eraseDups_nil, List.eq_nil_iff_forall_not_mem]
    intro u hu
    exact ((Index.mem_tracked_prune _).mp hu).2 (i.snapshot_clearAll u)
  keys u := by
    rw [Index.diagnosticsOf_prune, Index.diagnosticsOf_clearAll, cycle_retracted]; rfl
  get u k := by
    rw [Index.diagnosticsOf_prune, Index.diagnosticsOf_clearAll, cycle_retracted]; rfl

theorem Follows.prune {source : String} {i : Index} {h : List Event} (hf : Follows source i h) :
    Follows source i.prune h where
  tracked := by rw [i.prune_of_forall hf.snapshot_ne_nil, hf.tracked]
  keys u := by rw [i.diagnosticsOf_prune, hf.keys]
  get u k := by rw [i.diagnosticsOf_prune, hf.get]

/-- **One operation**: the index goes on to be the one that the history leads to. -/
theorem follows_does {a : Aggregator} {e : Option Event} {result : Aggregator × List Effect}
    (hd : Does a e result) {h : List Event} (hf : Follows a.source a.index h) :
    Follows a.source result.1.index (h ++ e.toList) := by
  cases hd with
  | nothing index _ => rw [index]; simpa using hf
  | republish hp => rw [hp.index]; simpa using hf.prune
  | report u r d made hp => rw [hp.index]; exact hf.report u made
  | compile u hp => rw [hp.index]; exact hf.compile u
  | retract hp => rw [hp.index]; exact Follows.retract

/-- **A run**: the index is the one that the history of the run leads to. -/
theorem follows_run : ∀ (ops : List Operation) (a : Aggregator) (h : List Event),
    Follows a.source a.index h → Follows a.source (a.run ops).1.index (h ++ a.history ops)
  | [], a, h, hf => by simpa [run, history] using hf
  | op :: ops, a, h, hf => by
    have hstep := follows_does (a.perform_does op) hf
    rw [← a.source_perform op] at hstep
    have := follows_run ops (a.perform op).1 _ hstep
    rw [a.source_perform op, List.append_assoc] at this
    exact this

theorem snapshot_does {a : Aggregator} {e : Option Event} {result : Aggregator × List Effect}
    (hd : Does a e result) {u : String} (hu : e.all (!·.concerns u) = true) :
    result.1.index.snapshot u = a.index.snapshot u := by
  cases hd with
  | nothing index _ => rw [index]
  | republish hp => rw [hp.index, Index.snapshot_prune]
  | report v r d _ hp =>
    have hvu : u ≠ v := by
      rintro rfl
      simp [Event.concerns, Event.reportOn] at hu
    rw [hp.index, Index.snapshot_prune, Index.snapshot_upsert_of_ne _ hvu]
  | compile v hp =>
    have hvu : u ≠ v := by
      rintro rfl
      simp [Event.concerns, Event.ends] at hu
    rw [hp.index, Index.snapshot_prune, Index.snapshot_clear, if_neg hvu]
  | retract hp => simp [Event.concerns, Event.ends] at hu

/-- **The index is a function of the history.** After every run, a file has one diagnostic per key of
its cycle, in the order of the keys' first reports and each made from the key's last report; the
tracked files are those with a cycle, once each, in the order of their first live reports; and an
operation that does not concern a file, or is refused, leaves its diagnostics as they are. -/
theorem index_eq_cycles (directory source : String) (root : Option String) (ops : List Operation) :
    let a := ((start directory root source).run ops).1
    let h := (start directory root source).history ops
    (∀ u, (a.index.snapshot u).map some = ((cycle u h).map Report.key).eraseDups.map fun k =>
      (latest k (cycle u h)).bind fun r => (r.diagnostic source).toOption) ∧
    a.index.tracked = ((live h).map Prod.fst).eraseDups ∧
    (∀ u, cycle u h = ((live h).filter (·.1 = u)).map Prod.snd) ∧
    a.index.tracked.Nodup ∧ (∀ u, u ∈ a.index.tracked ↔ cycle u h ≠ []) ∧
    ∀ op u, (a.eventOf op).all (!·.concerns u) = true →
      (a.perform op).1.index.snapshot u = a.index.snapshot u := by
  intro a h
  have hf : Follows source a.index h :=
    follows_run ops (start directory root source) [] (Follows.start source)
  exact ⟨hf.snapshot, hf.tracked, fun u => cycle_eq_live u h, a.index.nodup_tracked, hf.mem_tracked,
    fun op _ hu => snapshot_does (a.perform_does op) hu⟩

/-- A banner of another file leaves a reported file alone. -/
theorem index_eq_cycles_other_banner :
    let report : Report := ⟨⟨"A.hs", 3, 1, 3, 9⟩, some "-Wunused", "SevWarning", "unused"⟩
    let a := ((start "/w" none "ghci").run [.handle (.report report)]).1
    let op : Operation := .handle (.compiling ⟨1, 2, "B", "B.hs"⟩)
    a.index.tracked = ["file:///w/A.hs"] ∧
      (a.eventOf op).all (!·.concerns "file:///w/A.hs") = true ∧
      (a.perform op).1.index.snapshot "file:///w/A.hs" = a.index.snapshot "file:///w/A.hs" := by
  intro report a op
  have hconcerns : (a.eventOf op).all (!·.concerns "file:///w/A.hs") = true := by decide +kernel
  obtain ⟨-, htracked, -, -, -, hother⟩ :=
    index_eq_cycles "/w" "ghci" none [.handle (.report report)]
  refine ⟨htracked.trans ?_, hconcerns, hother op _ hconcerns⟩
  decide +kernel

end GhciRelay.Aggregator
