import GhciRelay.Diagnostic.Aggregator
import GhciRelay.Proofs.Index

/-!
# Runs of the aggregator

A run is any sequence of operations, those that are refused included: they leave the aggregator as it
is and tell the editor nothing. What matters of an operation for the diagnostics is its *event*: a
report on a file was taken, the compiler began with a file, or everything was taken back.
`perform_does` says all that an operation can do to the index and publish, by its event; every
statement about runs is derived from it.
-/

namespace GhciRelay.Aggregator

/-- **An operation** on an aggregator. -/
inductive Operation where
  | relocate (root : Option String)
  | beginSession (prompt : String)
  | commandSent (command : String)
  | stdout (line : String)
  | stderr (line : String)
  | handle (record : Record)
  | republish
  | retractAll

/-- What an operation returns. -/
def apply (a : Aggregator) : Operation → Result
  | .relocate root => .ok ({ a with root := root }, [])
  | .beginSession prompt => (a.beginSession prompt).map fun a' => (a', [])
  | .commandSent command => .ok (a.commandSent command)
  | .stdout line => a.onStdout line
  | .stderr line => .ok (a.onStderr line)
  | .handle record => a.handle record
  | .republish => .ok a.republish
  | .retractAll => .ok a.retractAll

/-- What comes of an operation; one that is refused changes nothing. -/
def perform (a : Aggregator) (op : Operation) : Aggregator × List Effect :=
  match a.apply op with
  | .ok result => result
  | .error _ => (a, [])

/-- **A run**: operations one after the other, and all that they do. -/
def run (a : Aggregator) : List Operation → Aggregator × List Effect
  | [] => (a, [])
  | op :: ops =>
    let (a', effects) := a.perform op
    let (a'', more) := a'.run ops
    (a'', effects ++ more)

/-- **What an operation means** for the diagnostics of files. -/
inductive Event where
  /-- a report on a file was taken -/
  | reported (uri : String) (r : Report)
  /-- the compiler began with a file -/
  | compiling (uri : String)
  /-- everything was taken back -/
  | retracted

/-- The record that an operation handles. -/
def recordOf (a : Aggregator) : Operation → Option Record
  | .handle record => some record
  | .stdout line => a.sentinel.bind fun s => (s.classify line).toOption
  | _ => none

/-- What a record means, its path seen from the present root. -/
def eventOfRecord (a : Aggregator) : Record → Option Event
  | .report r => (a.uriOf r.span.file).toOption.map fun u => .reported u r
  | .compiling b => (a.uriOf b.sourcePath).toOption.map .compiling
  | _ => none

/-- **The event of an operation**; one that is refused has none. -/
def eventOf (a : Aggregator) (op : Operation) : Option Event :=
  match a.apply op with
  | .error _ => none
  | .ok _ =>
    match op with
    | .retractAll => some .retracted
    | op => (a.recordOf op).bind a.eventOfRecord

/-- **The history of a run**: its events, in order. -/
def history (a : Aggregator) : List Operation → List Event
  | [] => []
  | op :: ops => (a.eventOf op).toList ++ (a.perform op).1.history ops

/-- The files and diagnostics that effects publish. -/
def publications (effects : List Effect) : List (String × List Diagnostic) :=
  (Effect.calls effects).filterMap Editor.Call.publication?

theorem publications_append (e₁ e₂ : List Effect) :
    publications (e₁ ++ e₂) = publications e₁ ++ publications e₂ := by
  simp [publications, Effect.calls]

/-! ### What an operation can do -/

/-- The result of publishing an index: each of its files once, with all its diagnostics. -/
structure Publishes (i : Index) (result : Aggregator × List Effect) : Prop where
  index : result.1.index = i.prune
  publications : publications result.2 = i.snapshots

/-- **What an operation with an event can do** to an aggregator. -/
inductive Does (a : Aggregator) : Option Event → Aggregator × List Effect → Prop
  | nothing {result} (index : result.1.index = a.index) (quiet : publications result.2 = []) :
    Does a none result
  | republish {result} (h : Publishes a.index result) : Does a none result
  | report {result} (u : String) (r : Report) (d : Diagnostic) (made : r.diagnostic a.source = .ok d)
    (h : Publishes (a.index.upsert u r.key d) result) : Does a (some (.reported u r)) result
  | compile {result} (u : String) (h : Publishes (a.index.clear u) result) :
    Does a (some (.compiling u)) result
  | retract {result} (h : Publishes a.index.clearAll result) : Does a (some .retracted) result

theorem publications_tell (l : List (String × List Diagnostic)) :
    publications (l.map fun s => .tell (.publish s.1 s.2)) = l := by
  induction l with
  | nil => rfl
  | cons s l ih =>
    rw [List.map_cons, ← List.singleton_append, publications_append, ih]
    rfl

theorem publishes_republish (a : Aggregator) : Publishes a.index a.republish :=
  ⟨rfl, publications_tell _⟩

theorem publishes_retractAll (a : Aggregator) : Publishes a.index.clearAll a.retractAll := by
  refine ⟨rfl, ?_⟩
  have h := (publishes_republish { a with index := a.index.clearAll }).publications
  rw [retractAll, publications_append, h]
  exact List.append_nil _

theorem handleReport_ok {a : Aggregator} {r : Report} {result : Aggregator × List Effect}
    (h : a.handleReport r = .ok result) :
    ∃ u d, a.uriOf r.span.file = .ok u ∧ r.diagnostic a.source = .ok d ∧
      result = { a with index := a.index.upsert u r.key d }.republish := by
  unfold handleReport at h
  cases hu : a.uriOf r.span.file with
  | error e => rw [hu] at h; cases h
  | ok u =>
    rw [hu] at h
    cases hd : r.diagnostic a.source with
    | error e => rw [hd] at h; cases h
    | ok d => rw [hd] at h; cases h; exact ⟨u, d, rfl, rfl, rfl⟩

theorem handleBanner_ok {a : Aggregator} {b : Banner} {result : Aggregator × List Effect}
    (h : a.handleBanner b = .ok result) :
    ∃ u e, a.uriOf b.sourcePath = .ok u ∧ result.1 = { a with index := a.index.clear u }.republish.1 ∧
      result.2 = .note e :: { a with index := a.index.clear u }.republish.2 := by
  unfold handleBanner at h
  cases hu : a.uriOf b.sourcePath with
  | error e => rw [hu] at h; cases h
  | ok u => rw [hu] at h; cases h; exact ⟨u, _, rfl, rfl, rfl⟩

theorem handle_does {a : Aggregator} {record : Record} {result : Aggregator × List Effect}
    (h : a.handle record = .ok result) : Does a (a.eventOfRecord record) result := by
  cases record with
  | report r =>
    obtain ⟨u, d, hu, hd, rfl⟩ := handleReport_ok h
    simp only [eventOfRecord, hu]
    exact .report u r d hd (publishes_republish { a with index := a.index.upsert u r.key d })
  | compiling b =>
    obtain ⟨u, e, hu, h₁, h₂⟩ := handleBanner_ok h
    have hp := publishes_republish { a with index := a.index.clear u }
    simp only [eventOfRecord, hu]
    exact .compile u ⟨by rw [h₁]; exact hp.index, by rw [h₂]; exact hp.publications⟩
  | interactive line => cases h; exact .nothing rfl rfl
  | prompt line => cases h; exact .nothing rfl rfl
  | plain line => cases h; exact .nothing rfl rfl

theorem onStdout_ok {a : Aggregator} {line : String} {result : Aggregator × List Effect}
    (h : a.onStdout line = .ok result) :
    ∃ record, a.recordOf (.stdout line) = some record ∧ a.handle record = .ok result := by
  unfold onStdout at h
  cases hs : a.sentinel with
  | none => rw [hs] at h; cases h
  | some s =>
    rw [hs] at h
    cases hc : s.classify line with
    | error e => simp only [hc] at h; cases h
    | ok record =>
      simp only [hc] at h
      refine ⟨record, ?_, h⟩
      rw [recordOf, hs]
      simp [hc, Except.toOption]

theorem onStdout_of_classify {a : Aggregator} {y : Sentinel} {line : String} {record : Record}
    (hy : a.sentinel = some y) (hc : y.classify line = .ok record) :
    a.onStdout line = a.handle record := by
  simp only [onStdout, hy, hc]

theorem beginSession_ok {a : Aggregator} {prompt : String} {result : Aggregator × List Effect}
    (h : a.apply (.beginSession prompt) = .ok result) :
    ∃ s, Sentinel.ofText? prompt = some s ∧ result = (a.listen s, []) := by
  simp only [apply, beginSession] at h
  cases hs : Sentinel.ofText? prompt with
  | none => rw [hs] at h; cases h
  | some s => rw [hs] at h; cases h; exact ⟨s, rfl, rfl⟩

/-- **What one operation can do.** -/
theorem perform_does (a : Aggregator) (op : Operation) : Does a (a.eventOf op) (a.perform op) := by
  unfold eventOf perform
  cases h : a.apply op with
  | error e => exact .nothing rfl rfl
  | ok result =>
    cases op with
    | relocate root => cases h; exact .nothing rfl rfl
    | beginSession prompt =>
      obtain ⟨s, -, rfl⟩ := beginSession_ok h
      exact .nothing rfl rfl
    | commandSent command => cases h; exact .nothing rfl rfl
    | stdout line =>
      obtain ⟨record, hr, hh⟩ := onStdout_ok h
      simp only [hr]
      exact handle_does hh
    | stderr line => cases h; exact .nothing rfl rfl
    | handle record => exact handle_does h
    | republish => cases h; exact .republish a.publishes_republish
    | retractAll => cases h; exact .retract a.publishes_retractAll

/-! ### What no operation changes -/

/-- Handling a record changes the index and the activity, and nothing else. -/
theorem handle_frame {a : Aggregator} {record : Record} {result : Aggregator × List Effect}
    (h : a.handle record = .ok result) :
    result.1 = { a with index := result.1.index, activity := result.1.activity } := by
  cases record with
  | report r => obtain ⟨u, d, -, -, rfl⟩ := handleReport_ok h; rfl
  | compiling b => obtain ⟨u, e, -, h₁, -⟩ := handleBanner_ok h; rw [h₁]; rfl
  | interactive line => cases h; rfl
  | prompt line => cases h; rfl
  | plain line => cases h; rfl

theorem onStdout_frame {a : Aggregator} {line : String} {result : Aggregator × List Effect}
    (h : a.onStdout line = .ok result) :
    result.1 = { a with index := result.1.index, activity := result.1.activity } := by
  obtain ⟨record, -, hh⟩ := onStdout_ok h
  exact handle_frame hh

theorem source_perform (a : Aggregator) (op : Operation) : (a.perform op).1.source = a.source := by
  unfold perform
  cases h : a.apply op with
  | error e => rfl
  | ok result =>
    cases op with
    | beginSession prompt =>
      obtain ⟨s, -, rfl⟩ := beginSession_ok h
      rfl
    | stdout line =>
      have hf := congrArg Aggregator.source (onStdout_frame h)
      exact hf
    | handle record =>
      have hf := congrArg Aggregator.source (handle_frame h)
      exact hf
    | _ => cases h; rfl

end GhciRelay.Aggregator
