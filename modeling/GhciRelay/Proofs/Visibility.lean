import GhciRelay.Process.LineReader
import GhciRelay.Proofs.Refusal

/-!
# Which lines the editor gets to see

A line of output is shown to the editor in one of three ways: the file that it is about is published,
the status changes, or something is logged. Whoever reads the output notes a line that is refused in
the log of the program, and goes on; the editor hears nothing of it. So, where every path has a URI, a
line in a session is shown exactly if it has no number that is too large for what is made of it: no
coordinate beyond those of a position, and no digits of a banner beyond those of a number
(`line_visible_iff`).
-/

namespace GhciRelay.Aggregator

theorem mem_calls_of_publications {u : String} {ds : List Diagnostic} {effects : List Effect}
    (h : (u, ds) ∈ publications effects) : .publish u ds ∈ Effect.calls effects := by
  obtain ⟨c, hc, he⟩ := List.mem_filterMap.mp h
  cases c with
  | publish u' ds' => cases he; exact hc
  | _ => cases he

theorem Publishes.mem_calls {i : Index} {result : Aggregator × List Effect} (h : Publishes i result)
    {u : String} (hu : u ∈ i.tracked) : .publish u (i.snapshot u) ∈ Effect.calls result.2 := by
  refine mem_calls_of_publications ?_
  rw [h.publications, Index.snapshots_eq]
  exact List.mem_map.mpr ⟨u, hu, rfl⟩

/-- **The call shows a line to the editor**: it publishes the file that the line names, sets the
status, or logs something. -/
def Reveals (a : Aggregator) (line : String) : Editor.Call → Prop
  | .publish u _ => ∃ s record path, a.sentinel = some s ∧ s.classify line = .ok record ∧
      record.path? = some path ∧ a.uriOf path = .ok u
  | .status _ => True
  | .log _ => True
  | .showError _ => False

/-- **A line that is handled is shown.** -/
theorem onStdout_reveals {a : Aggregator} {s : Sentinel} (hs : a.sentinel = some s) {line : String}
    {result : Aggregator × List Effect} (h : a.onStdout line = .ok result) :
    ∃ c ∈ Effect.calls result.2, a.Reveals line c := by
  obtain ⟨record, hrecord, hh⟩ := onStdout_ok h
  have hc : s.classify line = .ok record := by
    rw [recordOf, hs, Option.bind_some] at hrecord
    cases hc : s.classify line with
    | error e => rw [hc] at hrecord; cases hrecord
    | ok record' => rw [hc] at hrecord; cases hrecord; rfl
  cases record with
  | report r =>
    obtain ⟨u, d, hu, -, rfl⟩ := handleReport_ok hh
    have hp := publishes_republish { a with index := a.index.upsert u r.key d }
    have hm : u ∈ (a.index.upsert u r.key d).tracked := a.index.mem_tracked_upsert.mpr (.inl rfl)
    exact ⟨_, hp.mem_calls hm, s, _, _, hs, hc, rfl, hu⟩
  | compiling b =>
    obtain ⟨u, e, hu, -, h₂⟩ := handleBanner_ok hh
    have hp := publishes_republish { a with index := a.index.clear u }
    have hm : u ∈ (a.index.clear u).tracked := a.index.mem_tracked_clear.mpr (.inl rfl)
    rw [h₂]
    exact ⟨_, hp.mem_calls hm, s, _, _, hs, hc, rfl, hu⟩
  | prompt text => cases hh; exact ⟨_, List.mem_singleton.mpr rfl, trivial⟩
  | interactive text => cases hh; exact ⟨_, List.mem_singleton.mpr rfl, trivial⟩
  | plain text => cases hh; exact ⟨_, List.mem_singleton.mpr rfl, trivial⟩

/-- **A line is shown unless a number in it is too large.** After every run in which a session has
begun and paths are seen from an absolute directory, and for every line that is taken from the output:
the editor is called about the line exactly if no banner with a number of more than 4300 digits is
found in it and it reports on no coordinate above 2147483648; otherwise nothing comes of it but an
entry in the log of the program. -/
theorem line_visible_iff (directory source : String) (root : Option String) (ops : List Operation)
    (hbegun : ∃ op ∈ ops, op.begins = true)
    (hrooted : Path.isRooted (((start directory root source).run ops).1.root.getD
      ((start directory root source).run ops).1.directory) = true) (bytes : List UInt8) :
    let a := ((start directory root source).run ops).1
    let line := LineReader.lineText bytes
    let effects := (LineReader.deliver .stdout onStdout a (.line bytes)).2
    ∃ s, a.sentinel = some s ∧
      ((∃ c ∈ Effect.calls effects, a.Reveals line c) ↔
        ¬ (s.HasLongNumber line ∨ s.HasLargeCoordinate line)) ∧
      (s.HasLongNumber line ∨ s.HasLargeCoordinate line →
        effects = [.note (LineReader.handlerNote .stdout)]) := by
  intro a line effects
  have hsome : a.sentinel.isSome = true := by
    rw [sentinel_run ops (start directory root source), Bool.or_eq_true]
    exact .inr (List.any_eq_true.mpr hbegun)
  obtain ⟨s, hs⟩ := Option.isSome_iff_exists.mp hsome
  have hpath : ¬ s.HasRelativePath a.base line := by
    rintro ⟨record, path, -, -, -, hb⟩
    rw [show Path.isRooted a.base = true from hrooted] at hb
    cases hb
  have hfails : (a.onStdout line).isOk = false ↔
      s.HasLongNumber line ∨ s.HasLargeCoordinate line := by
    rw [onStdout_fails_of_sentinel hs]
    simp [hpath]
  refine ⟨s, hs, ?_⟩
  rw [← hfails]
  cases hr : a.onStdout line with
  | ok result =>
    have heffects : effects = result.2 := by
      simp only [effects, LineReader.deliver]
      rw [show a.onStdout (LineReader.lineText bytes) = .ok result from hr]
    rw [heffects]
    exact ⟨iff_of_true (onStdout_reveals hs hr) (by simp [Except.isOk, Except.toBool]),
      fun h => by cases h⟩
  | error e =>
    have heffects : effects = [.note (LineReader.handlerNote .stdout)] := by
      simp only [effects, LineReader.deliver]
      rw [show a.onStdout (LineReader.lineText bytes) = .error e from hr]
    rw [heffects]
    refine ⟨iff_of_false ?_ (by simp [Except.isOk, Except.toBool]), fun _ => rfl⟩
    rintro ⟨c, hc, -⟩
    cases hc

/-- The bytes of a report on a line of a file, given by the digits of its number. -/
def reportBytes (digits : String) : List UInt8 :=
  Text.Utf8.encode ("\x7b\"span\":\x7b\"file\":\"A.hs\",\"startLine\":" ++ digits ++
    ",\"startCol\":1,\"endLine\":1,\"endCol\":1\x7d\x7d\n").toList

/-- A report on the last line that has a position is shown. -/
theorem line_visible_iff_last :
    let a := ((start "/w" none "ghci").run [.beginSession "p>"]).1
    Path.isRooted (a.root.getD a.directory) = true ∧
      ∃ c ∈ Effect.calls (LineReader.deliver .stdout onStdout a (.line (reportBytes "2147483648"))).2,
        a.Reveals (LineReader.lineText (reportBytes "2147483648")) c := by
  intro a
  have hrooted : Path.isRooted (a.root.getD a.directory) = true := by decide +kernel
  obtain ⟨s, hs, hiff, -⟩ := line_visible_iff "/w" "ghci" none [.beginSession "p>"]
    ⟨_, List.mem_singleton.mpr rfl, by decide⟩ hrooted (reportBytes "2147483648")
  have hp : s = ⟨"p>", by decide⟩ := by
    have ha : a.sentinel = some ⟨"p>", by decide⟩ := by decide +kernel
    exact Option.some.inj (hs.symm.trans ha)
  subst hp
  refine ⟨hrooted, hiff.mpr ?_⟩
  rintro (⟨text, p, ht, -⟩ | ⟨r, hr, n, hn, hlarge⟩)
  · have hnone : Sentinel.bannerText? ⟨"p>", by decide⟩
        (LineReader.lineText (reportBytes "2147483648")) = none := by decide +kernel
    rw [hnone] at ht
    cases ht
  · have hrecord : Sentinel.classify ⟨"p>", by decide⟩
        (LineReader.lineText (reportBytes "2147483648")) =
          .ok (.report ⟨⟨"A.hs", 2147483648, 1, 1, 1⟩, none, "", ""⟩) := by decide +kernel
    rw [hrecord] at hr
    cases hr
    simp only [Span.coordinates, Span.maxCoordinate, List.mem_cons, List.not_mem_nil, or_false] at *
    omega

/-- **A line can be lost**: of a report on the line after that the editor hears nothing. -/
theorem line_can_be_lost :
    let a := ((start "/w" none "ghci").run [.beginSession "p>"]).1
    let line := LineReader.lineText (reportBytes "2147483649")
    let effects := (LineReader.deliver .stdout onStdout a (.line (reportBytes "2147483649"))).2
    Path.isRooted (a.root.getD a.directory) = true ∧
      effects = [.note (LineReader.handlerNote .stdout)] ∧
      ¬ ∃ c ∈ Effect.calls effects, a.Reveals line c := by
  intro a line effects
  have heffects : effects = [.note (LineReader.handlerNote .stdout)] := by decide +kernel
  refine ⟨by decide +kernel, heffects, ?_⟩
  rw [heffects]
  rintro ⟨c, hc, -⟩
  cases hc

end GhciRelay.Aggregator
