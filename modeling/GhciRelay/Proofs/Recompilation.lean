import GhciRelay.Proofs.Banner
import GhciRelay.Proofs.EditorView
import GhciRelay.Proofs.Refusal

/-!
# Files that are compiled again

When the compiler begins with a file, what is known of the file is taken back: it is published without
diagnostics and no longer tracked, and the other files stay as they are. This depends on what the
banner is read as. The file is taken back exactly if the path that is understood leads to its URI
(`banner_retracts_iff`), which is so for every path without a comma. With a comma in the path another
file is taken back, or the banner passes for plain text, and the diagnostics of the file remain.
-/

namespace GhciRelay

open GhciRelay.Text (trimEnd isLineEnd)

theorem Banner.trimEnd_text (b : Banner) : trimEnd isLineEnd b.text.toList = b.text.toList := by
  obtain ⟨front, hfront⟩ : ∃ front, b.text.toList = front ++ ')' :: [] :=
    ⟨("[" ++ toString b.index ++ " of " ++ toString b.total ++ "] Compiling " ++ b.moduleName ++ " ( "
      ++ b.sourcePath ++ ", interpreted ").toList, by simp [Banner.text]⟩
  rw [hfront, Text.trimEnd_append_cons (by decide)]
  rfl

/-- **What a printed banner means** to a session, unless the sentinel occurs in it. -/
theorem Sentinel.classify_text {s : Sentinel} {b : Banner} (hb : b.Printable)
    (hs : occursIn s.text.toList b.text.toList = false) :
    s.classify b.text = .ok (b.understood.elim (.plain b.text) .compiling) := by
  have hmessage : Message.ofLine? b.text.toList = none := by
    rw [Banner.toList_text]
    rfl
  simp only [classify, b.trimEnd_text, hmessage, classifyText, hs, Banner.read_text hb]
  cases b.understood <;> simp [Except.map]

namespace Aggregator

/-- **The line takes a file back**: the file is published without diagnostics and is no longer tracked,
and the other files stay as they are. -/
def Retracts (a : Aggregator) (line u : String) : Prop :=
  ∃ a' effects, a.onStdout line = .ok (a', effects) ∧ (u, []) ∈ publications effects ∧
    a'.index.snapshot u = [] ∧ u ∉ a'.index.tracked ∧
    ∀ v, v ≠ u → a'.index.snapshot v = a.index.snapshot v

theorem handleBanner_publishes {a : Aggregator} {b : Banner} {result : Aggregator × List Effect}
    (h : a.handleBanner b = .ok result) :
    ∃ u, a.uriOf b.sourcePath = .ok u ∧ Publishes (a.index.clear u) result := by
  obtain ⟨u, e, hu, h₁, h₂⟩ := handleBanner_ok h
  have hp := publishes_republish { a with index := a.index.clear u }
  exact ⟨u, hu, by rw [h₁]; exact hp.index, by rw [h₂]; exact hp.publications⟩

/-- **A banner takes back the file that it names**, and no other: where every tracked file has
diagnostics, no other file is published without any. -/
theorem retracts_banner_iff {a : Aggregator} (hne : ∀ u ∈ a.index.tracked, a.index.snapshot u ≠ [])
    {s : Sentinel} (hs : a.sentinel = some s) {line : String} {b : Banner}
    (hc : s.classify line = .ok (.compiling b)) (u : String) :
    a.Retracts line u ↔ a.uriOf b.sourcePath = .ok u := by
  rw [Retracts, onStdout_of_classify hs hc]
  constructor
  · rintro ⟨a', effects, h, hpublished, -⟩
    obtain ⟨v, hv, hp⟩ := handleBanner_publishes h
    rw [hp.publications, Index.snapshots_eq] at hpublished
    obtain ⟨w, hw, he⟩ := List.mem_map.mp hpublished
    obtain ⟨rfl, hempty⟩ := Prod.mk.inj he
    rw [Index.snapshot_clear] at hempty
    split at hempty
    · next h => rw [h]; exact hv
    · next h => exact absurd hempty (hne w ((a.index.mem_tracked_clear.mp hw).resolve_left h))
  · intro hu
    have hok : (a.handleBanner b).isOk = true := by rw [isOk_handleBanner, hu]; rfl
    cases h : a.handleBanner b with
    | error e => rw [h] at hok; cases hok
    | ok result =>
      obtain ⟨v, hv, hp⟩ := handleBanner_publishes h
      obtain rfl : v = u := Except.ok.inj (hv.symm.trans hu)
      have hclear : (a.index.clear v).snapshot v = [] := by rw [Index.snapshot_clear, if_pos rfl]
      refine ⟨result.1, result.2, h, ?_, ?_, ?_, fun w hw => ?_⟩
      · rw [hp.publications, Index.snapshots_eq, ← hclear]
        exact List.mem_map.mpr ⟨v, a.index.mem_tracked_clear.mpr (.inl rfl), rfl⟩
      · rw [hp.index, Index.snapshot_prune, hclear]
      · rw [hp.index, Index.mem_tracked_prune]
        exact fun h => h.2 hclear
      · rw [hp.index, Index.snapshot_prune, Index.snapshot_clear, if_neg hw]

theorem not_retracts_plain {a : Aggregator} {s : Sentinel} (hs : a.sentinel = some s)
    {line text : String} (hc : s.classify line = .ok (.plain text)) (u : String) :
    ¬ a.Retracts line u := by
  rintro ⟨a', effects, h, hpublished, -⟩
  rw [onStdout_of_classify hs hc] at h
  cases h
  cases hpublished

/-- **A file is taken back when it is compiled again, if its path is understood.** After every run in
which a session has begun and paths are seen from an absolute directory, and for every banner that can
be printed without the sentinel in it: the path of the banner has a URI; the printed line takes the
file with this URI back exactly if what is understood of the banner names a file with the same URI; and
that is so whenever the path has no comma in it. -/
theorem banner_retracts_iff (directory source : String) (root : Option String) (ops : List Operation)
    (hbegun : ∃ op ∈ ops, op.begins = true)
    (hrooted : Path.isRooted (((start directory root source).run ops).1.root.getD
      ((start directory root source).run ops).1.directory) = true)
    (b : Banner) (hb : b.Printable)
    (hprompt : ∀ s ∈ ((start directory root source).run ops).1.sentinel,
      Sentinel.occursIn s.text.toList b.text.toList = false) :
    let a := ((start directory root source).run ops).1
    ∃ u, a.uriOf b.sourcePath = .ok u ∧
      (a.Retracts b.text u ↔ ∃ b', b.understood = some b' ∧ a.uriOf b'.sourcePath = .ok u) ∧
      (',' ∉ b.sourcePath.toList → a.Retracts b.text u) := by
  intro a
  have hsome : a.sentinel.isSome = true := by
    rw [sentinel_run ops (start directory root source), Bool.or_eq_true]
    exact .inr (List.any_eq_true.mpr hbegun)
  obtain ⟨s, hs⟩ := Option.isSome_iff_exists.mp hsome
  have hne : ∀ u ∈ a.index.tracked, a.index.snapshot u ≠ [] :=
    (shows_run ops (start directory root source) [] Shows.start).nonempty
  have hclassify := Sentinel.classify_text hb (hprompt s hs)
  have hok : (a.uriOf b.sourcePath).isOk = true := by
    rw [isOk_uriOf, show Path.isRooted a.base = true from hrooted, Bool.or_true]
  cases hu : a.uriOf b.sourcePath with
  | error e => rw [hu] at hok; cases hok
  | ok u =>
    have hiff : a.Retracts b.text u ↔
        ∃ b', b.understood = some b' ∧ a.uriOf b'.sourcePath = .ok u := by
      cases hb' : b.understood with
      | none =>
        rw [hb'] at hclassify
        exact iff_of_false (not_retracts_plain hs hclassify u) (by simp)
      | some b' =>
        rw [hb'] at hclassify
        rw [retracts_banner_iff hne hs hclassify u]
        simp
    exact ⟨u, rfl, hiff, fun hcomma => hiff.mpr ⟨b, Banner.understood_of_not_mem hcomma, hu⟩⟩

theorem isBlank_of_all {name : List Char} (h : name.all (!Text.isBlank ·) = true) :
    ∀ c ∈ name, Text.isBlank c = false := by
  intro c hc
  simpa using List.all_eq_true.mp h c hc

/-- A session begins, and the compiler reports on a file. -/
def oneReport (path : String) : List Operation :=
  [.beginSession "p>", .handle (.report ⟨⟨path, 1, 1, 1, 2⟩, none, "SevError", "not in scope"⟩)]

/-- A file with blanks and brackets in its name is taken back, whichever way its path goes. -/
theorem banner_retracts_iff_detour :
    let b : Banner := ⟨2, 12, "Data.Thing(", "lib/../a b (old)/./Thing.hs"⟩
    let a := ((start "/w" none "ghci").run (oneReport "a b (old)/Thing.hs")).1
    a.index.tracked = ["file:///w/a%20b%20%28old%29/Thing.hs"] ∧
      a.Retracts b.text "file:///w/a%20b%20%28old%29/Thing.hs" := by
  intro b a
  have hb : b.Printable :=
    ⟨by decide, by decide, by decide, isBlank_of_all (by decide), by decide⟩
  have hprompt : ∀ s ∈ a.sentinel, Sentinel.occursIn s.text.toList b.text.toList = false := by
    decide +kernel
  obtain ⟨u, hu, -, hretracts⟩ := banner_retracts_iff "/w" "ghci" none
    (oneReport "a b (old)/Thing.hs") ⟨_, List.mem_cons_self, by decide⟩ (by decide +kernel) b hb hprompt
  have huri : a.uriOf b.sourcePath = .ok "file:///w/a%20b%20%28old%29/Thing.hs" := by decide +kernel
  obtain rfl : u = "file:///w/a%20b%20%28old%29/Thing.hs" := Except.ok.inj (hu.symm.trans huri)
  exact ⟨by decide +kernel, hretracts (by decide)⟩

/-- **Diagnostics can survive that their file is compiled again**, if there is a comma in its name. -/
theorem diagnostics_can_survive :
    let b : Banner := ⟨1, 1, "Main", "a,b.hs"⟩
    let a := ((start "/w" none "ghci").run (oneReport "a,b.hs")).1
    b.Printable ∧ (∀ s ∈ a.sentinel, Sentinel.occursIn s.text.toList b.text.toList = false) ∧
      a.uriOf b.sourcePath = .ok "file:///w/a%2Cb.hs" ∧ ¬ a.Retracts b.text "file:///w/a%2Cb.hs" ∧
      ∃ a' effects, a.onStdout b.text = .ok (a', effects) ∧
        a'.index.snapshot "file:///w/a%2Cb.hs" ≠ [] := by
  intro b a
  have hsentinel : a.sentinel = some ⟨"p>", by decide⟩ := by decide +kernel
  have hclassify : Sentinel.classify ⟨"p>", by decide⟩ b.text = .ok (.plain b.text) := by
    decide +kernel
  have hb : b.Printable :=
    ⟨by decide, by decide, by decide, isBlank_of_all (by decide), by decide⟩
  exact ⟨hb, by decide +kernel, by decide +kernel, not_retracts_plain hsentinel hclassify _, a, _,
    onStdout_of_classify hsentinel hclassify, by decide +kernel⟩

end Aggregator

end GhciRelay
