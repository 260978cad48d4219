import GhciRelay.Config.LaunchCommand
import GhciRelay.Proofs.StructuredBanner

/-!
# The launch command can be run

Whatever the editor answers when it is asked for its settings, there is a command that can be run: it is
not empty and has no blanks at its ends (`resolve_usable`). The editor's command is taken where it gives
one with something in it, and the command of the settings everywhere else; that one can be run because
the settings have been checked when they were taken.

An answer can be of no use in two ways. If it has the shape that is asked for but no command in it, this
is fine; if it does not have the shape, this is noted. `Configures` and `IllShaped` say both of the
answer itself.
-/

namespace GhciRelay

/-! ### Trimmed texts -/

namespace Text

/-- **A text without its ends** in a class: what was cut off on both sides belongs to the class, and what
is left neither begins nor ends with a character of it. -/
structure Trimmed (p : Char → Bool) (s core : List Char) : Prop where
  cut : ∃ front back, s = front ++ core ++ back ∧ (∀ c ∈ front, p c = true) ∧ ∀ c ∈ back, p c = true
  first : ∀ c, core.head? = some c → p c = false
  last : ∀ c, core.getLast? = some c → p c = false

theorem head?_dropWhile {p : Char → Bool} {s : List Char} {c : Char}
    (h : (s.dropWhile p).head? = some c) : p c = false := by
  have hnot := List.head?_dropWhile_not p s
  rw [h] at hnot
  exact hnot

theorem trimmed_trim (p : Char → Bool) (s : List Char) : Trimmed p s (trim p s) := by
  obtain ⟨back, hback, hall⟩ := trimEnd_append_rest p (s.dropWhile p)
  have hcut : s = s.takeWhile p ++ trim p s ++ back := by
    rw [List.append_assoc, trim, ← hback, List.takeWhile_append_dropWhile]
  refine ⟨⟨_, back, hcut, List.all_eq_true.mp List.all_takeWhile, hall⟩, fun c hc => ?_, fun c hc => ?_⟩
  · refine head?_dropWhile (s := s) ?_
    rw [hback, List.head?_append, ← trim, hc]
    rfl
  · rw [trim, trimEnd, List.getLast?_reverse] at hc
    exact head?_dropWhile hc

theorem Trimmed.self {p : Char → Bool} {s core : List Char} (h : Trimmed p s core) :
    Trimmed p core core :=
  ⟨⟨[], [], by simp, by simp, by simp⟩, h.first, h.last⟩

theorem Trimmed.eq_nil_iff {p : Char → Bool} {s core : List Char} (h : Trimmed p s core) :
    core = [] ↔ ∀ c ∈ s, p c = true := by
  obtain ⟨front, back, rfl, hfront, hback⟩ := h.cut
  constructor
  · rintro rfl c hc
    rcases List.mem_append.mp hc with hc | hc
    · exact hfront c (by simpa using hc)
    · exact hback c hc
  · intro hall
    cases hcore : core with
    | nil => rfl
    | cons c rest =>
      have hin : p c = true := hall c (by simp [hcore])
      have hout : p c = false := h.first c (by simp [hcore])
      rw [hin] at hout
      cases hout

theorem trimmed_strip (s : String) : Trimmed isBlank s.toList (strip s).toList := by
  rw [strip, String.toList_ofList]
  exact trimmed_trim isBlank s.toList

theorem strip_eq_empty_iff (s : String) : strip s = "" ↔ ∀ c ∈ s.toList, isBlank c = true := by
  rw [← (trimmed_strip s).eq_nil_iff, String.toList_eq_nil_iff]

end Text

open GhciRelay.Text (Trimmed isBlank strip)

/-! ### Members -/

namespace Json

/-- The value is an object. -/
def IsObject (j : Json) : Prop := ∃ members, j = .object members

/-- **What is looked up** is the value that stands under the key. -/
theorem has_iff_lookup {members : List (String × Json)} {key : String} {v : Json} :
    Has members key v ↔ lookup key members = some v := by
  refine ⟨Has.lookup, fun h => ?_⟩
  induction members using List.reverseRecOn with
  | nil => cases h
  | append_singleton members m ih =>
    rw [lookup, List.foldl_append] at h
    by_cases hm : m.1 = key
    · rw [List.foldl_cons, if_pos hm] at h
      cases h
      exact ⟨members, [], by rw [← hm], by simp⟩
    · rw [List.foldl_cons, if_neg hm] at h
      obtain ⟨front, back, rfl, hback⟩ := ih h
      refine ⟨front, back ++ [m], by simp, fun hkey => ?_⟩
      rw [List.map_append, List.mem_append, List.map_singleton, List.mem_singleton] at hkey
      exact hkey.elim hback fun h => hm h.symm

end Json

/-! ### The command of the settings -/

/-- **The settings that are taken** have a command that is not empty and has no blanks at its ends. -/
theorem Settings.command_of_load {sources : Settings.Sources} {settings : Settings}
    (h : Settings.load sources = .ok settings) :
    settings.command ≠ "" ∧ Trimmed isBlank settings.command.toList settings.command.toList := by
  have hcommand : sources.command = .ok settings.command := by
    unfold load at h
    split at h
    · next command level space label hc _ _ _ =>
      cases h
      exact hc
    · cases h
  unfold Sources.command at hcommand
  cases ht : sources.text .command with
  | error e => rw [ht] at hcommand; cases hcommand
  | ok t =>
    rw [ht] at hcommand
    by_cases hblank : strip t = ""
    · simp only [bind, Except.bind, if_pos hblank] at hcommand
      cases hcommand
    · simp only [bind, Except.bind, if_neg hblank] at hcommand
      have hstrip : strip t = settings.command := Except.ok.inj hcommand
      rw [← hstrip]
      exact ⟨hblank, (Text.trimmed_strip t).self⟩

/-! ### The editor's command -/

namespace LaunchCommand

/-- **The editor gives a command**: it is the member `command` of the member `ghci`. -/
inductive Configures (t : String) : Json → Prop
  | object {members inner : List (String × Json)} (inside : Json.Has members "ghci" (.object inner))
    (command : Json.Has inner "command" (.text t)) : Configures t (.object members)

/-- **An answer does not have the shape that is asked for**: it is no object, or its member `ghci` is
none, or the command in there is neither a text nor `null`. -/
inductive IllShaped : Json → Prop
  | answer {raw : Json} (h : ¬ raw.IsObject) : IllShaped raw
  | inside {members : List (String × Json)} {v : Json} (inside : Json.Has members "ghci" v)
    (h : ¬ v.IsObject) : IllShaped (.object members)
  | command {members inner : List (String × Json)} {v : Json}
    (inside : Json.Has members "ghci" (.object inner)) (command : Json.Has inner "command" v)
    (notText : ∀ t, v ≠ .text t) (notNull : v ≠ .null) : IllShaped (.object members)

theorem nonblank?_eq_some_iff {t command : String} : nonblank? t = some command ↔
    command = strip t ∧ ∃ c ∈ t.toList, isBlank c = false := by
  have hblank : ¬ strip t = "" ↔ ∃ c ∈ t.toList, isBlank c = false := by
    rw [Text.strip_eq_empty_iff]
    push Not
    simp
  rw [nonblank?, ← hblank]
  split
  · next h => simp [h]
  · next h => simp [h, eq_comm]

theorem Configures.ofEditor {t : String} {raw : Json} (h : Configures t raw) :
    ofEditor raw = .ok (nonblank? t) := by
  cases h with
  | object inside command =>
    simp only [LaunchCommand.ofEditor, inside.lookup, ofSection, command.lookup]

theorem IllShaped.ofEditor {raw : Json} (h : IllShaped raw) : ∃ p, ofEditor raw = .error p := by
  cases h with
  | answer h =>
    cases raw with
    | object members => exact absurd ⟨members, rfl⟩ h
    | _ => exact ⟨_, rfl⟩
  | @inside members v inside h =>
    simp only [LaunchCommand.ofEditor, inside.lookup]
    cases v with
    | object inner => exact absurd ⟨inner, rfl⟩ h
    | _ => exact ⟨_, rfl⟩
  | @command members inner v inside command notText notNull =>
    simp only [LaunchCommand.ofEditor, inside.lookup, ofSection, command.lookup]
    cases v with
    | text t => exact absurd rfl (notText t)
    | null => exact absurd rfl notNull
    | _ => exact ⟨_, rfl⟩

/-- **What can be read of an answer**, and why. -/
inductive Understood (raw : Json) : Except Problem (Option String) → Prop
  | refused {p : Problem} (h : IllShaped raw) : Understood raw (.error p)
  | configured {t : String} (h : Configures t raw) : Understood raw (.ok (nonblank? t))
  | unset : Understood raw (.ok none)

theorem understood_ofEditor (raw : Json) : Understood raw (ofEditor raw) := by
  unfold ofEditor
  split
  · next members =>
    split
    · exact .unset
    · next v hv =>
      have hinside := Json.has_iff_lookup.mpr hv
      unfold ofSection
      split
      · next inner =>
        split
        · exact .unset
        · exact .unset
        · next t ht => exact .configured (.object hinside (Json.has_iff_lookup.mpr ht))
        · next w hnull htext hw =>
          exact .refused (.command hinside (Json.has_iff_lookup.mpr hw) htext hnull)
      · next hobject => exact .refused (.inside hinside fun ⟨inner, h⟩ => hobject inner h)
  · next hobject => exact .refused (.answer fun ⟨members, h⟩ => hobject members h)

theorem ofEditor_error_iff (raw : Json) : (∃ p, ofEditor raw = .error p) ↔ IllShaped raw := by
  refine ⟨fun ⟨p, h⟩ => ?_, IllShaped.ofEditor⟩
  have hcases := understood_ofEditor raw
  rw [h] at hcases
  cases hcases with
  | refused h => exact h

theorem ofEditor_some_iff (raw : Json) (command : String) : ofEditor raw = .ok (some command) ↔
    ∃ t, Configures t raw ∧ command = strip t ∧ ∃ c ∈ t.toList, isBlank c = false := by
  constructor
  · intro h
    have hcases := understood_ofEditor raw
    rw [h] at hcases
    generalize hread : some command = read at hcases
    cases hcases with
    | @configured t ht => exact ⟨t, ht, nonblank?_eq_some_iff.mp hread.symm⟩
    | unset => cases hread
  · rintro ⟨t, ht, hstrip⟩
    rw [ht.ofEditor, nonblank?_eq_some_iff.mpr hstrip]

/-! ### The command that is run -/

theorem resolve_of_ne_null {raw : Json} (h : raw ≠ .null) (settings : Settings) :
    resolve raw settings = match ofEditor raw with
      | .ok command => (command.getD settings.command, [])
      | .error _ => (settings.command, [invalidNote]) := by
  cases raw with
  | null => exact absurd rfl h
  | _ => rfl

theorem resolve_of_configures {t : String} {raw : Json} (ht : Configures t raw)
    (hsome : ∃ c ∈ t.toList, isBlank c = false) (settings : Settings) :
    resolve raw settings = (strip t, []) := by
  have hnull : raw ≠ .null := by
    rintro rfl
    cases ht
  rw [resolve_of_ne_null hnull, ht.ofEditor, nonblank?_eq_some_iff.mpr ⟨rfl, hsome⟩]
  rfl

theorem resolve_of_not_configures {raw : Json}
    (hno : ¬ ∃ t, Configures t raw ∧ ∃ c ∈ t.toList, isBlank c = false) (settings : Settings) :
    (resolve raw settings).1 = settings.command := by
  by_cases hnull : raw = .null
  · rw [hnull]
    rfl
  · rw [resolve_of_ne_null hnull]
    cases hof : ofEditor raw with
    | error p => rfl
    | ok read =>
      cases read with
      | none => rfl
      | some command =>
        obtain ⟨t, ht, -, hsome⟩ := (ofEditor_some_iff raw command).mp hof
        exact absurd ⟨t, ht, hsome⟩ hno

theorem notes_of_illShaped {raw : Json} (hnull : raw ≠ .null) (h : IllShaped raw)
    (settings : Settings) : (resolve raw settings).2 = [invalidNote] := by
  obtain ⟨p, hp⟩ := h.ofEditor
  rw [resolve_of_ne_null hnull, hp]

theorem notes_of_not_illShaped {raw : Json} (h : ¬ (raw ≠ .null ∧ IllShaped raw))
    (settings : Settings) : (resolve raw settings).2 = [] := by
  by_cases hnull : raw = .null
  · rw [hnull]
    rfl
  · rw [resolve_of_ne_null hnull]
    cases hof : ofEditor raw with
    | error p => exact absurd ⟨hnull, (ofEditor_error_iff raw).mp ⟨p, hof⟩⟩ h
    | ok read => rfl

/-- The command that is run is not empty and has no blanks at its ends, if that of the settings is so. -/
theorem resolve_trimmed {settings : Settings} (hne : settings.command ≠ "")
    (htrimmed : Trimmed isBlank settings.command.toList settings.command.toList) (raw : Json) :
    (resolve raw settings).1 ≠ "" ∧
      Trimmed isBlank (resolve raw settings).1.toList (resolve raw settings).1.toList := by
  by_cases hconfigures : ∃ t, Configures t raw ∧ ∃ c ∈ t.toList, isBlank c = false
  · obtain ⟨t, ht, hsome⟩ := hconfigures
    rw [resolve_of_configures ht hsome]
    refine ⟨fun hempty => ?_, (Text.trimmed_strip t).self⟩
    obtain ⟨c, hc, hblank⟩ := hsome
    rw [(Text.strip_eq_empty_iff t).mp hempty c hc] at hblank
    cases hblank
  · rw [resolve_of_not_configures hconfigures]
    exact ⟨hne, htrimmed⟩

/-- **There is always a command that can be run.** If the settings have been taken, then for every answer
of the editor

* the command is not empty and has no blanks at its ends;
* it is the editor's command without blanks at its ends, if the editor gives one in which something is
  not blank, and the command of the settings in every other case;
* a warning is noted, and one only, if the answer is not `null` and does not have the shape that is
  asked for; otherwise nothing is noted. -/
theorem resolve_usable {sources : Settings.Sources} {settings : Settings}
    (h : Settings.load sources = .ok settings) (raw : Json) :
    let command := (resolve raw settings).1
    let notes := (resolve raw settings).2
    command ≠ "" ∧ Trimmed isBlank command.toList command.toList ∧
      (∀ t, Configures t raw → (∃ c ∈ t.toList, isBlank c = false) →
        command = strip t ∧ Trimmed isBlank t.toList command.toList) ∧
      ((¬ ∃ t, Configures t raw ∧ ∃ c ∈ t.toList, isBlank c = false) → command = settings.command) ∧
      (raw ≠ .null ∧ IllShaped raw →
        notes = [⟨.warning, "config", "event=workspace_config_invalid errors=1"⟩]) ∧
      (¬ (raw ≠ .null ∧ IllShaped raw) → notes = []) := by
  intro command notes
  obtain ⟨hne, htrimmed⟩ := Settings.command_of_load h
  obtain ⟨hne', htrimmed'⟩ := resolve_trimmed hne htrimmed raw
  refine ⟨hne', htrimmed', fun t ht hsome => ?_, fun hno => resolve_of_not_configures hno settings,
    fun hill => notes_of_illShaped hill.1 hill.2 settings, fun h => notes_of_not_illShaped h settings⟩
  have hcommand : command = strip t := congrArg Prod.fst (resolve_of_configures ht hsome settings)
  exact ⟨hcommand, hcommand ▸ Text.trimmed_strip t⟩

/-- Blanks beyond ASCII do not count, and a member that is `null` is no section. -/
theorem resolve_usable_blanks :
    let settings : Settings := ⟨"stack ghci", .info, "ghci-bridge", "GHCi Bridge"⟩
    let given : Json := .object [("ghci", .object [("command", .text "\u2003cabal repl\x1f")])]
    let bad : Json := .object [("ghci", .null)]
    Settings.load ⟨[], [("Ghci_Bridge_Ghci_Command", " stack ghci\t")], none⟩ = .ok settings ∧
      Configures "\u2003cabal repl\x1f" given ∧ (resolve given settings).1 = "cabal repl" ∧
      (resolve given settings).2 = [] ∧ IllShaped bad ∧ (resolve bad settings).1 = "stack ghci" ∧
      (resolve bad settings).2 =
        [⟨.warning, "config", "event=workspace_config_invalid errors=1"⟩] := by
  intro settings given bad
  have hload : Settings.load ⟨[], [("Ghci_Bridge_Ghci_Command", " stack ghci\t")], none⟩ =
      .ok settings := by decide +kernel
  have hgiven : Configures "\u2003cabal repl\x1f" given :=
    .object ⟨[], [], rfl, by simp⟩ ⟨[], [], rfl, by simp⟩
  have hbad : IllShaped bad := .inside ⟨[], [], rfl, by simp⟩ fun ⟨_, h⟩ => nomatch h
  have hsome : ∃ c ∈ "\u2003cabal repl\x1f".toList, isBlank c = false := ⟨'c', by decide⟩
  have hstrip : strip "\u2003cabal repl\x1f" = "cabal repl" := by decide +kernel
  have hwell : ¬ (given ≠ .null ∧ IllShaped given) := by
    rintro ⟨-, hill⟩
    obtain ⟨p, hp⟩ := hill.ofEditor
    rw [hgiven.ofEditor] at hp
    cases hp
  have hnone : ¬ ∃ t, Configures t bad ∧ ∃ c ∈ t.toList, isBlank c = false := by
    rintro ⟨t, ht, -⟩
    obtain ⟨p, hp⟩ := hbad.ofEditor
    rw [ht.ofEditor] at hp
    cases hp
  obtain ⟨-, -, htaken, -, -, hquiet⟩ := resolve_usable hload given
  obtain ⟨-, -, -, hown, hwarned, -⟩ := resolve_usable hload bad
  exact ⟨hload, hgiven, (htaken _ hgiven hsome).1.trans hstrip, hquiet hwell, hbad, hown hnone,
    hwarned ⟨nofun, hbad⟩⟩

end LaunchCommand

end GhciRelay
