import GhciRelay.Proofs.Telling

/-!
# The log of commands

Every command that is written to a process is logged in the same move, and nothing else is logged like
a command. So along every run, whatever tasks and processes do, the commands in the editor's log are
the lines that were written to all processes, in order (`commands_logged_as_written`).

Reloading is the one command that the editor asks for itself. It is all or nothing: with a live
process the command is written, logged and shown, and the interpreter counts as busy; without one
nothing changes, and a line in the log says so.
-/

namespace GhciRelay

/-! ### Lines and commands -/

namespace Effect

/-- The lines that are written to processes, as bytes, in order. -/
def inputLines (effects : List Effect) : List (List UInt8) :=
  effects.filterMap fun
    | .write _ text => some (Text.Utf8.encode text.toList)
    | _ => none

/-- The commands that are logged, in order. -/
def loggedCommands (effects : List Effect) : List String :=
  (calls effects).filterMap Editor.Call.command?

/-- A command as the line that is written. -/
def lineOf (command : String) : List UInt8 := Text.Utf8.encode command.toList ++ [10]

/-- **The log agrees with what is written.** -/
def Matched (effects : List Effect) : Prop :=
  inputLines effects = (loggedCommands effects).map lineOf

theorem Matched.append {e₁ e₂ : List Effect} (h₁ : Matched e₁) (h₂ : Matched e₂) :
    Matched (e₁ ++ e₂) := by
  unfold Matched inputLines loggedCommands calls at *
  rw [List.filterMap_append, h₁, h₂, List.filterMap_append, List.filterMap_append, List.map_append]

theorem inputLines_of_hushed {effects : List Effect} (h : ∀ e ∈ effects, e.isHushed = true) :
    inputLines effects = [] := by
  refine List.filterMap_eq_nil_iff.mpr fun e he => ?_
  cases e with
  | write pid text => exact absurd (h _ he) (by simp [isHushed])
  | _ => rfl

theorem loggedCommands_of_hushed {effects : List Effect} (h : ∀ e ∈ effects, e.isHushed = true) :
    loggedCommands effects = [] := by
  refine List.filterMap_eq_nil_iff.mpr fun c hc => ?_
  obtain ⟨e, he, hec⟩ := List.mem_filterMap.mp hc
  cases e with
  | tell call =>
    cases hec
    exact Option.isNone_iff_eq_none.mp (h _ he)
  | _ => cases hec

theorem matched_of_hushed {effects : List Effect} (h : ∀ e ∈ effects, e.isHushed = true) :
    Matched effects := by
  rw [Matched, inputLines_of_hushed h, loggedCommands_of_hushed h]
  rfl

end Effect

namespace Server

variable {clock : Nat → Int}

theorem inputLines_sending (pid : Nat) (command : String) :
    Effect.inputLines (sending pid command) = [Effect.lineOf command] := by
  have hline : Text.Utf8.encode (command ++ "\n").toList = Effect.lineOf command := by
    rw [String.toList_append, Text.Utf8.encode, List.flatMap_append]
    rfl
  simp only [sending, Effect.inputLines, List.filterMap_cons, List.filterMap_nil, hline]

theorem loggedCommands_sending (pid : Nat) (command : String) :
    Effect.loggedCommands (sending pid command) = [command] := by
  have hcalls : Effect.calls (sending pid command) =
      [.log (Editor.commandMark ++ command), .status ("Running " ++ command)] := rfl
  rw [Effect.loggedCommands, hcalls, List.filterMap_cons_some (Editor.command?_log command)]
  rfl

theorem matched_sending (pid : Nat) (command : String) : Effect.Matched (sending pid command) := by
  rw [Effect.Matched, inputLines_sending, loggedCommands_sending]
  rfl

/-- **One move** logs the commands that it writes. -/
theorem matched_step {s : Server} {m : Move} {t : Turn} (h : s.step clock m = some t) :
    Effect.Matched t.2 := by
  cases step_tells h with
  | plain _ plain =>
    exact Effect.matched_of_hushed fun e he => Effect.isHushed_of_isPlain (plain.plain e he)
  | sent _ front pid command _ plain effects =>
    rw [effects]
    refine .append ?_ (matched_sending pid command)
    exact Effect.matched_of_hushed fun e he => Effect.isHushed_of_isPlain (plain e he)
  | retracted _ _ hushed => exact Effect.matched_of_hushed hushed
  | pumped pid c =>
    exact Effect.matched_of_hushed fun e he => (ofOutput_pump s pid c e he).isHushed

/-- **A run** logs the commands that it writes. -/
theorem matched_run {s : Server} {moves : List Move} {t : Turn} (h : s.run clock moves = some t) :
    Effect.Matched t.2 := by
  have hnil : Effect.Matched [] := rfl
  have hrun := run_history (P := fun _ before => Effect.Matched before)
    (fun _ _ _ _ hb h => hb.append (matched_step h)) moves hnil h
  exact hrun

/-! ### Reloading -/

theorem send_of_isAlive {s : Server} (hf : s.Staffed) {pid : Nat} (hc : s.current = some pid)
    (ha : s.IsAlive pid) (command : String) : s.send command = .ok (s.busied, sending pid command) := by
  obtain ⟨x, hx, hr⟩ := ha
  cases h : s.send command with
  | error e => rw [send_error h hc hx] at hr; cases hr
  | ok t =>
    obtain ⟨pid', x', q, hc', hx', -, hq, rfl⟩ := send_sending h
    rw [hc] at hc'
    cases hc'
    rw [hf.number pid x' hx'] at hq
    cases hq
    rfl

theorem send_of_not_isAlive {s : Server} (hd : ∀ pid, s.current = some pid → ¬ s.IsAlive pid)
    (command : String) : s.send command = .error (.notRunning command) := by
  cases h : s.send command with
  | error e => rw [send_refusal h]
  | ok t =>
    obtain ⟨pid, x, q, hc, hx, hr, -⟩ := send_sending h
    exact absurd ⟨x, hx, hr⟩ (hd pid hc)

/-- What is said when there is nothing to reload. -/
def skipped : List Effect :=
  [.note ⟨.warning, origin, "event=reload_skipped reason=GHCi is not running: :reload"⟩,
    say "GHCi is not running: :reload. Restart GHCi to resume."]

theorem reload_of_not_isAlive {s : Server} (hd : ∀ pid, s.current = some pid → ¬ s.IsAlive pid) :
    s.reload = (s, skipped) := by
  rw [reload, send_of_not_isAlive hd]
  rfl

theorem reload_of_isAlive {s : Server} (hf : s.Staffed) {pid : Nat} (hc : s.current = some pid)
    (ha : s.IsAlive pid) : s.reload = (s.busied, sending pid reloadCommand) := by
  rw [reload, send_of_isAlive hf hc ha]

/-- **A saved file** is logged, and then the interpreter reloads. -/
theorem saved_reloads {s : Server} (hf : s.Staffed) (uri : String) :
    (s.saved uri).2 = say ("Saved " ++ uri ++ ".") :: s.reload.2 ∧
      (s.saved uri).1.aggregator = s.reload.1.aggregator := by
  have hf' : s.number.1.Staffed := ⟨hf.number, hf.current, hf.resuming⟩
  unfold saved
  by_cases hd : ∃ pid, s.current = some pid ∧ s.IsAlive pid
  · obtain ⟨pid, hc, ha⟩ := hd
    have hr : s.number.1.reload = (s.number.1.busied, sending pid reloadCommand) :=
      reload_of_isAlive hf' hc ha
    rw [reload_of_isAlive hf hc ha]
    dsimp only
    rw [hr]
    exact ⟨rfl, rfl⟩
  · have hd' : ∀ pid, s.current = some pid → ¬ s.IsAlive pid := fun pid hc ha => hd ⟨pid, hc, ha⟩
    have hr : s.number.1.reload = (s.number.1, skipped) := reload_of_not_isAlive hd'
    rw [reload_of_not_isAlive hd']
    dsimp only
    rw [hr]
    exact ⟨rfl, rfl⟩

/-- **Commands are neither lost nor invented.** In every run:

* the commands that the editor's log shows are, in order, the lines that were written to all processes,
  each as UTF-8 with a line feed;
* with a live current process reloading writes its command to that process, logs it, shows it as status
  and makes the interpreter busy, and changes nothing else;
* without one the command is refused, nothing changes, and the only call to the editor is one line in the
  log;
* a file can be saved at any moment: that is logged, the interpreter reloads, and the task is done. -/
theorem commands_logged_as_written (clock : Nat → Int) (settings : Settings)
    (workspace : Option String) (directory : String) {moves : List Move} {s : Server}
    {effects : List Effect}
    (h : (start settings workspace directory).run clock moves = some (s, effects)) :
    Effect.inputLines effects =
      (Effect.loggedCommands effects).map (fun c => Text.Utf8.encode c.toList ++ [10]) ∧
    (∀ pid, s.current = some pid → s.IsAlive pid →
      s.reload = ({ s with aggregator := { s.aggregator with activity := .busy } },
        [.write pid ":reload\n", .tell (.log "[stdin] :reload"),
          .tell (.status "Running :reload")])) ∧
    ((∀ pid, s.current = some pid → ¬ s.IsAlive pid) →
      s.reload = (s,
        [.note ⟨.warning, "lsp.server", "event=reload_skipped reason=GHCi is not running: :reload"⟩,
          .tell (.log "GHCi is not running: :reload. Restart GHCi to resume.")]) ∧
      s.send ":reload" = .error (.notRunning ":reload")) ∧
    ∀ uri, ∃ s', s.step clock (.save uri) = some (s', say ("Saved " ++ uri ++ ".") :: s.reload.2) ∧
      s'.aggregator = s.reload.1.aggregator ∧ s'.outcomes = s.outcomes ++ [(s.tasks, .done)] := by
  have hf : s.Staffed := run_induction moves (fun _ _ _ _ hs h => staffed_step hs h)
    (staffed_start settings workspace directory) h
  refine ⟨matched_run h, fun pid hc ha => reload_of_isAlive hf hc ha, fun hd =>
    ⟨reload_of_not_isAlive hd, send_of_not_isAlive hd _⟩, fun uri => ?_⟩
  obtain ⟨heffects, haggregator⟩ := saved_reloads hf uri
  refine ⟨(s.saved uri).1, ?_, haggregator, outcomes_saved s uri⟩
  rw [← heffects]
  rfl

/-- A file is saved while the interpreter runs. -/
def savedWhileRunning : List Move :=
  [.request (.start (some "ghci")), .grant, .spawned 1, .resume, .save "file:///A"]

/-- The file is saved again after the process has exited: now there is nothing to reload. -/
theorem commands_logged_as_written_saved : ∃ s effects s' more,
    untouched.run (fun _ => 0) savedWhileRunning = some (s, effects) ∧
      (Effect.loggedCommands effects).getLast? = some ":reload" ∧
      Effect.inputLines effects = (Effect.loggedCommands effects).map Effect.lineOf ∧
      s.current = some 1 ∧ s.IsAlive 1 ∧ s.reload = (s.busied, sending 1 ":reload") ∧
      untouched.run (fun _ => 0) (savedWhileRunning ++ [.exit 1 1]) = some (s', more) ∧
      s'.current = some 1 ∧ ¬ s'.IsAlive 1 ∧ s'.reload = (s', skipped) := by
  have halive : (untouched.run (fun _ => 0) savedWhileRunning).map (fun t =>
      ((Effect.loggedCommands t.2).getLast?, t.1.current,
        (t.1.sessionOf 1).map (·.isRunning))) = some (some ":reload", some 1, some true) := by
    decide +kernel
  have hdead : (untouched.run (fun _ => 0) (savedWhileRunning ++ [.exit 1 1])).map (fun t =>
      (t.1.current, (t.1.sessionOf 1).map (·.isRunning))) = some (some 1, some false) := by
    decide +kernel
  obtain ⟨⟨s, effects⟩, h, he⟩ := Option.map_eq_some_iff.mp halive
  obtain ⟨⟨s', more⟩, h', he'⟩ := Option.map_eq_some_iff.mp hdead
  obtain ⟨hlast, he⟩ := Prod.mk.inj he
  obtain ⟨hc, hr⟩ := Prod.mk.inj he
  obtain ⟨hc', hr'⟩ := Prod.mk.inj he'
  have ha : s.IsAlive 1 := Option.map_eq_some_iff.mp hr
  have hd : ¬ s'.IsAlive 1 := by
    rintro ⟨x, hx, hx'⟩
    rw [show s'.sessionOf 1 = some x from hx, Option.map_some, hx'] at hr'
    cases hr'
  obtain ⟨hlines, hreload, -⟩ := commands_logged_as_written (fun _ => 0) _ _ _ h
  obtain ⟨-, -, hskipped, -⟩ := commands_logged_as_written (fun _ => 0) _ _ _ h'
  have hnone : ∀ pid, s'.current = some pid → ¬ s'.IsAlive pid := by
    intro pid hpid
    rw [show s'.current = some 1 from hc'] at hpid
    cases hpid
    exact hd
  exact ⟨s, effects, s', more, h, hlast, hlines, hc, ha, hreload 1 hc ha, h', hc', hd,
    (hskipped hnone).1⟩

end Server

end GhciRelay
