import GhciRelay.Proofs.Succession

/-!
# What a restart shuts out

A restart takes back all diagnostics once the old session has ended, or once its task has given that
session up. From then on the old session should change nothing: neither the diagnostics, nor whether
the interpreter counts as busy, nor what the editor was told to show. Then the process of the session
is *isolated*.

It is so exactly if its output has ended by then and what is left unread of it does no harm
(`isolated_iff_output_ended`). A session that ended has nothing left, so every restart that waits for
the end isolates it. A session that was given up may still have its output open, and then a late line
can change the diagnostics, whatever has happened by then.
-/

namespace GhciRelay.Server

variable {clock : Nat → Int}

/-! ### The moment of the restart -/

/-- The task that stops a session is a restart. -/
def stopsForRestart (s : Server) : Bool :=
  match s.holder with
  | some (t, .stopping _) => t.job = .restart
  | _ => false

/-- **A move takes back all diagnostics for a restart**: the task gets the lock when there is no
session to stop, its session has ended, or it gives its session up. -/
def retracts (s : Server) : Move → Bool
  | .grant => s.current.isNone && s.queue.head?.any (·.job = .restart)
  | .stopped => s.stopsForRestart
  | .expired => s.stopsForRestart
  | _ => false

theorem index_proceed (s : Server) {t : Task} (ht : t.job = .restart) :
    (s.proceed clock t).1.aggregator.index = s.aggregator.index.clearAll.prune := by
  have hl : t.job.launch? = some none := by rw [ht]; rfl
  simp only [proceed, if_pos ht, hl, launch]
  split <;> rfl

/-- What a restart leaves: no diagnostics, no current session, and a task that minds no process. -/
structure Retracted (s s' : Server) : Prop where
  index : s'.aggregator.index = s.aggregator.index.clearAll.prune
  current : s'.current = none
  free : Free s.aggregator.sentinel s'

theorem retracted_proceed {s : Server} {t : Task} (ht : t.job = .restart) (hc : s.current = none) :
    Retracted s (s.proceed clock t).1 :=
  have hp := proceeds_proceed clock s t
  ⟨index_proceed s ht, hp.current.trans hc, hp.free⟩

theorem step_retracts {s : Server} (hs : s.Orderly) {m : Move} {t : Turn}
    (h : s.step clock m = some t) (hr : s.retracts m = true) : Retracted s t.1 := by
  cases step_turns h with
  | grant k rest lock queue =>
    simp only [retracts, Bool.and_eq_true, Option.isNone_iff_eq_none, queue] at hr
    have hj : k.job = .restart := by simpa using hr.2
    have hp : Retracted { s with queue := rest } (proceed clock { s with queue := rest } k).1 :=
      retracted_proceed hj hr.1
    rw [acquire_of_none (s := { s with queue := rest }) hr.1]
    exact ⟨hp.index, hp.current, hp.free⟩
  | stopped k pid lock =>
    refine retracted_proceed ?_ (hs.lock (by simp [lock]))
    simpa [retracts, stopsForRestart, lock] using hr
  | expired k pid lock =>
    refine retracted_proceed ?_ (hs.lock (by simp [lock]))
    simpa [retracts, stopsForRestart, lock] using hr
  | _ => cases hr

/-! ### What a channel can still change -/

/-- **Pieces of a channel do no harm** to an aggregator if handing them on changes neither its index
nor its activity and publishes nothing. -/
structure Harmless (c : Channel) (a : Aggregator) (pieces : List Piece) : Prop where
  index : (LineReader.deliverFrom c (listener c) a [] pieces).1.index = a.index
  activity : (LineReader.deliverFrom c (listener c) a [] pieces).1.activity = a.activity
  quiet : Aggregator.publications (LineReader.deliverFrom c (listener c) a [] pieces).2 = []

/-- Nothing comes of pumping a channel of a process: the diagnostics and the activity stay as they
are, and nothing is published. -/
structure Unmoved (s : Server) (pid : Nat) (c : Channel) : Prop where
  index : (s.pump pid c).1.aggregator.index = s.aggregator.index
  activity : (s.pump pid c).1.aggregator.activity = s.aggregator.activity
  quiet : Aggregator.publications (s.pump pid c).2 = []

/-- **A process is isolated** if, whatever happens, nothing ever comes of its output. -/
def Isolated (clock : Nat → Int) (s : Server) (pid : Nat) : Prop :=
  ∀ moves s' effects, s.run clock moves = some (s', effects) → ∀ c, s'.Unmoved pid c

theorem unmoved_iff {s : Server} {pid : Nat} {c : Channel} :
    s.Unmoved pid c ↔ Harmless c s.aggregator (s.taken pid c) := by
  obtain ⟨h₁, h₂⟩ := pump_delivers s pid c
  constructor
  · rintro ⟨hi, ha, hq⟩
    rw [h₁] at hi ha
    rw [h₂] at hq
    exact ⟨hi, ha, hq⟩
  · rintro ⟨hi, ha, hq⟩
    refine ⟨?_, ?_, ?_⟩
    · rw [h₁]; exact hi
    · rw [h₁]; exact ha
    · rw [h₂]; exact hq

theorem harmless_nil (c : Channel) (a : Aggregator) : Harmless c a [] := ⟨rfl, rfl, rfl⟩

theorem deliverFrom_stderr (a : Aggregator) : ∀ (pieces : List Piece) (done : List Effect),
    (LineReader.deliverFrom .stderr (listener .stderr) a done pieces).1 = a ∧
      Aggregator.publications (LineReader.deliverFrom .stderr (listener .stderr) a done pieces).2 =
        Aggregator.publications done.reverse
  | [], _ => ⟨rfl, rfl⟩
  | .tooLong bytes :: pieces, done => by
    obtain ⟨h₁, h₂⟩ := deliverFrom_stderr a pieces (.note (LineReader.tooLongNote .stderr) :: done)
    refine ⟨h₁, h₂.trans ?_⟩
    rw [List.reverse_cons, Aggregator.publications_append]
    exact List.append_nil _
  | .line bytes :: pieces, done => by
    obtain ⟨h₁, h₂⟩ := deliverFrom_stderr a pieces
      ((a.onStderr (LineReader.lineText bytes)).2.reverse ++ done)
    refine ⟨h₁, h₂.trans ?_⟩
    rw [List.reverse_append, List.reverse_reverse, Aggregator.publications_append]
    exact List.append_nil _

theorem harmless_stderr (a : Aggregator) (pieces : List Piece) : Harmless .stderr a pieces := by
  obtain ⟨h₁, h₂⟩ := deliverFrom_stderr a pieces []
  exact ⟨by rw [h₁], by rw [h₁], h₂⟩

/-! ### Output that has ended -/

/-- **The server reads a channel** of a process, and this is its reader. -/
def Reads (s : Server) (pid : Nat) (c : Channel) (r : LineReader) : Prop :=
  ∃ x p, s.sessionOf pid = some x ∧ x.attached = true ∧ x.process = some p ∧ p.reader c = r

section Reads

variable {s : Server} {pid : Nat} {c : Channel} {r : LineReader}

theorem Reads.taken (h : s.Reads pid c r) : s.taken pid c = (r.drain Session.lineLimit).1 := by
  obtain ⟨x, p, hx, ha, hp, rfl⟩ := h
  simp only [Server.taken, hx, Session.takes, hp, ha, if_true]

theorem Reads.isOpen (h : s.Reads pid c r) : s.isOpen pid c = !r.ended := by
  obtain ⟨x, p, hx, -, hp, rfl⟩ := h
  simp only [Server.isOpen, hx, Session.isOpen, hp]

theorem Reads.listening (h : s.Reads pid c r) (hs : s.Orderly) :
    ∃ y, s.aggregator.sentinel = some y := by
  obtain ⟨x, -, hx, -⟩ := h
  exact hs.listening pid x hx

theorem Reads.next {m : Move} {t : Turn} (h : s.Reads pid c r) (hs : s.step clock m = some t) :
    t.1.Reads pid c (nextReader pid c true r m) := by
  obtain ⟨x, p, hx, ha, hp, rfl⟩ := h
  obtain ⟨p', hp', hr⟩ := reader_deed s m pid hp c
  rw [ha] at hr
  exact ⟨_, p', step_deed hs hx, (later_deed s m pid x).attached ha, hp', hr⟩

theorem Reads.pump (h : s.Reads pid c r) :
    (s.pump pid c).1.Reads pid c (r.drain Session.lineLimit).2 := by
  have hs : s.step (fun _ => 0) (.pump pid c) = some (s.pump pid c) := rfl
  simpa [nextReader] using h.next hs

theorem Reads.write (h : s.Reads pid c r) (chunk : List UInt8) :
    (s.onProcess pid fun p => p.write c chunk).1.Reads pid c (r.arrive chunk) := by
  have hs : s.step (fun _ => 0) (.write pid c chunk) =
      some (s.onProcess pid fun p => p.write c chunk) := rfl
  simpa [nextReader] using h.next hs

end Reads

theorem nextReader_of_ended {r : LineReader} (he : r.ended = true) {m : Move} {pid : Nat}
    {c : Channel} (hm : m ≠ .pump pid c) : nextReader pid c true r m = r := by
  obtain ⟨buffer, ended⟩ := r
  cases he
  cases m with
  | write q d chunk => exact ite_self _
  | close q d => exact ite_self _
  | pump q d => exact if_neg fun hq => hm (by rw [hq.1, hq.2.1])
  | _ => rfl

/-- **Output that has ended** is pumped once: what is unread stays so until then, and then nothing is
left. -/
theorem reads_run {pid : Nat} {c : Channel} : ∀ (moves : List Move) {s : Server} {t : Turn}
    {r : LineReader}, s.Reads pid c r → r.ended = true → s.run clock moves = some t →
      (.pump pid c ∈ moves → t.1.Reads pid c ⟨[], true⟩) ∧
        (.pump pid c ∉ moves → t.1.Reads pid c r)
  | [], s, t, r, hr, _, h => by cases h; exact ⟨fun hm => absurd hm (by simp), fun _ => hr⟩
  | m :: moves, s, t, r, hr, he, h => by
    obtain ⟨t₁, t₂, hs, hrun, rfl⟩ := run_cons.mp h
    by_cases hm : m = .pump pid c
    -- the first pumping takes all that is left, and from then on the reader is empty
    · subst hm
      obtain rfl := Option.some.inj hs
      have h₁ : (s.pump pid c).1.Reads pid c ⟨[], true⟩ := by
        rw [← LineReader.drain_of_ended Session.lineLimit he]
        exact hr.pump
      obtain ⟨hin, hout⟩ := reads_run moves h₁ rfl hrun
      refine ⟨fun _ => ?_, fun hn => absurd (by simp) hn⟩
      exact (Classical.em (.pump pid c ∈ moves)).elim hin hout
    · have h₁ : t₁.1.Reads pid c r := by
        have hnext := hr.next hs
        rwa [nextReader_of_ended he hm] at hnext
      obtain ⟨hin, hout⟩ := reads_run moves h₁ he hrun
      refine ⟨fun hi => hin ?_, fun hn => hout fun hi => hn (by simp [hi])⟩
      exact (List.mem_cons.mp hi).resolve_left (Ne.symm hm)

/-! ### Output that is open -/

/-- A message that reports on a file, on one line. -/
def lateReport : String :=
  "\x7b\"span\":\x7b\"file\":\"/A\",\"startLine\":1,\"startCol\":1,\"endLine\":1,\"endCol\":1\x7d\x7d"

/-- A message that the compiler begins with the same file, on one line. -/
def lateBanner : String :=
  "\x7b\"severity\":\"SevOutput\",\"doc\":\"[1 of 1] Compiling A ( /A, x )\"\x7d"

/-- The bytes are one line, and this is its text. -/
structure IsLine (bytes : List UInt8) (line : String) : Prop where
  single : 10 ∉ bytes
  short : bytes.length ≤ Session.lineLimit
  text : LineReader.lineText (bytes ++ [10]) = line

theorem isLine_lateReport : IsLine (Text.Utf8.encode lateReport.toList) lateReport :=
  ⟨by decide +kernel, by decide +kernel, by decide +kernel⟩

theorem isLine_lateBanner : IsLine (Text.Utf8.encode lateBanner.toList) lateBanner :=
  ⟨by decide +kernel, by decide +kernel, by decide +kernel⟩

theorem uriOf_slash (a : Aggregator) : a.uriOf "/A" = .ok "file:///A" := by
  have hj : Path.join (a.root.getD a.directory).toList "/A".toList = Path.join [] "/A".toList := by
    simp [Path.join]
  have hu : FileUri.ofPath? "" "/A" = some "file:///A" := by decide +kernel
  have hu' : FileUri.ofPath? (a.root.getD a.directory) "/A" = some "file:///A" := by
    rw [← hu, FileUri.ofPath?, hj]
    rfl
  rw [Aggregator.uriOf, hu']

theorem onStdout_lateReport {a : Aggregator} {y : Sentinel} (hy : a.sentinel = some y) :
    ∃ k d, a.onStdout lateReport =
      .ok { a with index := a.index.upsert "file:///A" k d }.republish := by
  have hm : Message.ofLine? (Text.trimEnd Text.isLineEnd lateReport.toList) =
      some ⟨some ⟨"/A", 1, 1, 1, 1⟩, none, "", ""⟩ := by decide +kernel
  have hc : y.classify lateReport = .ok (.report ⟨⟨"/A", 1, 1, 1, 1⟩, none, "", ""⟩) := by
    simp only [Sentinel.classify, hm]
    rfl
  rw [Aggregator.onStdout_of_classify hy hc]
  simp only [Aggregator.handle, Aggregator.handleReport, uriOf_slash]
  exact ⟨_, _, rfl⟩

theorem onStdout_lateBanner {a : Aggregator} {y : Sentinel} (hy : a.sentinel = some y) :
    ∃ effects, a.onStdout lateBanner =
      .ok ({ a with index := (a.index.clear "file:///A").prune }, effects) := by
  have hm : Message.ofLine? (Text.trimEnd Text.isLineEnd lateBanner.toList) =
      some ⟨none, none, "SevOutput", "[1 of 1] Compiling A ( /A, x )"⟩ := by decide +kernel
  have hb : Banner.read "[1 of 1] Compiling A ( /A, x )".toList = .ok (some ⟨1, 1, "A", "/A"⟩) := by
    decide +kernel
  have hc : y.classify lateBanner = .ok (.compiling ⟨1, 1, "A", "/A"⟩) := by
    simp only [Sentinel.classify, hm, Sentinel.classifyMessage, hb]
    rfl
  rw [Aggregator.onStdout_of_classify hy hc]
  simp only [Aggregator.handle, Aggregator.handleBanner, uriOf_slash]
  exact ⟨_, rfl⟩

/-- **There is always a line that changes the diagnostics**: a report on a file that is not tracked,
or the banner of one that is. -/
theorem exists_line_changes {a : Aggregator} {y : Sentinel} (hy : a.sentinel = some y) :
    ∃ bytes line result, IsLine bytes line ∧ a.onStdout line = .ok result ∧
      result.1.index ≠ a.index := by
  by_cases hu : "file:///A" ∈ a.index.tracked
  · obtain ⟨effects, h⟩ := onStdout_lateBanner hy
    refine ⟨_, _, _, isLine_lateBanner, h, fun he => ?_⟩
    rw [← he] at hu
    have hn := (Index.mem_tracked_prune _).mp hu
    exact hn.2 (by rw [Index.snapshot_clear, if_pos rfl])
  · obtain ⟨k, d, h⟩ := onStdout_lateReport hy
    refine ⟨_, _, _, isLine_lateReport, h, fun he => hu ?_⟩
    rw [← he]
    exact (Index.mem_tracked_prune _).mpr
      ⟨(Index.mem_tracked_upsert _).mpr (.inl rfl), Index.snapshot_upsert_ne_nil _ _ _ _⟩

theorem pump_line {s : Server} {pid : Nat} {bytes : List UInt8} {line : String}
    {result : Aggregator × List Effect} (h : s.Reads pid .stdout ⟨bytes ++ [10], false⟩)
    (hl : IsLine bytes line) (ho : s.aggregator.onStdout line = .ok result) :
    (s.pump pid .stdout).1.aggregator = result.1 := by
  rw [(pump_delivers s pid .stdout).1, h.taken, LineReader.drain_line _ hl.single hl.short]
  simp only [LineReader.deliverFrom, LineReader.deliver, listener, hl.text, ho]

theorem aggregator_onProcess (s : Server) (pid : Nat) (f : Process → Process) :
    (s.onProcess pid f).1.aggregator = s.aggregator := by
  rw [onProcess, onSession_frame]

/-- **Open output can still change the diagnostics**: the process ends the line that it has begun, and
prints another one. -/
theorem exists_late_change (clock : Nat → Int) {s : Server} (hs : s.Orderly) {pid : Nat}
    {r : LineReader} (hr : s.Reads pid .stdout r) (he : r.ended = false) :
    ∃ later s' effects, s.run clock later = some (s', effects) ∧
      (s'.pump pid .stdout).1.aggregator.index ≠ s'.aggregator.index := by
  obtain ⟨buffer, ended⟩ := r
  cases he
  -- the line feed makes the reader give up whatever it holds
  obtain ⟨t₁, hs₁, ht₁⟩ : ∃ t₁, s.step clock (.write pid .stdout [10]) = some t₁ ∧
      t₁.1.Reads pid .stdout ⟨buffer ++ [10], false⟩ := ⟨_, rfl, hr.write [10]⟩
  obtain ⟨t₂, hs₂, ht₂⟩ : ∃ t₂, t₁.1.step clock (.pump pid .stdout) = some t₂ ∧
      t₂.1.Reads pid .stdout ⟨[], false⟩ := by
    refine ⟨_, rfl, ?_⟩
    rw [← LineReader.drain_lineFeed Session.lineLimit buffer false]
    exact ht₁.pump
  -- which line changes something depends on the index that is met at this moment
  obtain ⟨y, hy⟩ := ht₂.listening (orderly_step (orderly_step hs hs₁) hs₂)
  obtain ⟨bytes, line, result, hl, ho, hne⟩ := exists_line_changes hy
  obtain ⟨t₃, hs₃, ht₃, ha⟩ : ∃ t₃, t₂.1.step clock (.write pid .stdout (bytes ++ [10])) = some t₃ ∧
      t₃.1.Reads pid .stdout ⟨bytes ++ [10], false⟩ ∧ t₃.1.aggregator = t₂.1.aggregator :=
    ⟨_, rfl, ht₂.write (bytes ++ [10]), aggregator_onProcess _ _ _⟩
  obtain ⟨effects, hrun⟩ : ∃ effects, s.run clock [.write pid .stdout [10], .pump pid .stdout,
      .write pid .stdout (bytes ++ [10])] = some (t₃.1, effects) :=
    ⟨_, run_cons.mpr ⟨_, _, hs₁,
      run_cons.mpr ⟨_, _, hs₂, run_cons.mpr ⟨_, _, hs₃, rfl, rfl⟩, rfl⟩, rfl⟩⟩
  refine ⟨_, t₃.1, effects, hrun, ?_⟩
  rw [pump_line ht₃ hl (by rw [ha]; exact ho), ha]
  exact hne

/-! ### Isolation -/

/-- A process whose output is read is isolated exactly if its output has ended and what is left of it
does no harm, whenever it is handed on. -/
theorem isolated_iff (clock : Nat → Int) {s : Server} (hs : s.Orderly) {pid : Nat} {r : LineReader}
    (hr : s.Reads pid .stdout r) : s.Isolated clock pid ↔ r.ended = true ∧
      ∀ later s' effects, s.run clock later = some (s', effects) → .pump pid .stdout ∉ later →
        Harmless .stdout s'.aggregator (s.taken pid .stdout) := by
  constructor
  · intro hi
    have he : r.ended = true := by
      by_contra hn
      obtain ⟨later, s', effects, hrun, hc⟩ :=
        exists_late_change clock hs hr (by simpa using hn)
      exact hc (hi later s' effects hrun .stdout).index
    refine ⟨he, fun later s' effects hrun hp => ?_⟩
    have hr' := (reads_run later hr he hrun).2 hp
    have hu := unmoved_iff.mp (hi later s' effects hrun .stdout)
    rw [hr'.taken, ← hr.taken] at hu
    exact hu
  · rintro ⟨he, hh⟩ later s' effects hrun c
    refine unmoved_iff.mpr ?_
    cases c with
    | stderr => exact harmless_stderr _ _
    | stdout =>
      obtain ⟨hin, hout⟩ := reads_run later hr he hrun
      by_cases hp : .pump pid .stdout ∈ later
      · rw [(hin hp).taken, LineReader.drain_of_nil _ rfl]
        exact harmless_nil _ _
      · rw [(hout hp).taken, ← hr.taken]
        exact hh later s' effects hrun hp

section Restart

variable {s s' : Server}

theorem Retracted.tracked (h : Retracted s s') : s'.aggregator.index.tracked = [] := by
  rw [List.eq_nil_iff_forall_not_mem]
  intro u hu
  rw [h.index, Index.mem_tracked_prune] at hu
  exact hu.2 (Index.snapshot_clearAll _ u)

theorem Retracted.not_minds (h : Retracted s s') (pid : Nat) : ¬ s'.Minds pid := by
  rintro (hc | ⟨k, hk | ⟨y, hk⟩⟩)
  · rw [h.current] at hc; cases hc
  all_goals
    rcases h.free with ⟨hh, -⟩ | ⟨t, hh, -⟩ | ⟨t, c, d, z, hh, -⟩
    all_goals rw [hh] at hk; cases hk

theorem Retracted.reads (h : Retracted s s') (hs : s'.Orderly) {pid : Nat}
    (hp : pid ∈ s'.sessions.keys) (c : Channel) : ∃ r, s'.Reads pid c r := by
  obtain ⟨x, hx⟩ := mem_keys_iff.mp hp
  obtain ⟨p, hxp⟩ := hs.process pid x hx
  rcases hs.attached pid x hx with ha | ⟨t, y, hh⟩
  · exact ⟨_, x, p, hx, ha, hxp, rfl⟩
  · exact absurd (.inr ⟨t, .inr ⟨y, hh⟩⟩) (h.not_minds pid)

/-- A restart that gave no session up finds every session spent. -/
theorem Retracted.spent (h : Retracted s s') (hs : s'.Orderly) (ha : s'.AllMinded) {pid : Nat}
    (hp : pid ∈ s'.sessions.keys) : s'.Spent pid := by
  obtain ⟨x, hx⟩ := mem_keys_iff.mp hp
  cases hf : x.finished with
  | some code => exact spent_of_finished hs hx hf
  | none => exact absurd (ha pid x hx hf) (h.not_minds pid)

theorem Spent.reads {pid : Nat} {c : Channel} {r : LineReader} (h : s.Spent pid)
    (hr : s.Reads pid c r) : r = ⟨[], true⟩ := by
  obtain ⟨x, p, -, hx, hp, -, hq⟩ := h
  obtain ⟨x', p', hx', -, hp', rfl⟩ := hr
  rw [hx] at hx'
  cases hx'
  rw [hp] at hp'
  cases hp'
  exact hq c

end Restart

/-- **What a restart shuts out.** When a restart has taken back all diagnostics, an earlier process is
isolated exactly if its output has ended and what is left of it does no harm, whenever it is handed
on. As long as its output is open, some run ends with a line of it that changes the diagnostics. If
no session was ever given up, every earlier process is isolated. -/
theorem isolated_iff_output_ended (clock : Nat → Int) (settings : Settings)
    (workspace : Option String) (directory : String) {moves : List Move} {s : Server}
    {effects : List Effect}
    (h : (start settings workspace directory).run clock moves = some (s, effects))
    {m : Move} {s' : Server} {more : List Effect} (hs : s.step clock m = some (s', more))
    (hr : s.retracts m = true) {pid : Nat} (hp : pid ∈ s'.sessions.keys) :
    s'.aggregator.index.tracked = [] ∧
      (s'.Isolated clock pid ↔ s'.isOpen pid .stdout = false ∧
        ∀ later s'' es, s'.run clock later = some (s'', es) → .pump pid .stdout ∉ later →
          Harmless .stdout s''.aggregator (s'.taken pid .stdout)) ∧
      (s'.isOpen pid .stdout = true → ∃ later s'' es, s'.run clock later = some (s'', es) ∧
        (s''.pump pid .stdout).1.aggregator.index ≠ s''.aggregator.index) ∧
      (Move.expired ∉ moves → m ≠ .expired → s'.Isolated clock pid) := by
  have hO : s.Orderly := orderly_run (orderly_start settings workspace directory) h
  have hO' : s'.Orderly := orderly_step hO hs
  have hret : Retracted s s' := step_retracts hO hs hr
  obtain ⟨r, hread⟩ := hret.reads hO' hp .stdout
  have hopen := hread.isOpen
  have hiff := isolated_iff clock hO' hread
  refine ⟨hret.tracked, ?_, fun ho => ?_, fun hm hm' => ?_⟩
  · rw [hiff, hopen, Bool.not_eq_false']
  · exact exists_late_change clock hO' hread (by simpa [hopen] using ho)
  -- nobody minds a process once the task goes on, so every session is finished
  · have ha : s.AllMinded :=
      allMinded_run (orderly_start settings workspace directory) (fun _ _ hx => by cases hx) hm h
    have hspent := hret.spent hO' (allMinded_step hO ha hm' hs) hp
    obtain rfl := hspent.reads hread
    refine hiff.mpr ⟨rfl, fun later s'' es _ _ => ?_⟩
    rw [hread.taken, LineReader.drain_of_nil _ rfl]
    exact harmless_nil _ _

/-- A process exits and leaves its output open; a restart waits for the end of its session. -/
def abandonment : List Move :=
  [.request (.start (some "ghci")), .grant, .spawned 1, .resume, .exit 1 0, .request .restart, .grant]

/-- Once the session has ended its process is isolated; once it has been given up it is not. -/
theorem isolated_iff_output_ended_restarts :
    (∃ s effects s' more, untouched.run (fun _ => 0) (handover.take 15) = some (s, effects) ∧
      s.step (fun _ => 0) .stopped = some (s', more) ∧ s.retracts .stopped = true ∧
      1 ∈ s'.sessions.keys ∧ s'.Isolated (fun _ => 0) 1) ∧
    ∃ s effects s' more, untouched.run (fun _ => 0) abandonment = some (s, effects) ∧
      s.step (fun _ => 0) .expired = some (s', more) ∧ s.retracts .expired = true ∧
      1 ∈ s'.sessions.keys ∧ ¬ s'.Isolated (fun _ => 0) 1 := by
  constructor
  · have hrun : ((untouched.run (fun _ => 0) (handover.take 15)).bind fun t =>
        (t.1.step (fun _ => 0) .stopped).map fun u => (t.1.retracts .stopped, u.1.sessions.keys)) =
          some (true, [1]) := by decide +kernel
    obtain ⟨⟨s, effects⟩, h, hb⟩ := Option.bind_eq_some_iff.mp hrun
    obtain ⟨⟨s', more⟩, hs, he⟩ := Option.map_eq_some_iff.mp hb
    obtain ⟨hr, hk⟩ := Prod.mk.inj he
    have hp : 1 ∈ s'.sessions.keys := by simp [hk]
    obtain ⟨-, -, -, hi⟩ := isolated_iff_output_ended (fun _ => 0) _ _ _ h hs hr hp
    exact ⟨s, effects, s', more, h, hs, hr, hp, hi (by simp [handover]) (by simp)⟩
  · have hrun : ((untouched.run (fun _ => 0) abandonment).bind fun t =>
        (t.1.step (fun _ => 0) .expired).map fun u =>
          (t.1.retracts .expired, u.1.sessions.keys, u.1.isOpen 1 .stdout)) =
            some (true, [1], true) := by decide +kernel
    obtain ⟨⟨s, effects⟩, h, hb⟩ := Option.bind_eq_some_iff.mp hrun
    obtain ⟨⟨s', more⟩, hs, he⟩ := Option.map_eq_some_iff.mp hb
    obtain ⟨hr, he'⟩ := Prod.mk.inj he
    obtain ⟨hk, ho⟩ := Prod.mk.inj he'
    have hp : 1 ∈ s'.sessions.keys := by simp [hk]
    obtain ⟨-, hi, -, -⟩ := isolated_iff_output_ended (fun _ => 0) _ _ _ h hs hr hp
    refine ⟨s, effects, s', more, h, hs, hr, hp, fun hn => ?_⟩
    rw [(hi.mp hn).1] at ho
    cases ho

/-- **A restart does not always isolate**: a process that was given up reports on a file after the
restart, and the file is tracked. -/
theorem not_always_isolated : ¬ ∀ (clock : Nat → Int) (settings : Settings)
    (workspace : Option String) (directory : String) (moves : List Move) (s : Server)
    (effects : List Effect) (m : Move) (s' : Server) (more : List Effect) (pid : Nat),
    (start settings workspace directory).run clock moves = some (s, effects) →
      s.step clock m = some (s', more) → s.retracts m = true → pid ∈ s'.sessions.keys →
        s'.Isolated clock pid := by
  intro hall
  have hrun : ((untouched.run (fun _ => 0) abandonment).bind fun t =>
      (t.1.step (fun _ => 0) .expired).bind fun u =>
        (u.1.run (fun _ => 0)
          [.write 1 .stdout (Text.Utf8.encode lateReport.toList ++ [10])]).map fun v =>
            (t.1.retracts .expired, u.1.sessions.keys, v.1.aggregator.index.tracked,
              (v.1.pump 1 .stdout).1.aggregator.index.tracked)) =
                some (true, [1], [], ["file:///A"]) := by decide +kernel
  obtain ⟨⟨s, effects⟩, h, hb⟩ := Option.bind_eq_some_iff.mp hrun
  obtain ⟨⟨s', more⟩, hs, hb'⟩ := Option.bind_eq_some_iff.mp hb
  obtain ⟨⟨s'', es⟩, hlater, he⟩ := Option.map_eq_some_iff.mp hb'
  obtain ⟨hr, he₁⟩ := Prod.mk.inj he
  obtain ⟨hk, he₂⟩ := Prod.mk.inj he₁
  obtain ⟨hbefore, hafter⟩ := Prod.mk.inj he₂
  have hi := hall _ _ _ _ _ s effects .expired s' more 1 h hs hr (by simp [hk])
  have hsame := (hi _ s'' es hlater .stdout).index
  rw [hsame, hbefore] at hafter
  cases hafter

end GhciRelay.Server
