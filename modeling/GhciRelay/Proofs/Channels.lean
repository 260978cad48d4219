import GhciRelay.Proofs.Outward
import GhciRelay.Proofs.RestartIsolation

/-!
# Two channels, one aggregator

The outputs of a process arrive in chunks, and both are pumped into one aggregator, each whenever its
turn comes. As long as no line is too long, none of that shows in the end: the run comes to the same
as if each output had been read whole (`Drains.reads_whole`). So what is published, the statuses, the
diagnostics, the activity and the log of the output depend on the bytes of the output alone, and the
log of the error output on the bytes of the error output alone (`channels_confluent`).

A channel is followed through a run by its reader (`Reads.next`); the aggregator by what the two
channels hand on to it (`run_output`).
-/

namespace GhciRelay

/-! ### Calls by their channel -/

namespace Editor

/-- The call logs a line of error output. -/
def Call.isErrorLog : Call → Bool
  | .log text => "[stderr] ".toList.isPrefixOf text.toList
  | _ => false

/-- The call logs a line of output. -/
def Call.isOutputLog : Call → Bool
  | .log text => "[stdout] ".toList.isPrefixOf text.toList
  | _ => false

/-- The status that a call sends. -/
def Call.status? : Call → Option String
  | .status text => some text
  | _ => none

end Editor

namespace Effect

theorem calls_append (e₁ e₂ : List Effect) : calls (e₁ ++ e₂) = calls e₁ ++ calls e₂ :=
  List.filterMap_append ..

/-- **The calls that come of the output**: all but the lines of error output that are logged. -/
def outputCalls (effects : List Effect) : List Editor.Call :=
  (calls effects).filter fun c => !c.isErrorLog

/-- **The calls that come of the error output.** -/
def errorCalls (effects : List Effect) : List Editor.Call :=
  (calls effects).filter fun c => c.isErrorLog

/-- The statuses that are sent. -/
def statuses (effects : List Effect) : List String := (calls effects).filterMap Editor.Call.status?

/-- The lines of output that are logged. -/
def outputLogs (effects : List Effect) : List Editor.Call :=
  (calls effects).filter fun c => c.isOutputLog

theorem outputCalls_append (e₁ e₂ : List Effect) :
    outputCalls (e₁ ++ e₂) = outputCalls e₁ ++ outputCalls e₂ := by
  rw [outputCalls, calls_append, List.filter_append]
  rfl

theorem errorCalls_append (e₁ e₂ : List Effect) :
    errorCalls (e₁ ++ e₂) = errorCalls e₁ ++ errorCalls e₂ := by
  rw [errorCalls, calls_append, List.filter_append]
  rfl

theorem publications_outputCalls (effects : List Effect) :
    Aggregator.publications effects =
      (outputCalls effects).filterMap Editor.Call.publication? := by
  rw [outputCalls, List.filterMap_filter]
  refine List.filterMap_congr fun c _ => ?_
  cases c <;> simp [Editor.Call.isErrorLog, Editor.Call.publication?]

theorem statuses_outputCalls (effects : List Effect) :
    statuses effects = (outputCalls effects).filterMap Editor.Call.status? := by
  rw [outputCalls, List.filterMap_filter]
  refine List.filterMap_congr fun c _ => ?_
  cases c <;> simp [Editor.Call.isErrorLog, Editor.Call.status?]

theorem isErrorLog_of_isOutputLog {c : Editor.Call} (h : c.isOutputLog = true) :
    c.isErrorLog = false := by
  cases c with
  | log text =>
    simp only [Editor.Call.isOutputLog, List.isPrefixOf_iff_prefix] at h
    obtain ⟨rest, hr⟩ := h
    simp [Editor.Call.isErrorLog, ← hr, List.isPrefixOf]
  | _ => rfl

theorem outputLogs_outputCalls (effects : List Effect) :
    outputLogs effects = (outputCalls effects).filter fun c => c.isOutputLog := by
  rw [outputCalls, List.filter_filter]
  refine List.filter_congr fun c _ => ?_
  cases h : c.isOutputLog with
  | false => rfl
  | true => simp [isErrorLog_of_isOutputLog h]

end Effect

namespace Aggregator

theorem handle_calls {a : Aggregator} {record : Record} {result : Aggregator × List Effect}
    (h : a.handle record = .ok result) :
    ∀ e ∈ result.2, ∀ c, e.call? = some c → c.isErrorLog = false := by
  have hrepublish : ∀ b : Aggregator, ∀ e ∈ b.republish.2, ∀ c, e.call? = some c →
      c.isErrorLog = false := by
    intro b e he c hc
    obtain ⟨u, -, rfl⟩ := List.mem_map.mp he
    cases hc
    rfl
  have hlog : ∀ line : String, (Editor.Call.log ("[stdout] " ++ line)).isErrorLog = false := by
    intro line
    simp [Editor.Call.isErrorLog, List.isPrefixOf]
  intro e he c hc
  cases record with
  | report r =>
    obtain ⟨u, d, -, -, rfl⟩ := handleReport_ok h
    exact hrepublish _ e he c hc
  | compiling b =>
    obtain ⟨u, n, -, -, h₂⟩ := handleBanner_ok h
    rw [h₂] at he
    rcases List.mem_cons.mp he with rfl | he
    · cases hc
    · exact hrepublish _ e he c hc
  | interactive line => cases h; rw [List.mem_singleton.mp he] at hc; cases hc; exact hlog line
  | prompt line => cases h; rw [List.mem_singleton.mp he] at hc; cases hc; rfl
  | plain line => cases h; rw [List.mem_singleton.mp he] at hc; cases hc; exact hlog line

end Aggregator

namespace Server

open GhciRelay.LineReader (deliverFrom ShortLines)

variable {clock : Nat → Int}

/-! ### What pieces come to -/

/-- **Pieces of the output** are handed on to an aggregator. -/
def consume (a : Aggregator) (pieces : List Piece) : Aggregator × List Effect :=
  deliverFrom .stdout (listener .stdout) a [] pieces

theorem consume_append (a : Aggregator) (ps qs : List Piece) : consume a (ps ++ qs) =
    ((consume (consume a ps).1 qs).1, (consume a ps).2 ++ (consume (consume a ps).1 qs).2) :=
  LineReader.deliverFrom_append .stdout (listener .stdout) ps qs a

/-- **A piece of the error output** is logged if it is a line. -/
def errorLog : Piece → List Editor.Call
  | .line bytes => [.log ("[stderr] " ++ Text.stripLineEnd (LineReader.lineText bytes))]
  | .tooLong _ => []

theorem isErrorLog_errorLog (p : Piece) : ∀ c ∈ errorLog p, c.isErrorLog = true := by
  intro c hc
  cases p with
  | line bytes =>
    rw [List.mem_singleton.mp hc]
    simp [Editor.Call.isErrorLog]
  | tooLong bytes => cases hc

theorem calls_stderr (a : Aggregator) : ∀ pieces : List Piece,
    Effect.calls (deliverFrom .stderr (listener .stderr) a [] pieces).2 = pieces.flatMap errorLog
  | [] => rfl
  | p :: pieces => by
    have hp : (LineReader.deliver .stderr (listener .stderr) a p).1 = a ∧
        Effect.calls (LineReader.deliver .stderr (listener .stderr) a p).2 = errorLog p := by
      cases p <;> exact ⟨rfl, rfl⟩
    simp only [deliverFrom]
    rw [LineReader.deliverFrom_done, hp.1, List.append_nil, List.reverse_reverse,
      Effect.calls_append, hp.2, calls_stderr a pieces, List.flatMap_cons]

theorem calls_consume (a : Aggregator) (pieces : List Piece) :
    ∀ c ∈ Effect.calls (consume a pieces).2, c.isErrorLog = false := by
  intro c hc
  obtain ⟨e, he, hec⟩ := List.mem_filterMap.mp hc
  refine LineReader.deliverFrom_effects .stdout (listener .stdout)
    (P := fun e => ∀ c, e.call? = some c → c.isErrorLog = false) (fun a p e he c hc => ?_) pieces a []
    (by simp) e he c hec
  cases p with
  | tooLong bytes => rw [List.mem_singleton.mp he] at hc; cases hc
  | line bytes =>
    unfold LineReader.deliver at he
    dsimp only at he
    split at he
    · next a' effects h =>
      obtain ⟨record, -, hh⟩ := Aggregator.onStdout_ok h
      exact Aggregator.handle_calls hh e he c hc
    · rw [List.mem_singleton.mp he] at hc
      cases hc

/-! ### The aggregator along a run -/

/-- **What a move of a process comes to** is what its channels hand on with it. -/
theorem step_output {s : Server} {m : Move} {t : Turn} {pid : Nat} (h : s.step clock m = some t)
    (hm : comesFrom pid m = true) :
    t.1.aggregator = (consume s.aggregator (s.delivery pid .stdout m)).1 ∧
      Effect.outputCalls t.2 =
        Effect.calls (consume s.aggregator (s.delivery pid .stdout m)).2 ∧
      Effect.errorCalls t.2 = (s.delivery pid .stderr m).flatMap errorLog := by
  -- a move that hands nothing on and calls nobody
  have hquiet : s.delivery pid .stdout m = [] → s.delivery pid .stderr m = [] →
      ∀ f : Session → Session × List Effect, (∀ x, Effect.calls (f x).2 = []) →
      t = s.onSession pid f →
      t.1.aggregator = (consume s.aggregator (s.delivery pid .stdout m)).1 ∧
        Effect.outputCalls t.2 =
          Effect.calls (consume s.aggregator (s.delivery pid .stdout m)).2 ∧
        Effect.errorCalls t.2 = (s.delivery pid .stderr m).flatMap errorLog := by
    rintro h₁ h₂ f hf rfl
    have hc : Effect.calls (s.onSession pid f).2 = [] := by
      unfold onSession
      split
      · rfl
      · exact hf _
    rw [h₁, h₂, onSession_frame, Effect.outputCalls, Effect.errorCalls, hc]
    exact ⟨rfl, rfl, rfl⟩
  cases step_turns h with
  | write q c chunk =>
    obtain rfl : q = pid := of_decide_eq_true hm
    exact hquiet rfl rfl _ (fun _ => rfl) rfl
  | close q c =>
    obtain rfl : q = pid := of_decide_eq_true hm
    exact hquiet rfl rfl _ (fun _ => rfl) rfl
  | exit q code =>
    obtain rfl : q = pid := of_decide_eq_true hm
    exact hquiet rfl rfl _ (fun _ => rfl) rfl
  | finish q =>
    obtain rfl : q = pid := of_decide_eq_true hm
    refine hquiet rfl rfl _ (fun x => ?_) rfl
    unfold Session.finish
    split <;> rfl
  | pump q c =>
    obtain rfl : q = pid := of_decide_eq_true hm
    obtain ⟨ha, he⟩ := pump_delivers s q c
    rw [ha, Effect.outputCalls, Effect.errorCalls, he]
    cases c with
    | stdout =>
      have hcalls := calls_consume s.aggregator (s.taken q .stdout)
      simp only [delivery, reduceCtorEq, and_false, and_self, if_true, if_false, List.flatMap_nil]
      refine ⟨rfl, List.filter_eq_self.mpr ?_, List.filter_eq_nil_iff.mpr ?_⟩
      · simpa [consume] using hcalls
      · simpa [consume] using hcalls
    | stderr =>
      have hcalls : ∀ c ∈ (s.taken q .stderr).flatMap errorLog, c.isErrorLog = true := by
        intro c hc
        obtain ⟨p, -, hp⟩ := List.mem_flatMap.mp hc
        exact isErrorLog_errorLog p c hp
      rw [calls_stderr, (deliverFrom_stderr s.aggregator _ []).1]
      simp only [delivery, reduceCtorEq, and_false, and_self, if_true, if_false]
      refine ⟨rfl, List.filter_eq_nil_iff.mpr ?_, List.filter_eq_self.mpr hcalls⟩
      simpa using hcalls
  | _ => cases hm

/-- **What a run of a process comes to** is what its channels hand on along it. -/
theorem run_output {pid : Nat} : ∀ (moves : List Move) {s : Server} {t : Turn},
    s.run clock moves = some t → (∀ m ∈ moves, comesFrom pid m = true) →
      t.1.aggregator = (consume s.aggregator (s.handedOn clock pid .stdout moves)).1 ∧
      Effect.outputCalls t.2 =
        Effect.calls (consume s.aggregator (s.handedOn clock pid .stdout moves)).2 ∧
      Effect.errorCalls t.2 = (s.handedOn clock pid .stderr moves).flatMap errorLog
  | [], s, t, h, _ => by
    cases h
    exact ⟨rfl, rfl, rfl⟩
  | m :: moves, s, t, h, hm => by
    obtain ⟨t₁, t₂, hs, hr, rfl⟩ := run_cons.mp h
    obtain ⟨ha₁, ho₁, he₁⟩ := step_output hs (hm m (by simp))
    obtain ⟨ha₂, ho₂, he₂⟩ := run_output moves hr fun m' h' => hm m' (by simp [h'])
    rw [handedOn_cons hs, handedOn_cons hs, consume_append, ← ha₁, List.flatMap_append]
    refine ⟨ha₂, ?_, ?_⟩
    · rw [Turn.after, Effect.outputCalls_append, ho₁, ho₂, Effect.calls_append]
    · rw [Turn.after, Effect.errorCalls_append, he₁, he₂]

/-! ### A channel along a run -/

section Reads

variable {s : Server} {m : Move} {t : Turn} {pid : Nat} {c : Channel} {r : LineReader}

theorem Reads.unique {r' : LineReader} (h : s.Reads pid c r) (h' : s.Reads pid c r') : r = r' := by
  obtain ⟨x, p, hx, -, hp, rfl⟩ := h
  obtain ⟨x', p', hx', -, hp', rfl⟩ := h'
  rw [hx] at hx'
  cases hx'
  rw [hp] at hp'
  cases hp'
  rfl

/-- Unless it is pumped, what arrives on a channel is added to what is unread. -/
theorem Reads.buffer_next (h : s.Reads pid c r) (hm : m ≠ .pump pid c) :
    (nextReader pid c true r m).buffer = r.buffer ++ s.arrival pid c m := by
  cases m with
  | write q d chunk =>
    simp only [nextReader, Server.arrival, h.isOpen, ← and_assoc]
    by_cases hq : q = pid ∧ d = c
    · cases he : r.ended <;> simp [hq, LineReader.arrive, he]
    · simp [hq]
  | close q d =>
    by_cases hq : q = pid ∧ d = c <;> simp [nextReader, Server.arrival, hq, LineReader.close]
  | pump q d =>
    have hq : ¬ (q = pid ∧ d = c) := fun hq => hm (by rw [hq.1, hq.2])
    simp [nextReader, Server.arrival, hq]
  | _ => simp [nextReader, Server.arrival]

end Reads

theorem ended_nextReader {r : LineReader} (h : r.ended = true) (pid : Nat) (c : Channel) (m : Move) :
    (nextReader pid c true r m).ended = true := by
  cases m with
  | write q d chunk => simp only [nextReader]; split <;> simp [LineReader.arrive, h]
  | close q d => simp only [nextReader]; split <;> simp [LineReader.close, h]
  | pump q d => simp only [nextReader]; split <;> simp [LineReader.drain_ended, h]
  | _ => exact h

theorem arrived_of_ended {pid : Nat} {c : Channel} : ∀ (moves : List Move) {s : Server} {t : Turn}
    {r : LineReader}, s.Reads pid c r → r.ended = true → s.run clock moves = some t →
      s.arrived clock pid c moves = []
  | [], _, _, _, _, _, _ => rfl
  | m :: moves, s, t, r, hr, he, h => by
    obtain ⟨t₁, t₂, hs, hrun, rfl⟩ := run_cons.mp h
    have ha : s.arrival pid c m = [] := by
      cases m <;> simp [arrival, hr.isOpen, he]
    rw [arrived_cons hs, ha, List.nil_append]
    exact arrived_of_ended moves (hr.next hs) (ended_nextReader he pid c m) hrun

/-- **The lines of an output** that is read whole. -/
def linesOf (bytes : List UInt8) : List Piece :=
  ((⟨bytes, true⟩ : LineReader).drain Session.lineLimit).1

theorem linesOf_nil : linesOf [] = [] :=
  congrArg Prod.fst (LineReader.drain_of_nil Session.lineLimit (r := ⟨[], true⟩) rfl)

/-- **A channel that is read to its end** has handed on what it would have handed on if it had been
read whole, whenever it was pumped. -/
theorem handedOn_eq_linesOf {pid : Nat} {c : Channel} : ∀ (moves : List Move) {s : Server} {t : Turn}
    {r : LineReader}, s.Reads pid c r → s.run clock moves = some t → t.1.Reads pid c ⟨[], true⟩ →
      ShortLines Session.lineLimit (r.buffer ++ s.arrived clock pid c moves) →
        s.handedOn clock pid c moves = linesOf (r.buffer ++ s.arrived clock pid c moves)
  | [], s, t, r, hr, h, ht, _ => by
    cases h
    obtain rfl := hr.unique ht
    rfl
  | m :: moves, s, t, r, hr, h, ht, hl => by
    obtain ⟨t₁, t₂, hs, hrun, rfl⟩ := run_cons.mp h
    have ih := handedOn_eq_linesOf moves (hr.next hs) hrun ht
    rw [arrived_cons hs] at hl ⊢
    rw [handedOn_cons hs]
    by_cases hm : m = .pump pid c
    · subst hm
      have harrival : s.arrival pid c (.pump pid c) = [] := rfl
      have hnext : nextReader pid c true r (.pump pid c) = (r.drain Session.lineLimit).2 := by
        simp [nextReader]
      have hdelivery : s.delivery pid c (.pump pid c) = (r.drain Session.lineLimit).1 :=
        (delivery_pump s pid c).trans hr.taken
      rw [hnext] at ih
      rw [harrival, List.nil_append] at hl ⊢
      obtain ⟨buffer, ended⟩ := r
      cases ended with
      -- all that had arrived is taken, and nothing will follow
      | true =>
        have hend := LineReader.drain_of_ended Session.lineLimit (r := ⟨buffer, true⟩) rfl
        have hnone : t₁.1.arrived clock pid c moves = [] := by
          refine arrived_of_ended moves (hr.next hs) ?_ hrun
          rw [hnext, hend]
        rw [hend, hnone] at ih
        have hlater : t₁.1.handedOn clock pid c moves = [] :=
          (ih fun line hline _ => by simp [List.eq_nil_of_infix_nil hline]).trans linesOf_nil
        rw [hdelivery, hlater, hnone, List.append_nil, List.append_nil]
        rfl
      -- the complete lines are taken early, and the rest stays for later
      | false =>
        have hrest : ShortLines Session.lineLimit
            (((⟨buffer, false⟩ : LineReader).drain Session.lineLimit).2.buffer ++
              t₁.1.arrived clock pid c moves) := by
          refine hl.of_infix (List.IsSuffix.isInfix ?_)
          have hbytes := LineReader.drain_bytes Session.lineLimit ⟨buffer, false⟩
          exact ⟨_, by rw [← List.append_assoc, hbytes]⟩
        rw [hdelivery, ih hrest]
        exact (LineReader.drain_append hl).symm
    · rw [hr.buffer_next hm, List.append_assoc] at ih
      rw [delivery_of_ne s hm, List.nil_append]
      exact ih hl

/-! ### Confluence -/

/-- **A run reads a process to its end**: only the process moves, both its channels are taken to their
ends, and no line of them is too long. -/
structure Drains (clock : Nat → Int) (s : Server) (pid : Nat) (moves : List Move) (t : Turn) : Prop
    where
  run : s.run clock moves = some t
  own : ∀ m ∈ moves, comesFrom pid m = true
  ended : ∀ c, t.1.Reads pid c ⟨[], true⟩
  short : ∀ c, ShortLines Session.lineLimit (s.arrived clock pid c moves)

/-- **The run comes to the same as reading each output whole.** -/
theorem Drains.reads_whole {s : Server} {pid : Nat} {moves : List Move} {t : Turn}
    (h : s.Drains clock pid moves t) (hfresh : ∀ c, s.Reads pid c .fresh) :
    t.1.aggregator = (consume s.aggregator (linesOf (s.arrived clock pid .stdout moves))).1 ∧
      Effect.outputCalls t.2 =
        Effect.calls (consume s.aggregator (linesOf (s.arrived clock pid .stdout moves))).2 ∧
      Effect.errorCalls t.2 = (linesOf (s.arrived clock pid .stderr moves)).flatMap errorLog := by
  have hlines : ∀ c, s.handedOn clock pid c moves = linesOf (s.arrived clock pid c moves) :=
    fun c => handedOn_eq_linesOf moves (hfresh c) h.run (h.ended c) (h.short c)
  rw [← hlines, ← hlines]
  exact run_output moves h.run h.own

/-- **Confluence of the channels.** Two runs read a process to its end. If the same bytes come on its
output, then, however they are cut and whatever comes on the other channel in between, the same is
published, the same statuses are sent and the same lines are logged, in the same order, and the
diagnostics and the activity are the same at last. If the same bytes come on its error output the same
lines of it are logged. -/
theorem channels_confluent (clock : Nat → Int) {s : Server} {pid : Nat}
    (hfresh : ∀ c, s.Reads pid c .fresh) {moves₁ moves₂ : List Move} {t₁ t₂ : Turn}
    (h₁ : s.Drains clock pid moves₁ t₁) (h₂ : s.Drains clock pid moves₂ t₂) :
    (s.arrived clock pid .stdout moves₁ = s.arrived clock pid .stdout moves₂ →
      Aggregator.publications t₁.2 = Aggregator.publications t₂.2 ∧
      Effect.statuses t₁.2 = Effect.statuses t₂.2 ∧
      Effect.outputLogs t₁.2 = Effect.outputLogs t₂.2 ∧
      Effect.outputCalls t₁.2 = Effect.outputCalls t₂.2 ∧
      t₁.1.aggregator.index = t₂.1.aggregator.index ∧
      t₁.1.aggregator.activity = t₂.1.aggregator.activity) ∧
    (s.arrived clock pid .stderr moves₁ = s.arrived clock pid .stderr moves₂ →
      Effect.errorCalls t₁.2 = Effect.errorCalls t₂.2) := by
  obtain ⟨ha₁, ho₁, he₁⟩ := h₁.reads_whole hfresh
  obtain ⟨ha₂, ho₂, he₂⟩ := h₂.reads_whole hfresh
  refine ⟨fun hout => ?_, fun herr => by rw [he₁, he₂, herr]⟩
  have hcalls : Effect.outputCalls t₁.2 = Effect.outputCalls t₂.2 := by rw [ho₁, ho₂, hout]
  have haggregator : t₁.1.aggregator = t₂.1.aggregator := by rw [ha₁, ha₂, hout]
  refine ⟨?_, ?_, ?_, hcalls, by rw [haggregator], by rw [haggregator]⟩
  · rw [Effect.publications_outputCalls, hcalls, Effect.publications_outputCalls]
  · rw [Effect.statuses_outputCalls, hcalls, Effect.statuses_outputCalls]
  · rw [Effect.outputLogs_outputCalls, hcalls, Effect.outputLogs_outputCalls]

/-- The reader of a channel that the server reads. -/
def readerOf (s : Server) (pid : Nat) (c : Channel) : Option LineReader :=
  (s.sessionOf pid).bind fun x => if x.attached then x.process.map (·.reader c) else none

theorem reads_of_readerOf {s : Server} {pid : Nat} {c : Channel} {r : LineReader}
    (h : s.readerOf pid c = some r) : s.Reads pid c r := by
  obtain ⟨x, hx, h⟩ := Option.bind_eq_some_iff.mp h
  split at h
  · next ha =>
    obtain ⟨p, hp, hr⟩ := Option.map_eq_some_iff.mp h
    exact ⟨x, p, hx, ha, hp, hr⟩
  · cases h

theorem exists_drains {s : Server} {pid : Nat} {moves : List Move}
    (hown : ∀ m ∈ moves, comesFrom pid m = true)
    (hend : ∀ c, ((s.run clock moves).bind fun t => t.1.readerOf pid c) = some ⟨[], true⟩)
    (hlen : ∀ c, (s.arrived clock pid c moves).length ≤ Session.lineLimit) :
    ∃ t, s.Drains clock pid moves t := by
  obtain ⟨t, ht, -⟩ := Option.bind_eq_some_iff.mp (hend .stdout)
  refine ⟨t, ht, hown, fun c => reads_of_readerOf ?_, fun c line hline _ => ?_⟩
  · have hc := hend c
    rwa [ht] at hc
  · exact Nat.le_trans hline.length_le (hlen c)

/-- A server whose interpreter has just been attached. -/
def attached : Server :=
  match untouched.run (fun _ => 0)
    [.request (.start (some "ghci")), .grant, .spawned 1, .resume] with
  | some (s, _) => s
  | none => untouched

/-- A line on each channel, one after the other. -/
def inTurn : List Move :=
  [.write 1 .stdout [206, 187, 13, 10], .close 1 .stdout, .pump 1 .stdout, .write 1 .stderr [33, 10],
    .close 1 .stderr, .pump 1 .stderr]

/-- The same lines, cut inside a character and inside a line end and mixed with one another. -/
def mixed : List Move :=
  [.write 1 .stderr [33], .write 1 .stdout [206], .pump 1 .stdout, .pump 1 .stderr,
    .write 1 .stdout [187, 13], .pump 1 .stdout, .exit 1 0, .write 1 .stderr [10], .pump 1 .stderr,
    .write 1 .stdout [10], .close 1 .stderr, .close 1 .stdout, .pump 1 .stdout, .pump 1 .stderr]

theorem channels_confluent_mixed : ∃ t₁ t₂ : Turn, attached.Drains (fun _ => 0) 1 inTurn t₁ ∧
    attached.Drains (fun _ => 0) 1 mixed t₂ ∧ (∀ c, attached.Reads 1 c .fresh) ∧
    (∀ c, attached.arrived (fun _ => 0) 1 c inTurn = attached.arrived (fun _ => 0) 1 c mixed) ∧
    t₁.1.aggregator.index = t₂.1.aggregator.index ∧
    Effect.outputLogs t₁.2 = Effect.outputLogs t₂.2 ∧
    Effect.errorCalls t₁.2 = Effect.errorCalls t₂.2 := by
  obtain ⟨t₁, h₁⟩ : ∃ t, attached.Drains (fun _ => 0) 1 inTurn t := by
    refine exists_drains (by simp [inTurn, comesFrom]) (fun c => ?_) fun c => ?_
    · cases c <;> decide +kernel
    · cases c <;> decide +kernel
  obtain ⟨t₂, h₂⟩ : ∃ t, attached.Drains (fun _ => 0) 1 mixed t := by
    refine exists_drains (by simp [mixed, comesFrom]) (fun c => ?_) fun c => ?_
    · cases c <;> decide +kernel
    · cases c <;> decide +kernel
  have hfresh : ∀ c, attached.Reads 1 c .fresh := by
    intro c
    refine reads_of_readerOf ?_
    cases c <;> decide +kernel
  have hsame : ∀ c, attached.arrived (fun _ => 0) 1 c inTurn =
      attached.arrived (fun _ => 0) 1 c mixed := by
    intro c
    cases c <;> decide +kernel
  obtain ⟨hout, herr⟩ := channels_confluent (fun _ => 0) hfresh h₁ h₂
  obtain ⟨-, -, hlogs, -, hindex, -⟩ := hout (hsame .stdout)
  exact ⟨t₁, t₂, h₁, h₂, hfresh, hsame, hindex, hlogs, herr (hsame .stderr)⟩

end Server

end GhciRelay
