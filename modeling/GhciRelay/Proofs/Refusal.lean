import GhciRelay.Proofs.Stepwise
import GhciRelay.Proofs.WireMessage

/-!
# When a line is refused

A line of output is refused in four cases, and in no others (`onStdout_fails_iff`): no session has
begun; a banner is found in it with a number of too many digits; it names a file by a relative path,
and the directory that paths are seen from is relative too; or it reports on a span with a coordinate
that no position has. A coordinate below one is no reason: a message with such a coordinate is no
message, and its line is logged like any other text.

Whether a computation succeeds is followed as a truth value through the functions that the handling
of a line is made of, from the inside out.
-/

namespace GhciRelay

open GhciRelay.Text (digitLimit)

theorem exists_error_iff {ε α : Type} (x : Except ε α) : (∃ e, x = .error e) ↔ x.isOk = false := by
  cases x <;> simp [Except.isOk, Except.toBool]

/-! ### Coordinates -/

/-- The coordinates of a span, in the order in which they are looked at. -/
def Span.coordinates (s : Span) : List Int := [s.startLine, s.startCol, s.endLine, s.endCol]

/-- The greatest coordinate that has a position. -/
def Span.maxCoordinate : Int := 2147483648

theorem Offset.isOk_ofInt (axis : Axis) (n : Int) :
    (Offset.ofInt axis n).isOk = decide (0 ≤ n ∧ n < 2147483648) := by
  unfold Offset.ofInt
  split
  · next h =>
    have hn : 0 ≤ n ∧ n < 2147483648 := by omega
    simp [Except.isOk, Except.toBool, hn]
  · next h =>
    have hn : ¬ (0 ≤ n ∧ n < 2147483648) := by omega
    simp only [Except.isOk, Except.toBool, hn, decide_false]

theorem Position.isOk_ofInts (line character : Int) : (Position.ofInts line character).isOk =
    ((Offset.ofInt .line line).isOk && (Offset.ofInt .character character).isOk) := by
  unfold Position.ofInts
  cases Offset.ofInt .line line <;> cases Offset.ofInt .character character <;> rfl

theorem Range.isOk_ofInts (l c l' c' : Int) : (Range.ofInts l c l' c').isOk =
    ((Position.ofInts l c).isOk && (Position.ofInts l' c').isOk) := by
  unfold Range.ofInts
  cases Position.ofInts l c <;> cases Position.ofInts l' c' <;> rfl

theorem Report.isOk_diagnostic (r : Report) (source : String) :
    (r.diagnostic source).isOk = r.span.range.isOk := by
  unfold Report.diagnostic
  cases r.span.range <;> rfl

/-- **A span that is counted from one** has no range exactly if one of its coordinates is too large. -/
theorem Span.Positive.range_fails_iff {s : Span} (hs : s.Positive) :
    s.range.isOk = false ↔ ∃ n ∈ s.coordinates, Span.maxCoordinate < n := by
  have h₁ := hs.startLine
  have h₂ := hs.startCol
  have h₃ := hs.endLine
  have h₄ := hs.endCol
  simp only [Span.range, Range.isOk_ofInts, Position.isOk_ofInts, Offset.isOk_ofInt,
    Span.coordinates, Span.maxCoordinate, List.mem_cons, List.not_mem_nil, or_false, exists_eq_or_imp,
    exists_eq_left, Bool.and_eq_false_iff, decide_eq_false_iff_not]
  omega

namespace Message

theorem one_le_of_coordinate? {v : Json} {n : Int} (h : coordinate? v = some n) : 1 ≤ n := by
  unfold coordinate? at h
  split at h
  · split at h
    · next h₁ => cases h; exact h₁
    · cases h
  · cases h

theorem one_le_of_coordinateMember? {members : List (String × Json)} {first second : String} {n : Int}
    (h : coordinateMember? members first second = some n) : 1 ≤ n := by
  obtain ⟨v, -, hv⟩ := Option.bind_eq_some_iff.mp h
  exact one_le_of_coordinate? hv

theorem positive_of_span? {v : Json} {s : Span} (h : span? v = some s) : s.Positive := by
  cases v with
  | object members =>
    simp only [span?, Option.bind_eq_bind, Option.bind_eq_some_iff, Option.some.injEq] at h
    obtain ⟨file, -, l, hl, c, hc, l', hl', c', hc', rfl⟩ := h
    exact ⟨one_le_of_coordinateMember? hl, one_le_of_coordinateMember? hc,
      one_le_of_coordinateMember? hl', one_le_of_coordinateMember? hc'⟩
  | _ => cases h

theorem positive_of_ofJson? {v : Json} {m : Message} {s : Span} (h : ofJson? v = some m)
    (hs : m.span = some s) : s.Positive := by
  cases v with
  | object members =>
    simp only [ofJson?, Option.bind_eq_bind, Option.bind_eq_some_iff, Option.some.injEq] at h
    obtain ⟨span, hspan, reason, -, severity, -, doc, -, rfl⟩ := h
    subst hs
    cases hl : Json.lookup "span" members with
    | none => rw [hl] at hspan; cases hspan
    | some v =>
      rw [hl, member] at hspan
      unfold nullable at hspan
      split at hspan
      · cases hspan
      · obtain ⟨s', hs', he⟩ := Option.map_eq_some_iff.mp hspan
        cases he
        exact positive_of_span? hs'
  | _ => cases h

theorem positive_of_ofLine? {line : List Char} {m : Message} {s : Span} (h : ofLine? line = some m)
    (hs : m.span = some s) : s.Positive := by
  unfold ofLine? at h
  split at h
  · obtain ⟨v, -, hv⟩ := Option.bind_eq_some_iff.mp h
    exact positive_of_ofJson? hv hs
  · cases h

end Message

/-! ### Paths -/

/-- The text of a path begins with a slash. -/
def Path.isRooted (s : String) : Bool := s.toList.head? == some '/'

theorem Path.isAbsolute_parse (s : List Char) : (Path.parse s).isAbsolute = (s.head? == some '/') := by
  simp only [Path.parse, Path.isAbsolute]
  unfold Path.leadingSlashes
  split
  · rfl
  · rfl
  · rfl
  · next h =>
    cases s with
    | nil => rfl
    | cons c cs =>
      have hc : c ≠ '/' := fun hc => h cs (by rw [hc])
      simp [hc]

theorem Path.head?_join (base path : List Char) : ((Path.join base path).head? == some '/') =
    (path.head? == some '/' || base.head? == some '/') := by
  unfold Path.join
  by_cases hp : path.head? = some '/'
  · simp [hp]
  · cases base with
    | nil => simp [hp]
    | cons c cs => rw [if_neg hp]; split <;> simp [hp]

theorem Path.isAbsolute_join (base path : String) :
    ((Path.parse (Path.join base.toList path.toList)).collapse).isAbsolute =
      (Path.isRooted path || Path.isRooted base) :=
  (Path.isAbsolute_parse _).trans (Path.head?_join base.toList path.toList)

/-- **A path has a URI** exactly if it begins with a slash, or the directory that it is seen from
does. -/
theorem FileUri.isSome_ofPath? (base path : String) :
    (FileUri.ofPath? base path).isSome = (Path.isRooted path || Path.isRooted base) := by
  rw [← Path.isAbsolute_join]
  simp only [FileUri.ofPath?]
  split
  · next hp => rw [hp]; rfl
  · next hp => rw [Bool.not_eq_true] at hp; rw [hp]; rfl

namespace Aggregator

/-- The directory that paths are seen from. -/
def base (a : Aggregator) : String := a.root.getD a.directory

theorem isOk_uriOf (a : Aggregator) (path : String) :
    (a.uriOf path).isOk = (Path.isRooted path || Path.isRooted a.base) := by
  rw [← FileUri.isSome_ofPath?, uriOf, base]
  cases FileUri.ofPath? (a.root.getD a.directory) path <;> rfl

end Aggregator

/-! ### Banners -/

/-- The banner has a number that is too long to be read. -/
def Banner.Parts.TooLong (p : Banner.Parts) : Prop :=
  digitLimit < p.index.length ∨ digitLimit < p.total.length

theorem Banner.ofParts_fails_iff (p : Banner.Parts) : (Banner.ofParts p).isOk = false ↔ p.TooLong := by
  have hbounded : ∀ run, (Text.boundedNumber run).isOk = decide (run.length ≤ digitLimit) := by
    intro run
    unfold Text.boundedNumber
    split <;> simp_all [Except.isOk, Except.toBool]
  have hparts : (Banner.ofParts p).isOk =
      ((Text.boundedNumber p.index).isOk && (Text.boundedNumber p.total).isOk) := by
    unfold Banner.ofParts
    cases Text.boundedNumber p.index <;> cases Text.boundedNumber p.total <;> rfl
  rw [hparts, hbounded, hbounded, Bool.and_eq_false_iff, decide_eq_false_iff_not,
    decide_eq_false_iff_not, Nat.not_le, Nat.not_le]
  rfl

theorem Banner.read_fails_iff (text : List Char) : (Banner.read text).isOk = false ↔
    ∃ p, Banner.parts? text = some p ∧ p.TooLong := by
  unfold Banner.read
  cases hp : Banner.parts? text with
  | none => simp [Except.isOk, Except.toBool]
  | some p =>
    have hmap : ((Banner.ofParts p).map some).isOk = (Banner.ofParts p).isOk := by
      cases Banner.ofParts p <;> rfl
    simp [hmap, Banner.ofParts_fails_iff]

/-! ### Records -/

/-- The path that a record names. -/
def Record.path? : Record → Option String
  | .report r => some r.span.file
  | .compiling b => some b.sourcePath
  | _ => none

namespace Sentinel

open GhciRelay.Text (trimEnd isLineEnd)

/-- **The text in which a banner is looked for**: that of a structured line which only passes on
output, or a line that is not structured and does not hold the sentinel. -/
def bannerText? (s : Sentinel) (raw : String) : Option (List Char) :=
  let line := trimEnd isLineEnd raw.toList
  match Message.ofLine? line with
  | some m =>
    if m.span = none ∧ m.reason = none ∧ m.severity = outputSeverity then some m.doc.toList else none
  | none => if occursIn s.text.toList line then none else some line

/-- **A banner is found in the line, with a number of too many digits.** -/
def HasLongNumber (s : Sentinel) (line : String) : Prop :=
  ∃ text p, s.bannerText? line = some text ∧ Banner.parts? text = some p ∧ p.TooLong

/-- **The line reports on a span with a coordinate that no position has.** -/
def HasLargeCoordinate (s : Sentinel) (line : String) : Prop :=
  ∃ r, s.classify line = .ok (.report r) ∧ ∃ n ∈ r.span.coordinates, Span.maxCoordinate < n

/-- **The line names a file by a relative path**, seen from a relative directory. -/
def HasRelativePath (s : Sentinel) (base line : String) : Prop :=
  ∃ record path, s.classify line = .ok record ∧ record.path? = some path ∧
    Path.isRooted path = false ∧ Path.isRooted base = false

theorem classify_fails_iff (s : Sentinel) (line : String) :
    (s.classify line).isOk = false ↔ s.HasLongNumber line := by
  have hmap : ∀ (text : List Char) (f : Option Banner → Record),
      ((Banner.read text).map f).isOk = (Banner.read text).isOk := by
    intro text f
    cases Banner.read text <;> rfl
  have hread := Banner.read_fails_iff
  simp only [HasLongNumber, bannerText?, classify]
  cases hm : Message.ofLine? (trimEnd isLineEnd line.toList) with
  | some m =>
    simp only [classifyMessage]
    cases hs : m.span with
    | some span => by_cases hf : span.file = interactiveFile <;> simp [hf, Except.isOk, Except.toBool]
    | none =>
      by_cases ho : m.reason = none ∧ m.severity = outputSeverity
      · simp [ho, hmap, hread]
      · simp [ho, Except.isOk, Except.toBool]
  | none =>
    simp only [classifyText]
    by_cases ho : occursIn s.text.toList (trimEnd isLineEnd line.toList) = true
    · simp [ho, Except.isOk, Except.toBool]
    · simp [ho, hmap, hread]

/-- **A line is never taken for a report with a coordinate below one.** -/
theorem positive_of_classify {s : Sentinel} {line : String} {r : Report}
    (h : s.classify line = .ok (.report r)) : r.span.Positive := by
  have hmap : ∀ (text : List Char) (f : Option Banner → Record), (∀ b, f b ≠ .report r) →
      (Banner.read text).map f ≠ .ok (.report r) := by
    intro text f hf he
    cases hb : Banner.read text with
    | error e => rw [hb] at he; cases he
    | ok b => rw [hb] at he; exact hf b (Except.ok.inj he)
  simp only [classify] at h
  cases hm : Message.ofLine? (trimEnd isLineEnd line.toList) with
  | none =>
    simp only [hm, classifyText] at h
    split at h
    · cases h
    · refine absurd h (hmap _ _ fun b => ?_)
      cases b <;> simp
  | some m =>
    simp only [hm, classifyMessage] at h
    cases hs : m.span with
    | some span =>
      simp only [hs] at h
      split at h
      · cases h
      · cases h
        exact Message.positive_of_ofLine? hm hs
    | none =>
      simp only [hs] at h
      split at h
      · refine absurd h (hmap _ _ fun b => ?_)
        cases b <;> simp
      · cases h

end Sentinel

/-! ### The aggregator -/

namespace Aggregator

theorem isOk_handleReport (a : Aggregator) (r : Report) :
    (a.handleReport r).isOk = ((a.uriOf r.span.file).isOk && r.span.range.isOk) := by
  rw [← r.isOk_diagnostic a.source]
  unfold handleReport
  cases a.uriOf r.span.file <;> cases r.diagnostic a.source <;> rfl

theorem isOk_handleBanner (a : Aggregator) (b : Banner) :
    (a.handleBanner b).isOk = (a.uriOf b.sourcePath).isOk := by
  unfold handleBanner
  cases a.uriOf b.sourcePath <;> rfl

/-- A record is refused exactly if the file that it names has no URI or its span has no range. -/
theorem handle_fails_iff (a : Aggregator) (record : Record) : (a.handle record).isOk = false ↔
    (∃ path, record.path? = some path ∧ Path.isRooted path = false ∧ Path.isRooted a.base = false) ∨
      ∃ r, record = .report r ∧ r.span.range.isOk = false := by
  cases record with
  | report r =>
    simp only [handle, isOk_handleReport, isOk_uriOf, Record.path?, Bool.and_eq_false_iff,
      Bool.or_eq_false_iff]
    simp
  | compiling b => simp [handle, isOk_handleBanner, isOk_uriOf, Record.path?]
  | interactive line => simp [handle, Record.path?, Except.isOk, Except.toBool]
  | prompt line => simp [handle, Record.path?, Except.isOk, Except.toBool]
  | plain line => simp [handle, Record.path?, Except.isOk, Except.toBool]

theorem onStdout_fails_of_sentinel {a : Aggregator} {s : Sentinel} (hs : a.sentinel = some s)
    (line : String) : (a.onStdout line).isOk = false ↔
      s.HasLongNumber line ∨ s.HasRelativePath a.base line ∨ s.HasLargeCoordinate line := by
  rw [← s.classify_fails_iff line]
  cases hc : s.classify line with
  | error e =>
    simp only [onStdout, hs, hc]
    simp [Except.isOk, Except.toBool]
  | ok record =>
    rw [onStdout_of_classify hs hc, handle_fails_iff, Sentinel.HasRelativePath,
      Sentinel.HasLargeCoordinate, hc]
    constructor
    · rintro (⟨path, hp, hr, hb⟩ | ⟨r, rfl, hr⟩)
      · exact .inr (.inl ⟨record, path, rfl, hp, hr, hb⟩)
      · have hpos := Sentinel.positive_of_classify hc
        exact .inr (.inr ⟨r, rfl, hpos.range_fails_iff.mp hr⟩)
    · rintro (h | ⟨record', path, he, hp, hr, hb⟩ | ⟨r, he, hn⟩)
      · cases h
      · cases he
        exact .inl ⟨path, hp, hr, hb⟩
      · cases he
        have hpos := Sentinel.positive_of_classify hc
        exact .inr ⟨r, rfl, hpos.range_fails_iff.mpr hn⟩

/-! ### Sessions along a run -/

/-- A session begins with the operation. -/
def Operation.begins : Operation → Bool
  | .beginSession prompt => prompt ≠ ""
  | _ => false

theorem sentinel_perform (a : Aggregator) (op : Operation) :
    (a.perform op).1.sentinel.isSome = (a.sentinel.isSome || op.begins) := by
  unfold perform
  cases h : a.apply op with
  | error e =>
    cases op with
    | beginSession prompt =>
      have hp : prompt = "" := by
        by_contra hp
        simp only [apply, beginSession, Sentinel.ofText?, dif_neg hp] at h
        cases h
      simp [Operation.begins, hp]
    | _ => simp [Operation.begins]
  | ok result =>
    cases op with
    | beginSession prompt =>
      obtain ⟨s, hs, rfl⟩ := beginSession_ok h
      have hp : prompt ≠ "" := by
        rintro rfl
        cases hs
      simp [listen, Operation.begins, hp]
    | stdout line =>
      have hf := congrArg Aggregator.sentinel (onStdout_frame h)
      simp [hf, Operation.begins]
    | handle record =>
      have hf := congrArg Aggregator.sentinel (handle_frame h)
      simp [hf, Operation.begins]
    | _ => cases h; simp [Operation.begins, commandSent, onStderr, republish, retractAll]

/-- **Along a run** a sentinel is listened for as soon as a session has begun. -/
theorem sentinel_run : ∀ (ops : List Operation) (a : Aggregator),
    (a.run ops).1.sentinel.isSome = (a.sentinel.isSome || ops.any (·.begins))
  | [], a => by simp [run]
  | op :: ops, a => by
    have ih := sentinel_run ops (a.perform op).1
    rw [sentinel_perform, Bool.or_assoc] at ih
    simpa [run] using ih

/-- **A line is refused for known reasons only, and as a whole.** After every run, whatever the root:
a line is refused exactly if no session has begun, if a banner with a number of more than 4300 digits
is found in it, if it names a file by a relative path and the directory in force is relative, or if it
reports on a span with a coordinate above 2147483648; and it is never taken for a report with a
coordinate below one. If the work on it is done step by step, what is refused has changed nothing and
told nobody anything, and what is not refused comes to the same as if it had been done at once. -/
theorem onStdout_fails_iff (directory source : String) (root : Option String) (ops : List Operation)
    (line : String) :
    let a := ((start directory root source).run ops).1
    ((∃ e, a.onStdout line = .error e) ↔
      (∀ op ∈ ops, op.begins = false) ∨ ∃ s, a.sentinel = some s ∧
        (s.HasLongNumber line ∨ s.HasRelativePath (a.root.getD a.directory) line ∨
          s.HasLargeCoordinate line)) ∧
    (∀ (s : Sentinel) (r : Report), s.classify line = .ok (.report r) → ∀ n ∈ r.span.coordinates, 1 ≤ n) ∧
    (∀ e done, a.onStdout line = .error e →
      EStateM.run (work line) ⟨a, done⟩ = .error e ⟨a, done⟩) ∧
    ∀ a' effects done, a.onStdout line = .ok (a', effects) →
      EStateM.run (work line) ⟨a, done⟩ = .ok () ⟨a', done ++ effects⟩ := by
  intro a
  have hbegun : a.sentinel.isSome = ops.any (·.begins) :=
    sentinel_run ops (start directory root source)
  refine ⟨?_, fun s r hr n hn => ?_, fun e done he => ?_, fun a' effects done he => ?_⟩
  · rw [exists_error_iff]
    cases hs : a.sentinel with
    | none =>
      rw [hs] at hbegun
      have hnone : ∀ op ∈ ops, op.begins = false := by simpa using hbegun.symm
      simp only [onStdout, hs]
      exact iff_of_true rfl (.inl hnone)
    | some s =>
      rw [hs] at hbegun
      have hsome : ¬ ∀ op ∈ ops, op.begins = false := by simpa using hbegun.symm
      rw [onStdout_fails_of_sentinel hs]
      simp [hsome, base]
  · have hpos := Sentinel.positive_of_classify hr
    simp only [Span.coordinates, List.mem_cons, List.not_mem_nil, or_false] at hn
    rcases hn with rfl | rfl | rfl | rfl
    · exact hpos.startLine
    · exact hpos.startCol
    · exact hpos.endLine
    · exact hpos.endCol
  · rw [work_run, he]
    rfl
  · rw [work_run, he]
    rfl

end Aggregator

end GhciRelay
