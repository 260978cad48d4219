import GhciRelay.Output.Prompt
import GhciRelay.Proofs.Aggregator
import GhciRelay.Proofs.WireMessage
import Mathlib.Data.List.Infix

/-!
# Recognising the prompt

A prompt is recognised behind any output without a double quote (`prompt_after_output`), although a
line may first be read as JSON. In JSON the sentinel could stand only inside a text: outside of texts
the reader would take its hyphen for a word. And only a quote leads into a text.

The prompt of one session is nothing to another (`foreign_prompt_is_plain`). The time stands between
two spaces and is written without one. So where a sentinel occurs in another that differs at most in
its time, the spaces around the two times stand at the same places.
-/

namespace GhciRelay

/-! ### Reading outside of texts -/

namespace Json

/-- The machine stands outside of texts: between tokens or in a word. -/
def LexState.Outside : LexState → Prop
  | .between => True
  | .word _ => True
  | _ => False

theorem lexBetween_outside {c : Char} (hc : c ≠ '"') : (lexBetween c).1.Outside := by
  have hquote : (c == '"') = false := beq_eq_false_iff_ne.mpr hc
  rw [lexBetween, hquote]
  split
  · trivial
  · cases mark? c <;> trivial

theorem lexStep_outside {state state' : LexState} {c : Char} {tokens : List Token}
    (hs : state.Outside) (hc : c ≠ '"') (h : lexStep state c = some (state', tokens)) :
    state'.Outside := by
  have hbetween := lexBetween_outside hc
  cases state with
  | between =>
    rw [lexStep, Option.some_inj] at h
    rwa [h] at hbetween
  | word seen =>
    simp only [lexStep] at h
    split at h
    · split at h
      · cases h
        exact hbetween
      · cases h
    · cases h
      trivial
  | _ => exact hs.elim

/-- What is refused outside of texts is refused behind anything without a quote. -/
theorem lexFrom_outside {rest : List Char}
    (hrest : ∀ (state : LexState) (found : List Token), state.Outside →
      lexFrom state found rest = none) :
    ∀ (front : List Char) (state : LexState) (found : List Token), '"' ∉ front → state.Outside →
      lexFrom state found (front ++ rest) = none := by
  intro front
  induction front with
  | nil =>
    intro state found _ hs
    exact hrest state found hs
  | cons c front ih =>
    intro state found hf hs
    have hc : c ≠ '"' := fun h => hf (by simp [h])
    rw [List.cons_append, lexFrom]
    split
    · rfl
    · next state' tokens h =>
      exact ih state' _ (fun h' => hf (by simp [h'])) (lexStep_outside hs hc h)

theorem lexFrom_noValue {seen : List Char} (hv : wordValue? seen.reverse = none)
    (found : List Token) {c : Char} (hc : isDelimiter c = true) (rest : List Char) :
    lexFrom (.word seen) found (c :: rest) = none := by
  have hend : (isBlank c || c == '"' || (mark? c).isSome) = true := hc
  simp only [lexFrom, lexStep, hend, if_true, hv]

/-- A brace, a hyphen and a space are refused outside of texts: the hyphen is a word, and no
value. -/
theorem lexFrom_comment (rest : List Char) (state : LexState) (found : List Token)
    (hs : state.Outside) : lexFrom state found ('\x7b' :: '-' :: ' ' :: rest) = none := by
  have hbetween : ∀ found, lexFrom .between found ('\x7b' :: '-' :: ' ' :: rest) = none := by
    intro found
    change lexFrom (.word ['-']) (.mark .openObject :: found) (' ' :: rest) = none
    exact lexFrom_noValue (by decide) _ (by decide) rest
  cases state with
  | between => exact hbetween found
  | word seen =>
    -- the brace ends a word that may have begun before it
    have hbrace : isDelimiter '\x7b' = true := by decide
    cases hv : wordValue? seen.reverse with
    | none => exact lexFrom_noValue hv found hbrace _
    | some v =>
      have hend : Delimited ('\x7b' :: '-' :: ' ' :: rest) := by
        intro c hc
        cases hc
        exact hbrace
      rw [lexFrom_wordEnd hv found hend]
      exact hbetween _
  | _ => exact hs.elim

/-- **No document holds the beginning of a comment outside of its texts.** -/
theorem read?_comment {front : List Char} (hf : '"' ∉ front) (rest : List Char) :
    read? (front ++ '\x7b' :: '-' :: ' ' :: rest) = none := by
  have htokens : tokens? (front ++ '\x7b' :: '-' :: ' ' :: rest) = none :=
    lexFrom_outside (lexFrom_comment rest) front .between [] hf trivial
  rw [read?, htokens]
  rfl

end Json

/-! ### Lines with a sentinel -/

theorem Sentinel.classify_of_unread (y : Sentinel) {raw : String}
    (h : Json.read? (Text.trimEnd Text.isLineEnd raw.toList) = none) :
    y.classify raw = y.classifyText (Text.trimEnd Text.isLineEnd raw.toList) := by
  have hmessage : Message.ofLine? (Text.trimEnd Text.isLineEnd raw.toList) = none := by
    unfold Message.ofLine?
    split
    · rw [h]
      rfl
    · rfl
  simp only [classify, hmessage]

theorem Sentinel.occursIn_iff {part s : List Char} : occursIn part s = true ↔ part <:+: s := by
  induction s with
  | nil => simp [occursIn]
  | cons c s ih => rw [occursIn, Bool.or_eq_true, ih, List.isPrefixOf_iff_prefix, List.infix_cons_iff]

namespace Prompt

open GhciRelay.Text (trimEnd isLineEnd stripLineEnd)

/-- The sentinel of a program for a time in milliseconds. -/
def sentinelOf (name version : String) (epochMs : Int) : Sentinel :=
  ⟨sentinelText name version epochMs, sentinelText_ne_empty _ _ _⟩

/-- What stands in front of the space before the time. -/
def sentinelFront (name version : String) : List Char :=
  '\x7b' :: '-' :: ' ' :: (name.toList ++ ' ' :: version.toList)

theorem toList_sentinelText (name version : String) (epochMs : Int) :
    (sentinelText name version epochMs).toList =
      sentinelFront name version ++ ' ' :: ((toString epochMs).toList ++ ' ' :: ['-', '\x7d']) := by
  simp [sentinelText, sentinelFront]

theorem trimEnd_sentinelText (front : List Char) (name version : String) (epochMs : Int)
    (rest : List Char) :
    trimEnd isLineEnd (front ++ (sentinelText name version epochMs).toList ++ rest) =
      front ++ (sentinelText name version epochMs).toList ++ trimEnd isLineEnd rest := by
  have hbrace : isLineEnd '\x7d' = false := by decide
  have h := Text.trimEnd_append_cons hbrace (front ++ sentinelFront name version ++
    ' ' :: ((toString epochMs).toList ++ [' ', '-'])) rest
  rw [toList_sentinelText]
  simpa using h

theorem read?_sentinelText {front : List Char} (hf : '"' ∉ front) (name version : String)
    (epochMs : Int) (rest : List Char) :
    Json.read? (front ++ (sentinelText name version epochMs).toList ++ rest) = none := by
  rw [toList_sentinelText, sentinelFront, List.append_assoc]
  exact Json.read?_comment hf _

/-! ### The prompt behind output -/

/-- **A finished command is never missed.** For every program and time, every output without a double
quote in front of the prompt and every text behind it: the line is no document, so that it is taken
for a prompt; and whatever an aggregator of that session has seen before, it is idle then, tells the
editor so, and keeps everything else. -/
theorem prompt_after_output (name version : String) (epochMs : Int) {output : String}
    (hq : '"' ∉ output.toList) (rest : String) :
    Json.read? (stripLineEnd (output ++ sentinelText name version epochMs ++ rest)).toList = none ∧
      (sentinelOf name version epochMs).classify
          (output ++ sentinelText name version epochMs ++ rest) =
        .ok (.prompt (stripLineEnd (output ++ sentinelText name version epochMs ++ rest))) ∧
      ∀ a : Aggregator, a.sentinel = some (sentinelOf name version epochMs) →
        a.onStdout (output ++ sentinelText name version epochMs ++ rest) =
          .ok ({ a with activity := .idle }, [.tell (.status "Idle")]) := by
  have hline : trimEnd isLineEnd (output ++ sentinelText name version epochMs ++ rest).toList =
      output.toList ++ (sentinelText name version epochMs).toList ++
        trimEnd isLineEnd rest.toList := by
    rw [String.toList_append, String.toList_append, trimEnd_sentinelText]
  have hread : Json.read? (trimEnd isLineEnd
      (output ++ sentinelText name version epochMs ++ rest).toList) = none := by
    rw [hline]
    exact read?_sentinelText hq name version epochMs _
  have hoccurs : Sentinel.occursIn (sentinelOf name version epochMs).text.toList (trimEnd isLineEnd
      (output ++ sentinelText name version epochMs ++ rest).toList) = true := by
    rw [Sentinel.occursIn_iff, hline]
    exact List.infix_append _ _ _
  have hclass : (sentinelOf name version epochMs).classify
      (output ++ sentinelText name version epochMs ++ rest) =
      .ok (.prompt (stripLineEnd (output ++ sentinelText name version epochMs ++ rest))) := by
    rw [Sentinel.classify_of_unread _ hread, Sentinel.classifyText, if_pos hoccurs]
    rfl
  refine ⟨?_, hclass, fun a ha => ?_⟩
  · rw [stripLineEnd, String.toList_ofList]
    exact hread
  · exact Aggregator.onStdout_of_classify ha hclass

/-- A session of the given program and time that is busy. -/
def busyWith (name version : String) (epochMs : Int) : Aggregator :=
  { (Aggregator.start "/" none "ghci").listen (sentinelOf name version epochMs) with
    activity := .busy }

/-- The output begins like an object, and there is a quote in the name. -/
theorem prompt_after_output_brace :
    '"' ∉ " \x7b[1,".toList ∧
      (sentinelOf "\"" "" (-5)).classify (" \x7b[1," ++ sentinelText "\"" "" (-5) ++ "\r\n") =
        .ok (.prompt " \x7b[1,\x7b- \"  -5 -\x7d") ∧
      (busyWith "\"" "" (-5)).onStdout (" \x7b[1," ++ sentinelText "\"" "" (-5) ++ "\r\n") =
        .ok ({ busyWith "\"" "" (-5) with activity := .idle }, [.tell (.status "Idle")]) := by
  have hq : '"' ∉ " \x7b[1,".toList := by decide
  obtain ⟨-, hclass, hidle⟩ := prompt_after_output "\"" "" (-5) hq "\r\n"
  have hline : stripLineEnd (" \x7b[1," ++ sentinelText "\"" "" (-5) ++ "\r\n") =
      " \x7b[1,\x7b- \"  -5 -\x7d" := by decide +kernel
  rw [hline] at hclass
  exact ⟨hq, hclass, hidle (busyWith "\"" "" (-5)) rfl⟩

/-! ### The prompts of other sessions -/

theorem toList_toString_int (n : Int) :
    (toString n).toList = Json.sign (decide (n < 0)) ++ Nat.toDigits 10 n.natAbs := by
  cases n with
  | ofNat m =>
    have hsign : decide (Int.ofNat m < 0) = false := decide_eq_false (by simp)
    rw [hsign]
    exact Json.toList_toString m
  | negSucc m =>
    have hsign : decide (Int.negSucc m < 0) = true := decide_eq_true (Int.negSucc_lt_zero m)
    change ("-" ++ toString (m + 1)).toList = _
    rw [String.toList_append, Json.toList_toString, hsign]
    rfl

theorem space_notMem_toString (n : Int) : ' ' ∉ (toString n).toList := by
  intro h
  rw [toList_toString_int, List.mem_append] at h
  rcases h with h | h
  · cases decide (n < 0) <;> simp [Json.sign] at h
  · exact absurd (Json.digits_toDigits _ ' ' h) (by decide)

theorem toString_int_injective {m n : Int} (h : toString m = toString n) : m = n := by
  have hhyphen : ∀ (k : Nat) (cs : List Char), Nat.toDigits 10 k ≠ '-' :: cs := by
    intro k cs hk
    have hdigit := Json.digits_toDigits k '-' (by simp [hk])
    exact absurd hdigit (by decide)
  have hlist := congrArg String.toList h
  rw [toList_toString_int, toList_toString_int] at hlist
  by_cases hm : m < 0 <;> by_cases hn : n < 0 <;> simp only [hm, hn, decide_true, decide_false,
    Json.sign, if_true, Bool.false_eq_true, if_false, List.nil_append, List.singleton_append,
    List.cons_inj_right] at hlist
  · have := Json.toDigits_injective hlist
    omega
  · exact absurd hlist.symm (hhyphen _ _)
  · exact absurd hlist (hhyphen _ _)
  · have := Json.toDigits_injective hlist
    omega

/-- **A frame cannot be moved along a run without spaces**: where the piece in front of the run occurs
again with its space, by not more than the run later, it occurs at its own place. -/
theorem eq_nil_of_moved {front run back moved rest : List Char} (hrun : ' ' ∉ run)
    (hlen : moved.length ≤ run.length)
    (h : moved ++ (front ++ ' ' :: rest) = front ++ ' ' :: (run ++ ' ' :: back)) : moved = [] := by
  cases hm : moved.length with
  | zero => exact List.length_eq_zero_iff.mp hm
  | succ k =>
    -- the space behind the moved piece stands in the run
    have hspace : (moved ++ (front ++ ' ' :: rest))[moved.length + front.length]? = some ' ' := by
      simp
    rw [h, hm] at hspace
    have hk : k < run.length := by omega
    have hindex : k + 1 + front.length = front.length + (k + 1) := by omega
    rw [hindex, List.getElem?_append_right (by omega), Nat.add_sub_cancel_left,
      List.getElem?_cons_succ, List.getElem?_append_left hk] at hspace
    exact absurd (List.mem_of_getElem? hspace) hrun

/-- A run between two spaces is known from any occurrence of it with all that is around it. -/
theorem run_eq_of_occurs {front run run' back : List Char} (hrun : ' ' ∉ run')
    (h : front ++ ' ' :: (run ++ ' ' :: back) <:+: front ++ ' ' :: (run' ++ ' ' :: back)) :
    run = run' := by
  obtain ⟨before, behind, h⟩ := h
  have hlen := congrArg List.length h
  simp only [List.length_append, List.length_cons] at hlen
  have hmoved : before ++ (front ++ ' ' :: (run ++ ' ' :: back ++ behind)) =
      front ++ ' ' :: (run' ++ ' ' :: back) := by
    rw [← h]
    simp
  have hbefore : before = [] := eq_nil_of_moved hrun (by omega) hmoved
  -- read backwards, what stands behind the run stands in front of it
  have hbackwards : behind.reverse ++ (back.reverse ++ ' ' ::
      (run.reverse ++ ' ' :: (front.reverse ++ before.reverse))) =
      back.reverse ++ ' ' :: (run'.reverse ++ ' ' :: front.reverse) := by
    simpa using congrArg List.reverse h
  have hbehind : behind.reverse = [] :=
    eq_nil_of_moved (by simpa using hrun) (by simp only [List.length_reverse]; omega) hbackwards
  rw [List.reverse_eq_nil_iff] at hbehind
  subst hbefore hbehind
  simpa using h

/-- **The time of a sentinel is known from any occurrence of it** in another of the same program. -/
theorem time_eq_of_occurs {name version : String} {e₁ e₂ : Int}
    (h : (sentinelText name version e₁).toList <:+: (sentinelText name version e₂).toList) :
    e₁ = e₂ := by
  rw [toList_sentinelText, toList_sentinelText] at h
  have hdigits : (toString e₁).toList = (toString e₂).toList :=
    run_eq_of_occurs (space_notMem_toString e₂) h
  exact toString_int_injective (String.toList_inj.mp hdigits)

/-- **Sessions never answer for each other.** For every program and any two different times, the
sentinel for the one time occurs nowhere in the sentinel for the other, and so the second prompt is
plain text to a session with the first one: its aggregator stays as it is and passes the line on. -/
theorem foreign_prompt_is_plain (name version : String) {e₁ e₂ : Int} (he : e₁ ≠ e₂) :
    ¬(sentinelText name version e₁).toList <:+: (sentinelText name version e₂).toList ∧
      (sentinelOf name version e₁).classify (sentinelText name version e₂) =
        .ok (.plain (sentinelText name version e₂)) ∧
      ∀ a : Aggregator, a.sentinel = some (sentinelOf name version e₁) →
        a.onStdout (sentinelText name version e₂) =
          .ok (a, [.tell (.log ("[stdout] " ++ sentinelText name version e₂))]) := by
  have hforeign : ¬(sentinelText name version e₁).toList <:+:
      (sentinelText name version e₂).toList := fun h => he (time_eq_of_occurs h)
  have hline : trimEnd isLineEnd (sentinelText name version e₂).toList =
      (sentinelText name version e₂).toList := by
    simpa [trimEnd] using trimEnd_sentinelText [] name version e₂ []
  have hread : Json.read? (trimEnd isLineEnd (sentinelText name version e₂).toList) = none := by
    rw [hline]
    simpa using read?_sentinelText List.not_mem_nil name version e₂ []
  have hoccurs : Sentinel.occursIn (sentinelOf name version e₁).text.toList
      (sentinelText name version e₂).toList = false := by
    rw [← Bool.not_eq_true, Sentinel.occursIn_iff]
    exact hforeign
  have hbanner : Banner.read (sentinelText name version e₂).toList = .ok none := by
    rw [toList_sentinelText]
    rfl
  have hclass : (sentinelOf name version e₁).classify (sentinelText name version e₂) =
      .ok (.plain (sentinelText name version e₂)) := by
    rw [Sentinel.classify_of_unread _ hread, hline, Sentinel.classifyText, hoccurs, hbanner,
      String.ofList_toList]
    rfl
  exact ⟨hforeign, hclass, fun a ha => Aggregator.onStdout_of_classify ha hclass⟩

/-- The digits of the one time stand among those of the other, and in the version. -/
theorem foreign_prompt_is_plain_nested :
    "12".toList <:+: "-3124".toList ∧
      (sentinelOf "- -" " 12" 12).classify "\x7b- - -  12 -3124 -\x7d" =
        .ok (.plain "\x7b- - -  12 -3124 -\x7d") ∧
      (busyWith "- -" " 12" 12).onStdout "\x7b- - -  12 -3124 -\x7d" =
        .ok (busyWith "- -" " 12" 12, [.tell (.log "[stdout] \x7b- - -  12 -3124 -\x7d")]) := by
  obtain ⟨-, hclass, hbusy⟩ :=
    foreign_prompt_is_plain "- -" " 12" (by decide : (12 : Int) ≠ -3124)
  have htext : sentinelText "- -" " 12" (-3124) = "\x7b- - -  12 -3124 -\x7d" := by decide +kernel
  rw [htext] at hclass hbusy
  exact ⟨by decide, hclass, hbusy (busyWith "- -" " 12" 12) rfl⟩

end Prompt

end GhciRelay
