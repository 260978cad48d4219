import GhciRelay.Proofs.BannerGrammar
import GhciRelay.Proofs.Prompt

/-!
# Banners in messages

A compiler that prints its messages as JSON passes a banner on in a message of its own. Such a line
means what the banner alone would mean, however the message is written (`banner_either_way`). The ways
to this are different: the line itself is searched for a sentinel, which the text in a message is not,
and it loses its line end, which the text in a message may keep. But a banner that is read goes on to
the space behind its path, which is no line end, so what is cut off behind it does not matter
(`Banner.read_trimEnd`).
-/

namespace GhciRelay

open GhciRelay.Text (trimEnd isLineEnd stripLineEnd)
open GhciRelay.Json (Rendering)

/-! ### Messages that pass on output -/

/-- **A value stands under a key**: it belongs to the last member with the key. -/
def Json.Has (members : List (String × Json)) (key : String) (v : Json) : Prop :=
  ∃ front back, members = front ++ (key, v) :: back ∧ key ∉ back.map Prod.fst

/-- No value stands under a key, or `null` does. -/
def Json.HasNone (members : List (String × Json)) (key : String) : Prop :=
  key ∉ members.map Prod.fst ∨ Json.Has members key .null

/-- **A document passes a text on**: it is the object of a message with this text, the severity of
output, and neither a reason nor a span. -/
inductive Message.PassesOn (text : String) : Json → Prop
  | object {members : List (String × Json)} (doc : Json.Has members "doc" (.text text))
    (severity : Json.Has members "severity" (.text "SevOutput"))
    (reason : Json.HasNone members "reason") (span : Json.HasNone members "span") :
    Message.PassesOn text (.object members)

theorem Json.foldl_lookup_of_notMem {key : String} : ∀ {members : List (String × Json)}
    (found : Option Json), key ∉ members.map Prod.fst →
    members.foldl (fun found m => if m.1 = key then some m.2 else found) found = found
  | [], _, _ => rfl
  | m :: members, found, h => by
    have hm : m.1 ≠ key := fun hk => h (by simp [hk])
    rw [List.foldl_cons, if_neg hm]
    exact Json.foldl_lookup_of_notMem found fun hmem => h (by simp [hmem])

theorem Json.Has.lookup {members : List (String × Json)} {key : String} {v : Json}
    (h : Json.Has members key v) : Json.lookup key members = some v := by
  obtain ⟨front, back, rfl, hback⟩ := h
  rw [Json.lookup, List.foldl_append, List.foldl_cons, if_pos rfl,
    Json.foldl_lookup_of_notMem _ hback]

theorem Json.HasNone.member {α : Type} {members : List (String × Json)} {key : String}
    (h : Json.HasNone members key) (read : Json → Option α) :
    Message.member none (Message.nullable read) (Json.lookup key members) = some none := by
  rcases h with h | h
  · rw [Json.lookup, Json.foldl_lookup_of_notMem none h]
    rfl
  · rw [h.lookup]
    rfl

theorem Message.ofJson?_of_passesOn {text : String} {doc : Json} (h : PassesOn text doc) :
    ofJson? doc = some ⟨none, none, "SevOutput", text⟩ := by
  obtain ⟨hdoc, hseverity, hreason, hspan⟩ := h
  simp only [ofJson?, hspan.member, hreason.member, hseverity.lookup, hdoc.lookup]
  rfl

/-! ### Line ends behind a banner -/

namespace Banner

theorem Layout.exists_front (l : Layout) :
    ∃ front, ∀ rest, ({ l with rest := rest } : Layout).text = front ++ ' ' :: rest :=
  ⟨['['] ++ (List.replicate l.indent ' ' ++ (l.index ++ (" of ".toList ++ (l.total ++
    ("] Compiling ".toList ++ (l.moduleName ++ (List.replicate l.gap ' ' ++ (['(', ' '] ++
      (l.sourcePath ++ [',']))))))))), fun rest => by simp [Layout.text, Naming.text]⟩

theorem Layout.text_append (l : Layout) (more : List Char) :
    ({ l with rest := l.rest ++ more } : Layout).text = l.text ++ more := by
  obtain ⟨front, hfront⟩ := l.exists_front
  rw [hfront (l.rest ++ more), show l.text = front ++ ' ' :: l.rest from hfront l.rest,
    List.append_assoc, List.cons_append]

theorem Layout.text_trimEnd (l : Layout) :
    ({ l with rest := trimEnd isLineEnd l.rest } : Layout).text = trimEnd isLineEnd l.text := by
  obtain ⟨front, hfront⟩ := l.exists_front
  rw [hfront (trimEnd isLineEnd l.rest), show l.text = front ++ ' ' :: l.rest from hfront l.rest,
    Text.trimEnd_append_cons (by decide)]

/-- **A line end behind a banner does not matter.** -/
theorem read_trimEnd (t : List Char) : read (trimEnd isLineEnd t) = read t := by
  obtain ⟨cut, hcut, -⟩ := Text.trimEnd_append_rest isLineEnd t
  by_cases h : ∃ l : Layout, l.text = t
  · obtain ⟨l, rfl⟩ := h
    obtain ⟨m, hm, hlongest⟩ := l.exists_isLongest
    rw [← hm] at hcut ⊢
    have hlongest' : ({ m with rest := trimEnd isLineEnd m.rest } : Layout).IsLongest := by
      intro k hk
      refine hlongest { k with rest := k.rest ++ cut } ?_
      rw [k.text_append, hk, m.text_trimEnd, ← hcut]
    rw [← m.text_trimEnd, hlongest'.read, hlongest.read]
    rfl
  · push Not at h
    rw [read_eq_none_iff.mpr h, read_eq_none_iff]
    intro l hl
    refine h { l with rest := l.rest ++ cut } ?_
    rw [l.text_append, hl, ← hcut]

theorem exists_cons_of_read {t : List Char} (h : read t ≠ .ok none) : ∃ rest, t = '[' :: rest := by
  rw [ne_eq, read_eq_none_iff] at h
  push Not at h
  obtain ⟨l, rfl⟩ := h
  exact ⟨_, rfl⟩

end Banner

/-! ### The two ways -/

namespace Sentinel

/-- What is made of a text in which a banner may stand. -/
def recordOf (line : String) : Option Banner → Record
  | some b => .compiling b
  | none => .plain line

/-- A banner is no message. -/
theorem ofLine?_of_read {t : List Char} (h : Banner.read t ≠ .ok none) :
    Message.ofLine? (trimEnd isLineEnd t) = none := by
  obtain ⟨rest, rfl⟩ := Banner.exists_cons_of_read h
  have htrim : trimEnd isLineEnd ('[' :: rest) = '[' :: trimEnd isLineEnd rest :=
    Text.trimEnd_append_cons (by decide) [] rest
  rw [htrim]
  rfl

/-- **A text that is printed as it is**, without the sentinel in it. -/
theorem classify_of_free {y : Sentinel} {t : String} (hfree : ¬ y.text.toList <:+: t.toList)
    (hm : Message.ofLine? (trimEnd isLineEnd t.toList) = none) :
    y.classify t = (Banner.read t.toList).map (recordOf (stripLineEnd t)) := by
  obtain ⟨cut, hcut, -⟩ := Text.trimEnd_append_rest isLineEnd t.toList
  have hoccurs : occursIn y.text.toList (trimEnd isLineEnd t.toList) = false := by
    rw [Bool.eq_false_iff, ne_eq, occursIn_iff]
    intro hin
    refine hfree (hin.trans ?_)
    exact ⟨[], cut, hcut.symm⟩
  simp only [classify, hm, classifyText, hoccurs, Banner.read_trimEnd]
  rfl

/-- **A text that is passed on in a message.** -/
theorem classify_of_passesOn (y : Sentinel) {t : String} {doc : Json} (hd : Message.PassesOn t doc)
    {line ends : List Char} (hl : Rendering doc line) (he : ∀ c ∈ ends, isLineEnd c = true) :
    y.classify (String.ofList (line ++ ends)) =
      (Banner.read t.toList).map (recordOf (stripLineEnd (String.ofList (line ++ ends)))) := by
  have hm : Message.ofLine? (trimEnd isLineEnd (line ++ ends)) = some ⟨none, none, "SevOutput", t⟩ := by
    have hj := Message.ofJson?_of_passesOn hd
    obtain ⟨hdoc, hseverity, hreason, hspan⟩ := hd
    rw [ofLine?_of_rendering hl he, hj]
  simp only [classify, String.toList_ofList, hm, classifyMessage, outputSeverity, and_self, if_true,
    stripLineEnd]
  rfl

/-- **A banner means the same with and without a message around it.** For every sentinel and every text
that does not hold it, every document that passes the text on, every way to write the document on a
line, and any line end: if the text is read as a banner, the text and the line are both taken for that
banner; if it is refused, both are refused for the same reason; and whatever an aggregator of that
session has seen before, it then does the same on both. If the text is not read as a banner, the line is
plain text, and so is the text unless it is itself a message. -/
theorem banner_either_way (y : Sentinel) {t : String} (hfree : ¬ y.text.toList <:+: t.toList)
    {doc : Json} (hd : Message.PassesOn t doc) {line ends : List Char} (hl : Rendering doc line)
    (he : ∀ c ∈ ends, isLineEnd c = true) :
    (∀ b, Banner.read t.toList = .ok (some b) → y.classify t = .ok (.compiling b) ∧
      y.classify (String.ofList (line ++ ends)) = .ok (.compiling b)) ∧
    (∀ e, Banner.read t.toList = .error e → y.classify t = .error e ∧
      y.classify (String.ofList (line ++ ends)) = .error e) ∧
    (Banner.read t.toList ≠ .ok none → ∀ a : Aggregator, a.sentinel = some y →
      a.onStdout t = a.onStdout (String.ofList (line ++ ends))) ∧
    (Banner.read t.toList = .ok none →
      y.classify (String.ofList (line ++ ends)) =
        .ok (.plain (stripLineEnd (String.ofList (line ++ ends)))) ∧
      ((Message.ofLine? (stripLineEnd t).toList).isSome = true ∨
        y.classify t = .ok (.plain (stripLineEnd t)))) := by
  have hline := y.classify_of_passesOn hd hl he
  have htext : Banner.read t.toList ≠ .ok none →
      y.classify t = (Banner.read t.toList).map (recordOf (stripLineEnd t)) :=
    fun h => classify_of_free hfree (ofLine?_of_read h)
  have hbanner : ∀ b, Banner.read t.toList = .ok (some b) → y.classify t = .ok (.compiling b) ∧
      y.classify (String.ofList (line ++ ends)) = .ok (.compiling b) := by
    intro b hb
    rw [htext (by rw [hb]; simp), hline, hb]
    exact ⟨rfl, rfl⟩
  have hrefused : ∀ e, Banner.read t.toList = .error e → y.classify t = .error e ∧
      y.classify (String.ofList (line ++ ends)) = .error e := by
    intro e hb
    rw [htext (by rw [hb]; simp), hline, hb]
    exact ⟨rfl, rfl⟩
  refine ⟨hbanner, hrefused, fun hb a ha => ?_, fun hb => ⟨?_, ?_⟩⟩
  · have hsame : y.classify t = y.classify (String.ofList (line ++ ends)) := by
      cases h : Banner.read t.toList with
      | error e => rw [(hrefused e h).1, (hrefused e h).2]
      | ok found =>
        cases found with
        | none => exact absurd h hb
        | some b => rw [(hbanner b h).1, (hbanner b h).2]
    simp only [Aggregator.onStdout, ha, hsame]
  · rw [hline, hb]
    rfl
  · rw [stripLineEnd, String.toList_ofList]
    cases hm : Message.ofLine? (trimEnd isLineEnd t.toList) with
    | some m => exact .inl rfl
    | none =>
      refine .inr ?_
      rw [classify_of_free hfree hm, hb]
      rfl

/-- A banner with a digit of another script, a bracket at the end of the name and a line end. -/
def bracketBanner : String := "[٣ of 12] Compiling A( ( A.hs, \r\n"

/-- The members of a message that passes it on; one key is repeated, and the sentinel occurs. -/
def bracketMembers : List (String × Json) :=
  [("doc", .null), ("note", .text "p>"), ("severity", .text "SevOutput"), ("reason", .null),
    ("doc", .text bracketBanner)]

/-- A line that renders the message. -/
def bracketLine : String :=
  "\x7b\"doc\":null,\"note\":\"p>\",\"severity\":\"SevOutput\",\"reason\":null," ++
    "\"doc\":\"[٣ of 12] Compiling A( ( A.hs, \\r\\n\"\x7d"

/-- The tokens in front of the text that is passed on. -/
def bracketFront : List Json.Token :=
  [.mark .openObject, .scalar (.text "doc"), .mark .colon, .scalar .null, .mark .comma,
    .scalar (.text "note"), .mark .colon, .scalar (.text "p>"), .mark .comma,
    .scalar (.text "severity"), .mark .colon, .scalar (.text "SevOutput"), .mark .comma,
    .scalar (.text "reason"), .mark .colon, .scalar .null, .mark .comma, .scalar (.text "doc"),
    .mark .colon]

theorem toList_bracketLine : bracketLine.toList = bracketFront.flatMap Json.Token.plain ++
    ([] ++ ('"' :: ("[٣ of 12] Compiling A( ( A.hs, ".toList ++
      ['\\', 'r', '\\', 'n'] ++ ['"']) ++ ([] ++ (['\x7d'] ++ [])))) := by
  decide +kernel

theorem rendering_bracket : Rendering (.object bracketMembers) bracketLine.toList := by
  have htokens : Json.tokensOf (.object bracketMembers) =
      bracketFront ++ [.scalar (.text bracketBanner), .mark .closeObject] := by
    simp [Json.tokensOf, Json.separated, bracketMembers, bracketFront]
  have hends : Json.TextSpelling ['\r', '\n'] ['\\', 'r', '\\', 'n'] :=
    .cons (.short (by decide)) (.cons (.short (by decide)) .nil)
  have htext : bracketBanner.toList =
      "[٣ of 12] Compiling A( ( A.hs, ".toList ++ ['\r', '\n'] := by decide +kernel
  have hbanner := hends.raw_append "[٣ of 12] Compiling A( ( A.hs, ".toList
    (by decide +kernel)
  rw [← htext] at hbanner
  have hclose : Json.Spelled [.mark .closeObject] ([] ++ (['\x7d'] ++ [])) :=
    .cons (by decide) (.mark .closeObject) (.nil (by decide))
  have hdoc := Json.Spelled.cons (by decide : Json.Blanks []) (.text hbanner) hclose
  have hall := hdoc.plain bracketFront (by decide +kernel)
  refine ⟨?_, ?_⟩
  · simp [Json.depth, bracketMembers, Json.depthLimit]
  · rw [htokens, toList_bracketLine]
    exact hall

theorem passesOn_bracket : Message.PassesOn bracketBanner (.object bracketMembers) :=
  .object ⟨[("doc", .null), ("note", .text "p>"), ("severity", .text "SevOutput"), ("reason", .null)],
      [], rfl, by simp⟩
    ⟨[("doc", .null), ("note", .text "p>")], [("reason", .null), ("doc", .text bracketBanner)], rfl,
      by simp⟩
    (.inr ⟨[("doc", .null), ("note", .text "p>"), ("severity", .text "SevOutput")],
      [("doc", .text bracketBanner)], rfl, by simp⟩)
    (.inl (by simp [bracketMembers]))

/-- The sentinel occurs in the line, but not in the text. -/
theorem banner_either_way_bracket :
    occursIn "p>".toList bracketLine.toList = true ∧
      classify ⟨"p>", by decide⟩ bracketBanner = .ok (.compiling ⟨3, 12, "A(", "A.hs"⟩) ∧
      classify ⟨"p>", by decide⟩ (String.ofList (bracketLine.toList ++ ['\n'])) =
        .ok (.compiling ⟨3, 12, "A(", "A.hs"⟩) := by
  have hfree : ¬ "p>".toList <:+: bracketBanner.toList := by
    rw [← occursIn_iff]
    decide +kernel
  have hend : ∀ c ∈ ['\n'], isLineEnd c = true := List.all_eq_true.mp (by decide)
  have hread : Banner.read bracketBanner.toList = .ok (some ⟨3, 12, "A(", "A.hs"⟩) := by
    decide +kernel
  have h := banner_either_way ⟨"p>", by decide⟩ hfree passesOn_bracket rendering_bracket hend
  exact ⟨by decide +kernel, h.1 _ hread⟩

end Sentinel

end GhciRelay
