import GhciRelay.Output.Record
import GhciRelay.Proofs.JsonReading
import Mathlib.Data.List.Nodup

/-!
# Compiler messages on the wire

A line that renders the object of a compiler message, in whatever way the notation allows, is taken
for what it reports (`classify_of_rendering`): the members may come in any order and among others, and
it does not matter whether the sentinel occurs in the line.
-/

namespace GhciRelay

open GhciRelay.Json (Rendering Spelled TextSpelling CharSpelling UnitSpelling Blanks tokensOf)

/-! ### Members of an object -/

/-- **An object holds members**: these, in any order, and perhaps others under other keys. -/
def Json.Holds (known members : List (String × Json)) : Prop :=
  ∃ extra, members.Perm (known ++ extra) ∧ ∀ m ∈ extra, m.1 ∉ known.map Prod.fst

theorem Json.lookup_eq_some {key : String} {v : Json} {members : List (String × Json)}
    (hm : (key, v) ∈ members) (hv : ∀ m ∈ members, m.1 = key → m.2 = v) :
    Json.lookup key members = some v := by
  have hfold : ∀ (ms : List (String × Json)) (found : Option Json),
      (∀ m ∈ ms, m.1 = key → m.2 = v) → (found = some v ∨ ∃ m ∈ ms, m.1 = key) →
      ms.foldl (fun found m => if m.1 = key then some m.2 else found) found = some v := by
    intro ms
    induction ms with
    | nil =>
      rintro found - (h | ⟨m, hm, -⟩)
      · exact h
      · cases hm
    | cons m ms ih =>
      intro found hv h
      rw [List.foldl_cons]
      refine ih _ (fun m' h' => hv m' (by simp [h'])) ?_
      by_cases hk : m.1 = key
      · exact .inl (by rw [if_pos hk, hv m (by simp) hk])
      · rw [if_neg hk]
        rcases h with h | ⟨m', hm', hk'⟩
        · exact .inl h
        · rcases List.mem_cons.mp hm' with rfl | hm'
          · exact absurd hk' hk
          · exact .inr ⟨m', hm', hk'⟩
  exact hfold members none hv (.inr ⟨_, hm, rfl⟩)

theorem Json.Holds.lookup {known members : List (String × Json)} (h : Json.Holds known members)
    (hn : (known.map Prod.fst).Nodup) {key : String} {v : Json} (hm : (key, v) ∈ known) :
    Json.lookup key members = some v := by
  obtain ⟨extra, hp, he⟩ := h
  refine Json.lookup_eq_some (hp.mem_iff.mpr (by simp [hm])) fun m hm' hk => ?_
  rcases List.mem_append.mp (hp.mem_iff.mp hm') with h' | h'
  · have hpair : m = (key, v) := List.inj_on_of_nodup_map hn h' hm hk
    rw [hpair]
  · refine absurd (List.mem_map.mpr ⟨_, hm, ?_⟩) (he m h')
    exact hk.symm

/-! ### What a document describes -/

/-- The members that describe a span. -/
def Span.members (s : Span) : List (String × Json) :=
  [("file", .text s.file), ("startLine", .number (.integer s.startLine)),
    ("startCol", .number (.integer s.startCol)), ("endLine", .number (.integer s.endLine)),
    ("endCol", .number (.integer s.endCol))]

/-- The coordinates of a span are counted from one. -/
structure Span.Positive (s : Span) : Prop where
  startLine : 1 ≤ s.startLine
  startCol : 1 ≤ s.startCol
  endLine : 1 ≤ s.endLine
  endCol : 1 ≤ s.endCol

/-- The members that describe a report, around its span. -/
def Report.members (r : Report) (span : Json) : List (String × Json) :=
  [("span", span), ("reason", r.reason.elim .null .text), ("severity", .text r.severity),
    ("doc", .text r.doc)]

/-- **A document describes a report** if it is an object that holds its members, and one of them is an
object that holds those of its span. -/
inductive Report.Describes (r : Report) : Json → Prop
  | object {members span : List (String × Json)} (outer : Json.Holds (r.members (.object span)) members)
    (inner : Json.Holds r.span.members span) : Report.Describes r (.object members)

namespace Message

theorem coordinateMember?_of_holds {known members : List (String × Json)}
    (h : Json.Holds known members) (hk : (known.map Prod.fst).Nodup) (first second : String) {n : Int}
    (hm : (first, .number (.integer n)) ∈ known) (hn : 1 ≤ n) :
    coordinateMember? members first second = some n := by
  simp [coordinateMember?, eitherMember, h.lookup hk hm, coordinate?, integer?, hn]

/-- **A span is read from any object that holds its members.** -/
theorem span?_of_holds {s : Span} (hs : s.Positive) {members : List (String × Json)}
    (h : Json.Holds s.members members) : span? (.object members) = some s := by
  have hkeys : (s.members.map Prod.fst).Nodup := by simp [Span.members]
  have hfile : Json.lookup "file" members = some (.text s.file) :=
    h.lookup hkeys (by simp [Span.members])
  have h₁ := coordinateMember?_of_holds h hkeys "startLine" "start_line" (by simp [Span.members])
    hs.startLine
  have h₂ := coordinateMember?_of_holds h hkeys "startCol" "start_col" (by simp [Span.members])
    hs.startCol
  have h₃ := coordinateMember?_of_holds h hkeys "endLine" "end_line" (by simp [Span.members])
    hs.endLine
  have h₄ := coordinateMember?_of_holds h hkeys "endCol" "end_col" (by simp [Span.members])
    hs.endCol
  simp [span?, hfile, Json.text?, h₁, h₂, h₃, h₄]

/-- **A report is read from any document that describes it.** -/
theorem ofJson?_of_describes {r : Report} (hr : r.span.Positive) {doc : Json} (h : r.Describes doc) :
    ofJson? doc = some ⟨some r.span, r.reason, r.severity, r.doc⟩ := by
  obtain @⟨members, span, outer, inner⟩ := h
  have hkeys : ((r.members (.object span)).map Prod.fst).Nodup := by simp [Report.members]
  have hspan : Json.lookup "span" members = some (.object span) :=
    outer.lookup hkeys (by simp [Report.members])
  have hreason : Json.lookup "reason" members = some (r.reason.elim .null .text) :=
    outer.lookup hkeys (by simp [Report.members])
  have hseverity : Json.lookup "severity" members = some (.text r.severity) :=
    outer.lookup hkeys (by simp [Report.members])
  have hdoc : Json.lookup "doc" members = some (.text r.doc) :=
    outer.lookup hkeys (by simp [Report.members])
  have hnullable : nullable Json.text? (r.reason.elim .null .text) = some r.reason := by
    cases r.reason <;> rfl
  have hobject : nullable span? (.object span) = some (some r.span) := by
    rw [nullable, span?_of_holds hr inner]
    · rfl
    · simp
  simp only [ofJson?, hspan, hreason, hseverity, hdoc, member, hnullable, hobject, Json.text?]
  rfl

end Message

/-! ### Lines -/

namespace Text

theorem trimEnd_append_rest (p : Char → Bool) (s : List Char) :
    ∃ rest, s = trimEnd p s ++ rest ∧ ∀ c ∈ rest, p c = true := by
  refine ⟨(s.reverse.takeWhile p).reverse, ?_, fun c hc => ?_⟩
  · rw [trimEnd, ← List.reverse_append, List.takeWhile_append_dropWhile, List.reverse_reverse]
  · exact List.all_eq_true.mp List.all_takeWhile c (List.mem_reverse.mp hc)

/-- Nothing is cut off in front of a character that is not of the class. -/
theorem trimEnd_append_cons {p : Char → Bool} {c : Char} (hc : p c = false) (front rest : List Char) :
    trimEnd p (front ++ c :: rest) = front ++ c :: trimEnd p rest := by
  unfold trimEnd
  rw [List.reverse_append, List.reverse_cons, List.append_assoc, List.dropWhile_append]
  split
  · next h =>
    rw [List.isEmpty_iff] at h
    simp [h, hc]
  · simp

theorem exists_replicate_append (c : Char) (s : List Char) :
    ∃ count rest, s = List.replicate count c ++ rest ∧ rest.head? ≠ some c := by
  induction s with
  | nil => exact ⟨0, [], rfl, by simp⟩
  | cons d s ih =>
    by_cases hd : d = c
    · obtain ⟨count, rest, rfl, hrest⟩ := ih
      exact ⟨count + 1, rest, by rw [hd]; rfl, hrest⟩
    · exact ⟨0, d :: s, rfl, by simpa using hd⟩

end Text

namespace Sentinel

open GhciRelay.Text (trimEnd isLineEnd stripLineEnd)

theorem blanks_of_isLineEnd {cs : List Char} (h : ∀ c ∈ cs, isLineEnd c = true) : Blanks cs := by
  intro c hc
  have hl := h c hc
  simp only [isLineEnd, Bool.or_eq_true, beq_iff_eq] at hl
  rcases hl with rfl | rfl <;> simp

theorem exists_brace {members : List (String × Json)} {cs : List Char}
    (h : Spelled (tokensOf (.object members)) cs) :
    ∃ blanks rest, cs = blanks ++ '\x7b' :: rest ∧ Blanks blanks := by
  rw [tokensOf] at h
  cases h with
  | @cons blanks _ rest _ _ hb first more =>
    cases first
    exact ⟨blanks, rest, rfl, hb⟩

/-- **A line that renders an object** is read as that object, without its line end. -/
theorem ofLine?_of_rendering {members : List (String × Json)} {line ends : List Char}
    (h : Rendering (.object members) line) (he : ∀ c ∈ ends, isLineEnd c = true) :
    Message.ofLine? (trimEnd isLineEnd (line ++ ends)) = Message.ofJson? (.object members) := by
  have hread : Json.read? (trimEnd isLineEnd (line ++ ends)) = some (.object members) := by
    obtain ⟨rest, hr, hrest⟩ := Text.trimEnd_append_rest isLineEnd (line ++ ends)
    rw [← Json.read?_append_blanks _ (blanks_of_isLineEnd hrest), ← hr,
      Json.read?_append_blanks _ (blanks_of_isLineEnd he), Json.read?_of_rendering h]
  obtain ⟨blanks, rest, rfl, hb⟩ := exists_brace h.spelled
  have hblank : ∀ c ∈ blanks, Text.isBlank c = true := by
    have hall : [' ', '\t', '\r', '\n'].all Text.isBlank = true := by decide
    exact fun c hc => List.all_eq_true.mp hall c (hb c hc)
  rw [List.append_assoc, List.cons_append] at hread ⊢
  rw [Text.trimEnd_append_cons (by decide)] at hread ⊢
  have hdrop : (blanks ++ '\x7b' :: trimEnd isLineEnd (rest ++ ends)).dropWhile Text.isBlank =
      '\x7b' :: trimEnd isLineEnd (rest ++ ends) := by
    rw [List.dropWhile_append_of_pos hblank]
    rfl
  rw [Message.ofLine?, hdrop]
  simp only [hread, Option.bind_some]

/-- **A report is decoded from every rendering of it.** For every sentinel, whether or not it occurs
in the line; for every report with coordinates from one on; for every document that describes the
report, its members in any order and among any others; for every way to write that document on a line,
and any line end: the line is taken for exactly that report, or, if the report is about what was typed
at the prompt, for the line itself without its line end. -/
theorem classify_of_rendering (y : Sentinel) {r : Report} (hr : r.span.Positive) {doc : Json}
    (hd : r.Describes doc) {line ends : List Char} (hl : Rendering doc line)
    (he : ∀ c ∈ ends, isLineEnd c = true) :
    y.classify (String.ofList (line ++ ends)) =
      .ok (if r.span.file = "<interactive>" then
        .interactive (stripLineEnd (String.ofList (line ++ ends))) else .report r) := by
  have hm : Message.ofLine? (trimEnd isLineEnd (line ++ ends)) =
      some ⟨some r.span, r.reason, r.severity, r.doc⟩ := by
    have hj := Message.ofJson?_of_describes hr hd
    obtain ⟨outer, inner⟩ := hd
    rw [ofLine?_of_rendering hl he, hj]
  simp only [classify, String.toList_ofList, hm, classifyMessage, stripLineEnd, interactiveFile]
  split <;> rfl

/-- A report whose text holds a prompt and a character beyond the basic plane. -/
def faceReport : Report := ⟨⟨"A.hs", 1, 2, 3, 14⟩, none, "SevError", "p> 😀"⟩

/-- The members of its span, behind another one. -/
def faceSpan : List (String × Json) := [("y", .bool true)] ++ faceReport.span.members

/-- Its members, behind another one. -/
def faceMembers : List (String × Json) :=
  [("x", .list [.number (.integer (-5)), .object []])] ++ faceReport.members (.object faceSpan)

/-- A line that renders them, with a surrogate pair. -/
def faceLine : String :=
  "\x7b\"x\":[-5,\x7b\x7d],\"span\":\x7b\"y\":true,\"file\":\"A.hs\",\"startLine\":1,\"startCol\":2," ++
    "\"endLine\":3,\"endCol\":14\x7d,\"reason\":null,\"severity\":\"SevError\"," ++
    "\"doc\":\"p> \\ud83D\\uDE00\" \x7d"

/-- The tokens that the line writes plainly, before the text of the message. -/
def faceFront : List Json.Token :=
  [.mark .openObject, .scalar (.text "x"), .mark .colon, .mark .openList,
    .scalar (.number (.integer (-5))), .mark .comma, .mark .openObject, .mark .closeObject,
    .mark .closeList, .mark .comma, .scalar (.text "span"), .mark .colon, .mark .openObject,
    .scalar (.text "y"), .mark .colon, .scalar (.bool true), .mark .comma, .scalar (.text "file"),
    .mark .colon, .scalar (.text "A.hs"), .mark .comma, .scalar (.text "startLine"), .mark .colon,
    .scalar (.number (.integer 1)), .mark .comma, .scalar (.text "startCol"), .mark .colon,
    .scalar (.number (.integer 2)), .mark .comma, .scalar (.text "endLine"), .mark .colon,
    .scalar (.number (.integer 3)), .mark .comma, .scalar (.text "endCol"), .mark .colon,
    .scalar (.number (.integer 14)), .mark .closeObject, .mark .comma, .scalar (.text "reason"),
    .mark .colon, .scalar .null, .mark .comma, .scalar (.text "severity"), .mark .colon,
    .scalar (.text "SevError"), .mark .comma, .scalar (.text "doc"), .mark .colon]

theorem describes_face : faceReport.Describes (.object faceMembers) :=
  .object ⟨_, List.perm_append_comm, by simp [Report.members]⟩
    ⟨_, List.perm_append_comm, by simp [Span.members]⟩

theorem textSpelling_face : TextSpelling "p> 😀".toList "p> \\ud83D\\uDE00".toList := by
  have hhigh : UnitSpelling 0xd83d ['\\', 'u', 'd', '8', '3', 'D'] :=
    .digits (a := 13) (b := 8) (c := 3) (d := 13) (by decide) (by decide) (by decide) (by decide)
  have hlow : UnitSpelling 0xde00 ['\\', 'u', 'D', 'E', '0', '0'] :=
    .digits (a := 13) (b := 14) (c := 0) (d := 0) (by decide) (by decide) (by decide) (by decide)
  have hface : CharSpelling '😀' ("\\ud83D".toList ++ "\\uDE00".toList) :=
    .pair (by decide) hhigh hlow
  exact .cons (.raw (by decide) (by decide) (by decide)) (.cons (.raw (by decide) (by decide)
    (by decide)) (.cons (.raw (by decide) (by decide) (by decide)) (.cons hface .nil)))

theorem toList_faceLine : faceLine.toList = faceFront.flatMap Json.Token.plain ++
    ([] ++ ('"' :: ("p> \\ud83D\\uDE00".toList ++ ['"']) ++ ([' '] ++ (['\x7d'] ++ [])))) := by
  decide +kernel

theorem rendering_face : Rendering (.object faceMembers) faceLine.toList := by
  have htokens : tokensOf (.object faceMembers) =
      faceFront ++ [.scalar (.text "p> 😀"), .mark .closeObject] := by
    simp [tokensOf, Json.separated, faceMembers, faceSpan, Report.members, Span.members, faceReport,
      faceFront]
  have hend : Spelled [.mark .closeObject] ([' '] ++ (['\x7d'] ++ [])) :=
    .cons (by decide) (.mark .closeObject) (.nil (by decide))
  have hdoc := Spelled.cons (by decide : Blanks []) (.text textSpelling_face) hend
  have hall := hdoc.plain faceFront (by decide +kernel)
  refine ⟨?_, ?_⟩
  · simp [Json.depth, faceMembers, faceSpan, Report.members, Span.members, faceReport,
      Json.depthLimit]
  · rw [htokens, toList_faceLine]
    exact hall

theorem classify_of_rendering_face :
    occursIn "p>".toList faceLine.toList = true ∧ faceReport.span.Positive ∧
      faceReport.Describes (.object faceMembers) ∧
      Rendering (.object faceMembers) faceLine.toList ∧
      classify ⟨"p>", by decide⟩ (faceLine ++ "\r\n") = .ok (.report faceReport) := by
  have hpos : faceReport.span.Positive := ⟨by decide, by decide, by decide, by decide⟩
  have hend : ∀ c ∈ "\r\n".toList, isLineEnd c = true := List.all_eq_true.mp (by decide)
  have h := classify_of_rendering ⟨"p>", by decide⟩ hpos describes_face rendering_face hend
  rw [← String.toList_append, String.ofList_toList] at h
  exact ⟨by rw [toList_faceLine]; decide +kernel, hpos, describes_face, rendering_face, h⟩

end Sentinel

end GhciRelay
