import GhciRelay.Proofs.FileUri
import GhciRelay.Proofs.NormalPath

/-!
# Spellings of a path

However a path is spelled, its file has one URI (`spellings_share_uri`). A `.`, a repeated slash, or a
segment and `..` behind it may stand anywhere behind the leading slashes of a path; the normal path may
be given instead, and so may the path with its directory in front.

The carrying fact is that the directory and the leading slashes of the path determine what stands on the
stack of segments before those of the path come (`exists_front`); then a detour is a pair of steps that
leaves the stack as it was (`push_parent`).
-/

namespace GhciRelay

namespace Path

/-- **Segments that lead nowhere**: the one that stays, or any other and the way back. -/
inductive Detour : List (List Char) → Prop
  | stay : Detour [['.']]
  | back {segment : List Char} (slashFree : '/' ∉ segment) (named : segment ≠ [])
    (leaves : segment ≠ ['.']) (descends : segment ≠ ['.', '.']) : Detour [segment, ['.', '.']]

/-- The text with leading slashes and segments. -/
def written (slashes : Nat) (segments : List (List Char)) : List Char :=
  List.replicate slashes '/' ++ ['/'].intercalate segments

theorem Detour.slashFree {detour : List (List Char)} (h : Detour detour) :
    ∀ segment ∈ detour, '/' ∉ segment := by
  cases h with
  | stay => simp
  | back slashFree _ _ _ => simpa using slashFree

theorem Detour.first {detour : List (List Char)} (h : Detour detour) :
    detour ≠ [] ∧ detour.head? ≠ some [] := by
  cases h with
  | stay => simp
  | back _ named _ _ => simpa using named

/-- **A detour leaves the stack as it was.** -/
theorem Detour.foldl_push {detour : List (List Char)} (h : Detour detour) (absolute : Bool)
    (stack : List (List Char)) : (detour.filter isProper).foldl (push absolute) stack = stack := by
  cases h with
  | stay => rfl
  | @back segment _ named leaves descends =>
    have hproper : isProper segment = true := by simp [isProper, named, leaves]
    have hfilter : [segment, ['.', '.']].filter isProper = [segment, parent] := by
      rw [List.filter_cons_of_pos hproper]
      rfl
    rw [hfilter]
    exact push_parent descends stack

/-- Segments that leave every stack as it was do not matter to a path. -/
theorem collapse_insert {inserted : List (List Char)}
    (h : ∀ absolute stack, (inserted.filter isProper).foldl (push absolute) stack = stack)
    (slashes : Nat) (front before after : List (List Char)) :
    collapse ⟨slashes, front ++ (before ++ inserted ++ after).filter isProper⟩ =
      collapse ⟨slashes, front ++ (before ++ after).filter isProper⟩ := by
  simp only [collapse, isAbsolute, List.filter_append, List.foldl_append, h]

/-- **What comes before the segments of a path** depends on the directory and on the leading slashes of
the path only. -/
theorem exists_front (base : List Char) (slashes : Nat) :
    ∃ front : Path, ∀ s segments, Segmented s slashes segments →
      parse (join base s) = ⟨front.slashes, front.segments ++ segments.filter isProper⟩ := by
  cases slashes with
  | zero =>
    refine ⟨parse base, fun s segments hs => ?_⟩
    rw [parse_join base fun h => hs.head?_eq_iff.mp h rfl, hs.parse_eq]
  | succ slashes =>
    refine ⟨⟨significant (slashes + 1), []⟩, fun s segments hs => ?_⟩
    rw [join, if_pos (hs.head?_eq_iff.mpr (Nat.succ_ne_zero slashes)), hs.parse_eq]
    rfl

/-- **Inserted segments that lead nowhere** do not change the normal form of a path. -/
theorem normalize_insert {inserted before after : List (List Char)}
    (h : ∀ absolute stack, (inserted.filter isProper).foldl (push absolute) stack = stack)
    (base : List Char) {s s' : List Char} {slashes : Nat}
    (hs : Segmented s slashes (before ++ after))
    (hs' : Segmented s' slashes (before ++ inserted ++ after)) :
    normalize (join base s') = normalize (join base s) := by
  obtain ⟨front, hfront⟩ := exists_front base slashes
  rw [normalize, normalize, hfront s _ hs, hfront s' _ hs', collapse_insert h]

theorem Segmented.insert {s : List Char} {slashes : Nat} {before inserted after : List (List Char)}
    (hs : Segmented s slashes (before ++ after)) (hfree : ∀ segment ∈ inserted, '/' ∉ segment)
    (hfirst : before ≠ [] ∨ inserted ≠ [] ∧ inserted.head? ≠ some []) :
    Segmented (written slashes (before ++ inserted ++ after)) slashes
      (before ++ inserted ++ after) := by
  refine ⟨rfl, fun segment hsegment => ?_, ?_⟩
  · simp only [List.mem_append] at hsegment
    rcases hsegment with (hsegment | hsegment) | hsegment
    · exact hs.slashFree segment (by simp [hsegment])
    · exact hfree segment hsegment
    · exact hs.slashFree segment (by simp [hsegment])
  · have hold := hs.first
    cases before with
    | cons segment before => exact hold
    | nil =>
      obtain ⟨hne, hhead⟩ := hfirst.resolve_left (fun h => h rfl)
      obtain ⟨segment, rest, rfl⟩ := List.exists_cons_of_ne_nil hne
      exact hhead

end Path

namespace FileUri

theorem ofPath?_of_rooted {base path : String}
    (h : (Path.isRooted path || Path.isRooted base) = true) : ofPath? base path =
      some (ofNormal (Path.normalize (Path.join base.toList path.toList))) := by
  rw [ofPath?_eq, if_pos h]

theorem ofPath?_absolute {path : String} (h : Path.isRooted path = true) (base : String) :
    ofPath? base path = some (ofNormal (Path.normalize path.toList)) := by
  have hhead : path.toList.head? = some '/' := by simpa [Path.isRooted] using h
  rw [ofPath?_of_rooted (by rw [h, Bool.true_or]), Path.join, if_pos hhead]

theorem ofPath?_insert {root path : String} (hroot : Path.isRooted root = true) {slashes : Nat}
    {before inserted after : List (List Char)}
    (hs : Path.Segmented path.toList slashes (before ++ after))
    (hfree : ∀ segment ∈ inserted, '/' ∉ segment)
    (hfirst : before ≠ [] ∨ inserted ≠ [] ∧ inserted.head? ≠ some [])
    (h : ∀ absolute stack, (inserted.filter Path.isProper).foldl (Path.push absolute) stack = stack) :
    ofPath? root (String.ofList (Path.written slashes (before ++ inserted ++ after))) =
      ofPath? root path := by
  have hrooted : ∀ other, (Path.isRooted other || Path.isRooted root) = true :=
    fun other => by rw [hroot, Bool.or_true]
  rw [ofPath?_of_rooted (hrooted _), ofPath?_of_rooted (hrooted _), String.toList_ofList,
    Path.normalize_insert h root.toList hs (hs.insert hfree hfirst)]

/-- **All spellings of a file have one URI.** For every absolute directory and every path there is a
URI, that of the normal path, and

* the normal path is one or two slashes and segments of which none is empty, `.` or `..`;
* the normal path has the same URI, seen from anywhere;
* so have, wherever the path is divided into segments, the paths with a detour at that place, and with
  another slash there if it is behind a segment;
* so has a relative path with the directory and a slash in front of it, seen from anywhere, if the
  directory does not end in a slash. -/
theorem spellings_share_uri (root path : String) (hroot : Path.isRooted root = true) :
    ∃ uri normal, ofPath? root path = some uri ∧
      normal = Path.normalize (Path.join root.toList path.toList) ∧
      (∃ slashes segments, (slashes = 1 ∨ slashes = 2) ∧ normal = Path.written slashes segments ∧
        ∀ segment ∈ segments, '/' ∉ segment ∧ segment ≠ [] ∧ segment ≠ ['.'] ∧ segment ≠ ['.', '.']) ∧
      (∀ other, ofPath? other (String.ofList normal) = some uri) ∧
      (∃ slashes segments, Path.Segmented path.toList slashes segments) ∧
      (∀ slashes before after, Path.Segmented path.toList slashes (before ++ after) →
        (∀ detour, Path.Detour detour → ofPath? root (String.ofList
          (Path.written slashes (before ++ detour ++ after))) = some uri) ∧
        (before ≠ [] → ofPath? root (String.ofList
          (Path.written slashes (before ++ [[]] ++ after))) = some uri)) ∧
      (Path.isRooted path = false → root.toList.getLast? ≠ some '/' →
        ∀ other, ofPath? other (root ++ "/" ++ path) = some uri) := by
  have huri : ofPath? root path = some (ofNormal (Path.normalize (Path.join root.toList path.toList))) :=
    ofPath?_of_rooted (by rw [hroot, Bool.or_true])
  have hnormal : (Path.parse (Path.join root.toList path.toList)).collapse.IsNormal := by
    refine Path.isNormal_collapse ((Path.isAbsolute_join root path).trans ?_)
    rw [hroot, Bool.or_true]
  refine ⟨_, _, huri, rfl, ⟨_, _, hnormal.slashes, hnormal.render_eq, fun segment hsegment => ?_⟩,
    fun other => ?_, Path.exists_segmented path.toList, fun slashes before after hs => ⟨?_, ?_⟩,
    fun hpath hlast other => ?_⟩
  · have hproper := hnormal.proper segment hsegment
    simp only [Path.isProper, Bool.and_eq_true, bne_iff_ne] at hproper
    refine ⟨hnormal.slashFree segment hsegment, hproper.1, hproper.2, ?_⟩
    rintro rfl
    exact hnormal.resolved hsegment
  · have hrooted : Path.isRooted (String.ofList
        (Path.normalize (Path.join root.toList path.toList))) = true := by
      have hslashes : (Path.parse (Path.join root.toList path.toList)).collapse.slashes ≠ 0 := by
        have := hnormal.slashes
        omega
      rw [Path.isRooted, String.toList_ofList]
      exact beq_iff_eq.mpr (hnormal.segmented.head?_eq_iff.mpr hslashes)
    rw [ofPath?_absolute hrooted, String.toList_ofList]
    exact congrArg (fun s => some (ofNormal s)) hnormal.normalize_render
  · intro detour hdetour
    rw [ofPath?_insert hroot hs hdetour.slashFree (.inr hdetour.first) hdetour.foldl_push, huri]
  · intro hbefore
    rw [ofPath?_insert hroot hs (by simp) (.inl hbefore) fun _ _ => rfl, huri]
  · have hhead : root.toList.head? = some '/' := by simpa [Path.isRooted] using hroot
    have hjoin : (root ++ "/" ++ path).toList = Path.join root.toList path.toList := by
      have hrelative : path.toList.head? ≠ some '/' := by simpa [Path.isRooted] using hpath
      have hne : root ≠ "" := by
        rintro rfl
        cases hhead
      rw [Path.join, if_neg hrelative, if_neg (by simpa using ⟨hne, hlast⟩)]
      simp
    have hrooted : Path.isRooted (root ++ "/" ++ path) = true := by
      rw [Path.isRooted, hjoin, Path.head?_join, hhead]
      simp
    rw [ofPath?_absolute hrooted, hjoin]

/-- A file below a directory with two leading slashes, by its path with both directories in front. -/
theorem spellings_share_uri_two_slashes :
    Path.isRooted "//w/x/.." = true ∧
      ofPath? "//w/x/.." "a/.././lib//é.hs" = some "file:////w/lib/%C3%A9.hs" ∧
      ofPath? "/v" "//w/x/../a/.././lib//é.hs" = some "file:////w/lib/%C3%A9.hs" := by
  have hroot : Path.isRooted "//w/x/.." = true := by decide +kernel
  have huri : ofPath? "//w/x/.." "a/.././lib//é.hs" = some "file:////w/lib/%C3%A9.hs" := by
    decide +kernel
  obtain ⟨uri, normal, h, -, -, -, -, -, hjoined⟩ :=
    spellings_share_uri "//w/x/.." "a/.././lib//é.hs" hroot
  obtain rfl := Option.some_inj.mp (h.symm.trans huri)
  exact ⟨hroot, huri, hjoined (by decide +kernel) (by decide +kernel) "/v"⟩

end FileUri

end GhciRelay
