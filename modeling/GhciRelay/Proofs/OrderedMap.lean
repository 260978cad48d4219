import GhciRelay.OrderedMap
import Mathlib.Data.List.Induction
import Mathlib.Data.List.Nodup

/-!
# Maps that keep the order of insertion: the laws

A map is looked at through its keys, in order, and the value of each key. `insert` adds its key at
the end unless it is there already, `filter` and `erase` take keys away and leave the others where
they are, and the values of a map are those of its keys, in order (`values_eq`).
-/

namespace GhciRelay.OrderedMap

variable {κ ν : Type}

theorem ext {m m' : OrderedMap κ ν} (h : m.entries = m'.entries) : m = m' := by
  obtain ⟨entries, hn⟩ := m
  cases h
  rfl

theorem keys_empty : (empty : OrderedMap κ ν).keys = [] := rfl

theorem isEmpty_iff (m : OrderedMap κ ν) : m.isEmpty = true ↔ m.keys = [] := by
  simp [isEmpty, keys]

theorem eq_empty_of_isEmpty {m : OrderedMap κ ν} (h : m.isEmpty = true) : m = empty := by
  obtain ⟨entries, hn⟩ := m
  have he : entries = [] := by simpa [isEmpty] using h
  subst he
  rfl

theorem nodup_keys (m : OrderedMap κ ν) : m.keys.Nodup := m.nodup

variable [DecidableEq κ]

/-! ### Looking up a key -/

theorem get?_eq_some {m : OrderedMap κ ν} {k : κ} {v : ν} :
    m.get? k = some v ↔ (k, v) ∈ m.entries := by
  constructor
  · intro h
    obtain ⟨e, he, rfl⟩ := Option.map_eq_some_iff.mp h
    have hk : e.1 = k := by simpa using List.find?_some he
    subst hk
    exact List.mem_of_find?_eq_some he
  · intro h
    have hfind : (m.entries.find? (·.1 = k)).isSome := by
      rw [List.find?_isSome]; exact ⟨(k, v), h, by simp⟩
    obtain ⟨e, he⟩ := Option.isSome_iff_exists.mp hfind
    have hk : e.1 = k := by simpa using List.find?_some he
    have hm := List.mem_of_find?_eq_some he
    -- two entries with one key are the same entry
    have heq : e = (k, v) := List.inj_on_of_nodup_map m.nodup hm h hk
    rw [get?, he, heq]; rfl

theorem mem_keys {m : OrderedMap κ ν} {k : κ} : k ∈ m.keys ↔ ∃ v, m.get? k = some v := by
  simp only [get?_eq_some, keys, List.mem_map]
  constructor
  · rintro ⟨⟨k', v⟩, h, rfl⟩; exact ⟨v, h⟩
  · rintro ⟨v, h⟩; exact ⟨(k, v), h, rfl⟩

theorem get?_eq_none {m : OrderedMap κ ν} {k : κ} : m.get? k = none ↔ k ∉ m.keys := by
  rw [mem_keys, Option.eq_none_iff_forall_ne_some, not_exists]

/-- **The values of a map** are those of its keys, in order. -/
theorem values_eq (m : OrderedMap κ ν) : m.values.map some = m.keys.map m.get? := by
  rw [values, keys, List.map_map, List.map_map]
  refine List.map_congr_left fun e he => ?_
  exact (get?_eq_some.mpr he).symm

/-! ### Giving a key a value -/

theorem find?_put (k k' : κ) (v : ν) : ∀ l : List (κ × ν),
    (put k v l).find? (·.1 = k') = if k' = k then some (k, v) else l.find? (·.1 = k')
  | [] => by
    by_cases h : k' = k
    · simp [put, h]
    · simp [put, h, Ne.symm h]
  | e :: rest => by
    by_cases h : e.1 = k
    · by_cases h' : k' = k
      · simp [put, h, h']
      · simp [put, h, h', Ne.symm h']
    · by_cases h' : e.1 = k'
      · have hne : k' ≠ k := fun h'' => h (h'.trans h'')
        simp [put, h', hne]
      · simp only [put, if_neg h, List.find?_cons, h', decide_false, find?_put k k' v rest]

theorem get?_insert (m : OrderedMap κ ν) (k k' : κ) (v : ν) :
    (m.insert k v).get? k' = if k' = k then some v else m.get? k' := by
  rw [get?, insert, find?_put]
  split <;> rfl

theorem get?_insert_self (m : OrderedMap κ ν) (k : κ) (v : ν) : (m.insert k v).get? k = some v := by
  rw [get?_insert, if_pos rfl]

theorem get?_insert_of_ne (m : OrderedMap κ ν) {k k' : κ} (h : k' ≠ k) (v : ν) :
    (m.insert k v).get? k' = m.get? k' := by
  rw [get?_insert, if_neg h]

theorem put_put (k : κ) (v w : ν) : ∀ l : List (κ × ν), put k w (put k v l) = put k w l
  | [] => by simp [put]
  | e :: rest => by
    by_cases h : e.1 = k
    · simp [put, h]
    · simp only [put, if_neg h, put_put k v w rest]

theorem insert_insert (m : OrderedMap κ ν) (k : κ) (v w : ν) :
    (m.insert k v).insert k w = m.insert k w :=
  ext (put_put k v w m.entries)

theorem put_of_find? {k : κ} {e : κ × ν} : ∀ {l : List (κ × ν)}, l.find? (·.1 = k) = some e →
    put k e.2 l = l
  | [], h => by cases h
  | e' :: rest, h => by
    by_cases hk : e'.1 = k
    · simp only [List.find?_cons, hk, decide_true, Option.some.injEq] at h
      subst h
      rw [put, if_pos hk, ← hk]
    · simp only [List.find?_cons, hk, decide_false] at h
      rw [put, if_neg hk, put_of_find? h]

theorem insert_of_get? {m : OrderedMap κ ν} {k : κ} {v : ν} (h : m.get? k = some v) :
    m.insert k v = m := by
  obtain ⟨e, he, rfl⟩ := Option.map_eq_some_iff.mp h
  exact ext (put_of_find? he)

theorem keys_insert (m : OrderedMap κ ν) (k : κ) (v : ν) :
    (m.insert k v).keys = if k ∈ m.keys then m.keys else m.keys ++ [k] :=
  map_fst_put k v m.entries

theorem mem_keys_insert {m : OrderedMap κ ν} {k k' : κ} {v : ν} :
    k' ∈ (m.insert k v).keys ↔ k' = k ∨ k' ∈ m.keys := by
  rw [keys_insert]
  by_cases h : k ∈ m.keys
  · rw [if_pos h]
    exact ⟨Or.inr, fun h' => h'.elim (fun he => he ▸ h) id⟩
  · simp [h, or_comm]

/-- In order of first occurrence, a key that is inserted counts as one more occurrence. -/
theorem keys_insert_eraseDups {m : OrderedMap κ ν} {l : List κ} (h : m.keys = l.eraseDups) (k : κ)
    (v : ν) : (m.insert k v).keys = (l ++ [k]).eraseDups := by
  rw [keys_insert, h, List.eraseDups_append]
  by_cases hk : k ∈ l
  · rw [if_pos (List.mem_eraseDups.mpr hk)]
    simp [List.removeAll, hk]
  · rw [if_neg fun h' => hk (List.mem_eraseDups.mp h')]
    simp [List.removeAll, hk, List.eraseDups_cons]

theorem eraseDups_filter (p : κ → Bool) (l : List κ) :
    (l.filter p).eraseDups = l.eraseDups.filter p := by
  induction l using List.reverseRecOn with
  | nil => rfl
  | append_singleton l a ih =>
    rw [List.filter_append, List.eraseDups_append, List.eraseDups_append, List.filter_append, ih]
    congr 1
    by_cases ha : p a = true
    · by_cases hm : a ∈ l
      · simp [List.removeAll, ha, hm]
      · simp [List.removeAll, ha, hm, List.eraseDups_cons]
    · by_cases hm : a ∈ l
      · simp [List.removeAll, ha, hm]
      · simp [List.removeAll, ha, hm, List.eraseDups_cons]

theorem eraseDups_eq_nil {l : List κ} : l.eraseDups = [] ↔ l = [] := by
  constructor
  · intro h
    refine List.eq_nil_iff_forall_not_mem.mpr fun a ha => ?_
    have := List.mem_eraseDups.mpr ha
    rw [h] at this
    simp at this
  · rintro rfl; rfl

/-! ### Taking keys away -/

theorem get?_filter (p : κ → ν → Bool) (m : OrderedMap κ ν) (k : κ) :
    (m.filter p).get? k = (m.get? k).filter (p k) := by
  refine Option.ext fun v => ?_
  rw [get?_eq_some, filter, List.mem_filter, Option.filter_eq_some_iff, get?_eq_some]

theorem keys_filter (p : κ → Bool) (q : κ → ν → Bool) (m : OrderedMap κ ν)
    (h : ∀ k v, m.get? k = some v → q k v = p k) : (m.filter q).keys = m.keys.filter p := by
  rw [keys, keys, filter, List.filter_map]
  congr 1
  refine List.filter_congr fun e he => ?_
  exact h e.1 e.2 (get?_eq_some.mpr he)

theorem get?_erase (m : OrderedMap κ ν) (k k' : κ) :
    (m.erase k).get? k' = if k' = k then none else m.get? k' := by
  rw [erase, get?_filter]
  by_cases h : k' = k
  · rw [if_pos h]
    exact Option.filter_eq_none_iff.mpr (by simp [h])
  · rw [if_neg h]
    cases m.get? k' with
    | none => rfl
    | some v => simp [h]

end GhciRelay.OrderedMap
