import GhciRelay.Text.Utf8
import Mathlib.Algebra.Group.Nat.Defs
import Mathlib.Data.List.Infix
import Mathlib.Tactic.Common

/-!
# Reading UTF-8: the laws

`Decodes` says what bytes mean as a text, without a machine. The bytes of a character mean it. Where
no character stands, the longest part that begins one is ill-formed, or else a single byte, and means
one replacement character; then it goes on behind that part. Every list of bytes means exactly one
text, and it is the one that is read (`decodes_iff`).

The machine is tied to the characters by `Awaits`. After the bytes `seen`, the state says of each
number whether it belongs to a character that begins with `seen`: the bits so far are the number
without its last `64`-digits, and the next byte is the next of these digits.

A line feed is a character of its own wherever it stands, so bytes may be read line by line
(`Decodes.lineFeed`).
-/

namespace GhciRelay.Text.Utf8

/-! ### What bytes mean -/

/-- The part begins a character. -/
def Begins (part : List UInt8) : Prop := ∃ c, part <+: encodeChar c

/-- **A maximal ill-formed part**, with what follows it: no character stands here, and the part is the
longest one that begins a character, or else a single byte. -/
structure IllFormed (part rest : List UInt8) : Prop where
  nonempty : part ≠ []
  unreadable : ∀ c, ¬ encodeChar c <+: part ++ rest
  begins : Begins part ∨ part.length = 1
  longest : ∀ longer, longer <+: part ++ rest → Begins longer → longer.length ≤ part.length

/-- **The meaning of bytes as a text.** -/
inductive Decodes : List UInt8 → List Char → Prop
  | nothing : Decodes [] []
  | char {rest : List UInt8} {text : List Char} (c : Char) (more : Decodes rest text) :
    Decodes (encodeChar c ++ rest) (c :: text)
  | illFormed {part rest : List UInt8} {text : List Char} (bad : IllFormed part rest)
    (more : Decodes rest text) : Decodes (part ++ rest) (replacement :: text)

/-! ### The bytes of a character -/

/-- The first byte of the character with the given number. -/
def leadByte (n : Nat) : Nat :=
  if n < 0x80 then n
  else if n < 0x800 then 0xc0 + n / 64
  else if n < 0x10000 then 0xe0 + n / 4096
  else 0xf0 + n / 262144

/-- How many bytes follow the first one. -/
def tailLength (n : Nat) : Nat :=
  if n < 0x80 then 0 else if n < 0x800 then 1 else if n < 0x10000 then 2 else 3

/-- The last `count` bytes of a character: the last digits of its number to the base 64. -/
def tailBytes : Nat → Nat → List UInt8
  | 0, _ => []
  | count + 1, n => UInt8.ofNat (0x80 + n / 64 ^ count % 64) :: tailBytes count n

theorem length_tailBytes : ∀ count n : Nat, (tailBytes count n).length = count
  | 0, _ => rfl
  | count + 1, n => congrArg (· + 1) (length_tailBytes count n)

theorem encodeChar_eq (c : Char) :
    encodeChar c = UInt8.ofNat (leadByte c.toNat) :: tailBytes (tailLength c.toNat) c.toNat := by
  unfold encodeChar leadByte tailLength
  dsimp only
  split_ifs <;> simp [tailBytes]

theorem leadByte_cases (n : Nat) :
    n < 0x80 ∧ leadByte n = n ∧ tailLength n = 0 ∨
    0x80 ≤ n ∧ n < 0x800 ∧ leadByte n = 0xc0 + n / 64 ∧ tailLength n = 1 ∨
    0x800 ≤ n ∧ n < 0x10000 ∧ leadByte n = 0xe0 + n / 4096 ∧ tailLength n = 2 ∨
    0x10000 ≤ n ∧ leadByte n = 0xf0 + n / 262144 ∧ tailLength n = 3 := by
  unfold leadByte tailLength
  split_ifs <;> omega

theorem leadByte_lt (c : Char) : leadByte c.toNat < 0x100 := by
  have h : c.toNat < 0xd800 ∨ 0xdfff < c.toNat ∧ c.toNat < 0x110000 := c.valid
  have := leadByte_cases c.toNat
  omega

theorem singleton_prefix_iff {b : UInt8} {c : Char} :
    [b] <+: encodeChar c ↔ leadByte c.toNat = b.toNat := by
  rw [encodeChar_eq, List.singleton_prefix_cons_iff]
  constructor
  · rintro rfl
    exact (UInt8.toNat_ofNat_of_lt' (leadByte_lt c)).symm
  · intro h
    rw [h, UInt8.ofNat_toNat]

/-! ### The states of the machine -/

/-- Behind the digits `code` the number goes on with a digit that is written as a byte from `low` to
`high`, and `count` more. -/
def Fits (count low high code n : Nat) : Prop :=
  n / 64 ^ (count + 1) = code ∧ low ≤ 0x80 + n / 64 ^ count % 64 ∧ 0x80 + n / 64 ^ count % 64 ≤ high

/-- **The characters that begin with `seen`** are those whose number fits a state, and what is missing
of them are their last `count + 1` bytes. -/
structure Awaits (seen : List UInt8) (count low high code : Nat) : Prop where
  nonempty : seen ≠ []
  range : 0x80 ≤ low ∧ low ≤ high ∧ high ≤ 0xbf
  unfinished : ∀ c, ¬ encodeChar c <+: seen
  follows : ∀ c, seen <+: encodeChar c →
    encodeChar c = seen ++ tailBytes (count + 1) c.toNat ∧ Fits count low high code c.toNat
  reaches : ∀ n, Fits count low high code n → ∃ c : Char, c.toNat = n ∧ seen <+: encodeChar c

theorem awaits_of_leadByte {b : UInt8} (count : Nat) {low high code : Nat}
    (hr : 0x80 ≤ low ∧ low ≤ high ∧ high ≤ 0xbf)
    (hfollows : ∀ n, n < 0xd800 ∨ 0xdfff < n ∧ n < 0x110000 → leadByte n = b.toNat →
      tailLength n = count + 1 ∧ Fits count low high code n)
    (hreaches : ∀ n, Fits count low high code n →
      (n < 0xd800 ∨ 0xdfff < n ∧ n < 0x110000) ∧ leadByte n = b.toNat) :
    Awaits [b] count low high code where
  nonempty := List.cons_ne_nil b []
  range := hr
  unfinished := by
    intro c h
    have hb : [b] <+: encodeChar c := by
      rw [encodeChar_eq, List.cons_prefix_cons] at h
      rw [encodeChar_eq, h.1]
      exact ⟨_, rfl⟩
    have hl := (hfollows c.toNat c.valid (singleton_prefix_iff.mp hb)).1
    have := h.length_le
    rw [encodeChar_eq, List.length_cons, length_tailBytes, hl, List.length_singleton] at this
    omega
  follows := by
    intro c h
    have hb := singleton_prefix_iff.mp h
    obtain ⟨hl, hfits⟩ := hfollows c.toNat c.valid hb
    refine ⟨?_, hfits⟩
    rw [encodeChar_eq, hb, hl, UInt8.ofNat_toNat, List.singleton_append]
  reaches := by
    intro n hn
    obtain ⟨hvalid, hb⟩ := hreaches n hn
    have hc : (Char.ofNat n).toNat = n := by
      rw [Char.ofNat, dif_pos hvalid]
      rfl
    exact ⟨Char.ofNat n, hc, singleton_prefix_iff.mpr (by rw [hc, hb])⟩

/-- **What a byte between characters comes to**: it is a character, or ill-formed by itself, or begins a
longer character. -/
inductive Leads (b : UInt8) : State × List Char → Prop
  | char (single : encodeChar (Char.ofNat b.toNat) = [b]) : Leads b (.start, [Char.ofNat b.toNat])
  | illFormed (stray : ¬ Begins [b]) : Leads b (.start, [replacement])
  | longer {count low high code : Nat} (awaits : Awaits [b] count low high code) :
    Leads b (.inside (count + 1) low high code, [])

theorem leads_lead (b : UInt8) : Leads b (lead b.toNat) := by
  have hb := b.toNat_lt
  have hchar : b.toNat < 0x80 → encodeChar (Char.ofNat b.toNat) = [b] := by
    intro h
    have hc : (Char.ofNat b.toNat).toNat = b.toNat := by
      rw [Char.ofNat, dif_pos (by unfold Nat.isValidChar; omega)]
      rfl
    rw [encodeChar_eq, hc, leadByte, tailLength, if_pos h, if_pos h, tailBytes, UInt8.ofNat_toNat]
  have hstray : ¬ b.toNat < 0x80 → b.toNat < 0xc2 ∨ 0xf4 < b.toNat → ¬ Begins [b] := by
    rintro h₁ h₂ ⟨c, hc⟩
    have hvalid : c.toNat < 0xd800 ∨ 0xdfff < c.toNat ∧ c.toNat < 0x110000 := c.valid
    have hcases := leadByte_cases c.toNat
    have hl := singleton_prefix_iff.mp hc
    omega
  unfold lead
  refine iteInduction (fun h₁ => .char (hchar h₁)) fun h₁ =>
    iteInduction (fun h₂ => .illFormed (hstray h₁ (.inl h₂))) fun h₂ =>
    iteInduction (fun h₃ => .longer (awaits_of_leadByte 0 (by omega) ?_ ?_)) fun h₃ =>
    iteInduction (fun h₄ => .longer (awaits_of_leadByte 1 (by omega) ?_ ?_)) fun h₄ =>
    iteInduction (fun h₅ => .longer (awaits_of_leadByte 1 (by omega) ?_ ?_)) fun h₅ =>
    iteInduction (fun h₆ => .longer (awaits_of_leadByte 1 (by omega) ?_ ?_)) fun h₆ =>
    iteInduction (fun h₇ => .longer (awaits_of_leadByte 2 (by omega) ?_ ?_)) fun h₇ =>
    iteInduction (fun h₈ => .longer (awaits_of_leadByte 2 (by omega) ?_ ?_)) fun h₈ =>
    iteInduction (fun h₉ => .longer (awaits_of_leadByte 2 (by omega) ?_ ?_)) fun h₉ =>
    .illFormed (hstray h₁ (.inr (by omega)))
  -- what is left is arithmetic with the digits of the number
  all_goals
    intro n hn
    have hcases := leadByte_cases n
    simp only [Fits, Nat.reduceAdd, Nat.reducePow] at *
    omega

section Awaits

variable {seen : List UInt8} {count low high code : Nat}

theorem Awaits.next_mem (h : Awaits seen count low high code) {b : UInt8} {c : Char}
    (hc : seen ++ [b] <+: encodeChar c) :
    (low ≤ b.toNat ∧ b.toNat ≤ high) ∧ b.toNat = 0x80 + c.toNat / 64 ^ count % 64 := by
  obtain ⟨he, -, hlow, hhigh⟩ := h.follows c ((List.prefix_append seen [b]).trans hc)
  rw [he, List.prefix_append_right_inj, tailBytes, List.singleton_prefix_cons_iff] at hc
  have hb : b.toNat = 0x80 + c.toNat / 64 ^ count % 64 := by
    rw [hc]
    exact UInt8.toNat_ofNat_of_lt' (by show _ < 256; have := h.range; omega)
  omega

theorem Awaits.fits_next (h : Awaits seen count low high code) {b : UInt8}
    (hb : low ≤ b.toNat ∧ b.toNat ≤ high) {n : Nat}
    (hn : n / 64 ^ count = code * 64 + (b.toNat - 0x80)) :
    ∃ c : Char, c.toNat = n ∧ encodeChar c = seen ++ b :: tailBytes count n := by
  have hrange := h.range
  have hdiv : n / 64 ^ (count + 1) = n / 64 ^ count / 64 := by
    rw [Nat.pow_succ, Nat.div_div_eq_div_mul]
  have hfits : Fits count low high code n := by
    unfold Fits
    omega
  obtain ⟨c, rfl, hc⟩ := h.reaches n hfits
  refine ⟨c, rfl, ?_⟩
  have hbyte : 0x80 + c.toNat / 64 ^ count % 64 = b.toNat := by omega
  rw [(h.follows c hc).1, tailBytes, hbyte, UInt8.ofNat_toNat]

/-- **The last byte** completes a character. -/
theorem Awaits.complete (h : Awaits seen 0 low high code) {b : UInt8}
    (hb : low ≤ b.toNat ∧ b.toNat ≤ high) :
    encodeChar (Char.ofNat (code * 64 + (b.toNat - 0x80))) = seen ++ [b] := by
  obtain ⟨c, hc, he⟩ := h.fits_next hb (n := code * 64 + (b.toNat - 0x80)) (by simp)
  rw [← hc, Char.ofNat_toNat, he, tailBytes]

/-- **Any other byte** leaves one byte less to wait for. -/
theorem Awaits.next (h : Awaits seen (count + 1) low high code) {b : UInt8}
    (hb : low ≤ b.toNat ∧ b.toNat ≤ high) :
    Awaits (seen ++ [b]) count 0x80 0xbf (code * 64 + (b.toNat - 0x80)) where
  nonempty := by simp
  range := by omega
  unfinished := by
    intro c hc
    rcases List.prefix_concat_iff.mp hc with hc | hc
    · have he := (h.follows c (by rw [hc]; exact List.prefix_append _ _)).1
      have := congrArg List.length (hc.symm.trans he)
      simp [length_tailBytes] at this
    · exact h.unfinished c hc
  follows := by
    intro c hc
    obtain ⟨he, hcode, -⟩ := h.follows c ((List.prefix_append seen [b]).trans hc)
    obtain ⟨-, hbyte⟩ := h.next_mem hc
    have hdiv : c.toNat / 64 ^ (count + 1 + 1) = c.toNat / 64 ^ (count + 1) / 64 := by
      rw [Nat.pow_succ, Nat.div_div_eq_div_mul]
    refine ⟨?_, ?_, by omega, by omega⟩
    · rw [he, tailBytes, ← hbyte, UInt8.ofNat_toNat, List.append_assoc, List.singleton_append]
    · omega
  reaches := by
    intro n hn
    obtain ⟨c, hc, he⟩ := h.fits_next hb hn.1
    refine ⟨c, hc, ?_⟩
    rw [he]
    exact ⟨tailBytes (count + 1) n, by simp⟩

theorem Awaits.begins (h : Awaits seen count low high code) : Begins seen := by
  have hlow : (UInt8.ofNat low).toNat = low :=
    UInt8.toNat_ofNat_of_lt' (by show _ < 256; have := h.range; omega)
  obtain ⟨c, -, he⟩ := h.fits_next (b := UInt8.ofNat low)
    (n := (code * 64 + (low - 0x80)) * 64 ^ count) (by have := h.range; omega)
    (by rw [hlow, Nat.mul_div_cancel _ (Nat.pow_pos (by omega))])
  exact ⟨c, by rw [he]; exact List.prefix_append seen _⟩

/-- If a byte out of the range follows, nothing longer begins a character. -/
theorem Awaits.stops (h : Awaits seen count low high code) {rest part : List UInt8}
    (hrest : ∀ b ∈ rest.head?, ¬ (low ≤ b.toNat ∧ b.toNat ≤ high)) (hpart : part <+: seen ++ rest)
    {c : Char} (hc : part <+: encodeChar c) : part <+: seen := by
  rcases List.prefix_or_prefix_of_prefix hpart (List.prefix_append seen rest) with hs | ⟨more, rfl⟩
  · exact hs
  · cases more with
    | nil => rw [List.append_nil]
    | cons b more =>
      obtain ⟨last, rfl⟩ := (List.prefix_append_right_inj seen).mp hpart
      have hb : seen ++ [b] <+: encodeChar c := by
        refine List.IsPrefix.trans ⟨more, ?_⟩ hc
        rw [List.append_assoc, List.singleton_append]
      exact absurd (h.next_mem hb).1 (hrest b rfl)

theorem Awaits.illFormed (h : Awaits seen count low high code) {rest : List UInt8}
    (hrest : ∀ b ∈ rest.head?, ¬ (low ≤ b.toNat ∧ b.toNat ≤ high)) : IllFormed seen rest where
  nonempty := h.nonempty
  unreadable := fun c hc => h.unfinished c (h.stops hrest hc List.prefix_rfl)
  begins := .inl h.begins
  longest := fun _ hl ⟨_, hc⟩ => (h.stops hrest hl hc).length_le

end Awaits

theorem illFormed_of_stray {b : UInt8} (h : ¬ Begins [b]) (rest : List UInt8) :
    IllFormed [b] rest := by
  have hfirst : ∀ part, part ≠ [] → part <+: [b] ++ rest → ¬ Begins part := by
    rintro part hne hp ⟨c, hc⟩
    cases part with
    | nil => exact hne rfl
    | cons x part =>
      obtain rfl : x = b := (List.cons_prefix_cons.mp hp).1
      exact h ⟨c, List.IsPrefix.trans ⟨part, rfl⟩ hc⟩
  refine ⟨List.cons_ne_nil b [], fun c hc => ?_, .inr rfl, fun longer hl hb => ?_⟩
  · exact hfirst _ (by rw [encodeChar_eq]; simp) hc ⟨c, List.prefix_rfl⟩
  · by_cases hne : longer = []
    · simp [hne]
    · exact absurd hb (hfirst longer hne hl)

/-! ### Reading -/

/-- **What is read is what the bytes mean**, from between characters and from inside one. -/
theorem decodes_decodeFrom : ∀ bs : List UInt8,
    (∀ done, ∃ text, decodeFrom .start done bs = done.reverse ++ text ∧ Decodes bs text) ∧
    ∀ {seen : List UInt8} {count low high code : Nat}, Awaits seen count low high code → ∀ done,
      ∃ text, decodeFrom (.inside (count + 1) low high code) done bs = done.reverse ++ text ∧
        Decodes (seen ++ bs) text
  | [] => by
    refine ⟨fun done => ⟨[], by simp [decodeFrom, finish], .nothing⟩, fun h done => ?_⟩
    exact ⟨[replacement], by simp [decodeFrom, finish], .illFormed (h.illFormed (by simp)) .nothing⟩
  | b :: bs => by
    obtain ⟨hstart, hinside⟩ := decodes_decodeFrom bs
    have hlead : ∀ done, ∃ text, decodeFrom .start done (b :: bs) = done.reverse ++ text ∧
        Decodes (b :: bs) text := by
      intro done
      have hl := leads_lead b
      rw [decodeFrom, step]
      generalize lead b.toNat = result at hl ⊢
      cases hl with
      | char single =>
        obtain ⟨text, ht, hd⟩ := hstart (Char.ofNat b.toNat :: done)
        refine ⟨Char.ofNat b.toNat :: text, by simpa using ht, ?_⟩
        have := Decodes.char (Char.ofNat b.toNat) hd
        rwa [single, List.singleton_append] at this
      | illFormed stray =>
        obtain ⟨text, ht, hd⟩ := hstart (replacement :: done)
        exact ⟨replacement :: text, by simpa using ht, .illFormed (illFormed_of_stray stray bs) hd⟩
      | longer awaits => exact hinside awaits done
    refine ⟨hlead, fun {seen count low high code} h done => ?_⟩
    by_cases hb : low ≤ b.toNat ∧ b.toNat ≤ high
    · cases count with
      | zero =>
        obtain ⟨text, ht, hd⟩ := hstart (Char.ofNat (code * 64 + (b.toNat - 0x80)) :: done)
        refine ⟨Char.ofNat (code * 64 + (b.toNat - 0x80)) :: text, ?_, ?_⟩
        · simpa [decodeFrom, step, hb] using ht
        · have := Decodes.char (Char.ofNat (code * 64 + (b.toNat - 0x80))) hd
          rwa [h.complete hb, List.append_assoc, List.singleton_append] at this
      | succ count =>
        obtain ⟨text, ht, hd⟩ := hinside (h.next hb) done
        refine ⟨text, ?_, by simpa using hd⟩
        simpa [decodeFrom, step, hb] using ht
    -- the byte ends the unfinished character and is read afresh
    · obtain ⟨text, ht, hd⟩ := hlead (replacement :: done)
      have hill : IllFormed seen (b :: bs) := h.illFormed fun x hx => by
        obtain rfl : b = x := by simpa using hx
        exact hb
      refine ⟨replacement :: text, ?_, .illFormed hill hd⟩
      simpa [decodeFrom, step, hb] using ht

theorem decodes_decode (bytes : List UInt8) : Decodes bytes (decode bytes) := by
  obtain ⟨text, ht, hd⟩ := (decodes_decodeFrom bytes).1 []
  rw [decode, ht]
  exact hd

/-! ### Every text is the meaning of its bytes alone -/

theorem mod_eq_of_tailBytes : ∀ {count n m : Nat}, tailBytes count n = tailBytes count m →
    n % 64 ^ count = m % 64 ^ count
  | 0, n, m, _ => by rw [Nat.pow_zero, Nat.mod_one, Nat.mod_one]
  | count + 1, n, m, h => by
    rw [tailBytes, tailBytes, List.cons.injEq] at h
    have hdigit := congrArg UInt8.toNat h.1
    rw [UInt8.toNat_ofNat_of_lt' (by show _ < 256; omega),
      UInt8.toNat_ofNat_of_lt' (by show _ < 256; omega)] at hdigit
    have hrest := mod_eq_of_tailBytes h.2
    rw [Nat.mod_pow_succ, Nat.mod_pow_succ, hrest]
    congr 2
    omega

/-- **No character begins with another one.** -/
theorem encodeChar_prefix_iff {c c' : Char} : encodeChar c <+: encodeChar c' ↔ c = c' := by
  refine ⟨fun h => ?_, fun h => h ▸ List.prefix_rfl⟩
  rw [encodeChar_eq c, encodeChar_eq c', List.cons_prefix_cons] at h
  have hlead := congrArg UInt8.toNat h.1
  rw [UInt8.toNat_ofNat_of_lt' (leadByte_lt c), UInt8.toNat_ofNat_of_lt' (leadByte_lt c')] at hlead
  have hvalid : c.toNat < 0xd800 ∨ 0xdfff < c.toNat ∧ c.toNat < 0x110000 := c.valid
  have hvalid' : c'.toNat < 0xd800 ∨ 0xdfff < c'.toNat ∧ c'.toNat < 0x110000 := c'.valid
  have hcases := leadByte_cases c.toNat
  have hcases' := leadByte_cases c'.toNat
  -- the first byte tells how many follow
  have hl : tailLength c.toNat = tailLength c'.toNat := by omega
  have htail : tailBytes (tailLength c'.toNat) c.toNat = tailBytes (tailLength c'.toNat) c'.toNat := by
    rw [hl] at h
    exact h.2.eq_of_length (by rw [length_tailBytes, length_tailBytes])
  have hmod := mod_eq_of_tailBytes htail
  have hn : c.toNat = c'.toNat := by
    obtain ht | ht | ht | ht : tailLength c'.toNat = 0 ∨ tailLength c'.toNat = 1 ∨
        tailLength c'.toNat = 2 ∨ tailLength c'.toNat = 3 := by omega
    all_goals
      simp only [ht, Nat.reducePow] at hmod
      omega
  rw [← Char.ofNat_toNat c, hn, Char.ofNat_toNat]

theorem IllFormed.part_unique {part part' rest rest' : List UInt8} (h : IllFormed part rest)
    (h' : IllFormed part' rest') (he : part ++ rest = part' ++ rest') : part = part' := by
  have hle : ∀ {p q r s : List UInt8}, IllFormed p r → IllFormed q s → p ++ r = q ++ s →
      p.length ≤ q.length := by
    intro p q r s hp hq he
    rcases hp.begins with hb | hl
    · exact hq.longest p (by rw [← he]; exact List.prefix_append p r) hb
    · have := List.length_pos_iff.mpr hq.nonempty
      omega
  have hlen : part.length = part'.length := Nat.le_antisymm (hle h h' he) (hle h' h he.symm)
  exact List.append_inj_left he hlen

theorem Decodes.unique {bytes : List UInt8} {text text' : List Char} (h : Decodes bytes text)
    (h' : Decodes bytes text') : text = text' := by
  induction h generalizing text' with
  | nothing =>
    generalize hb : ([] : List UInt8) = bytes at h'
    cases h' with
    | nothing => rfl
    | char c more => simp [encodeChar_eq] at hb
    | illFormed bad more => exact absurd (List.append_eq_nil_iff.mp hb.symm).1 bad.nonempty
  | @char rest text c more ih =>
    generalize hb : encodeChar c ++ rest = bytes at h'
    cases h' with
    | nothing => simp [encodeChar_eq] at hb
    | @char rest' text' c' more' =>
      have hc : c = c' := by
        rcases List.prefix_or_prefix_of_prefix (List.prefix_append (encodeChar c) rest)
          (hb ▸ List.prefix_append (encodeChar c') rest') with hp | hp
        · exact encodeChar_prefix_iff.mp hp
        · exact (encodeChar_prefix_iff.mp hp).symm
      subst hc
      rw [List.append_cancel_left hb] at ih
      rw [ih more']
    | illFormed bad more => exact absurd (hb ▸ List.prefix_append _ _) (bad.unreadable c)
  | @illFormed part rest text bad more ih =>
    generalize hb : part ++ rest = bytes at h'
    cases h' with
    | nothing => exact absurd (List.append_eq_nil_iff.mp hb).1 bad.nonempty
    | char c more => exact absurd (hb ▸ List.prefix_append _ _) (bad.unreadable c)
    | illFormed bad' more' =>
      obtain rfl := bad.part_unique bad' hb
      rw [List.append_cancel_left hb] at ih
      rw [ih more']

/-- **The text that is read** is the one and only meaning of the bytes. -/
theorem decodes_iff {bytes : List UInt8} {text : List Char} :
    Decodes bytes text ↔ decode bytes = text :=
  ⟨(decodes_decode bytes).unique, fun h => h ▸ decodes_decode bytes⟩

theorem decode_eq_nil_iff {bytes : List UInt8} : decode bytes = [] ↔ bytes = [] := by
  constructor
  · intro h
    have hd := decodes_iff.mpr h
    cases hd with
    | nothing => rfl
  · rintro rfl
    rfl

/-! ### Line feeds -/

theorem le_of_mem_tailBytes : ∀ {count n : Nat} {b : UInt8}, b ∈ tailBytes count n → 0x80 ≤ b.toNat
  | count + 1, n, b, h => by
    rcases List.mem_cons.mp h with rfl | h
    · rw [UInt8.toNat_ofNat_of_lt' (by show _ < 256; omega)]
      omega
    · exact le_of_mem_tailBytes h

/-- The byte of a line feed occurs in no other character. -/
theorem eq_lineFeed_of_mem {c : Char} (h : 10 ∈ encodeChar c) : c = '\n' := by
  rw [encodeChar_eq] at h
  rcases List.mem_cons.mp h with h | h
  · have hl := congrArg UInt8.toNat h
    rw [UInt8.toNat_ofNat_of_lt' (leadByte_lt c)] at hl
    have hcases := leadByte_cases c.toNat
    have hn : c.toNat = 10 := by
      have : (10 : UInt8).toNat = 10 := rfl
      omega
    rw [← Char.ofNat_toNat c, hn]
  · have := le_of_mem_tailBytes h
    contradiction

theorem Decodes.lineFeed_notMem {bytes : List UInt8} {text : List Char} (h : Decodes bytes text)
    (hn : 10 ∉ bytes) : '\n' ∉ text := by
  induction h with
  | nothing => simp
  | char c more ih =>
    rw [List.mem_append, not_or] at hn
    rw [List.mem_cons, not_or]
    refine ⟨?_, ih hn.2⟩
    rintro rfl
    exact hn.1 (by decide)
  | illFormed bad more ih =>
    rw [List.mem_append, not_or] at hn
    rw [List.mem_cons, not_or]
    exact ⟨by decide, ih hn.2⟩

theorem IllFormed.lineFeed {part rest : List UInt8} (h : IllFormed part rest) (later : List UInt8) :
    IllFormed part (rest ++ 10 :: later) := by
  -- a part that begins a character does not reach the line feed
  have hshort : ∀ {p : List UInt8} {c : Char}, p <+: part ++ (rest ++ 10 :: later) →
      p <+: encodeChar c → p <+: part ++ rest := by
    intro p c hp hc
    rw [← List.append_assoc] at hp
    rcases List.prefix_or_prefix_of_prefix hp (List.prefix_append _ _) with hp' | ⟨more, rfl⟩
    · exact hp'
    · cases more with
      | nil => rw [List.append_nil]
      | cons b more =>
        obtain rfl : b = 10 := (List.cons_prefix_cons.mp ((List.prefix_append_right_inj _).mp hp)).1
        obtain rfl : c = '\n' := eq_lineFeed_of_mem (hc.subset (by simp))
        have hle := hc.length_le
        have hpos := List.length_pos_iff.mpr h.nonempty
        have hone : (encodeChar '\n').length = 1 := by decide
        simp only [List.length_append, List.length_cons] at hle
        omega
  refine ⟨h.nonempty, fun c hc => ?_, h.begins, fun longer hl hb => ?_⟩
  · exact h.unreadable c (hshort hc List.prefix_rfl)
  · obtain ⟨c, hc⟩ := hb
    exact h.longest longer (hshort hl hc) ⟨c, hc⟩

/-- **A line feed is read as such** wherever it stands, and what precedes it and what follows it are read
apart. -/
theorem Decodes.lineFeed {bytes later : List UInt8} {text text' : List Char} (h : Decodes bytes text)
    (h' : Decodes later text') : Decodes (bytes ++ 10 :: later) (text ++ '\n' :: text') := by
  induction h with
  | nothing => exact .char '\n' h'
  | char c more ih =>
    rw [List.append_assoc]
    exact .char c ih
  | illFormed bad more ih =>
    rw [List.append_assoc]
    exact .illFormed (bad.lineFeed later) ih

theorem decode_lineFeed (bytes later : List UInt8) :
    decode (bytes ++ 10 :: later) = decode bytes ++ '\n' :: decode later :=
  decodes_iff.mp ((decodes_decode bytes).lineFeed (decodes_decode later))

end GhciRelay.Text.Utf8
