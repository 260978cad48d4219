import GhciRelay.Proofs.JsonNumber
import Mathlib.Data.List.Chain

/-!
# Reading what the notation allows

Every rendering of a value is read as that value (`read?_of_rendering`). The machine that cuts texts
into tokens is followed one spelled token after the other. A word, that is a number, a truth value or
`null`, ends only where something else begins; so it matters that in the tokens of a value no two
scalars stand side by side (`Apart`). The machine that puts tokens together is followed along the
value: whatever the stack is, after the tokens of a value it is where that value is complete.
-/

namespace GhciRelay.Json

open GhciRelay.Text (digitLimit)

/-! ### Delimiters -/

/-- The character ends a word. -/
def isDelimiter (c : Char) : Bool := isBlank c || c == '"' || (mark? c).isSome

theorem isBlank_iff {c : Char} : isBlank c = true ↔ c ∈ [' ', '\t', '\r', '\n'] := by
  simp [isBlank, or_assoc]

theorem isDelimiter_of_blank {c : Char} (h : c ∈ [' ', '\t', '\r', '\n']) :
    isDelimiter c = true := by
  rw [isDelimiter, isBlank_iff.mpr h]
  rfl

/-- The delimiters. -/
def delimiters : List Char := [' ', '\t', '\r', '\n', '"', '[', ']', '\x7b', '\x7d', ',', ':']

theorem mem_of_isDelimiter {c : Char} (h : isDelimiter c = true) : c ∈ delimiters := by
  have hmark : (mark? c).isSome = true → c ∈ ['[', ']', '\x7b', '\x7d', ',', ':'] := by
    unfold mark?
    split <;> simp
  simp only [isDelimiter, Bool.or_eq_true, isBlank_iff, beq_iff_eq] at h
  rcases h with (h | rfl) | h
  · exact List.mem_append_left ['"', '[', ']', '\x7b', '\x7d', ',', ':'] h
  · simp [delimiters]
  · exact List.mem_append_right [' ', '\t', '\r', '\n', '"'] (hmark h)

/-- A text is at its end or goes on with a delimiter. -/
def Delimited (rest : List Char) : Prop := ∀ c ∈ rest.head?, isDelimiter c = true

/-- Characters of which none is a delimiter. -/
def IsWord (w : List Char) : Prop := ∀ c ∈ w, isDelimiter c = false

instance (w : List Char) : Decidable (IsWord w) := List.decidableBAll _ w

/-! ### Blanks and marks -/

theorem lexFrom_blanks {blanks : List Char} (hb : Blanks blanks) (found : List Token)
    (rest : List Char) :
    lexFrom .between found (blanks ++ rest) = lexFrom .between found rest := by
  induction blanks with
  | nil => rfl
  | cons c cs ih =>
    have hc : isBlank c = true := isBlank_iff.mpr (hb c (by simp))
    simp only [List.cons_append, lexFrom, lexStep, lexBetween, hc, if_true, List.nil_append]
    exact ih fun c hc => hb c (by simp [hc])

theorem lexFrom_mark (m : Mark) (found : List Token) (rest : List Char) :
    lexFrom .between found (m.char :: rest) = lexFrom .between (.mark m :: found) rest := by
  cases m <;> rfl

/-! ### Words -/

theorem lexFrom_word {w : List Char} (hw : IsWord w) (seen : List Char) (found : List Token)
    (rest : List Char) :
    lexFrom (.word seen) found (w ++ rest) = lexFrom (.word (w.reverse ++ seen)) found rest := by
  induction w generalizing seen with
  | nil => rfl
  | cons c w ih =>
    have hc : (isBlank c || c == '"' || (mark? c).isSome) = false := hw c (by simp)
    simp only [List.cons_append, lexFrom, lexStep, hc, Bool.false_eq_true, if_false, List.nil_append]
    rw [ih fun c hc => hw c (by simp [hc]), List.reverse_cons, List.append_assoc,
      List.singleton_append]

/-- **A word ends** before a delimiter and at the end of the text. -/
theorem lexFrom_wordEnd {seen : List Char} {v : Json} (hv : wordValue? seen.reverse = some v)
    (found : List Token) {rest : List Char} (hr : Delimited rest) :
    lexFrom (.word seen) found rest = lexFrom .between (.scalar v :: found) rest := by
  cases rest with
  | nil => simp [lexFrom, lexEnd, hv]
  | cons c rest =>
    have hc : (isBlank c || c == '"' || (mark? c).isSome) = true := hr c rfl
    simp only [lexFrom, lexStep, hc, if_true, hv, List.append_assoc, List.singleton_append]

theorem lexFrom_scalar {w : List Char} {v : Json} (hne : w ≠ []) (hw : IsWord w)
    (hv : wordValue? w = some v) (found : List Token) {rest : List Char} (hr : Delimited rest) :
    lexFrom .between found (w ++ rest) = lexFrom .between (.scalar v :: found) rest := by
  obtain ⟨c, cs, rfl⟩ := List.exists_cons_of_ne_nil hne
  have hc : isDelimiter c = false := hw c (by simp)
  simp only [isDelimiter, Bool.or_eq_false_iff, Option.isSome_eq_false_iff,
    Option.isNone_iff_eq_none] at hc
  have hstep : lexFrom .between found (c :: cs ++ rest) = lexFrom (.word [c]) found (cs ++ rest) := by
    simp only [List.cons_append, lexFrom, lexStep, lexBetween, hc.1.1, hc.1.2, hc.2,
      Bool.false_eq_true, if_false, List.nil_append]
  rw [hstep, lexFrom_word fun c hc => hw c (by simp [hc])]
  exact lexFrom_wordEnd (by simpa using hv) found hr

theorem isWord_digits {cs : List Char} (h : Digits cs) : IsWord cs := by
  intro c hc
  rw [← Bool.not_eq_true]
  intro hd
  have hnone : delimiters.all (fun d => !d.isDigit) = true := by decide
  have hdigit := List.all_eq_true.mp hnone c (mem_of_isDelimiter hd)
  rw [h c hc] at hdigit
  cases hdigit

theorem IsWord.append {v w : List Char} (hv : IsWord v) (hw : IsWord w) : IsWord (v ++ w) :=
  fun c h => (List.mem_append.mp h).elim (hv c) (hw c)

theorem IsWord.cons {c : Char} {w : List Char} (hc : isDelimiter c = false) (hw : IsWord w) :
    IsWord (c :: w) :=
  fun d h => (List.mem_cons.mp h).elim (fun e => e ▸ hc) (hw d)

theorem isWord_point {fraction : List Char} (h : Digits fraction) : IsWord (point fraction) := by
  cases fraction with
  | nil => exact fun c hc => by cases hc
  | cons d ds => exact (isWord_digits h).cons (by decide)

theorem isWord_exponent {e : Int} {es : List Char} (h : ExponentSpelling e es) : IsWord es := by
  cases h with
  | plain hd => exact isWord_digits hd
  | plus hd => exact (isWord_digits hd).cons (by decide)
  | minus hd => exact (isWord_digits hd).cons (by decide)

theorem isWord_number {n : Number} {cs : List Char} (h : NumberSpelling n cs) : IsWord cs := by
  have hsign : ∀ negative, IsWord (sign negative) := by
    intro negative
    cases negative <;> decide
  cases h with
  | integer negative n => exact (hsign negative).append (isWord_digits (digits_toDigits n))
  | fraction negative n _ hf =>
    exact (hsign negative).append ((isWord_digits (digits_toDigits n)).append (isWord_point hf))
  | exponent negative n _ hf hm he =>
    refine (hsign negative).append ((isWord_digits (digits_toDigits n)).append
      ((isWord_point hf).append ((isWord_exponent he).cons ?_)))
    rcases hm with rfl | rfl <;> decide
  | nan => decide
  | infinite negative => exact (hsign negative).append (by decide)

theorem wordValue?_number {n : Number} {cs : List Char} (h : NumberSpelling n cs) :
    cs ≠ [] ∧ wordValue? cs = some (.number n) := by
  have hread := ofText?_of_spelling h
  have hother : ∀ w ∈ ["true".toList, "false".toList, "null".toList, []],
      Number.ofText? w = none := by decide
  have hne : ∀ w ∈ ["true".toList, "false".toList, "null".toList, []], cs ≠ w := by
    rintro w hw rfl
    rw [hother cs hw] at hread
    cases hread
  refine ⟨hne [] (by simp), ?_⟩
  unfold wordValue?
  rw [if_neg (hne _ (by simp)), if_neg (hne _ (by simp)), if_neg (hne _ (by simp)), hread]
  rfl

/-! ### Texts -/

theorem hexDigit?_of_hexDigit {n : Nat} {c : Char} (h : HexDigit n c) : hexDigit? c = some n := by
  have hall : ∀ n < 16, hexDigit? (Nat.digitChar n) = some n ∧
      hexDigit? (Nat.digitChar n).toUpper = some n := by decide
  obtain ⟨hn, rfl | rfl⟩ := h
  · exact (hall n hn).1
  · exact (hall n hn).2

theorem lexFrom_unit {a b c d : Nat} {ca cb cc cd : Char} (ha : HexDigit a ca) (hb : HexDigit b cb)
    (hc : HexDigit c cc) (hd : HexDigit d cd) (seen : List Char) (high : Option Nat)
    (found : List Token) (rest : List Char) :
    lexFrom (.unit seen high 0 0) found (ca :: cb :: cc :: cd :: rest) =
      (unitEnd seen high (((a * 16 + b) * 16 + c) * 16 + d)).bind
        fun state => lexFrom state found rest := by
  simp only [lexFrom, lexStep, hexDigit?_of_hexDigit ha, hexDigit?_of_hexDigit hb,
    hexDigit?_of_hexDigit hc, hexDigit?_of_hexDigit hd, Nat.zero_mul, Nat.zero_add, Nat.reduceAdd,
    Nat.reduceLT, if_true, if_false, List.nil_append]
  cases unitEnd seen high (((a * 16 + b) * 16 + c) * 16 + d) <;> rfl

theorem lexFrom_escape {u : Nat} {cs : List Char} (h : UnitSpelling u cs) (seen : List Char)
    (found : List Token) (rest : List Char) : lexFrom (.text seen) found (cs ++ rest) =
      (unitEnd seen none u).bind fun state => lexFrom state found rest := by
  cases h with
  | digits ha hb hc hd => exact lexFrom_unit ha hb hc hd seen none found rest

theorem lexFrom_low {u : Nat} {cs : List Char} (h : UnitSpelling u cs) (seen : List Char)
    (high : Nat) (found : List Token) (rest : List Char) :
    lexFrom (.afterHigh seen high) found (cs ++ rest) =
      (unitEnd seen (some high) u).bind fun state => lexFrom state found rest := by
  cases h with
  | digits ha hb hc hd => exact lexFrom_unit ha hb hc hd seen (some high) found rest

theorem toNat_range (c : Char) : c.toNat < 0xd800 ∨ 0xdfff < c.toNat ∧ c.toNat < 0x110000 := c.valid

/-- **Every way to write a character is read as that character.** -/
theorem lexFrom_char {c : Char} {cs : List Char} (h : CharSpelling c cs) (seen : List Char)
    (found : List Token) (rest : List Char) :
    lexFrom (.text seen) found (cs ++ rest) = lexFrom (.text (c :: seen)) found rest := by
  have hrange := toNat_range c
  cases h with
  | raw printable quote backslash =>
    have hp : ¬ c.toNat < 0x20 := by omega
    simp [lexFrom, lexStep, quote, backslash, hp]
  | short escape =>
    simp only [shortEscapes, List.mem_cons, List.not_mem_nil, or_false, Prod.mk.injEq] at escape
    rcases escape with ⟨rfl, rfl⟩ | ⟨rfl, rfl⟩ | ⟨rfl, rfl⟩ | ⟨rfl, rfl⟩ | ⟨rfl, rfl⟩ | ⟨rfl, rfl⟩ |
      ⟨rfl, rfl⟩ | ⟨rfl, rfl⟩
    all_goals rfl
  | unit basic units =>
    have hend : unitEnd seen none c.toNat = some (.text (c :: seen)) := by
      unfold unitEnd
      dsimp only
      rw [if_neg (by omega), if_neg (by omega), Char.ofNat_toNat]
    rw [lexFrom_escape units, hend]
    rfl
  | @pair _ high low beyond first second =>
    have hbound : (c.toNat - 0x10000) / 0x400 < 0x400 := by omega
    have hfirst : unitEnd seen none (0xd800 + (c.toNat - 0x10000) / 0x400) =
        some (.afterHigh seen (0xd800 + (c.toNat - 0x10000) / 0x400)) := by
      unfold unitEnd
      dsimp only
      rw [if_pos (by omega)]
    have hsecond : unitEnd seen (some (0xd800 + (c.toNat - 0x10000) / 0x400))
        (0xdc00 + (c.toNat - 0x10000) % 0x400) = some (.text (c :: seen)) := by
      have hsum : 0x10000 + (0xd800 + (c.toNat - 0x10000) / 0x400 - 0xd800) * 0x400 +
          (0xdc00 + (c.toNat - 0x10000) % 0x400 - 0xdc00) = c.toNat := by omega
      unfold unitEnd
      dsimp only
      rw [if_pos (by omega), hsum, Char.ofNat_toNat]
    rw [List.append_assoc, lexFrom_escape first, hfirst, Option.bind_some, lexFrom_low second,
      hsecond]
    rfl

theorem lexFrom_chars {s cs : List Char} (h : TextSpelling s cs) (seen : List Char)
    (found : List Token) (rest : List Char) :
    lexFrom (.text seen) found (cs ++ rest) = lexFrom (.text (s.reverse ++ seen)) found rest := by
  induction h generalizing seen with
  | nil => rfl
  | cons first more ih =>
    rw [List.append_assoc, lexFrom_char first, ih, List.reverse_cons, List.append_assoc,
      List.singleton_append]

/-! ### Tokens -/

/-- **Every way to write a token is read as that token**; a scalar needs a delimiter behind it. -/
theorem lexFrom_token {t : Token} {cs : List Char} (h : Spelling t cs) (found : List Token)
    {rest : List Char} (hr : (∃ v, t = .scalar v) → Delimited rest) :
    lexFrom .between found (cs ++ rest) = lexFrom .between (t :: found) rest := by
  cases h with
  | mark m => exact lexFrom_mark m found rest
  | @text s cs chars =>
    have hopen : lexFrom .between found ('"' :: (cs ++ ['"']) ++ rest) =
        lexFrom (.text []) found (cs ++ ('"' :: rest)) := by
      simp [lexFrom, lexStep, lexBetween, isBlank]
    have hclose : ∀ seen, lexFrom (.text seen) found ('"' :: rest) =
        lexFrom .between (.scalar (.text (String.ofList seen.reverse)) :: found) rest :=
      fun seen => rfl
    rw [hopen, lexFrom_chars chars, hclose, List.append_nil, List.reverse_reverse,
      String.ofList_toList]
  | null => exact lexFrom_scalar (by decide) (by decide) rfl found (hr ⟨_, rfl⟩)
  | bool b =>
    cases b with
    | true => exact lexFrom_scalar (by decide) (by decide) rfl found (hr ⟨_, rfl⟩)
    | false => exact lexFrom_scalar (by decide) (by decide) rfl found (hr ⟨_, rfl⟩)
  | number h =>
    obtain ⟨hne, hv⟩ := wordValue?_number h
    exact lexFrom_scalar hne (isWord_number h) hv found (hr ⟨_, rfl⟩)

/-- No two scalars stand side by side. -/
def Apart : List Token → Prop :=
  List.IsChain fun a b => (∃ m, a = .mark m) ∨ ∃ m, b = .mark m

/-- Where no scalar may follow, a delimiter or nothing follows. -/
theorem Spelled.delimited {ts : List Token} {cs : List Char} (h : Spelled ts cs)
    (ht : ∀ t ∈ ts.head?, ∃ m, t = .mark m) : Delimited cs := by
  have hmark : ∀ m : Mark, isDelimiter m.char = true := by
    intro m
    cases m <;> rfl
  intro c hc
  cases h with
  | nil hb =>
    exact isDelimiter_of_blank (hb c (List.mem_of_mem_head? hc))
  | @cons blanks cs rest t ts hb first more =>
    cases blanks with
    | cons b bs => cases hc; exact isDelimiter_of_blank (hb c (by simp))
    | nil =>
      obtain ⟨m, rfl⟩ := ht t rfl
      cases first
      cases hc
      exact hmark m

/-- **Every way to write tokens is read as these tokens.** -/
theorem lexFrom_spelled {ts : List Token} {cs : List Char} (h : Spelled ts cs) (ha : Apart ts)
    (found : List Token) : lexFrom .between found cs = some (found.reverse ++ ts) := by
  induction h generalizing found with
  | nil hb =>
    have hl := lexFrom_blanks hb found []
    rw [List.append_nil] at hl
    rw [hl, List.append_nil]
    rfl
  | @cons blanks cs rest t ts hb first more ih =>
    have hd : (∃ v, t = .scalar v) → Delimited rest := by
      rintro ⟨v, rfl⟩
      refine more.delimited fun t ht => ?_
      rcases ha.rel_head? ht with ⟨m, hm⟩ | hm
      · cases hm
      · exact hm
    rw [lexFrom_blanks hb, lexFrom_token first found hd, ih ha.tail, List.reverse_cons,
      List.append_assoc, List.singleton_append]

theorem lexFrom_text_blanks {blanks : List Char} (hb : Blanks blanks) (seen : List Char)
    (found : List Token) : lexFrom (.text seen) found blanks = none := by
  induction blanks generalizing seen with
  | nil => rfl
  | cons c cs ih =>
    have hcs : Blanks cs := fun d hd => hb d (by simp [hd])
    have hc := hb c (by simp)
    simp only [List.mem_cons, List.not_mem_nil, or_false] at hc
    rcases hc with rfl | rfl | rfl | rfl
    · exact ih hcs (' ' :: seen)
    all_goals rfl

/-- Where only blanks follow the text may as well end. -/
theorem lexFrom_of_blanks {blanks : List Char} (hb : Blanks blanks) (state : LexState)
    (found : List Token) : lexFrom state found blanks = lexFrom state found [] := by
  -- a machine that is inside an escape takes no blank, and may not stop either
  have hstuck : lexEnd state = none → (∀ c ∈ [' ', '\t', '\r', '\n'], lexStep state c = none) →
      lexFrom state found blanks = lexFrom state found [] := by
    intro hend hstep
    cases blanks with
    | nil => rfl
    | cons c cs => simp only [lexFrom, hstep c (hb c (by simp)), hend, Option.map_none]
  cases state with
  | between =>
    have hl := lexFrom_blanks hb found []
    rwa [List.append_nil] at hl
  | word seen =>
    have hd : Delimited blanks := (Spelled.nil hb).delimited fun t ht => by cases ht
    cases hv : wordValue? seen.reverse with
    | some v =>
      have hl := lexFrom_blanks hb (.scalar v :: found) []
      rw [List.append_nil] at hl
      rw [lexFrom_wordEnd hv found hd, hl, lexFrom_wordEnd hv found fun c hc => by cases hc]
    | none =>
      cases blanks with
      | nil => rfl
      | cons c cs =>
        have hc : (isBlank c || c == '"' || (mark? c).isSome) = true := hd c rfl
        simp only [lexFrom, lexStep, hc, if_true, hv, lexEnd, Option.map_none]
  | text seen => rw [lexFrom_text_blanks hb]; rfl
  | escape seen => exact hstuck rfl (by simp [lexStep, escaped?])
  | unit seen high digits value =>
    refine hstuck rfl fun c hc => ?_
    have hhex : [' ', '\t', '\r', '\n'].all (fun c => (hexDigit? c).isNone) = true := by decide
    have hnone := Option.isNone_iff_eq_none.mp (List.all_eq_true.mp hhex c hc)
    simp only [lexStep, hnone]
  | afterHigh seen high => exact hstuck rfl (by simp [lexStep])
  | afterHighEscape seen high => exact hstuck rfl (by simp [lexStep])

/-- **Blanks at the end make no difference.** -/
theorem lexFrom_append_blanks {blanks : List Char} (hb : Blanks blanks) : ∀ (cs : List Char)
    (state : LexState) (found : List Token),
    lexFrom state found (cs ++ blanks) = lexFrom state found cs
  | [], state, found => lexFrom_of_blanks hb state found
  | c :: cs, state, found => by
    simp only [List.cons_append, lexFrom]
    cases lexStep state c with
    | none => rfl
    | some next => exact lexFrom_append_blanks hb cs next.1 _

/-! ### No scalars side by side -/

theorem apart_mark_cons {m : Mark} {ts : List Token} (h : Apart ts) : Apart (.mark m :: ts) :=
  List.IsChain.cons h fun _ _ => .inl ⟨m, rfl⟩

theorem Apart.append_mark {ts us : List Token} {m : Mark} (ht : Apart ts) (hu : Apart us) :
    Apart (ts ++ .mark m :: us) := by
  refine List.isChain_append.mpr ⟨ht, apart_mark_cons hu, fun _ _ u h => ?_⟩
  cases h
  exact .inr ⟨m, rfl⟩

/-- A part, further parts with commas in front of them, and the mark that ends them. -/
theorem apart_parts (m : Mark) (parts : List (List Token)) (h : ∀ part ∈ parts, Apart part)
    {part : List Token} (hp : Apart part) :
    Apart (part ++ (parts.flatMap (.mark .comma :: ·) ++ [.mark m])) := by
  induction parts generalizing part with
  | nil => exact hp.append_mark List.isChain_nil
  | cons next parts ih =>
    rw [List.flatMap_cons, List.cons_append, List.cons_append, List.append_assoc]
    exact hp.append_mark (ih (fun p hp => h p (by simp [hp])) (h next (by simp)))

theorem apart_separated (m : Mark) (parts : List (List Token)) (h : ∀ part ∈ parts, Apart part) :
    Apart (separated parts ++ [.mark m]) := by
  cases parts with
  | nil => exact List.isChain_singleton _
  | cons part parts =>
    rw [separated, List.append_assoc]
    exact apart_parts m parts (fun p hp => h p (by simp [hp])) (h part (by simp))

/-- **Induction on a value**: a scalar, or a list or an object whose parts are known. -/
theorem value_induction {P : Json → Prop} (scalar : ∀ v, tokensOf v = [.scalar v] → P v)
    (list : ∀ items, (∀ v ∈ items, P v) → P (.list items))
    (object : ∀ members, (∀ m ∈ members, P m.2) → P (.object members)) : ∀ v, P v
  | .null => scalar _ (by rw [tokensOf])
  | .bool b => scalar _ (by rw [tokensOf])
  | .number n => scalar _ (by rw [tokensOf])
  | .text s => scalar _ (by rw [tokensOf])
  | .list items => list items fun v _ => value_induction scalar list object v
  | .object members => object members fun m _ => value_induction scalar list object m.2
decreasing_by
  · decreasing_tactic
  · exact sizeOf_member ‹_›

theorem apart_tokensOf (v : Json) : Apart (tokensOf v) := by
  induction v using value_induction with
  | scalar v h => rw [h]; exact List.isChain_singleton _
  | list items ih =>
    rw [tokensOf]
    refine apart_mark_cons (apart_separated _ _ fun part hp => ?_)
    obtain ⟨v, hv, rfl⟩ := List.mem_map.mp hp
    exact ih v hv
  | object members ih =>
    rw [tokensOf]
    refine apart_mark_cons (apart_separated _ _ fun part hp => ?_)
    obtain ⟨m, hm, rfl⟩ := List.mem_map.mp hp
    exact Apart.append_mark (List.isChain_singleton (.scalar (.text m.1))) (ih m hm)

/-! ### Putting tokens together -/

theorem readFrom_cons (state : Expect × List Frame) (t : Token) (ts : List Token) :
    readFrom state (t :: ts) = (readStep state t).bind fun state' => readFrom state' ts := by
  rw [readFrom]
  cases readStep state t <;> rfl

/-- **The tokens of a value are read as that value**, wherever it stands. -/
def ReadsAs (v : Json) : Prop :=
  ∀ (stack : List Frame) (rest : List Token), stack.length + depth v ≤ depthLimit →
    readFrom (.value, stack) (tokensOf v ++ rest) =
      (complete v stack).bind fun state => readFrom state rest

theorem le_foldr_max {n : Nat} {l : List Nat} (h : n ∈ l) : n ≤ l.foldr max 0 := by
  induction l with
  | nil => cases h
  | cons k l ih =>
    rw [List.foldr_cons]
    rcases List.mem_cons.mp h with rfl | h
    · omega
    · have := ih h
      omega

theorem depth_item {v : Json} {items : List Json} (h : v ∈ items) :
    depth v + 1 ≤ depth (.list items) := by
  rw [depth]
  exact Nat.succ_le_succ (le_foldr_max (List.mem_map_of_mem h))

theorem depth_member {m : String × Json} {members : List (String × Json)} (h : m ∈ members) :
    depth m.2 + 1 ≤ depth (.object members) := by
  rw [depth]
  exact Nat.succ_le_succ (le_foldr_max (List.mem_map_of_mem (f := fun m => depth m.2) h))

theorem readFrom_firstItem (v : Json) (stack : List Frame) (rest : List Token) :
    readFrom (.firstItem, stack) (tokensOf v ++ rest) =
      readFrom (.value, stack) (tokensOf v ++ rest) := by
  have hfirst : ∃ t ts, tokensOf v = t :: ts ∧
      readStep (.firstItem, stack) t = readStep (.value, stack) t := by
    cases v with
    | list items => exact ⟨_, _, by rw [tokensOf], rfl⟩
    | object members => exact ⟨_, _, by rw [tokensOf], rfl⟩
    | _ => exact ⟨_, [], by rw [tokensOf], rfl⟩
  obtain ⟨t, ts, hts, hstep⟩ := hfirst
  rw [hts, List.cons_append, readFrom_cons, readFrom_cons, hstep]

theorem readFrom_items {stack : List Frame} (rest : List Token) : ∀ (items done : List Json),
    (∀ v ∈ items, ReadsAs v ∧ stack.length + 1 + depth v ≤ depthLimit) →
      readFrom (.next, .items done :: stack)
          ((items.map tokensOf).flatMap (.mark .comma :: ·) ++ .mark .closeList :: rest) =
        (complete (.list (done.reverse ++ items)) stack).bind fun state => readFrom state rest
  | [], done, _ => by
    rw [List.map_nil, List.flatMap_nil, List.nil_append, readFrom_cons, List.append_nil]
    rfl
  | v :: items, done, h => by
    obtain ⟨hv, hd⟩ := h v (by simp)
    rw [List.map_cons, List.flatMap_cons, List.cons_append, List.cons_append, List.append_assoc,
      readFrom_cons]
    have hcomma : readStep (.next, .items done :: stack) (.mark .comma) =
        some (.value, .items done :: stack) := rfl
    rw [hcomma, Option.bind_some, hv (.items done :: stack) _ hd]
    have hnext : complete v (.items done :: stack) = some (.next, .items (v :: done) :: stack) := rfl
    rw [hnext, Option.bind_some, readFrom_items rest items (v :: done) fun w hw => h w (by simp [hw]),
      List.reverse_cons, List.append_assoc, List.singleton_append]

/-- The tokens of a member. -/
def memberTokens (m : String × Json) : List Token :=
  .scalar (.text m.1) :: .mark .colon :: tokensOf m.2

theorem readFrom_member {e : Expect} (he : e = .key ∨ e = .firstKey) {m : String × Json}
    (hm : ReadsAs m.2) {stack : List Frame} (hd : stack.length + 1 + depth m.2 ≤ depthLimit)
    (done : List (String × Json)) (rest : List Token) :
    readFrom (e, .members done :: stack) (memberTokens m ++ rest) =
      readFrom (.next, .members (m :: done) :: stack) rest := by
  have hkey : readStep (e, .members done :: stack) (.scalar (.text m.1)) =
      some (.colon, .entry done m.1 :: stack) := by
    rcases he with rfl | rfl <;> rfl
  have hcolon : readStep (.colon, .entry done m.1 :: stack) (.mark .colon) =
      some (.value, .entry done m.1 :: stack) := rfl
  rw [memberTokens, List.cons_append, List.cons_append, readFrom_cons, hkey, Option.bind_some,
    readFrom_cons, hcolon, Option.bind_some, hm (.entry done m.1 :: stack) rest hd]
  rfl

theorem readFrom_members {stack : List Frame} (rest : List Token) :
    ∀ members done : List (String × Json),
    (∀ m ∈ members, ReadsAs m.2 ∧ stack.length + 1 + depth m.2 ≤ depthLimit) →
      readFrom (.next, .members done :: stack)
          ((members.map memberTokens).flatMap (.mark .comma :: ·) ++ .mark .closeObject :: rest) =
        (complete (.object (done.reverse ++ members)) stack).bind fun state => readFrom state rest
  | [], done, _ => by
    rw [List.map_nil, List.flatMap_nil, List.nil_append, readFrom_cons, List.append_nil]
    rfl
  | m :: members, done, h => by
    obtain ⟨hm, hd⟩ := h m (by simp)
    have hcomma : readStep (.next, .members done :: stack) (.mark .comma) =
        some (.key, .members done :: stack) := rfl
    rw [List.map_cons, List.flatMap_cons, List.cons_append, List.cons_append, List.append_assoc,
      readFrom_cons, hcomma, Option.bind_some, readFrom_member (.inl rfl) hm hd,
      readFrom_members rest members (m :: done) fun w hw => h w (by simp [hw]), List.reverse_cons,
      List.append_assoc, List.singleton_append]

theorem readStep_open {frame : Frame} {e : Expect} {mark : Mark} {stack : List Frame}
    (hm : begin (.mark mark) stack = enter e frame stack) (hd : stack.length < depthLimit) :
    readStep (.value, stack) (.mark mark) = some (e, frame :: stack) := by
  rw [readStep, hm, enter, if_pos hd]

/-- **Every value is read from its tokens.** -/
theorem readsAs (v : Json) : ReadsAs v := by
  induction v using value_induction with
  | scalar v h =>
    intro stack rest _
    rw [h, List.singleton_append, readFrom_cons]
    rfl
  | list items ih =>
    intro stack rest hd
    have hparts : ∀ v ∈ items, ReadsAs v ∧ stack.length + 1 + depth v ≤ depthLimit := by
      intro v hv
      have := depth_item hv
      exact ⟨ih v hv, by omega⟩
    have hopen : readStep (.value, stack) (.mark .openList) = some (.firstItem, .items [] :: stack) :=
      readStep_open rfl (by rw [depth] at hd; omega)
    rw [tokensOf, List.cons_append, readFrom_cons, hopen, Option.bind_some, List.append_assoc]
    cases items with
    | nil => rw [List.map_nil, separated, List.nil_append, List.singleton_append, readFrom_cons]; rfl
    | cons v items =>
      obtain ⟨hv, hdv⟩ := hparts v (by simp)
      rw [List.map_cons, separated, List.append_assoc, List.singleton_append, readFrom_firstItem,
        hv (.items [] :: stack) _ hdv]
      exact readFrom_items rest items [v] fun w hw => hparts w (by simp [hw])
  | object members ih =>
    intro stack rest hd
    have hparts : ∀ m ∈ members, ReadsAs m.2 ∧ stack.length + 1 + depth m.2 ≤ depthLimit := by
      intro m hm
      have := depth_member hm
      exact ⟨ih m hm, by omega⟩
    have hopen : readStep (.value, stack) (.mark .openObject) =
        some (.firstKey, .members [] :: stack) :=
      readStep_open rfl (by rw [depth] at hd; omega)
    rw [tokensOf, List.cons_append, readFrom_cons, hopen, Option.bind_some, List.append_assoc]
    cases members with
    | nil => rw [List.map_nil, separated, List.nil_append, List.singleton_append, readFrom_cons]; rfl
    | cons m members =>
      obtain ⟨hm, hdm⟩ := hparts m (by simp)
      have htokens : (fun m : String × Json => Token.scalar (.text m.1) :: .mark .colon ::
        tokensOf m.2) = memberTokens := rfl
      rw [htokens, List.map_cons, separated, List.append_assoc, List.singleton_append,
        readFrom_member (.inr rfl) hm hdm]
      exact readFrom_members rest members [m] fun w hw => hparts w (by simp [hw])

/-! ### Documents -/

/-- **Every rendering of a value is read as that value.** -/
theorem read?_of_rendering {v : Json} {cs : List Char} (h : Rendering v cs) : read? cs = some v := by
  have htokens : tokens? cs = some (tokensOf v) := lexFrom_spelled h.spelled (apart_tokensOf v) []
  have hread := readsAs v [] [] (by simpa using h.shallow)
  rw [List.append_nil] at hread
  rw [read?, htokens, Option.bind_some, ofTokens?, hread]
  rfl

theorem read?_append_blanks (cs : List Char) {blanks : List Char} (hb : Blanks blanks) :
    read? (cs ++ blanks) = read? cs := by
  rw [read?, tokens?, lexFrom_append_blanks hb]
  rfl

end GhciRelay.Json
