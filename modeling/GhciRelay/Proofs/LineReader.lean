import GhciRelay.Process.LineReader
import Mathlib.Data.List.Basic

/-!
# Reading lines: the laws

Taking from a reader loses nothing: the pieces and what is left in the buffer are, in order, what was
in the buffer (`drain_bytes`). Once the output has ended everything is taken, and a reader that has
ended with an empty buffer stays as it is whatever happens to it. As long as no line is too long it
makes no difference when a reader is drained (`drain_append`).
-/

namespace GhciRelay.LineReader

/-! ### Cutting -/

theorem cut_bytes (limit : Nat) : ∀ (bs held : List UInt8) (found : List Piece),
    (cut limit held found bs).1.flatMap Piece.bytes ++ (cut limit held found bs).2 =
      found.reverse.flatMap Piece.bytes ++ (held.reverse ++ bs)
  | [], held, found => by simp [cut]
  | b :: bs, held, found => by
    by_cases hb : b = 10
    · rw [cut, if_pos hb, cut_bytes limit bs]
      split <;> simp [Piece.bytes]
    · rw [cut, if_neg hb, cut_bytes limit bs]
      simp

theorem cut_lineFeed (limit : Nat) : ∀ (bs held : List UInt8) (found : List Piece),
    (cut limit held found (bs ++ [10])).2 = []
  | [], held, found => by simp [cut]
  | b :: bs, held, found => by
    by_cases hb : b = 10
    · rw [List.cons_append, cut, if_pos hb]
      exact cut_lineFeed limit bs _ _
    · rw [List.cons_append, cut, if_neg hb]
      exact cut_lineFeed limit bs _ _

theorem cut_line (limit : Nat) : ∀ (bs held : List UInt8) (found : List Piece), 10 ∉ bs →
    held.length + bs.length ≤ limit →
      (cut limit held found (bs ++ [10])).1 =
        found.reverse ++ [.line (held.reverse ++ bs ++ [10])]
  | [], held, found, _, hl => by
    have hl' : held.length ≤ limit := by simpa using hl
    simp [cut, hl']
  | b :: bs, held, found, hn, hl => by
    rw [List.mem_cons, not_or] at hn
    rw [List.cons_append, cut, if_neg (Ne.symm hn.1),
      cut_line limit bs _ found hn.2 (by simp at hl ⊢; omega)]
    simp

theorem cut_found (limit : Nat) : ∀ (bs held : List UInt8) (found : List Piece),
    cut limit held found bs =
      (found.reverse ++ (cut limit held [] bs).1, (cut limit held [] bs).2)
  | [], held, found => by simp [cut]
  | b :: bs, held, found => by
    by_cases hb : b = 10
    · simp only [cut, if_pos hb]
      rw [cut_found limit bs [] (_ :: found), cut_found limit bs [] [_]]
      simp
    · simp only [cut, if_neg hb]
      exact cut_found limit bs _ found

theorem cut_held (limit : Nat) : ∀ (bs ys held : List UInt8) (found : List Piece), 10 ∉ bs →
    cut limit held found (bs ++ ys) = cut limit (bs.reverse ++ held) found ys
  | [], ys, held, found, _ => rfl
  | b :: bs, ys, held, found, hn => by
    rw [List.mem_cons, not_or] at hn
    rw [List.cons_append, cut, if_neg (Ne.symm hn.1), cut_held limit bs ys _ found hn.2,
      List.reverse_cons, List.append_assoc, List.singleton_append]

theorem lineFeed_notMem_cut (limit : Nat) : ∀ (bs held : List UInt8) (found : List Piece),
    10 ∉ held → 10 ∉ (cut limit held found bs).2
  | [], held, found, hn => by simpa [cut] using hn
  | b :: bs, held, found, hn => by
    by_cases hb : b = 10
    · rw [cut, if_pos hb]
      exact lineFeed_notMem_cut limit bs _ _ (by simp)
    · rw [cut, if_neg hb]
      exact lineFeed_notMem_cut limit bs _ _ (by simp [Ne.symm hb, hn])

theorem cut_append_held (limit : Nat) : ∀ (xs ys held : List UInt8),
    cut limit held [] (xs ++ ys) =
      ((cut limit held [] xs).1 ++ (cut limit (cut limit held [] xs).2.reverse [] ys).1,
        (cut limit (cut limit held [] xs).2.reverse [] ys).2)
  | [], ys, held => by simp [cut]
  | b :: xs, ys, held => by
    by_cases hb : b = 10
    · simp only [List.cons_append, cut, if_pos hb]
      rw [cut_found limit (xs ++ ys), cut_found limit xs, cut_append_held limit xs ys []]
      simp
    · simp only [List.cons_append, cut, if_neg hb]
      exact cut_append_held limit xs ys _

/-- **Bytes may be cut in two steps**: what is left after the first is cut with what follows. -/
theorem cut_append (limit : Nat) (xs ys : List UInt8) :
    cut limit [] [] (xs ++ ys) =
      ((cut limit [] [] xs).1 ++ (cut limit [] [] ((cut limit [] [] xs).2 ++ ys)).1,
        (cut limit [] [] ((cut limit [] [] xs).2 ++ ys)).2) := by
  have hn : 10 ∉ (cut limit [] [] xs).2 := lineFeed_notMem_cut limit xs [] [] (by simp)
  rw [cut_append_held, cut_held limit _ ys [] [] hn, List.append_nil]

theorem cut_suffix (limit : Nat) (bs : List UInt8) : (cut limit [] [] bs).2 <:+ bs :=
  ⟨_, by simpa using cut_bytes limit bs [] []⟩

/-! ### Taking all that can be taken -/

theorem drain_ended (limit : Nat) (r : LineReader) : (r.drain limit).2.ended = r.ended := by
  unfold drain
  dsimp only
  split_ifs <;> rfl

/-- **Nothing is lost.** -/
theorem drain_bytes (limit : Nat) (r : LineReader) :
    (r.drain limit).1.flatMap Piece.bytes ++ (r.drain limit).2.buffer = r.buffer := by
  have h := cut_bytes limit r.buffer [] []
  simp only [List.reverse_nil, List.flatMap_nil, List.nil_append] at h
  unfold drain
  dsimp only
  split_ifs with h₁ h₂ h₃
  · simpa [Piece.bytes] using h
  · rw [List.isEmpty_iff.mp h₃] at h
    simpa using h
  · simpa [Piece.bytes] using h
  · exact h

theorem drain_of_ended (limit : Nat) {r : LineReader} (h : r.ended = true) :
    (r.drain limit).2 = ⟨[], true⟩ := by
  unfold drain
  dsimp only
  split_ifs with h₁ <;> simp [h]

theorem drain_of_nil (limit : Nat) {r : LineReader} (h : r.buffer = []) :
    r.drain limit = ([], r) := by
  obtain ⟨buffer, ended⟩ := r
  cases h
  cases ended <;> simp [drain, cut]

theorem drain_lineFeed (limit : Nat) (bs : List UInt8) (ended : Bool) :
    ((⟨bs ++ [10], ended⟩ : LineReader).drain limit).2 = ⟨[], ended⟩ := by
  unfold drain
  dsimp only
  rw [cut_lineFeed]
  simp

theorem drain_line (limit : Nat) {bs : List UInt8} (hn : 10 ∉ bs) (hl : bs.length ≤ limit) :
    ((⟨bs ++ [10], false⟩ : LineReader).drain limit).1 = [.line (bs ++ [10])] := by
  have h := cut_line limit bs [] [] hn (by simpa using hl)
  unfold drain
  dsimp only
  rw [cut_lineFeed]
  simpa using h

/-- **No line is too long**: bytes with no line feed among them are at most as many as the limit. -/
def ShortLines (limit : Nat) (bytes : List UInt8) : Prop :=
  ∀ line, line <:+: bytes → 10 ∉ line → line.length ≤ limit

theorem ShortLines.of_infix {limit : Nat} {xs ys : List UInt8} (h : ShortLines limit ys)
    (hx : xs <:+: ys) : ShortLines limit xs :=
  fun line hl => h line (hl.trans hx)

theorem drain_of_shortLines {limit : Nat} {bs : List UInt8} (h : ShortLines limit bs) :
    (⟨bs, false⟩ : LineReader).drain limit =
      ((cut limit [] [] bs).1, ⟨(cut limit [] [] bs).2, false⟩) := by
  have hl : ¬ limit < (cut limit [] [] bs).2.length :=
    Nat.not_lt.mpr (h _ (cut_suffix limit bs).isInfix (lineFeed_notMem_cut limit bs [] [] (by simp)))
  simp [drain, hl]

theorem drain_ended_of_shortLines {limit : Nat} {bs : List UInt8} (h : ShortLines limit bs) :
    ((⟨bs, true⟩ : LineReader).drain limit).1 = (cut limit [] [] bs).1 ++
      if (cut limit [] [] bs).2.isEmpty then [] else [.line (cut limit [] [] bs).2] := by
  have hl : ¬ limit < (cut limit [] [] bs).2.length :=
    Nat.not_lt.mpr (h _ (cut_suffix limit bs).isInfix (lineFeed_notMem_cut limit bs [] [] (by simp)))
  simp only [drain, hl, if_false, if_true]
  split <;> simp

/-- **Taking early makes no difference**: what is taken before the rest arrives and what is taken from
the remainder at the end are together what is taken at the end from all of it. -/
theorem drain_append {limit : Nat} {bs later : List UInt8} (h : ShortLines limit (bs ++ later)) :
    ((⟨bs ++ later, true⟩ : LineReader).drain limit).1 =
      ((⟨bs, false⟩ : LineReader).drain limit).1 ++
        ((⟨((⟨bs, false⟩ : LineReader).drain limit).2.buffer ++ later, true⟩ :
          LineReader).drain limit).1 := by
  have hbs : ShortLines limit bs := h.of_infix (List.prefix_append bs later).isInfix
  have hrest : ShortLines limit ((cut limit [] [] bs).2 ++ later) := by
    refine h.of_infix (List.IsSuffix.isInfix ?_)
    obtain ⟨front, hf⟩ := cut_suffix limit bs
    exact ⟨front, by rw [← List.append_assoc, hf]⟩
  rw [drain_of_shortLines hbs, drain_ended_of_shortLines h, drain_ended_of_shortLines hrest,
    cut_append, List.append_assoc]

/-! ### Handing on -/

section Deliver

variable {σ ε : Type} (channel : Channel) (handler : σ → String → Except ε (σ × List Effect))

theorem deliverFrom_state {P : σ → Prop}
    (hP : ∀ state p, P state → P (deliver channel handler state p).1) :
    ∀ (ps : List Piece) (state : σ) (done : List Effect), P state →
      P (deliverFrom channel handler state done ps).1
  | [], _, _, h => h
  | p :: ps, state, _, h => deliverFrom_state hP ps _ _ (hP state p h)

theorem deliverFrom_done : ∀ (ps : List Piece) (state : σ) (done : List Effect),
    deliverFrom channel handler state done ps =
      ((deliverFrom channel handler state [] ps).1,
        done.reverse ++ (deliverFrom channel handler state [] ps).2)
  | [], _, _ => by simp [deliverFrom]
  | p :: ps, state, done => by
    simp only [deliverFrom]
    rw [deliverFrom_done ps _ (_ ++ done), deliverFrom_done ps _ (_ ++ [])]
    simp

/-- **Pieces may be handed on in two steps.** -/
theorem deliverFrom_append : ∀ (ps qs : List Piece) (state : σ),
    deliverFrom channel handler state [] (ps ++ qs) =
      ((deliverFrom channel handler (deliverFrom channel handler state [] ps).1 [] qs).1,
        (deliverFrom channel handler state [] ps).2 ++
          (deliverFrom channel handler (deliverFrom channel handler state [] ps).1 [] qs).2)
  | [], qs, state => by simp [deliverFrom]
  | p :: ps, qs, state => by
    simp only [List.cons_append, deliverFrom]
    rw [deliverFrom_done channel handler (ps ++ qs), deliverFrom_done channel handler ps,
      deliverFrom_append ps qs]
    simp

end Deliver

end GhciRelay.LineReader
