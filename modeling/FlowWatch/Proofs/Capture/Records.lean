/-
Records behind records.

A capture is read through a buffer, and where the buffer ends has nothing to do with where records do. A
record stands (`Record`) where its bytes are read as its value once all of them are in the buffer, and
where the reader asks for no more than the record as long as they are not. Then it does not matter how
the buffer cuts the capture: bytes that consist of such records are read as their values, to the end.
-/
import FlowWatch.Capture.Window

set_option autoImplicit false

namespace FlowWatch.Capture

variable {σ α β : Type} {scan : σ → Nat → List UInt8 → Scan (α × σ)} {state next : σ}

/-- In a state, the bytes are a record with a value, and lead to another state. -/
structure Record (scan : σ → Nat → List UInt8 → Scan (α × σ)) (state : σ) (bytes : List UInt8)
    (value : α) (next : σ) : Prop where
  nonempty : 0 < bytes.length
  fits : bytes.length < bufferSize
  whole : ∀ buffered rest, bytes.length ≤ buffered →
    scan state buffered (bytes ++ rest) = .record (value, next) bytes.length
  part : ∀ buffered rest, buffered < bytes.length →
    ∃ n ≤ bytes.length, scan state buffered (bytes ++ rest) = .wants n

/-- From a state on, the bytes are records with these values, and nothing else. -/
inductive Records (scan : σ → Nat → List UInt8 → Scan (α × σ)) : σ → List UInt8 → List α → Prop
  | nil {state : σ} {n : Nat} (hn : n < bufferSize) (h : scan state 0 [] = .wants n) :
    Records scan state [] []
  | cons {state next : σ} {bytes rest : List UInt8} {value : α} {values : List α}
    (h : Record scan state bytes value next) (hrest : Records scan next rest values) :
    Records scan state (bytes ++ rest) (value :: values)

/-- Records of one kind that leave the state alone. -/
theorem Records.flatMap {encode : β → List UInt8} {value : β → α} {xs : List β} {n : Nat}
    (hn : n < bufferSize) (hend : scan state 0 [] = .wants n)
    (h : ∀ x ∈ xs, Record scan state (encode x) (value x) state) :
    Records scan state (xs.flatMap encode) (xs.map value) := by
  induction xs with
  | nil => exact .nil hn hend
  | cons x xs ih =>
    rw [List.flatMap_cons]
    exact .cons (h x List.mem_cons_self) (ih fun y hy => h y (List.mem_cons_of_mem x hy))

theorem Records.length_le {bytes : List UInt8} {values : List α}
    (h : Records scan state bytes values) : values.length ≤ bytes.length := by
  induction h with
  | nil => exact Nat.le_refl 0
  | cons h _ ih =>
    have hpos := h.nonempty
    rw [List.length_append, List.length_cons]
    omega

namespace Window

/-- What the buffer holds is there, and a buffer that was not filled up holds all there is. -/
structure Sound (w : Window) : Prop where
  le : w.buffered ≤ w.rest.length
  exhausted : w.exhausted = true → w.buffered = w.rest.length

variable {w : Window}

theorem Sound.new (bytes : List UInt8) : (new bytes).Sound :=
  ⟨Nat.min_le_right _ _, fun h => absurd h Bool.false_ne_true⟩

theorem Sound.skip (h : w.Sound) (n : Nat) : (w.skip n).Sound := by
  unfold Window.skip
  refine ⟨?_, fun hx => ?_⟩ <;> dsimp only at * <;> rw [List.length_drop]
  · exact Nat.sub_le_sub_right h.le n
  · rw [h.exhausted hx]

/-- The buffer after it was filled up. -/
theorem buffered_refill (h : w.Sound) :
    w.refill.buffered = max w.buffered (min bufferSize w.rest.length) := by
  have hle := h.le
  unfold refill
  dsimp only
  rw [List.length_take, List.length_drop]
  omega

theorem Sound.refill (h : w.Sound) (hroom : w.buffered < bufferSize) : w.refill.Sound := by
  have hle := h.le
  have hbuffered := buffered_refill h
  refine ⟨?_, fun hx => ?_⟩
  · have hrest : w.refill.rest = w.rest := rfl
    rw [hbuffered, hrest]
    omega
  · unfold Window.refill at hx ⊢
    dsimp only at hx ⊢
    rw [beq_iff_eq] at hx
    rw [hx]
    rw [List.length_take, List.length_drop] at hx
    omega

/-! ## Reading -/

/-- What holds of whatever is scanned holds of all that is read. -/
theorem forall_readFrom {P : α → Prop}
    (h : ∀ state buffered bytes value next n,
      scan state buffered bytes = .record (value, next) n → P value)
    (context : String) (fuel : Nat) (state : σ) (w : Window) :
    ∀ value ∈ (readFrom context scan fuel state w).1, P value := by
  induction fuel generalizing state w with
  | zero => exact fun _ hv => absurd hv List.not_mem_nil
  | succ fuel ih =>
    intro value hv
    rw [readFrom] at hv
    split at hv
    · exact absurd hv List.not_mem_nil
    · split at hv
      · next first next n hscan =>
        rcases List.mem_cons.mp hv with rfl | hlater
        · exact h _ _ _ _ _ _ hscan
        · exact ih next (w.skip n) value hlater
      · exact absurd hv List.not_mem_nil
      · -- More bytes are wanted: nothing is read here, or else behind them.
        split at hv
        · exact absurd hv List.not_mem_nil
        · split at hv
          · exact absurd hv List.not_mem_nil
          · exact ih state w.refill value hv

/-- A record that is in the buffer is read. -/
theorem readFrom_whole (context : String) {bytes rest : List UInt8} {value : α}
    (h : Record scan state bytes value next) (hrest : w.rest = bytes ++ rest)
    (hle : bytes.length ≤ w.buffered) (fuel : Nat) :
    readFrom context scan (fuel + 1) state w =
      (value :: (readFrom context scan fuel next (w.skip bytes.length)).1,
        (readFrom context scan fuel next (w.skip bytes.length)).2) := by
  have hnonempty : (w.buffered == 0 && w.exhausted) = false := by
    have hpos := h.nonempty
    rw [Bool.and_eq_false_iff, beq_eq_false_iff_ne]
    exact Or.inl (by omega)
  rw [readFrom, hnonempty, if_neg Bool.false_ne_true, hrest, h.whole _ _ hle]

/-- For a record that is not, the buffer is filled up. -/
theorem readFrom_part (context : String) {bytes rest : List UInt8} {value : α}
    (h : Record scan state bytes value next) (hrest : w.rest = bytes ++ rest) (hw : w.Sound)
    (hlt : w.buffered < bytes.length) (fuel : Nat) :
    readFrom context scan (fuel + 1) state w = readFrom context scan fuel state w.refill := by
  have hmore : w.exhausted = false := by
    refine Bool.eq_false_iff.mpr fun hx => ?_
    have hall := hw.exhausted hx
    rw [hrest, List.length_append] at hall
    omega
  obtain ⟨n, hn, hscan⟩ := h.part w.buffered rest hlt
  have hfits : ¬ bufferSize ≤ n := Nat.not_le.mpr (Nat.lt_of_le_of_lt hn h.fits)
  rw [readFrom, hmore, Bool.and_false, if_neg Bool.false_ne_true, hrest, hscan]
  dsimp only
  rw [if_neg Bool.false_ne_true, if_neg hfits]

/-- At the end the buffer is filled up once in vain. -/
theorem readFrom_end (context : String) {n : Nat} (hn : n < bufferSize)
    (hend : scan state 0 [] = .wants n) (hrest : w.rest = []) (hw : w.Sound) (fuel : Nat) :
    readFrom context scan fuel state w = ([], none) := by
  have hle := hw.le
  rw [hrest] at hle
  have hnone : w.buffered = 0 := Nat.le_zero.mp hle
  rcases fuel with _ | fuel
  · rfl
  · rcases hx : w.exhausted with _ | _
    · have hdone : (w.refill.buffered == 0 && w.refill.exhausted) = true := by
        unfold refill
        rw [hrest, hnone]
        rfl
      rw [readFrom, hx, hnone, hrest, hend]
      dsimp only
      rw [Bool.and_false, if_neg Bool.false_ne_true, if_neg Bool.false_ne_true,
        if_neg (Nat.not_le.mpr hn)]
      rcases fuel with _ | fuel
      · rfl
      · rw [readFrom, hdone, if_pos rfl]
    · rw [readFrom, hx, hnone]
      rfl

/-- **Records are read to the end**, however the buffer cuts them. A record takes two steps at most: one
to fill the buffer up, and one to read it. -/
theorem readFrom_records (context : String) {bytes : List UInt8} {values : List α}
    (h : Records scan state bytes values) {fuel : Nat} (hrest : w.rest = bytes) (hw : w.Sound)
    (hfuel : 2 * values.length ≤ fuel) :
    readFrom context scan fuel state w = (values, none) := by
  induction h generalizing w fuel with
  | nil hn hend => exact readFrom_end context hn hend hrest hw fuel
  | @cons state next bytes rest value values h _ ih =>
    obtain ⟨fuel, rfl⟩ : ∃ k, fuel = k + 2 :=
      ⟨fuel - 2, by rw [List.length_cons] at hfuel; omega⟩
    have hread : ∀ (v : Window) (k : Nat), v.rest = bytes ++ rest → v.Sound →
        bytes.length ≤ v.buffered → 2 * values.length ≤ k →
          readFrom context scan (k + 1) state v = (value :: values, none) := by
      intro v k hv hsound hle hk
      have hskip : (v.skip bytes.length).rest = rest := by
        unfold skip
        rw [hv]
        exact List.drop_left' rfl
      rw [readFrom_whole context h hv hle, ih hskip (hsound.skip _) hk]
    rw [List.length_cons] at hfuel
    by_cases hle : bytes.length ≤ w.buffered
    · exact hread w (fuel + 1) hrest hw hle (by omega)
    · -- The record fits the buffer, so it is there once the buffer is full.
      have hlt := Nat.not_le.mp hle
      have hfull : bytes.length ≤ w.refill.buffered := by
        have hfits := h.fits
        have hlength := congrArg List.length hrest
        rw [List.length_append] at hlength
        rw [buffered_refill hw]
        omega
      rw [readFrom_part context h hrest hw hlt]
      exact hread w.refill fuel hrest (hw.refill (Nat.lt_trans hlt h.fits)) hfull (by omega)

theorem read_records (context : String) {values : List α}
    (h : Records scan state w.rest values) (hw : w.Sound) :
    read context scan state w = (values, none) := by
  have hlength := h.length_le
  exact readFrom_records context h rfl hw (by omega)

end Window

end FlowWatch.Capture
