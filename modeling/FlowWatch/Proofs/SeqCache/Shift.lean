/-
Sequence numbers have no origin.

A cache compares positions of one flow with each other, for equality, for being next to each other and
in serial order, and each of these hangs on the difference of two positions alone. So when every flow
has its positions moved by an offset of its own, a list of entries moves with it: `shift` commutes with
every operation, and no answer changes. The 32-bit circle needs no care here, because the difference
of two words does not see where it is closed.

A cache itself cannot be shifted, since its index hashes the positions. Two caches are `Twins` when
they stand for two lists of which one is the shift of the other.
-/
import FlowWatch.Proofs.SeqCache.Refinement
import Mathlib.Data.UInt

set_option autoImplicit false

namespace FlowWatch

/-! ## Positions -/

namespace Sequence

variable (a b x : Sequence)

/-- Moving both ends does not change the way between them. -/
theorem distance_shift : distance (a + x) (b + x) = distance a b := by
  unfold distance
  rw [add_sub_add_right_eq_sub]

theorem atOrBefore_shift : atOrBefore (a + x) (b + x) = atOrBefore a b := by
  unfold atOrBefore
  rw [distance_shift]

theorem advance_shift (n : Nat) : (a + x).advance n = a.advance n + x := add_right_comm a x _

theorem retreat_shift (n : Nat) : (a + x).retreat n = a.retreat n + x := by
  unfold retreat
  exact add_sub_right_comm a x _

end Sequence

namespace StreamPoint

/-- The point, moved by the offset of its flow. -/
def shift (o : Flow → Sequence) (p : StreamPoint) : StreamPoint := ⟨p.flow, p.seq + o p.flow⟩

variable {o : Flow → Sequence} {p q : StreamPoint}

theorem shift_inj : p.shift o = q.shift o ↔ p = q := by
  constructor
  · intro h
    obtain ⟨hflow, hseq⟩ := StreamPoint.mk.inj h
    rw [hflow] at hseq
    have hsame : p.seq = q.seq := add_right_cancel hseq
    cases p
    cases q
    simp_all
  · rintro rfl
    rfl

end StreamPoint

namespace RecencyList

/-- The entry, with its key moved. -/
def shiftEntry (o : Flow → Sequence) (e : StreamPoint × Instant) : StreamPoint × Instant :=
  (e.1.shift o, e.2)

/-- The list, with all its keys moved. -/
def shift (o : Flow → Sequence) (m : RecencyList) : RecencyList :=
  { m with entries := m.entries.map (shiftEntry o) }

variable (o : Flow → Sequence) (m : RecencyList) (key : StreamPoint)

theorem shiftEntry_injective : Function.Injective (shiftEntry o) := by
  rintro ⟨p, s⟩ ⟨q, t⟩ h
  obtain ⟨hkey, hseen⟩ := Prod.mk.inj h
  exact Prod.ext (StreamPoint.shift_inj.mp hkey) hseen

/-! ## What is asked about one entry -/

theorem isExpired_shift (maxAge : Option Span) (now : Instant) :
    isExpired maxAge now ∘ shiftEntry o = isExpired maxAge now := by
  funext e
  cases maxAge <;> rfl

theorem eq_key_shift :
    (fun e : StreamPoint × Instant => decide (e.1 = key.shift o)) ∘ shiftEntry o =
      fun e => decide (e.1 = key) := by
  funext e
  exact decide_eq_decide.mpr StreamPoint.shift_inj

theorem ne_key_shift :
    (fun e : StreamPoint × Instant => decide (e.1 ≠ key.shift o)) ∘ shiftEntry o =
      fun e => decide (e.1 ≠ key) := by
  funext e
  exact decide_eq_decide.mpr (not_congr StreamPoint.shift_inj)

/-- Only entries of the flow are compared with the key, and they move as far as it does. -/
theorem covered_shift (entries : List (StreamPoint × Instant)) :
    covered (key.shift o) (entries.map (shiftEntry o)) =
      (covered key entries).map (shiftEntry o) := by
  induction entries with
  | nil => rfl
  | cons e entries ih =>
    rw [List.map_cons]
    by_cases hflow : e.1.flow = key.flow
    · have hflow' : (shiftEntry o e).1.flow = (key.shift o).flow := hflow
      have hmoved : (shiftEntry o e).1.seq.atOrBefore ((key.shift o).seq.advance 1) =
          e.1.seq.atOrBefore (key.seq.advance 1) := by
        show (e.1.seq + o e.1.flow).atOrBefore ((key.seq + o key.flow).advance 1) = _
        rw [hflow, Sequence.advance_shift, Sequence.atOrBefore_shift]
      by_cases hat : e.1.seq.atOrBefore (key.seq.advance 1) = true
      · have hat' := hmoved.trans hat
        rw [covered_cons_at _ hflow hat, covered_cons_at _ hflow' hat', ih]
        rfl
      · have hat' := hat
        rw [← hmoved] at hat'
        rw [covered_cons_beyond _ hflow hat, covered_cons_beyond _ hflow' hat']
        rfl
    · have hflow' : (shiftEntry o e).1.flow ≠ (key.shift o).flow := hflow
      rw [covered_cons_other _ hflow, covered_cons_other _ hflow', ih]

/-! ## The operations -/

theorem purge_shift (now : Instant) :
    (m.shift o).purge now = ((m.purge now).1.shift o, (m.purge now).2) := by
  unfold purge shift
  dsimp only
  rw [List.dropWhile_map, List.takeWhile_map, isExpired_shift, List.length_map]

theorem push_shift (seen : Instant) :
    (m.shift o).push (key.shift o) seen = ((m.push key seen).1.shift o, (m.push key seen).2) := by
  unfold push shift
  dsimp only
  split_ifs with hclosed
  · rfl
  · rw [List.dropWhile_map, isExpired_shift, List.filter_map, List.any_map, ne_key_shift,
      eq_key_shift]
    simp only [List.map_append, List.map_cons, List.map_nil]
    rfl

/-- What is next to the key stays next to it. -/
theorem near_shift {e : StreamPoint × Instant} (hflow : e.1.flow = key.flow) :
    ((shiftEntry o e).1.seq = (key.shift o).seq.advance 1 ∨
        (shiftEntry o e).1.seq = (key.shift o).seq.retreat 1) ↔
      (e.1.seq = key.seq.advance 1 ∨ e.1.seq = key.seq.retreat 1) := by
  show (e.1.seq + o e.1.flow = (key.seq + o key.flow).advance 1 ∨
    e.1.seq + o e.1.flow = (key.seq + o key.flow).retreat 1) ↔ _
  rw [hflow, Sequence.advance_shift, Sequence.retreat_shift, add_left_inj, add_left_inj]

theorem pull_of_hit (hopen : m.closed = false) {hit : StreamPoint × Instant}
    (hfind : (m.entries.find? fun e => e.1 = key) = some hit) :
    m.pull key =
      ({ m with
          entries := ((m.entries.takeWhile fun e => e.1 ≠ key).filter fun e => e.1.flow ≠ key.flow) ++
            (m.entries.dropWhile fun e => e.1 ≠ key).tail }, .ok (some hit.2)) := by
  unfold pull
  rw [hopen, hfind]
  rfl

theorem pull_of_miss (hopen : m.closed = false)
    (hfind : (m.entries.find? fun e => e.1 = key) = none) :
    m.pull key =
      ({ m with entries := m.entries.filter fun e => e ∉ covered key m.entries },
        .ok (((covered key m.entries).getLast?.filter fun e =>
          e.1.seq = key.seq.advance 1 ∨ e.1.seq = key.seq.retreat 1).map Prod.snd)) := by
  unfold pull
  rw [hopen, hfind]
  rfl

theorem pull_shift :
    (m.shift o).pull (key.shift o) = ((m.pull key).1.shift o, (m.pull key).2) := by
  rcases hopen : m.closed with _ | _
  · have hfind : ((m.shift o).entries.find? fun e => e.1 = key.shift o) =
        (m.entries.find? fun e => e.1 = key).map (shiftEntry o) := by
      show (m.entries.map (shiftEntry o)).find? _ = _
      rw [List.find?_map, eq_key_shift]
    rcases hcase : m.entries.find? fun e => e.1 = key with _ | hit
    · rw [hcase] at hfind
      have hgone : covered (key.shift o) (m.shift o).entries = _ := covered_shift o key m.entries
      have hstay : (fun e => decide (e ∉ (covered key m.entries).map (shiftEntry o))) ∘ shiftEntry o =
          fun e => decide (e ∉ covered key m.entries) := by
        funext e
        exact decide_eq_decide.mpr (not_congr (List.mem_map_of_injective (shiftEntry_injective o)))
      rw [pull_of_miss m key hopen hcase, pull_of_miss (m.shift o) (key.shift o) hopen hfind, hgone]
      refine Prod.ext ?_ (congrArg Except.ok ?_)
      · show RecencyList.mk _ _ ((m.entries.map (shiftEntry o)).filter _) = _
        rw [List.filter_map, hstay]
        rfl
      · rw [List.getLast?_map]
        rcases hlast : (covered key m.entries).getLast? with _ | e
        · rfl
        · have hflow := flow_of_mem_covered (List.mem_of_getLast? hlast)
          simp only [Option.map_some, Option.filter_some, near_shift o key hflow]
          split_ifs <;> rfl
    · rw [hcase] at hfind
      rw [pull_of_hit m key hopen hcase, pull_of_hit (m.shift o) (key.shift o) hopen hfind]
      refine Prod.ext ?_ rfl
      show RecencyList.mk _ _ (List.filter _ ((m.entries.map (shiftEntry o)).takeWhile _) ++
        ((m.entries.map (shiftEntry o)).dropWhile _).tail) = _
      rw [List.takeWhile_map, List.dropWhile_map, ne_key_shift, List.filter_map, ← List.map_tail,
        ← List.map_append]
      rfl
  · unfold pull
    rw [if_pos hopen, if_pos (show (m.shift o).closed = true from hopen)]

end RecencyList

/-! ## Caches -/

namespace SeqCache

/-- Two caches that hold the same entries, up to the offsets of the flows. -/
def Twins (o : Flow → Sequence) (c d : SeqCache) : Prop :=
  ∃ m : RecencyList, c.Reflects m ∧ d.Reflects (m.shift o)

namespace Twins

variable {o : Flow → Sequence} {c d : SeqCache}

theorem new (maxAge : Option Span) : Twins o (.new maxAge) (.new maxAge) :=
  ⟨.empty maxAge, .new maxAge, .new maxAge⟩

theorem purge (h : Twins o c d) (now : Instant) :
    ∃ e, d.purge now = (e, (c.purge now).2) ∧ Twins o (c.purge now).1 e := by
  obtain ⟨m, hc, hd⟩ := h
  obtain ⟨hc', hcount⟩ := hc.purge now
  obtain ⟨hd', hcount'⟩ := hd.purge now
  rw [m.purge_shift o now] at hd' hcount'
  refine ⟨(d.purge now).1, ?_, (m.purge now).1, hc', hd'⟩
  rw [hcount, ← hcount']

theorem push (h : Twins o c d) (key : StreamPoint) (seen : Instant) :
    ∃ e, d.push (key.shift o) seen = (e, (c.push key seen).2) ∧ Twins o (c.push key seen).1 e := by
  obtain ⟨m, hc, hd⟩ := h
  obtain ⟨hc', hanswer⟩ := hc.push key seen
  obtain ⟨hd', hanswer'⟩ := hd.push (key.shift o) seen
  rw [m.push_shift o key seen] at hd' hanswer'
  refine ⟨(d.push (key.shift o) seen).1, ?_, (m.push key seen).1, hc', hd'⟩
  rw [hanswer, ← hanswer']

theorem pull (h : Twins o c d) (key : StreamPoint) :
    ∃ e, d.pull (key.shift o) = (e, (c.pull key).2) ∧ Twins o (c.pull key).1 e := by
  obtain ⟨m, hc, hd⟩ := h
  obtain ⟨hc', hanswer⟩ := hc.pull key
  obtain ⟨hd', hanswer'⟩ := hd.pull (key.shift o)
  rw [m.pull_shift o key] at hd' hanswer'
  refine ⟨(d.pull (key.shift o)).1, ?_, (m.pull key).1, hc', hd'⟩
  rw [hanswer, ← hanswer']

theorem shut (h : Twins o c d) : Twins o c.shut d.shut := by
  obtain ⟨m, hc, hd⟩ := h
  exact ⟨m.shut, hc.shut, hd.shut⟩

theorem reopen (h : Twins o c d) : Twins o c.reopen d.reopen := by
  obtain ⟨m, hc, hd⟩ := h
  exact ⟨m.reopen, hc.reopen, hd.reopen⟩

end Twins

end SeqCache

end FlowWatch
