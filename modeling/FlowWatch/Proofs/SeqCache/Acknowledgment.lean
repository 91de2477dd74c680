/-
Cumulative acknowledgment.

Acknowledging a position is acknowledging all before it, and a pull does so as long as the entries of the
flow lie in the order of their positions. Which order that is depends on where one stands: positions are
on a circle, and what is serially behind its predecessor each time may still have passed the far side of
the acknowledgment. `RisesFrom` is the order seen from the acknowledgment, by the signed way to each
entry. There the walk that stops at the first entry beyond has met all that are not.

An exact hit goes back from the hit and a miss goes forward from the old end, but both leave the entries
beyond some way, and those of the other flows.
-/
import FlowWatch.Proofs.SeqCache.Entries

set_option autoImplicit false

namespace FlowWatch

/-! ## Ways on the circle -/

namespace Sequence

variable {a b : Sequence}

/-- The way as a difference of numbers, brought between minus and plus half the circle. -/
theorem distance_eq (a b : Sequence) :
    distance a b = ((b.toNat : Int) - a.toNat).bmod 4294967296 := by
  have ha := a.toNat_lt
  have hshift : ((2 ^ 32 - a.toNat + b.toNat : Nat) : Int) =
      (b.toNat : Int) - a.toNat + (4294967296 : Nat) := by
    omega
  unfold distance
  rw [UInt32.toNat_sub, Int.natCast_emod, hshift]
  exact (Int.emod_bmod _ 4294967296).trans (Int.add_bmod_right _ _)

theorem distance_self (a : Sequence) : distance a a = 0 := by
  rw [distance_eq, Int.sub_self]
  rfl

/-- Short of the far side, serial order is the order of the ways. -/
theorem atOrBefore_advance_one (h : (distance a b).natAbs ≤ 2147483646) :
    b.atOrBefore (a.advance 1) = true ↔ distance a b ≤ 1 := by
  have ha := a.toNat_lt
  have hb := b.toNat_lt
  have hnext : (a.advance 1).toNat = (a.toNat + 1) % 4294967296 := UInt32.toNat_add a 1
  unfold atOrBefore
  rw [decide_eq_true_iff, distance_eq b, hnext]
  rw [distance_eq] at h ⊢
  simp only [Int.bmod_def] at h ⊢
  omega

end Sequence

namespace RecencyList

/-- Seen from an acknowledgment, the entries of its flow rise from the least to the most recent one, and
none is at the far side of the circle. -/
structure RisesFrom (key : StreamPoint) (entries : List (StreamPoint × Instant)) : Prop where
  rising : (entries.filter fun e => e.1.flow = key.flow).Pairwise fun a b =>
    key.seq.distance a.1.seq < key.seq.distance b.1.seq
  near : ∀ e ∈ entries, e.1.flow = key.flow → (key.seq.distance e.1.seq).natAbs ≤ 2147483646

/-- The entries of the flow that are not more than `way` ahead of an acknowledgment. -/
def upTo (key : StreamPoint) (way : Int) (entries : List (StreamPoint × Instant)) :
    List (StreamPoint × Instant) :=
  entries.filter fun e => e.1.flow = key.flow ∧ key.seq.distance e.1.seq ≤ way

/-- All other entries: those of other flows, and those more than `way` ahead. -/
def beyond (key : StreamPoint) (way : Int) (entries : List (StreamPoint × Instant)) :
    List (StreamPoint × Instant) :=
  entries.filter fun e => e.1.flow ≠ key.flow ∨ way < key.seq.distance e.1.seq

variable {m : RecencyList} {key : StreamPoint} {entries l r : List (StreamPoint × Instant)}
  {hit : StreamPoint × Instant}

/-! ## The two ways of a pull -/

/-- An exact hit cuts the list: before it the other flows stay, behind it everything. -/
theorem pull_of_cut (hopen : m.closed = false) (hcut : m.entries = l ++ hit :: r)
    (hkeys : (m.entries.map Prod.fst).Nodup) :
    m.pull hit.1 =
      ({ m with entries := l.filter (fun e => e.1.flow ≠ hit.1.flow) ++ r }, .ok (some hit.2)) := by
  rw [hcut] at hkeys
  obtain ⟨htake, hdrop⟩ := takeWhile_of_cut hkeys
  unfold pull
  rw [hopen, if_neg Bool.false_ne_true, hcut, find?_of_cut hkeys, htake, hdrop]
  rfl

/-- Without an exact hit the covered entries go. -/
theorem pull_of_absent (hopen : m.closed = false) (habsent : ∀ e ∈ m.entries, e.1 ≠ key) :
    m.pull key =
      ({ m with entries := m.entries.filter fun e => e ∉ covered key m.entries },
        .ok (((covered key m.entries).getLast?.filter fun e =>
          e.1.seq = key.seq.advance 1 ∨ e.1.seq = key.seq.retreat 1).map Prod.snd)) := by
  unfold pull
  rw [hopen, if_neg Bool.false_ne_true, List.find?_eq_none.mpr (by simpa using habsent)]

/-! ## In rising order -/

namespace RisesFrom

/-- The walk that stops at the first entry beyond has met all that are not. -/
theorem covered_eq (h : RisesFrom key entries) : covered key entries = upTo key 1 entries := by
  have hcovers : ∀ e ∈ entries.filter (fun e => e.1.flow = key.flow),
      (e.1.seq.atOrBefore (key.seq.advance 1) = true ↔ key.seq.distance e.1.seq ≤ 1) := by
    intro e he
    obtain ⟨hmem, hflow⟩ := List.mem_filter.mp he
    exact Sequence.atOrBefore_advance_one (h.near e hmem (of_decide_eq_true hflow))
  have hkept : (entries.filter fun e => e.1.flow = key.flow).Pairwise fun a b =>
      b.1.seq.atOrBefore (key.seq.advance 1) = true →
        a.1.seq.atOrBefore (key.seq.advance 1) = true := by
    refine h.rising.imp_of_mem fun {a b} ha hb hab hcovered => ?_
    rw [hcovers b hb] at hcovered
    rw [hcovers a ha]
    omega
  unfold covered upTo
  rw [(cut_eq_filter hkept).1, List.filter_filter]
  refine List.filter_congr fun e he => ?_
  rw [Bool.eq_iff_iff, Bool.and_eq_true, decide_eq_true_iff, decide_eq_true_iff, and_comm]
  exact and_congr_right fun hflow => hcovers e (List.mem_filter.mpr ⟨he, decide_eq_true hflow⟩)

/-- Without an exact hit what is left is beyond the next position. -/
theorem filter_not_covered (h : RisesFrom key entries) :
    (entries.filter fun e => e ∉ covered key entries) = beyond key 1 entries := by
  unfold beyond
  rw [h.covered_eq]
  refine List.filter_congr fun e he => decide_eq_decide.mpr ?_
  unfold upTo
  rw [List.mem_filter, decide_eq_true_iff, not_and, not_and, ← imp_iff_not_or, Int.not_le]
  exact forall_prop_of_true he

/-- The last of what is covered is the one furthest ahead. -/
theorem covered_cases (h : RisesFrom key entries) :
    upTo key 1 entries = [] ∨
      ∃ s ∈ upTo key 1 entries, (covered key entries).getLast? = some s ∧
        ∀ e ∈ upTo key 1 entries, key.seq.distance e.1.seq ≤ key.seq.distance s.1.seq := by
  have hsub : (upTo key 1 entries).Sublist (entries.filter fun e => e.1.flow = key.flow) := by
    refine List.monotone_filter_right entries fun e he => ?_
    exact decide_eq_true (of_decide_eq_true he).1
  have hrising := h.rising.sublist hsub
  rw [h.covered_eq]
  rcases (upTo key 1 entries).eq_nil_or_concat' with hnil | ⟨init, s, hconcat⟩
  · exact Or.inl hnil
  · rw [hconcat, List.pairwise_append] at hrising
    rw [hconcat]
    refine Or.inr ⟨s, by simp, List.getLast?_concat, fun e he => ?_⟩
    rcases List.mem_append.mp he with hinit | hlast
    · exact Int.le_of_lt (hrising.2.2 e hinit s (List.mem_singleton_self s))
    · obtain rfl := List.mem_singleton.mp hlast
      exact Int.le_refl _

/-- Around an exact hit the entries before it are at or behind it and those behind it beyond. -/
theorem cut_eq (h : RisesFrom hit.1 (l ++ hit :: r)) :
    l.filter (fun e => e.1.flow ≠ hit.1.flow) ++ r = beyond hit.1 0 (l ++ hit :: r) := by
  have hrising := h.rising
  rw [List.filter_append, List.filter_cons_of_pos (by simp), List.pairwise_append,
    List.pairwise_cons] at hrising
  obtain ⟨-, ⟨hbehind, -⟩, hbefore⟩ := hrising
  have hself : hit.1.seq.distance hit.1.seq = 0 := Sequence.distance_self _
  unfold beyond
  rw [List.filter_append, List.filter_cons_of_neg (by simp [hself])]
  refine congrArg₂ List.append ?_ ?_
  · refine List.filter_congr fun e he => decide_eq_decide.mpr ?_
    refine (or_iff_left_of_imp fun hahead hflow => ?_).symm
    have := hbefore e (List.mem_filter.mpr ⟨he, decide_eq_true hflow⟩) hit List.mem_cons_self
    rw [hself] at this
    exact absurd hahead (Int.not_lt.mpr (Int.le_of_lt this))
  · refine (List.filter_eq_self.mpr fun e he => decide_eq_true ?_).symm
    refine imp_iff_not_or.mp fun hflow => ?_
    rw [← hself]
    exact hbehind e (List.mem_filter.mpr ⟨he, decide_eq_true hflow⟩)

end RisesFrom

end RecencyList

namespace SeqCache

open RecencyList

/-- **Cumulative acknowledgment.** After any calls, if the cache is open and the entries of a flow rise
as seen from a position, the pull of that position answers with the time of the entry there. Without
one it looks at the entries up to the next position: the one furthest ahead answers if it is at the next
position or at the previous one. What stays is beyond the position, or beyond the next one, and belongs
to other flows otherwise, in the order and with the times it had. -/
theorem pull_acknowledges (maxAge : Option Span) (calls : List CacheCall) (key : StreamPoint)
    (hopen : ((SeqCache.new maxAge).after calls).closed = false)
    (hrises : RisesFrom key ((SeqCache.new maxAge).after calls).entries) :
    let c := (SeqCache.new maxAge).after calls
    let d := c.pull key
    (∀ seen, (key, seen) ∈ c.entries →
      d.2 = .ok (some seen) ∧ d.1.entries = beyond key 0 c.entries) ∧
    ((∀ e ∈ c.entries, e.1 ≠ key) →
      ((upTo key 1 c.entries = [] ∧ d.2 = .ok none) ∨
        ∃ s ∈ upTo key 1 c.entries,
          (∀ e ∈ upTo key 1 c.entries, key.seq.distance e.1.seq ≤ key.seq.distance s.1.seq) ∧
          d.2 = .ok (if s.1.seq = key.seq.advance 1 ∨ s.1.seq = key.seq.retreat 1 then some s.2
            else none)) ∧
      d.1.entries = beyond key 1 c.entries) ∧
    ∀ e ∈ d.1.entries, e.1.flow = key.flow → 0 < key.seq.distance e.1.seq := by
  intro c d
  have hc : c.Reflects ((RecencyList.empty maxAge).after calls) := reflects_after maxAge calls
  obtain ⟨hd, hanswer⟩ := hc.pull key
  generalize (RecencyList.empty maxAge).after calls = m at hc hd hanswer
  have hm : m.closed = false := hc.closed_eq.symm.trans hopen
  have hkeys := hc.keys_nodup
  change RisesFrom key c.entries at hrises
  rw [hc.entries_eq] at hrises ⊢
  -- One of the two ways is taken; each leaves what is beyond.
  have hhit : ∀ seen, (key, seen) ∈ m.entries →
      d.2 = .ok (some seen) ∧ d.1.entries = beyond key 0 m.entries := by
    intro seen he
    obtain ⟨l, r, hcut⟩ := List.append_of_mem he
    rw [pull_of_cut hm hcut hkeys] at hd hanswer
    rw [hcut] at hrises
    refine ⟨hanswer, ?_⟩
    rw [hd.entries_eq, hcut]
    exact hrises.cut_eq
  have hmiss : (∀ e ∈ m.entries, e.1 ≠ key) →
      d.2 = .ok (((covered key m.entries).getLast?.filter fun e =>
        e.1.seq = key.seq.advance 1 ∨ e.1.seq = key.seq.retreat 1).map Prod.snd) ∧
      d.1.entries = beyond key 1 m.entries := by
    intro habsent
    rw [pull_of_absent hm habsent] at hd hanswer
    refine ⟨hanswer, ?_⟩
    rw [hd.entries_eq]
    exact hrises.filter_not_covered
  refine ⟨hhit, fun habsent => ⟨?_, (hmiss habsent).2⟩, fun e he hflow => ?_⟩
  · rw [(hmiss habsent).1]
    rcases hrises.covered_cases with hnil | ⟨s, hs, hlast, hmost⟩
    · rw [hrises.covered_eq, hnil]
      exact Or.inl ⟨rfl, rfl⟩
    · refine Or.inr ⟨s, hs, hmost, ?_⟩
      rw [hlast, Option.filter_some]
      by_cases hnear : s.1.seq = key.seq.advance 1 ∨ s.1.seq = key.seq.retreat 1
      · rw [if_pos hnear, if_pos (decide_eq_true hnear)]
        rfl
      · rw [if_neg hnear, if_neg (by simpa using hnear)]
        rfl
  · by_cases hkey : ∃ seen, (key, seen) ∈ m.entries
    · obtain ⟨seen, hseen⟩ := hkey
      rw [(hhit seen hseen).2] at he
      exact (of_decide_eq_true (List.mem_filter.mp he).2).resolve_left (not_not_intro hflow)
    · have habsent : ∀ e ∈ m.entries, e.1 ≠ key := fun e he h => hkey ⟨e.2, h ▸ he⟩
      rw [(hmiss habsent).2] at he
      have hway := (of_decide_eq_true (List.mem_filter.mp he).2).resolve_left (not_not_intro hflow)
      exact Int.lt_trans Int.zero_lt_one hway

/-- Two flows, and an acknowledgment one position behind the second entry of one of them. -/
theorem pull_acknowledges_two_flows :
    let f : Flow := ⟨.v4 ⟨10, 0, 0, 1⟩, 40000, .v4 ⟨10, 0, 0, 2⟩, 80⟩
    let g : Flow := ⟨.v4 ⟨10, 0, 0, 3⟩, 40001, .v4 ⟨10, 0, 0, 2⟩, 80⟩
    let c := (SeqCache.new none).after
      [.push ⟨f, 10⟩ 1, .push ⟨g, 5⟩ 2, .push ⟨f, 20⟩ 3, .push ⟨f, 30⟩ 4]
    c.closed = false ∧ RisesFrom ⟨f, 21⟩ c.entries ∧ (c.pull ⟨f, 21⟩).2 = .ok (some 3) ∧
      (c.pull ⟨f, 21⟩).1.entries = [(⟨g, 5⟩, 2), (⟨f, 30⟩, 4)] := by
  intro f g c
  have hc := reflects_after none
    [.push ⟨f, 10⟩ 1, .push ⟨g, 5⟩ 2, .push ⟨f, 20⟩ 3, .push ⟨f, 30⟩ 4]
  have hopen : c.closed = false := hc.closed_eq
  have hentries : c.entries = [(⟨f, 10⟩, 1), (⟨g, 5⟩, 2), (⟨f, 20⟩, 3), (⟨f, 30⟩, 4)] :=
    hc.entries_eq.trans (by decide)
  have hrises : RisesFrom ⟨f, 21⟩ c.entries := by
    rw [hentries]
    exact ⟨by decide, by decide⟩
  obtain ⟨-, hmiss, -⟩ := pull_acknowledges none _ ⟨f, 21⟩ hopen hrises
  rw [hentries] at hmiss
  obtain ⟨hanswer, hleft⟩ := hmiss (by decide)
  refine ⟨hopen, hrises, ?_, hleft.trans (by decide)⟩
  rcases hanswer with ⟨hnil, -⟩ | ⟨s, hs, hmost, hanswer⟩
  · exact absurd hnil (by decide)
  · -- Of the two entries up to the next position the second one is further ahead.
    rw [show upTo ⟨f, 21⟩ 1 _ = [(⟨f, 10⟩, 1), (⟨f, 20⟩, 3)] by decide] at hs hmost
    have hfurthest := hmost (⟨f, 20⟩, 3) (by simp)
    simp only [List.mem_cons, List.not_mem_nil, or_false] at hs
    rcases hs with rfl | rfl
    · exact absurd hfurthest (by decide)
    · exact hanswer.trans (by decide)

/-- Two entries that rise by four, on the far side of an acknowledgment: the first one is as far ahead
of it as may be and the second one as far behind. The walk ends at the first, so the second stays. And
a closed cache does not answer at all. -/
theorem pull_past_far_side :
    let f : Flow := ⟨.v4 ⟨10, 0, 0, 1⟩, 40000, .v4 ⟨10, 0, 0, 2⟩, 80⟩
    let c := (SeqCache.new none).after [.push ⟨f, 2147483646⟩ 1, .push ⟨f, 2147483650⟩ 2]
    (c.entries.Pairwise fun a b => 0 < a.1.seq.distance b.1.seq) ∧
      (∀ e ∈ c.entries, e.1.flow = f ∧ (Sequence.distance 0 e.1.seq).natAbs ≤ 2147483646) ∧
      (∀ e ∈ c.entries, e.1 ≠ ⟨f, 0⟩) ∧
      (∃ e ∈ (c.pull ⟨f, 0⟩).1.entries, e.1.flow = f ∧ Sequence.distance 0 e.1.seq ≤ 0) ∧
      (c.shut.pull ⟨f, 0⟩).2 = .error .closed := by
  intro f c
  have hc := reflects_after none [.push ⟨f, 2147483646⟩ 1, .push ⟨f, 2147483650⟩ 2]
  have hentries : c.entries = [(⟨f, 2147483646⟩, 1), (⟨f, 2147483650⟩, 2)] :=
    hc.entries_eq.trans (by decide)
  have hleft : (c.pull ⟨f, 0⟩).1.entries = [(⟨f, 2147483646⟩, 1), (⟨f, 2147483650⟩, 2)] :=
    (hc.pull ⟨f, 0⟩).1.entries_eq.trans (by decide)
  rw [hentries, hleft]
  exact ⟨by decide, by decide, by decide, by decide, rfl⟩

end SeqCache

end FlowWatch
