/-
The order of a report.

Sessions and exchanges are sorted by place: a time, a client and a server. The sort is stable, so it
says what stands where as soon as it is known which records there are and in which order those of one
place came in. `mergeSort_eq_of_places` says so of any list sorted by places of a linear order, and the
places of a report are one, with the texts in the order of their characters.
-/
import FlowWatch.Report
import Mathlib.Data.List.Sort
import Mathlib.Data.Prod.Lex
import Mathlib.Data.String.Basic

set_option autoImplicit false

namespace FlowWatch

/-! ## Sorting by place -/

section Sorting

variable {α κ : Type} [LinearOrder κ] {place : α → κ} {le : α → α → Bool} {xs ys : List α}

/-- Lists in the order of their places that agree at each place are equal. -/
theorem eq_of_places (hx : xs.Pairwise fun a b => place a ≤ place b)
    (hy : ys.Pairwise fun a b => place a ≤ place b) (hperm : xs.Perm ys)
    (hties : ∀ k, xs.filter (place · = k) = ys.filter (place · = k)) : xs = ys := by
  induction xs generalizing ys with
  | nil => exact hperm.nil_eq
  | cons x xs ih =>
    obtain ⟨y, ys, rfl⟩ := List.exists_cons_of_ne_nil
      fun hnil => List.cons_ne_nil x xs (List.perm_nil.mp (hnil ▸ hperm))
    obtain ⟨hxle, hxs⟩ := List.pairwise_cons.mp hx
    obtain ⟨hyle, hys⟩ := List.pairwise_cons.mp hy
    -- Each head is in the other list, so neither place is before the other.
    have hplace : place y = place x := by
      have hxy : place x ≤ place y := by
        rcases List.mem_cons.mp (hperm.mem_iff.mpr List.mem_cons_self) with rfl | hmem
        · exact le_refl _
        · exact hxle y hmem
      have hyx : place y ≤ place x := by
        rcases List.mem_cons.mp (hperm.mem_iff.mp List.mem_cons_self) with rfl | hmem
        · exact le_refl _
        · exact hyle x hmem
      exact le_antisymm hyx hxy
    have hhead := hties (place x)
    rw [List.filter_cons_of_pos (by simp), List.filter_cons_of_pos (by simp [hplace])] at hhead
    obtain rfl : x = y := (List.cons.inj hhead).1
    have hrest : ∀ k, xs.filter (place · = k) = ys.filter (place · = k) := by
      intro k
      have hk := hties k
      rw [List.filter_cons, List.filter_cons] at hk
      split at hk
      · exact (List.cons.inj hk).2
      · exact hk
    rw [ih hxs hys hperm.cons_inv hrest]

variable (hle : ∀ a b, le a b = true ↔ place a ≤ place b)

include hle

theorem le_trans_of_place (a b c : α) (hab : le a b = true) (hbc : le b c = true) :
    le a c = true :=
  (hle a c).mpr (((hle a b).mp hab).trans ((hle b c).mp hbc))

theorem le_total_of_place (a b : α) : (le a b || le b a) = true := by
  rw [Bool.or_eq_true, hle, hle]
  exact le_total _ _

theorem pairwise_mergeSort_place (xs : List α) :
    (xs.mergeSort le).Pairwise fun a b => place a ≤ place b := by
  have hsorted := List.pairwise_mergeSort (le_trans_of_place hle) (le_total_of_place hle) xs
  exact hsorted.imp fun h => (hle _ _).mp h

/-- Sorting keeps the order in which those of one place came in. -/
theorem filter_mergeSort_place (xs : List α) (k : κ) :
    (xs.mergeSort le).filter (place · = k) = xs.filter (place · = k) := by
  have htied : (xs.filter (place · = k)).Pairwise fun a b => le a b = true := by
    refine List.pairwise_of_forall_mem_list fun a ha b hb => (hle a b).mpr ?_
    have ha := of_decide_eq_true (List.mem_filter.mp ha).2
    have hb := of_decide_eq_true (List.mem_filter.mp hb).2
    exact le_of_eq (ha.trans hb.symm)
  have hsublist := (List.sublist_mergeSort (le_trans_of_place hle) (le_total_of_place hle) htied
    List.filter_sublist).filter (place · = k)
  rw [List.filter_filter] at hsublist
  simp only [Bool.and_self] at hsublist
  exact (hsublist.eq_of_length ((List.mergeSort_perm xs le).filter _).length_eq.symm).symm

/-- A sorted list is told by what is in it and by the order of those of one place. -/
theorem mergeSort_eq_of_places (hperm : xs.Perm ys)
    (hties : ∀ k, xs.filter (place · = k) = ys.filter (place · = k)) :
    xs.mergeSort le = ys.mergeSort le := by
  refine eq_of_places (pairwise_mergeSort_place hle xs) (pairwise_mergeSort_place hle ys) ?_ ?_
  · exact (List.mergeSort_perm xs le).trans (hperm.trans (List.mergeSort_perm ys le).symm)
  · intro k
    rw [filter_mergeSort_place hle, filter_mergeSort_place hle, hties k]

end Sorting

namespace Report

/-! ## Places -/

/-- The place of a record: its time, then its client, then its server. -/
abbrev Place : Type := Int ×ₗ String ×ₗ String

/-- The place of a time between two endpoints. -/
def place (t : Instant) (client server : String) : Place := toLex (t, toLex (client, server))

theorem place_le_iff {t u : Instant} {c d s r : String} :
    place t c s ≤ place u d r ↔ t < u ∨ t = u ∧ (c < d ∨ c = d ∧ s ≤ r) := by
  rw [place, place, Prod.Lex.toLex_le_toLex, Prod.Lex.toLex_le_toLex]

/-- The place of a session. -/
def sessionPlace (r : SessionRecord) : Place := place r.firstSeen.instant r.client r.server

/-- The place of an exchange. -/
def exchangePlace (e : ExchangeRecord) : Place := place e.requestedAt.instant e.client e.server

theorem sessionBefore_iff (a b : SessionRecord) :
    sessionBefore a b = true ↔ sessionPlace a ≤ sessionPlace b := by
  rw [sessionPlace, sessionPlace, place_le_iff, sessionBefore]
  by_cases ht : a.firstSeen.instant = b.firstSeen.instant
  · by_cases hc : a.client = b.client <;> simp [ht, hc]
  · simp [ht]

theorem exchangeBefore_iff (a b : ExchangeRecord) :
    exchangeBefore a b = true ↔ exchangePlace a ≤ exchangePlace b := by
  rw [exchangePlace, exchangePlace, place_le_iff, exchangeBefore]
  by_cases ht : a.requestedAt.instant = b.requestedAt.instant
  · by_cases hc : a.client = b.client <;> simp [ht, hc]
  · simp [ht]

end Report

end FlowWatch
