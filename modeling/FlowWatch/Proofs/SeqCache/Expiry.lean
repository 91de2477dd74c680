/-
Expiry.

Expiry walks from the old end and ends at the first entry that is not too old. What it takes is too old
at any rate; that nothing too old is left behind hangs on the order of the entries, which is the order of
their times as long as the calls pass times that never decrease. A refresh moves its entry to the recent
end together with the newest time, and all other calls only take entries away, so the order is kept:
`perform_entries` is all that the induction needs to know of a call.
-/
import FlowWatch.Proofs.SeqCache.Entries
import Mathlib.Data.List.TakeWhile

set_option autoImplicit false

namespace FlowWatch

/-- The time that a call passes to the cache. -/
def CacheCall.time? : CacheCall → Option Instant
  | .push _ seen => some seen
  | .purge now => some now
  | .pull _ | .shut | .reopen => none

namespace RecencyList

variable {m : RecencyList} {maxAge : Span} {calls : List CacheCall}

/-! ## One call -/

theorem purge_suffix (now : Instant) : (m.purge now).1.entries <:+ m.entries :=
  List.dropWhile_suffix _

theorem pull_sublist (key : StreamPoint) : (m.pull key).1.entries.Sublist m.entries := by
  unfold pull
  split_ifs
  · exact List.Sublist.refl _
  · split
    · -- The two sides of a hit are cut from the two sides of the list.
      have hsides := (List.filter_sublist (l := m.entries.takeWhile fun e => e.1 ≠ key)
        (p := fun e => e.1.flow ≠ key.flow)).append
          (List.tail_sublist (m.entries.dropWhile fun e => e.1 ≠ key))
      rw [List.takeWhile_append_dropWhile] at hsides
      exact hsides
    · exact List.filter_sublist

/-- A push on an open list is a purge at its time, and the key moves to the recent end. -/
theorem push_entries (hopen : m.closed = false) (key : StreamPoint) (seen : Instant) :
    (m.push key seen).1.entries =
        ((m.purge seen).1.entries.filter fun e => e.1 ≠ key) ++ [(key, seen)] ∧
      (m.push key seen).2 = .ok ((m.purge seen).1.entries.any fun e => e.1 = key) := by
  unfold push
  rw [hopen, if_neg Bool.false_ne_true]
  exact ⟨rfl, rfl⟩

/-- A call takes entries away, and a push on an open list adds one with the time that it passes. -/
theorem perform_entries (m : RecencyList) (call : CacheCall) :
    ∃ kept, kept.Sublist m.entries ∧
      ((m.perform call).1.entries = kept ∨
        ∃ key seen, call = .push key seen ∧ m.closed = false ∧
          (m.perform call).1.entries = kept ++ [(key, seen)]) := by
  cases call with
  | push key seen =>
    rcases hclosed : m.closed with _ | _
    · obtain ⟨hentries, -⟩ := push_entries hclosed key seen
      refine ⟨_, ?_, .inr ⟨key, seen, rfl, rfl, hentries⟩⟩
      exact List.filter_sublist.trans (purge_suffix seen).sublist
    · refine ⟨m.entries, List.Sublist.refl _, .inl ?_⟩
      show (m.push key seen).1.entries = m.entries
      unfold push
      rw [if_pos hclosed]
  | pull key => exact ⟨_, pull_sublist key, .inl rfl⟩
  | purge now => exact ⟨_, (purge_suffix now).sublist, .inl rfl⟩
  | shut => exact ⟨[], List.nil_sublist _, .inl rfl⟩
  | reopen => exact ⟨m.entries, List.Sublist.refl _, .inl rfl⟩

/-- The greatest age is never changed, and only a shut or a reopening changes whether it is closed. -/
theorem settings_perform (m : RecencyList) (call : CacheCall) :
    (m.perform call).1.maxAge = m.maxAge ∧
      (m.perform call).1.closed =
        match call with
        | .shut => true
        | .reopen => false
        | _ => m.closed := by
  cases call with
  | push key seen =>
    unfold perform push
    dsimp only
    split_ifs <;> exact ⟨rfl, rfl⟩
  | pull key =>
    unfold perform pull
    dsimp only
    split_ifs
    · exact ⟨rfl, rfl⟩
    · split <;> exact ⟨rfl, rfl⟩
  | purge now => exact ⟨rfl, rfl⟩
  | shut => exact ⟨rfl, rfl⟩
  | reopen => exact ⟨rfl, rfl⟩

/-! ## What expiry takes -/

/-- Expiry takes nothing that is young enough, in whatever order the entries stand. -/
theorem mem_purge_of_fresh (hage : m.maxAge = some maxAge) {now : Instant}
    {e : StreamPoint × Instant} (he : e ∈ m.entries) (hfresh : now - e.2 ≤ maxAge) :
    e ∈ (m.purge now).1.entries := by
  rw [m.purge_of_some now hage]
  rw [← List.takeWhile_append_dropWhile (p := fun e => decide (maxAge < now - e.2)) (l := m.entries),
    List.mem_append] at he
  refine he.resolve_left fun hold => ?_
  have hgone := List.mem_takeWhile_imp
    (p := fun e : StreamPoint × Instant => decide (maxAge < now - e.2)) hold
  exact Int.not_lt.mpr hfresh (of_decide_eq_true hgone)

/-- Where the entries stand in the order of their times, expiry takes all that is too old. -/
theorem purge_of_inOrder (hage : m.maxAge = some maxAge)
    (horder : m.entries.Pairwise fun a b => a.2 ≤ b.2) (now : Instant) :
    (m.purge now).1.entries = (m.entries.filter fun e => now - e.2 ≤ maxAge) ∧
      (m.purge now).2 = (m.entries.filter fun e => maxAge < now - e.2).length := by
  have hcut : m.entries.Pairwise fun a b =>
      decide (maxAge < now - b.2) = true → decide (maxAge < now - a.2) = true := by
    refine horder.imp fun {a b} hab hb => decide_eq_true ?_
    exact Int.lt_of_lt_of_le (of_decide_eq_true hb) (Int.sub_le_sub_left hab now)
  obtain ⟨htake, hdrop⟩ := cut_eq_filter hcut
  rw [m.purge_of_some now hage]
  refine ⟨hdrop.trans (List.filter_congr fun e he => ?_), congrArg List.length htake⟩
  rw [← decide_not]
  exact decide_eq_decide.mpr Int.not_lt

/-- After a call that tells the time, nothing is too old. -/
theorem fresh_perform (hage : m.maxAge = some maxAge) (hmax : 0 ≤ maxAge)
    (horder : m.entries.Pairwise fun a b => a.2 ≤ b.2) (hclosed : m.closed = true → m.entries = [])
    (call : CacheCall) {now : Instant} (hnow : call.time? = some now) :
    ∀ e ∈ (m.perform call).1.entries, now - e.2 ≤ maxAge := by
  have hpurge : ∀ e ∈ (m.purge now).1.entries, now - e.2 ≤ maxAge := by
    intro e he
    rw [(purge_of_inOrder hage horder now).1] at he
    exact of_decide_eq_true (List.mem_filter.mp he).2
  intro e he
  cases call with
  | push key seen =>
    obtain rfl := Option.some.inj hnow
    change e ∈ (m.push key seen).1.entries at he
    rcases hm : m.closed with _ | _
    · rw [(push_entries hm key seen).1] at he
      rcases List.mem_append.mp he with hkept | hnew
      · exact hpurge e (List.mem_filter.mp hkept).1
      · rw [List.mem_singleton.mp hnew, Int.sub_self]
        exact hmax
    · unfold push at he
      rw [if_pos hm, hclosed hm] at he
      exact absurd he List.not_mem_nil
  | purge t =>
    obtain rfl := Option.some.inj hnow
    exact hpurge e he
  | pull key => exact absurd hnow (by simp [CacheCall.time?])
  | shut => exact absurd hnow (by simp [CacheCall.time?])
  | reopen => exact absurd hnow (by simp [CacheCall.time?])

/-! ## After some calls -/

theorem maxAge_after (m : RecencyList) (calls : List CacheCall) :
    (m.after calls).maxAge = m.maxAge := by
  induction calls generalizing m with
  | nil => rfl
  | cons call calls ih => exact (ih _).trans (m.settings_perform call).1

/-- While it is closed, a list has no entries. -/
theorem entries_of_closed (maxAge : Option Span) (calls : List CacheCall) :
    ((empty maxAge).after calls).closed = true → ((empty maxAge).after calls).entries = [] := by
  induction calls using List.reverseRecOn with
  | nil => exact fun h => absurd h Bool.false_ne_true
  | append_singleton calls call ih =>
    rw [after_append]
    generalize (empty maxAge).after calls = m at ih ⊢
    intro hclosed
    rw [(m.settings_perform call).2] at hclosed
    -- A call that neither shuts nor reopens finds it closed, and so adds nothing to nothing.
    have hkept : m.closed = true → (m.perform call).1.entries = [] := by
      intro hm
      obtain ⟨kept, hkept, hsame | ⟨-, -, -, hopen, -⟩⟩ := perform_entries m call
      · rw [ih hm] at hkept
        rw [hsame, List.sublist_nil.mp hkept]
      · exact absurd (hm.symm.trans hopen) (by simp)
    cases call with
    | push key seen => exact hkept hclosed
    | pull key => exact hkept hclosed
    | purge now => exact hkept hclosed
    | shut => rfl
    | reopen => exact absurd hclosed Bool.false_ne_true

/-- Every entry has a time that was passed. -/
theorem seen_mem_times (maxAge : Option Span) (calls : List CacheCall) :
    ∀ e ∈ ((empty maxAge).after calls).entries, e.2 ∈ calls.filterMap CacheCall.time? := by
  induction calls using List.reverseRecOn with
  | nil => exact fun e he => absurd he List.not_mem_nil
  | append_singleton calls call ih =>
    rw [after_append, List.filterMap_append]
    intro e he
    obtain ⟨kept, hkept, hsame | ⟨key, seen, rfl, -, hadded⟩⟩ :=
      perform_entries ((empty maxAge).after calls) call
    · rw [hsame] at he
      exact List.mem_append_left _ (ih e (hkept.subset he))
    · rw [hadded] at he
      rcases List.mem_append.mp he with hold | hnew
      · exact List.mem_append_left _ (ih e (hkept.subset hold))
      · rw [List.mem_singleton.mp hnew]
        exact List.mem_append_right _ (List.mem_singleton_self seen)

/-- **Recency is the order of the times** as long as these never decrease. -/
theorem pairwise_seen (maxAge : Option Span) (calls : List CacheCall)
    (htimes : (calls.filterMap CacheCall.time?).Pairwise (· ≤ ·)) :
    ((empty maxAge).after calls).entries.Pairwise fun a b => a.2 ≤ b.2 := by
  induction calls using List.reverseRecOn with
  | nil => exact List.Pairwise.nil
  | append_singleton calls call ih =>
    rw [List.filterMap_append, List.pairwise_append] at htimes
    obtain ⟨hbefore, -, hlast⟩ := htimes
    rw [after_append]
    obtain ⟨kept, hkept, hsame | ⟨key, seen, rfl, -, hadded⟩⟩ :=
      perform_entries ((empty maxAge).after calls) call
    · rw [hsame]
      exact (ih hbefore).sublist hkept
    · rw [hadded, List.pairwise_append]
      refine ⟨(ih hbefore).sublist hkept, List.pairwise_singleton _ _, fun a ha b hb => ?_⟩
      rw [List.mem_singleton.mp hb]
      exact hlast a.2 (seen_mem_times maxAge calls a (hkept.subset ha)) seen
        (List.mem_singleton_self seen)

/-- **No entry was too old when time was told last**, nor at any time before. -/
theorem age_le (hmax : 0 ≤ maxAge) (htimes : (calls.filterMap CacheCall.time?).Pairwise (· ≤ ·)) :
    ∀ t ∈ calls.filterMap CacheCall.time?, ∀ e ∈ ((empty (some maxAge)).after calls).entries,
      t - e.2 ≤ maxAge := by
  induction calls using List.reverseRecOn with
  | nil => exact fun t ht => absurd ht List.not_mem_nil
  | append_singleton calls call ih =>
    rw [List.filterMap_append, List.pairwise_append] at htimes
    obtain ⟨hbefore, -, hlast⟩ := htimes
    have hfresh := @fresh_perform _ maxAge (maxAge_after (empty (some maxAge)) calls) hmax
      (pairwise_seen (some maxAge) calls hbefore) (entries_of_closed (some maxAge) calls) call
    rw [after_append, List.filterMap_append]
    intro t ht e he
    rcases List.mem_append.mp ht with hold | hnew
    · obtain ⟨kept, hkept, hsame | ⟨key, seen, rfl, -, hadded⟩⟩ :=
        perform_entries ((empty (some maxAge)).after calls) call
      · rw [hsame] at he
        exact ih hbefore t hold e (hkept.subset he)
      · rw [hadded] at he
        rcases List.mem_append.mp he with hthere | hpushed
        · exact ih hbefore t hold e (hkept.subset hthere)
        · -- What was pushed since is younger than any time told before.
          have hle : t ≤ seen := hlast t hold seen (List.mem_singleton_self seen)
          rw [List.mem_singleton.mp hpushed]
          exact Int.le_trans (Int.sub_nonpos_of_le hle) hmax
    · rcases hcall : call.time? with _ | now
      · rw [List.filterMap_cons_none hcall] at hnew
        exact absurd hnew List.not_mem_nil
      · rw [List.filterMap_cons_some hcall] at hnew
        rw [List.mem_singleton.mp hnew]
        exact hfresh hcall e he

end RecencyList

namespace SeqCache

open RecencyList

/-- **Expiry is exact.** After any calls, a purge takes nothing that is not older than the greatest age,
whatever the times are, and a push on an open cache takes what a purge at its time takes, before its
key moves to the recent end. If the times that were passed never decrease, up to that of the purge or
the push, all that is older goes, and no more, and nothing older is left. -/
theorem expiry_exact {maxAge : Span} (hmax : 0 ≤ maxAge) (calls : List CacheCall) (now : Instant) :
    let c := (SeqCache.new (some maxAge)).after calls
    (∀ e ∈ c.entries, now - e.2 ≤ maxAge → e ∈ (c.purge now).1.entries) ∧
    (c.closed = true → c.entries = []) ∧
    (c.closed = false → ∀ key,
      (c.push key now).1.entries =
          ((c.purge now).1.entries.filter fun e => e.1 ≠ key) ++ [(key, now)] ∧
        (c.push key now).2 = .ok ((c.purge now).1.entries.any fun e => e.1 = key)) ∧
    ((calls.filterMap CacheCall.time? ++ [now]).Pairwise (· ≤ ·) →
      (c.purge now).1.entries = (c.entries.filter fun e => now - e.2 ≤ maxAge) ∧
        (c.purge now).2 = (c.entries.filter fun e => maxAge < now - e.2).length ∧
        ∀ key, ∀ e ∈ (c.push key now).1.entries, now - e.2 ≤ maxAge) := by
  intro c
  have hc : c.Reflects ((RecencyList.empty (some maxAge)).after calls) :=
    reflects_after (some maxAge) calls
  have hage := maxAge_after (RecencyList.empty (some maxAge)) calls
  have hclosed := entries_of_closed (some maxAge) calls
  have horder := pairwise_seen (some maxAge) calls
  generalize (RecencyList.empty (some maxAge)).after calls = m at hc hage hclosed horder
  obtain ⟨hpurge, hcount⟩ := hc.purge now
  have hpush := fun key => hc.push key now
  rw [hc.entries_eq, hc.closed_eq, hpurge.entries_eq, hcount]
  refine ⟨fun e he => mem_purge_of_fresh hage he, hclosed, fun hopen key => ?_, fun htimes => ?_⟩
  · rw [(hpush key).1.entries_eq, (hpush key).2]
    exact push_entries hopen key now
  · have hsorted := horder (List.pairwise_append.mp htimes).1
    obtain ⟨hkept, hgone⟩ := purge_of_inOrder hage hsorted now
    refine ⟨hkept, hgone, fun key e he => ?_⟩
    rw [(hpush key).1.entries_eq] at he
    exact fresh_perform hage hmax hsorted hclosed (.push key now) rfl e he

/-- An entry that was refreshed outlives the one pushed after it. -/
theorem expiry_exact_after_refresh :
    let f : Flow := ⟨.v4 ⟨10, 0, 0, 1⟩, 40000, .v4 ⟨10, 0, 0, 2⟩, 80⟩
    let c := (SeqCache.new (some 10)).after
      [.push ⟨f, 1⟩ 0, .push ⟨f, 2⟩ 3, .push ⟨f, 1⟩ 8, .pull ⟨f.reverse, 2⟩, .purge 9]
    (0 : Span) ≤ 10 ∧ (c.purge 14).1.entries = [(⟨f, 1⟩, 8)] ∧ (c.purge 14).2 = 1 ∧
      ∀ key, ∀ e ∈ (c.push key 14).1.entries, 14 - e.2 ≤ 10 := by
  intro f c
  have hc := reflects_after (some 10)
    [.push ⟨f, 1⟩ 0, .push ⟨f, 2⟩ 3, .push ⟨f, 1⟩ 8, .pull ⟨f.reverse, 2⟩, .purge 9]
  have hentries : c.entries = [(⟨f, 2⟩, 3), (⟨f, 1⟩, 8)] := hc.entries_eq.trans (by decide)
  obtain ⟨-, -, -, hinOrder⟩ := expiry_exact (show (0 : Span) ≤ 10 by decide)
    [.push ⟨f, 1⟩ 0, .push ⟨f, 2⟩ 3, .push ⟨f, 1⟩ 8, .pull ⟨f.reverse, 2⟩, .purge 9] 14
  obtain ⟨hkept, hgone, hfresh⟩ := hinOrder (by decide)
  rw [hentries] at hkept hgone
  exact ⟨by decide, hkept, hgone, hfresh⟩

end SeqCache

end FlowWatch
