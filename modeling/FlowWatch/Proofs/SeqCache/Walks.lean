/-
The walks along the recency order of a sequence cache.

Three walks remove entries: expiry from the old end, an exact hit from the hit toward the old end,
and a cumulative acknowledgment from the old end on. Each is bounded by a number of steps and holds
its position as a place, so each is stated for an order that is cut at that place, and the induction
is on the bound: the part of the order still to be walked is never longer than it.

`Pruned` is what all three have in common. They only remove, so every place keeps its key and its
time, and the entries that stay can be read off the cache the walk started with.
-/
import FlowWatch.Proofs.SeqCache.RecencyList
import FlowWatch.Proofs.SeqCache.Slab

set_option autoImplicit false

namespace FlowWatch.SeqCache

/-- `d` is `c` after removals only. -/
structure Pruned (c d : SeqCache) : Prop where
  maxAge_eq : d.maxAge = c.maxAge
  closed_eq : d.closed = c.closed
  entryAt_eq : ∀ i, d.entryAt? i = c.entryAt? i

namespace Pruned

variable {c d e : SeqCache}

theorem refl (c : SeqCache) : Pruned c c := ⟨rfl, rfl, fun _ => rfl⟩

theorem trans (h : Pruned c d) (k : Pruned d e) : Pruned c e :=
  ⟨k.maxAge_eq.trans h.maxAge_eq, k.closed_eq.trans h.closed_eq,
    fun i => (k.entryAt_eq i).trans (h.entryAt_eq i)⟩

theorem drop (c : SeqCache) (i : Nat) : Pruned c (c.drop i) :=
  ⟨(c.drop_frame i).1, (c.drop_frame i).2, c.entryAt?_drop i⟩

theorem listed_eq (h : Pruned c d) (order : List Nat) : d.listed order = c.listed order :=
  listed_congr fun i _ => h.entryAt_eq i

theorem dropExpired (now : Instant) (maxAge : Span) (fuel : Nat) (c : SeqCache) :
    Pruned c (dropExpired now maxAge fuel c).1 := by
  fun_induction SeqCache.dropExpired now maxAge fuel c with
  | case1 | case2 | case3 | case4 => exact refl _
  | case5 fuel c i _ node _ _ d n hd ih =>
    rw [hd] at ih
    exact (drop c i).trans ih

theorem removeBack (flow : Flow) (fuel : Nat) (cursor : Option Nat) (c : SeqCache) :
    Pruned c (removeBack flow fuel cursor c) := by
  fun_induction SeqCache.removeBack flow fuel cursor c with
  | case1 | case2 | case3 => exact refl _
  | case4 _ _ _ _ _ ih =>
    refine trans ?_ ih
    split_ifs
    · exact drop _ _
    · exact refl _

theorem takeCovered (key : StreamPoint) (fuel : Nat) (cursor : Option Nat)
    (candidate : Option (Sequence × Instant)) (c : SeqCache) :
    Pruned c (takeCovered key fuel cursor candidate c).1 := by
  fun_induction SeqCache.takeCovered key fuel cursor candidate c with
  | case1 | case2 | case3 | case5 => exact refl _
  | case4 _ _ _ _ _ _ _ ih => exact ih
  | case6 _ _ _ _ _ _ _ _ ih => exact (drop _ _).trans ih

end Pruned

/-! ## Where a walk stands -/

namespace Holds

variable {c : SeqCache} {l r : List Nat} {i : Nat}

/-- The node at a cut of the order: its entry, and the places on both sides. -/
theorem node_at (h : Holds c (l ++ i :: r)) :
    ∃ n, c.nodes[i]? = some n ∧ c.entryAt? i = some (n.key, n.seen) ∧
      n.prev = l.getLast? ∧ n.next = r.head? := by
  obtain ⟨n, hn, hp, hx⟩ := h.linked.node_at l i r rfl
  exact ⟨n, hn, by rw [entryAt?, hn]; rfl, hp, hx⟩

/-- No two entries have one key. -/
theorem keys_nodup {order : List Nat} (h : Holds c order) :
    ((c.listed order).map Prod.fst).Nodup := by
  rw [List.nodup_iff_pairwise_ne, List.pairwise_map, listed, List.pairwise_filterMap]
  refine List.Pairwise.imp_of_mem ?_ h.linked.nodup
  intro i j hi hj hij e he e' he' hk
  exact hij (h.place_unique hi hj he he' hk)

/-! ## Expiry -/

/-- Expiry drops the longest old end of expired entries, and counts it. -/
theorem dropExpired (now : Instant) (maxAge : Span) {fuel : Nat} {order : List Nat}
    (h : Holds c order) (hfuel : order.length ≤ fuel) :
    ∃ rest, Holds (dropExpired now maxAge fuel c).1 rest ∧
      c.listed rest = (c.listed order).dropWhile (fun e => maxAge < now - e.2) ∧
      (SeqCache.dropExpired now maxAge fuel c).2 =
        ((c.listed order).takeWhile (fun e => maxAge < now - e.2)).length := by
  induction fuel generalizing c order with
  | zero =>
    obtain rfl := List.length_eq_zero_iff.mp (Nat.le_zero.mp hfuel)
    exact ⟨[], h, rfl, rfl⟩
  | succ fuel ih =>
    rcases order with _ | ⟨i, r⟩
    · refine ⟨[], ?_, rfl, ?_⟩ <;> rw [SeqCache.dropExpired, h.linked.head_eq]
      · exact h
      · rfl
    · obtain ⟨n, hn, he, -, -⟩ := node_at (l := []) h
      have hstep : SeqCache.dropExpired now maxAge (fuel + 1) c =
          if now - n.seen ≤ maxAge then (c, 0)
          else ((SeqCache.dropExpired now maxAge fuel (c.drop i)).1,
            (SeqCache.dropExpired now maxAge fuel (c.drop i)).2 + 1) := by
        rw [SeqCache.dropExpired, h.linked.head_eq, List.head?_cons]
        simp only [hn]
      rw [hstep, listed_cons c he]
      by_cases hage : now - n.seen ≤ maxAge
      · have hkeep : ¬ maxAge < now - n.seen := Int.not_lt.mpr hage
        refine ⟨i :: r, ?_, ?_, ?_⟩
        · rw [if_pos hage]
          exact h
        · rw [listed_cons c he, List.dropWhile_cons_of_neg (by simpa using hkeep)]
        · rw [if_pos hage, List.takeWhile_cons_of_neg (by simpa using hkeep)]
          rfl
      · have hgo : maxAge < now - n.seen := Int.not_le.mp hage
        have htail : Holds (c.drop i) r := Holds.drop (l := []) h
        obtain ⟨rest, hrest, hlist, hcount⟩ := ih htail (by simpa using hfuel)
        rw [listed_drop] at hcount
        rw [listed_drop, listed_drop] at hlist
        refine ⟨rest, ?_, ?_, ?_⟩
        · rw [if_neg hage]
          exact hrest
        · rw [List.dropWhile_cons_of_pos (by simpa using hgo), hlist]
        · rw [if_neg hage, List.takeWhile_cons_of_pos (by simpa using hgo), hcount]
          rfl

/-! ## An exact hit -/

/-- The walk from a hit toward the old end removes the entries of the flow. What lies behind the
walk is `r`. -/
theorem removeBack (flow : Flow) {fuel : Nat} (h : Holds c (l ++ r)) (hfuel : l.length ≤ fuel) :
    ∃ rest, Holds (removeBack flow fuel l.getLast? c) (rest ++ r) ∧
      c.listed rest = (c.listed l).filter (fun e => e.1.flow ≠ flow) := by
  induction fuel generalizing c l r with
  | zero =>
    obtain rfl := List.length_eq_zero_iff.mp (Nat.le_zero.mp hfuel)
    exact ⟨[], h, rfl⟩
  | succ fuel ih =>
    rcases l.eq_nil_or_concat with rfl | ⟨l, i, rfl⟩
    · exact ⟨[], h, rfl⟩
    · rw [List.concat_eq_append] at h hfuel ⊢
      rw [List.append_assoc] at h
      obtain ⟨n, hn, he, hp, -⟩ := node_at (r := r) h
      have hlen : l.length ≤ fuel := by simpa using hfuel
      have hstep : SeqCache.removeBack flow (fuel + 1) (l ++ [i]).getLast? c =
          SeqCache.removeBack flow fuel l.getLast?
            (if n.key.flow = flow then c.drop i else c) := by
        rw [List.getLast?_concat, SeqCache.removeBack]
        simp only [hn, hp]
      rw [hstep, listed_append, listed_cons c he, List.filter_append]
      by_cases hflow : n.key.flow = flow
      · rw [if_pos hflow]
        obtain ⟨rest, hrest, hlist⟩ := ih (c := c.drop i) (Holds.drop h) hlen
        refine ⟨rest, hrest, ?_⟩
        rw [listed_drop, listed_drop] at hlist
        rw [hlist, List.filter_cons_of_neg (by simpa using hflow)]
        exact (List.append_nil _).symm
      · rw [if_neg hflow]
        obtain ⟨rest, hrest, hlist⟩ := ih (c := c) (r := i :: r) h hlen
        refine ⟨rest ++ [i], by rw [List.append_assoc]; exact hrest, ?_⟩
        rw [listed_append, listed_cons c he, hlist,
          List.filter_cons_of_pos (by simpa using hflow)]
        rfl

/-! ## An acknowledgment without an exact hit -/

/-- The walk from the old end removes what the acknowledgment covers and keeps the last of it as
the candidate. What lies behind the walk is `l`. -/
theorem takeCovered (key : StreamPoint) {fuel : Nat} (candidate : Option (Sequence × Instant))
    (h : Holds c (l ++ r)) (hfuel : r.length ≤ fuel) :
    ∃ rest, Holds (takeCovered key fuel r.head? candidate c).1 (l ++ rest) ∧
      c.listed rest =
        (c.listed r).filter (fun e => e ∉ RecencyList.covered key (c.listed r)) ∧
      (SeqCache.takeCovered key fuel r.head? candidate c).2 =
        ((RecencyList.covered key (c.listed r)).getLast?.map fun e => (e.1.seq, e.2)).or
          candidate := by
  induction fuel generalizing c l r candidate with
  | zero =>
    obtain rfl := List.length_eq_zero_iff.mp (Nat.le_zero.mp hfuel)
    exact ⟨[], h, rfl, rfl⟩
  | succ fuel ih =>
    rcases r with _ | ⟨i, r⟩
    · exact ⟨[], h, rfl, rfl⟩
    · obtain ⟨n, hn, he, -, hx⟩ := node_at h
      have hlen : r.length ≤ fuel := by simpa using hfuel
      have hkeys := h.keys_nodup
      rw [listed_append, listed_cons c he] at hkeys
      have hfresh : (n.key, n.seen) ∉ c.listed r := fun hm =>
        (RecencyList.key_ne_of_cut hkeys).2 _ hm rfl
      have hstep : SeqCache.takeCovered key (fuel + 1) (i :: r).head? candidate c =
          if n.key.flow ≠ key.flow then SeqCache.takeCovered key fuel r.head? candidate c
          else if !n.key.seq.atOrBefore (key.seq.advance 1) then (c, candidate)
          else SeqCache.takeCovered key fuel r.head? (some (n.key.seq, n.seen)) (c.drop i) := by
        rw [List.head?_cons, SeqCache.takeCovered]
        simp only [hn, hx]
      rw [hstep, listed_cons c he]
      by_cases hflow : n.key.flow = key.flow
      · by_cases hseq : n.key.seq.atOrBefore (key.seq.advance 1)
        · -- covered: the entry goes, and its key does not come again
          rw [if_neg (not_not.mpr hflow), if_neg (by rw [hseq]; exact Bool.false_ne_true),
            RecencyList.covered_cons_at (e := (n.key, n.seen)) _ hflow hseq]
          obtain ⟨rest, hrest, hlist, hlast⟩ :=
            ih (c := c.drop i) (some (n.key.seq, n.seen)) (Holds.drop h) hlen
          rw [listed_drop, listed_drop] at hlist
          rw [listed_drop] at hlast
          refine ⟨rest, hrest, ?_, ?_⟩
          · rw [hlist, List.filter_cons_of_neg (by simp)]
            refine List.filter_congr fun e hm => ?_
            have hne : e ≠ (n.key, n.seen) := fun k => hfresh (k ▸ hm)
            simp [hne]
          · rw [hlast, List.getLast?_cons]
            rcases (RecencyList.covered key (c.listed r)).getLast? with _ | e <;> rfl
        · -- beyond: the walk ends here
          rw [if_neg (not_not.mpr hflow), if_pos (by rw [Bool.eq_false_iff.mpr hseq]; rfl),
            RecencyList.covered_cons_beyond (e := (n.key, n.seen)) _ hflow hseq]
          refine ⟨i :: r, h, ?_, rfl⟩
          rw [listed_cons c he, List.filter_eq_self.mpr (by simp)]
      · -- another flow: passed over, and on the far side of the walk from now on
        rw [if_pos hflow, RecencyList.covered_cons_other (e := (n.key, n.seen)) _ hflow]
        have hcut : Holds c (l ++ [i] ++ r) := by
          rw [List.append_assoc, List.singleton_append]
          exact h
        obtain ⟨rest, hrest, hlist, hlast⟩ := ih candidate hcut hlen
        rw [List.append_assoc, List.singleton_append] at hrest
        refine ⟨i :: rest, hrest, ?_, hlast⟩
        rw [listed_cons c he, hlist, List.filter_cons_of_pos]
        simpa using fun hm => hflow (RecencyList.flow_of_mem_covered hm)

end Holds

/-! ## The settings of a cache -/

theorem settings_purge (c : SeqCache) (now : Instant) :
    (c.purge now).1.maxAge = c.maxAge ∧ (c.purge now).1.closed = c.closed := by
  unfold purge
  rcases hage : c.maxAge with _ | maxAge
  · exact ⟨hage, rfl⟩
  · have h := Pruned.dropExpired now maxAge c.size c
    exact ⟨h.maxAge_eq.trans hage, h.closed_eq⟩

theorem settings_push (c : SeqCache) (key : StreamPoint) (seen : Instant) :
    (c.push key seen).1.maxAge = c.maxAge ∧ (c.push key seen).1.closed = c.closed := by
  have h := c.settings_purge seen
  unfold push
  split_ifs
  · exact ⟨rfl, rfl⟩
  · dsimp only
    rcases (c.purge seen).1.index[key]? with _ | i
    · have hadd := (c.purge seen).1.addNew_frame key seen
      exact ⟨hadd.1.trans h.1, hadd.2.trans h.2⟩
    · obtain ⟨hage, hopen, -⟩ := (c.purge seen).1.renew_frame i seen
      exact ⟨hage.trans h.1, hopen.trans h.2⟩

theorem settings_pull (c : SeqCache) (key : StreamPoint) :
    (c.pull key).1.maxAge = c.maxAge ∧ (c.pull key).1.closed = c.closed := by
  unfold pull
  split_ifs
  · exact ⟨rfl, rfl⟩
  · rcases c.index[key]? with _ | i
    · have h := Pruned.takeCovered key c.nodes.size c.head none c
      exact ⟨h.maxAge_eq, h.closed_eq⟩
    · have h := Pruned.removeBack key.flow c.nodes.size (some i) c
      exact ⟨h.maxAge_eq, h.closed_eq⟩

end FlowWatch.SeqCache
