/-
The sequence cache answers as a plain list does.

`Reflects c m` ties a cache to the list it stands for: same settings, and the entries at the places
of an order that the slab holds. One lemma for each operation says that the answers agree and the tie
is kept; a sequence of calls is then an induction on the calls, from a new cache and the empty list.

The list is the specification, so what it promises about itself counts as well: its keys are distinct
after every sequence of calls, which is read off the slab, where the index makes them so.
-/
import FlowWatch.Proofs.SeqCache.Walks

set_option autoImplicit false

namespace FlowWatch

/-- One use of a sequence cache. -/
inductive CacheCall where
  | push (key : StreamPoint) (seen : Instant)
  | pull (key : StreamPoint)
  | purge (now : Instant)
  | shut
  | reopen

/-- What a cache answers to a call. -/
inductive CacheAnswer where
  | pushed (known : Except CacheRefusal Bool)
  | pulled (sent : Except CacheRefusal (Option Instant))
  | purged (entries : Nat)
  | done

namespace SeqCache

/-- Performs one call. -/
def perform (c : SeqCache) : CacheCall → SeqCache × CacheAnswer
  | .push key seen => ((c.push key seen).1, .pushed (c.push key seen).2)
  | .pull key => ((c.pull key).1, .pulled (c.pull key).2)
  | .purge now => ((c.purge now).1, .purged (c.purge now).2)
  | .shut => (c.shut, .done)
  | .reopen => (c.reopen, .done)

/-- What can be seen of a cache during a sequence of calls: after each one its answer, the number of
entries, and whether the cache is closed. -/
def replies (c : SeqCache) : List CacheCall → List (CacheAnswer × Nat × Bool)
  | [] => []
  | call :: calls =>
    ((c.perform call).2, (c.perform call).1.size, (c.perform call).1.closed) ::
      (c.perform call).1.replies calls

end SeqCache

namespace RecencyList

/-- Performs one call. -/
def perform (m : RecencyList) : CacheCall → RecencyList × CacheAnswer
  | .push key seen => ((m.push key seen).1, .pushed (m.push key seen).2)
  | .pull key => ((m.pull key).1, .pulled (m.pull key).2)
  | .purge now => ((m.purge now).1, .purged (m.purge now).2)
  | .shut => (m.shut, .done)
  | .reopen => (m.reopen, .done)

/-- What can be seen of a list during a sequence of calls, as for a cache. -/
def replies (m : RecencyList) : List CacheCall → List (CacheAnswer × Nat × Bool)
  | [] => []
  | call :: calls =>
    ((m.perform call).2, (m.perform call).1.size, (m.perform call).1.closed) ::
      (m.perform call).1.replies calls

/-- The list after a sequence of calls. -/
def after (m : RecencyList) (calls : List CacheCall) : RecencyList :=
  calls.foldl (fun m call => (m.perform call).1) m

end RecencyList

namespace SeqCache

/-- The cache stands for the list. -/
structure Reflects (c : SeqCache) (m : RecencyList) : Prop where
  maxAge_eq : c.maxAge = m.maxAge
  closed_eq : c.closed = m.closed
  holds : ∃ order, Holds c order ∧ c.listed order = m.entries

namespace Reflects

variable {c d : SeqCache} {m : RecencyList} {order : List Nat}

theorem size_eq (h : Reflects c m) : c.size = m.size := by
  obtain ⟨order, hc, hm⟩ := h.holds
  have hlen : (c.listed order).length = order.length := by
    rw [listed, List.length_filterMap_eq_countP, List.countP_eq_length]
    intro i hi
    obtain ⟨e, he⟩ := hc.entryAt hi
    rw [he]
    rfl
  rw [SeqCache.size, hc.size_eq, RecencyList.size, ← hm, hlen]

theorem keys_nodup (h : Reflects c m) : (m.entries.map Prod.fst).Nodup := by
  obtain ⟨order, hc, hm⟩ := h.holds
  exact hm ▸ hc.keys_nodup

/-- The place that the index names, at its cut of the order. -/
theorem cut_of_found (hc : Holds c order) {key : StreamPoint} {i : Nat}
    (hi : c.index[key]? = some i) :
    ∃ l r seen, order = l ++ i :: r ∧ c.entryAt? i = some (key, seen) ∧
      c.listed order = c.listed l ++ (key, seen) :: c.listed r := by
  obtain ⟨hmem, seen, he⟩ := (hc.found key i).mp hi
  obtain ⟨l, r, rfl⟩ := List.append_of_mem hmem
  exact ⟨l, r, seen, rfl, he, by rw [listed_append, listed_cons c he]⟩

/-- A key that the index does not know is not listed. -/
theorem not_listed_of_not_found (hc : Holds c order) {key : StreamPoint}
    (hi : c.index[key]? = none) : ∀ e ∈ c.listed order, e.1 ≠ key := by
  rintro ⟨k, seen⟩ he rfl
  obtain ⟨i, him, hie⟩ := List.mem_filterMap.mp he
  have := (hc.found k i).mpr ⟨him, seen, hie⟩
  rw [hi] at this
  exact absurd this (by simp)

/-! ## One operation -/

theorem purge (h : Reflects c m) (now : Instant) :
    Reflects (c.purge now).1 (m.purge now).1 ∧ (c.purge now).2 = (m.purge now).2 := by
  obtain ⟨order, hc, hm⟩ := h.holds
  unfold SeqCache.purge
  rw [h.maxAge_eq]
  rcases hage : m.maxAge with _ | maxAge
  · rw [m.purge_of_none now hage]
    exact ⟨h, rfl⟩
  · have hpruned := Pruned.dropExpired now maxAge c.size c
    obtain ⟨rest, hrest, hlist, hcount⟩ := hc.dropExpired now maxAge hc.size_eq.ge
    rw [m.purge_of_some now hage, ← hm]
    refine ⟨⟨?_, ?_, rest, hrest, ?_⟩, hcount⟩
    · exact hpruned.maxAge_eq.trans h.maxAge_eq
    · exact hpruned.closed_eq.trans h.closed_eq
    · exact (hpruned.listed_eq rest).trans hlist

theorem push (h : Reflects c m) (key : StreamPoint) (seen : Instant) :
    Reflects (c.push key seen).1 (m.push key seen).1 ∧
      (c.push key seen).2 = (m.push key seen).2 := by
  unfold SeqCache.push RecencyList.push
  rw [h.closed_eq]
  by_cases hclosed : m.closed = true
  · rw [if_pos hclosed, if_pos hclosed]
    exact ⟨h, rfl⟩
  · rw [if_neg hclosed, if_neg hclosed]
    -- expiry comes first on both sides, so the rest is about what it leaves
    obtain ⟨⟨hage, hopen, order, hd, hm⟩, -⟩ := h.purge seen
    generalize (c.purge seen).1 = d at hage hopen hd hm ⊢
    have hkeys := hd.keys_nodup
    change d.listed order = m.entries.dropWhile (RecencyList.isExpired m.maxAge seen) at hm
    rw [← hm]
    dsimp only
    rcases hi : d.index[key]? with _ | i <;> dsimp only
    · have hne := not_listed_of_not_found hd hi
      obtain ⟨i, hnew, hlist⟩ := hd.addNew key seen hi
      obtain ⟨hage', hopen'⟩ := d.addNew_frame key seen
      refine ⟨⟨hage'.trans hage, hopen'.trans hopen, _, hnew, ?_⟩, ?_⟩
      · rw [hlist, List.filter_eq_self.mpr (by simpa using hne)]
      · rw [List.any_eq_false.mpr (by simpa using hne)]
    · obtain ⟨l, r, old, rfl, he, hcut⟩ := cut_of_found hd hi
      obtain ⟨hnew, hlist⟩ := hd.renew he seen
      obtain ⟨hage', hopen', -⟩ := d.renew_frame i seen
      rw [hcut] at hkeys ⊢
      refine ⟨⟨hage'.trans hage, hopen'.trans hopen, _, hnew, ?_⟩, ?_⟩
      · rw [RecencyList.filter_ne_of_cut hkeys, ← listed_append]
        exact hlist
      · rw [List.any_eq_true.mpr ⟨(key, old), by simp, by simp⟩]

theorem pull (h : Reflects c m) (key : StreamPoint) :
    Reflects (c.pull key).1 (m.pull key).1 ∧ (c.pull key).2 = (m.pull key).2 := by
  obtain ⟨order, hc, hm⟩ := h.holds
  unfold SeqCache.pull RecencyList.pull
  rw [h.closed_eq]
  by_cases hclosed : m.closed = true
  · rw [if_pos hclosed, if_pos hclosed]
    exact ⟨h, rfl⟩
  · rw [if_neg hclosed, if_neg hclosed, ← hm]
    rcases hi : c.index[key]? with _ | i
    · have hne := not_listed_of_not_found hc hi
      have hpruned := Pruned.takeCovered key c.nodes.size c.head none c
      obtain ⟨rest, hrest, hlist, hlast⟩ :=
        hc.takeCovered (l := []) (r := order) key none hc.length_le
      rw [← hc.linked.head_eq] at hrest hlast
      rw [List.find?_eq_none.mpr (by simpa using hne)]
      dsimp only
      refine ⟨⟨hpruned.maxAge_eq.trans h.maxAge_eq, hpruned.closed_eq.trans h.closed_eq, rest,
        hrest, ?_⟩, ?_⟩
      · rw [hpruned.listed_eq, hlist]
      · rw [hlast]
        rcases (RecencyList.covered key (c.listed order)).getLast? with _ | e
        · rfl
        · simp [Option.filter, isNear]
    · obtain ⟨l, r, seen, rfl, he, hcut⟩ := cut_of_found hc hi
      have hkeys := hc.keys_nodup
      have hpruned := Pruned.removeBack key.flow c.nodes.size (some i) c
      have hlen : (l ++ [i]).length ≤ c.nodes.size := by
        have := hc.length_le
        simp only [List.length_append, List.length_cons, List.length_nil] at this ⊢
        omega
      obtain ⟨rest, hrest, hlist⟩ :=
        Holds.removeBack (l := l ++ [i]) (r := r) key.flow (by simpa using hc) hlen
      rw [List.getLast?_concat] at hrest
      have hseen : c.nodes[i]?.map (·.seen) = some seen := by
        have := congrArg (Option.map Prod.snd) he
        rw [entryAt?, Option.map_map] at this
        exact this
      rw [hcut] at hkeys ⊢
      obtain ⟨htake, hdrop⟩ := RecencyList.takeWhile_of_cut hkeys
      rw [RecencyList.find?_of_cut hkeys, htake, hdrop]
      dsimp only
      refine ⟨⟨hpruned.maxAge_eq.trans h.maxAge_eq, hpruned.closed_eq.trans h.closed_eq, _,
        hrest, ?_⟩, by rw [hseen]⟩
      rw [hpruned.listed_eq, listed_append, hlist, listed_append, listed_cons c he,
        List.filter_append, List.filter_cons_of_neg (by simp)]
      exact congrArg (· ++ _) (List.append_nil _)

theorem shut (h : Reflects c m) : Reflects c.shut m.shut :=
  ⟨h.maxAge_eq, rfl, [], Holds.shut c, rfl⟩

theorem reopen (h : Reflects c m) : Reflects c.reopen m.reopen := by
  obtain ⟨order, hc, hm⟩ := h.holds
  exact ⟨h.maxAge_eq, rfl, order, hc.reopen, hm⟩

/-- One call: the same answer, and the tie is kept. -/
theorem perform (h : Reflects c m) (call : CacheCall) :
    Reflects (c.perform call).1 (m.perform call).1 ∧ (c.perform call).2 = (m.perform call).2 := by
  cases call with
  | push key seen => exact ⟨(h.push key seen).1, congrArg _ (h.push key seen).2⟩
  | pull key => exact ⟨(h.pull key).1, congrArg _ (h.pull key).2⟩
  | purge now => exact ⟨(h.purge now).1, congrArg _ (h.purge now).2⟩
  | shut => exact ⟨h.shut, rfl⟩
  | reopen => exact ⟨h.reopen, rfl⟩

theorem new (maxAge : Option Span) : Reflects (.new maxAge) (.empty maxAge) :=
  ⟨rfl, rfl, [], Holds.new maxAge, rfl⟩

theorem replies (h : Reflects c m) (calls : List CacheCall) :
    c.replies calls = m.replies calls ∧ ((m.after calls).entries.map Prod.fst).Nodup := by
  induction calls generalizing c m with
  | nil => exact ⟨rfl, h.keys_nodup⟩
  | cons call calls ih =>
    obtain ⟨hnext, hanswer⟩ := h.perform call
    obtain ⟨hreplies, hkeys⟩ := ih hnext
    refine ⟨?_, hkeys⟩
    rw [SeqCache.replies, RecencyList.replies, hanswer, hnext.size_eq, hnext.closed_eq, hreplies]

end Reflects

/-- **The cache refines the list.** Whatever the greatest age and whatever the calls, a new cache
gives the answers of the empty list, with as many entries after each call, and the list's keys stay
distinct. -/
theorem replies_eq_recencyList (maxAge : Option Span) (calls : List CacheCall) :
    (SeqCache.new maxAge).replies calls = (RecencyList.empty maxAge).replies calls ∧
      (((RecencyList.empty maxAge).after calls).entries.map Prod.fst).Nodup :=
  (Reflects.new maxAge).replies calls

end SeqCache

end FlowWatch
