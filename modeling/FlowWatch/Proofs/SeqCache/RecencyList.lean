/-
A sequence cache without a slab: a plain list of entries, the least recently pushed first.

Every operation is one list expression. Expiry drops a prefix, a push appends, an exact hit keeps
what is behind it and the other flows before it, and an acknowledgment without an exact hit takes
what it covers: the longest beginning of the entries of its flow that are at or before the position
after it.
-/
import FlowWatch.SeqCache.Basic
import Mathlib.Data.List.Nodup

set_option autoImplicit false

namespace FlowWatch

/-- A cache as the list of its entries, from the least to the most recently pushed. -/
structure RecencyList where
  maxAge : Option Span
  closed : Bool
  entries : List (StreamPoint × Instant)

namespace RecencyList

/-- An open list without entries. -/
def empty (maxAge : Option Span) : RecencyList := ⟨maxAge, false, []⟩

/-- The number of entries. -/
def size (m : RecencyList) : Nat := m.entries.length

/-- Whether an entry is older than the greatest age at `now`. -/
def isExpired (maxAge : Option Span) (now : Instant) (e : StreamPoint × Instant) : Bool :=
  match maxAge with
  | none => false
  | some maxAge => maxAge < now - e.2

/-- Drops the longest prefix of expired entries, and counts it. -/
def purge (m : RecencyList) (now : Instant) : RecencyList × Nat :=
  ({ m with entries := m.entries.dropWhile (isExpired m.maxAge now) },
    (m.entries.takeWhile (isExpired m.maxAge now)).length)

/-- Moves or appends a key to the end of what has not expired; says whether it was there. -/
def push (m : RecencyList) (key : StreamPoint) (seen : Instant) :
    RecencyList × Except CacheRefusal Bool :=
  if m.closed then (m, .error .closed)
  else
    let live := m.entries.dropWhile (isExpired m.maxAge seen)
    ({ m with entries := live.filter (fun e => e.1 ≠ key) ++ [(key, seen)] },
      .ok (live.any fun e => e.1 = key))

/-- The entries that an acknowledgment covers. -/
def covered (key : StreamPoint) (entries : List (StreamPoint × Instant)) :
    List (StreamPoint × Instant) :=
  (entries.filter fun e => e.1.flow = key.flow).takeWhile fun e =>
    e.1.seq.atOrBefore (key.seq.advance 1)

/-- A present key answers with its time and goes, with every entry of its flow before it. For an
absent key the covered entries go, and the last of them answers from one position away. -/
def pull (m : RecencyList) (key : StreamPoint) :
    RecencyList × Except CacheRefusal (Option Instant) :=
  if m.closed then (m, .error .closed)
  else
    match m.entries.find? fun e => e.1 = key with
    | some hit =>
      let before := m.entries.takeWhile fun e => e.1 ≠ key
      let behind := (m.entries.dropWhile fun e => e.1 ≠ key).tail
      ({ m with entries := before.filter (fun e => e.1.flow ≠ key.flow) ++ behind },
        .ok (some hit.2))
    | none =>
      let gone := covered key m.entries
      let last := gone.getLast?.filter fun e =>
        e.1.seq = key.seq.advance 1 ∨ e.1.seq = key.seq.retreat 1
      ({ m with entries := m.entries.filter fun e => e ∉ gone }, .ok (last.map Prod.snd))

/-- Drops all entries and closes. -/
def shut (m : RecencyList) : RecencyList := { m with closed := true, entries := [] }

/-- Opens again. -/
def reopen (m : RecencyList) : RecencyList := { m with closed := false }

/-! ## Expiry, with and without a greatest age -/

section Purge

variable {m : RecencyList} (now : Instant)

theorem purge_of_none (h : m.maxAge = none) : m.purge now = (m, 0) := by
  have hnone : isExpired m.maxAge now = fun _ => false := by rw [h]; rfl
  have hdrop : m.entries.dropWhile (fun _ => false) = m.entries := by
    rcases m.entries with _ | ⟨e, es⟩ <;> rfl
  have htake : m.entries.takeWhile (fun _ => false) = [] := by
    rcases m.entries with _ | ⟨e, es⟩ <;> rfl
  unfold purge
  rw [hnone, hdrop, htake]
  rfl

theorem purge_of_some {maxAge : Span} (h : m.maxAge = some maxAge) :
    m.purge now =
      ({ m with entries := m.entries.dropWhile fun e => maxAge < now - e.2 },
        (m.entries.takeWhile fun e => maxAge < now - e.2).length) := by
  have hsome : isExpired m.maxAge now = fun e => decide (maxAge < now - e.2) := by rw [h]; rfl
  unfold purge
  rw [hsome]

end Purge

/-! ## The covered entries, one entry at a time -/

section Covered

variable {key : StreamPoint} {e : StreamPoint × Instant} (entries : List (StreamPoint × Instant))

theorem covered_cons_other (h : e.1.flow ≠ key.flow) :
    covered key (e :: entries) = covered key entries := by
  rw [covered, List.filter_cons_of_neg (by simpa using h)]
  rfl

theorem covered_cons_beyond (h : e.1.flow = key.flow)
    (hs : ¬ e.1.seq.atOrBefore (key.seq.advance 1)) : covered key (e :: entries) = [] := by
  rw [covered, List.filter_cons_of_pos (by simpa using h), List.takeWhile_cons_of_neg (by exact hs)]

theorem covered_cons_at (h : e.1.flow = key.flow)
    (hs : e.1.seq.atOrBefore (key.seq.advance 1)) :
    covered key (e :: entries) = e :: covered key entries := by
  rw [covered, List.filter_cons_of_pos (by simpa using h), List.takeWhile_cons_of_pos (by exact hs)]
  rfl

theorem flow_of_mem_covered {entries : List (StreamPoint × Instant)}
    (h : e ∈ covered key entries) : e.1.flow = key.flow := by
  have := List.of_mem_filter ((List.takeWhile_prefix _).subset h)
  simpa using this

end Covered

/-! ## A list of distinct keys cut at one of them -/

section Cut

variable {l r : List (StreamPoint × Instant)} {e : StreamPoint × Instant}

theorem key_ne_of_cut (h : ((l ++ e :: r).map Prod.fst).Nodup) :
    (∀ a ∈ l, a.1 ≠ e.1) ∧ ∀ a ∈ r, a.1 ≠ e.1 := by
  rw [List.map_append, List.map_cons, List.nodup_middle, List.nodup_cons, List.mem_append,
    not_or] at h
  exact ⟨fun a ha k => h.1.1 (k ▸ List.mem_map_of_mem ha),
    fun a ha k => h.1.2 (k ▸ List.mem_map_of_mem ha)⟩

theorem filter_ne_of_cut (h : ((l ++ e :: r).map Prod.fst).Nodup) :
    (l ++ e :: r).filter (fun a => a.1 ≠ e.1) = l ++ r := by
  obtain ⟨hl, hr⟩ := key_ne_of_cut h
  rw [List.filter_append, List.filter_cons_of_neg (by simp),
    List.filter_eq_self.mpr (by simpa using hl), List.filter_eq_self.mpr (by simpa using hr)]

theorem find?_of_cut (h : ((l ++ e :: r).map Prod.fst).Nodup) :
    (l ++ e :: r).find? (fun a => a.1 = e.1) = some e := by
  obtain ⟨hl, -⟩ := key_ne_of_cut h
  rw [List.find?_append, List.find?_eq_none.mpr (by simpa using hl),
    List.find?_cons_of_pos (by simp)]
  rfl

theorem takeWhile_of_cut (h : ((l ++ e :: r).map Prod.fst).Nodup) :
    (l ++ e :: r).takeWhile (fun a => a.1 ≠ e.1) = l ∧
      (l ++ e :: r).dropWhile (fun a => a.1 ≠ e.1) = e :: r := by
  obtain ⟨hl, -⟩ := key_ne_of_cut h
  have hl' : ∀ a ∈ l, decide (a.1 ≠ e.1) = true := fun a ha => by simpa using hl a ha
  rw [List.takeWhile_append_of_pos hl', List.dropWhile_append_of_pos hl',
    List.takeWhile_cons_of_neg (by simp), List.dropWhile_cons_of_neg (by simp)]
  exact ⟨List.append_nil l, rfl⟩

end Cut

end RecencyList

end FlowWatch
