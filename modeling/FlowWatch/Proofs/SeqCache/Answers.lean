/-
What a recency list keeps and what it answers with.

Nothing gets into a list but by a push, and then under the key and the time that were pushed. So an
entry can be traced to the last push of its key, and an answer to an acknowledgment, which is the
time of an entry that goes with it, to a push that is answered once.
-/
import FlowWatch.Proofs.SeqCache.RecencyList

set_option autoImplicit false

namespace FlowWatch

namespace RecencyList

variable {m : RecencyList} {key : StreamPoint} {e : StreamPoint × Instant}

/-- Expiry only takes entries away. -/
theorem mem_of_mem_purge {now : Instant} (he : e ∈ (m.purge now).1.entries) : e ∈ m.entries :=
  (List.dropWhile_suffix _).subset he

/-- After a push an entry is the pushed one, or it was there before under another key. -/
theorem mem_push (hopen : m.closed = false) {seen : Instant}
    (he : e ∈ (m.push key seen).1.entries) :
    e = (key, seen) ∨ (e ∈ m.entries ∧ e.1 ≠ key) := by
  unfold push at he
  rw [hopen, if_neg Bool.false_ne_true] at he
  rcases List.mem_append.mp he with hold | hnew
  · obtain ⟨hlive, hne⟩ := List.mem_filter.mp hold
    exact Or.inr ⟨(List.dropWhile_suffix _).subset hlive, of_decide_eq_true hne⟩
  · exact Or.inl (List.mem_singleton.mp hnew)

/-- A pull adds nothing. -/
theorem mem_of_mem_pull (he : e ∈ (m.pull key).1.entries) : e ∈ m.entries := by
  unfold pull at he
  split_ifs at he with hclosed
  · exact he
  · rcases hfind : m.entries.find? fun e => e.1 = key with _ | hit
    · rw [hfind] at he
      exact (List.mem_filter.mp he).1
    · rw [hfind] at he
      rcases List.mem_append.mp he with hbefore | hbehind
      · exact (List.takeWhile_prefix _).subset (List.mem_filter.mp hbefore).1
      · exact (List.dropWhile_suffix _).subset (List.mem_of_mem_tail hbehind)

/-- An exact hit goes with its answer: what is left of it is on neither side of the cut. -/
theorem not_mem_pull_of_hit (hkeys : (m.entries.map Prod.fst).Nodup) (hopen : m.closed = false)
    {hit : StreamPoint × Instant} (hfind : (m.entries.find? fun e => e.1 = key) = some hit) :
    hit ∉ (m.pull key).1.entries := by
  have hkey : hit.1 = key := by simpa using List.find?_some hfind
  obtain ⟨l, r, hcut⟩ := List.append_of_mem (List.mem_of_find?_eq_some hfind)
  rw [hcut] at hkeys
  obtain ⟨hl, hr⟩ := key_ne_of_cut hkeys
  obtain ⟨htake, hdrop⟩ := takeWhile_of_cut hkeys
  intro he
  unfold pull at he
  rw [hopen, if_neg Bool.false_ne_true, hfind, ← hkey, hcut] at he
  dsimp only at he
  rw [htake, hdrop] at he
  rcases List.mem_append.mp he with hbefore | hbehind
  · exact hl hit (List.mem_filter.mp hbefore).1 rfl
  · exact hr hit hbehind rfl

/-- **What an answer says.** It is the time of an entry of the flow, at the position asked for or one
away from it, and the entry goes. -/
theorem pull_answer (hkeys : (m.entries.map Prod.fst).Nodup) (hopen : m.closed = false)
    {sent : Instant} (h : (m.pull key).2 = .ok (some sent)) :
    ∃ e ∈ m.entries, e.2 = sent ∧ e.1.flow = key.flow ∧
      (e.1.seq = key.seq.retreat 1 ∨ e.1.seq = key.seq ∨ e.1.seq = key.seq.advance 1) ∧
      e ∉ (m.pull key).1.entries := by
  rcases hfind : m.entries.find? fun e => e.1 = key with _ | hit
  · unfold pull at h ⊢
    rw [hopen, if_neg Bool.false_ne_true, hfind] at h ⊢
    dsimp only at h ⊢
    -- the last of the covered entries answers, and all of them go
    obtain ⟨e, hlast, rfl⟩ := Option.map_eq_some_iff.mp (Except.ok.inj h)
    obtain ⟨hget, hnear⟩ := Option.filter_eq_some_iff.mp hlast
    have hgone : e ∈ covered key m.entries := List.mem_of_getLast? hget
    refine ⟨e, ?_, rfl, flow_of_mem_covered hgone, ?_, ?_⟩
    · exact (List.mem_filter.mp ((List.takeWhile_prefix _).subset hgone)).1
    · rcases of_decide_eq_true hnear with hahead | hbehind
      · exact Or.inr (Or.inr hahead)
      · exact Or.inl hbehind
    · intro he
      exact of_decide_eq_true (List.mem_filter.mp he).2 hgone
  · have hgone := not_mem_pull_of_hit hkeys hopen hfind
    have hkey : hit.1 = key := by simpa using List.find?_some hfind
    refine ⟨hit, List.mem_of_find?_eq_some hfind, ?_, by rw [hkey], ?_, hgone⟩
    · unfold pull at h
      rw [hopen, if_neg Bool.false_ne_true, hfind] at h
      exact Option.some.inj (Except.ok.inj h)
    · exact Or.inr (Or.inl (by rw [hkey]))

end RecencyList

end FlowWatch
