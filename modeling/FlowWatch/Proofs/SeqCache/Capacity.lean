/-
How large a slab is.

A slab has a place for every entry and no place is lost: the index leads to the places that are taken, and all
others are vacant. Removals keep the slab as large as it is, whichever walk they come from, and a new entry
makes a place only when none is vacant, which is when every place is taken. So one call makes the slab as
large as it was or as the number of entries needs, whichever is more (`Reflects.allocated_perform`), and after
all calls it is as large as the most entries that were present at one time since it was last torn down.
-/
import FlowWatch.Proofs.SeqCache.Entries
import Mathlib.Order.Bounds.Basic

set_option autoImplicit false

namespace FlowWatch.SeqCache

/-- The places that the index leads to. -/
def occupied (c : SeqCache) : List Nat := c.index.toList.map (·.2)

namespace Holds

variable {c : SeqCache} {order : List Nat}

/-- The index leads to every place of the order, and to each once. -/
theorem occupied_perm (h : Holds c order) : c.occupied.Perm order := by
  have hnodup : c.occupied.Nodup := by
    rw [List.nodup_iff_pairwise_ne, occupied, List.pairwise_map]
    refine List.Pairwise.imp_of_mem ?_ Std.HashMap.distinct_keys_toList
    rintro ⟨key, i⟩ ⟨key', j⟩ hi hj hkeys (rfl : i = j)
    -- A place has one key.
    obtain ⟨-, seen, hkey⟩ := (h.found _ _).mp (Std.HashMap.mem_toList_iff_getElem?_eq_some.mp hi)
    obtain ⟨-, seen', hkey'⟩ := (h.found _ _).mp (Std.HashMap.mem_toList_iff_getElem?_eq_some.mp hj)
    obtain ⟨rfl, -⟩ := Prod.mk.inj (Option.some.inj (hkey.symm.trans hkey'))
    exact absurd hkeys (by simp)
  refine (List.perm_ext_iff_of_nodup hnodup h.linked.nodup).mpr fun i => ?_
  unfold occupied
  rw [List.mem_map]
  constructor
  · rintro ⟨⟨key, j⟩, hmem, rfl⟩
    exact ((h.found _ _).mp (Std.HashMap.mem_toList_iff_getElem?_eq_some.mp hmem)).1
  · intro hi
    obtain ⟨⟨key, seen⟩, he⟩ := h.entryAt hi
    exact ⟨(key, i), Std.HashMap.mem_toList_iff_getElem?_eq_some.mpr
      ((h.found key i).mpr ⟨hi, seen, he⟩), rfl⟩

/-- Every place is taken or vacant, and not both. -/
theorem allocated_eq (h : Holds c order) : c.allocated = c.size + c.vacant.length := by
  have hlength := h.places.length_eq
  rw [List.length_append, List.length_range] at hlength
  rw [size, h.size_eq]
  exact hlength.symm

/-- A slab that has not grown is large enough. -/
theorem allocated_eq_max (h : Holds c order) {before : Nat} (hkept : c.allocated = before) :
    c.allocated = max before c.size := by
  have hall := h.allocated_eq
  omega

/-- A new entry makes a place only if none is vacant. -/
theorem allocated_addNew (h : Holds c order) (key : StreamPoint) (seen : Instant)
    (hkey : c.index[key]? = none) :
    (c.addNew key seen).allocated = max c.allocated (c.addNew key seen).size := by
  obtain ⟨i, hnew, -⟩ := h.addNew key seen hkey
  have hsize : (c.addNew key seen).size = c.size + 1 := by
    rw [size, hnew.size_eq, List.length_append, ← h.size_eq]
    rfl
  have hall := h.allocated_eq
  rw [hsize]
  unfold SeqCache.addNew allocated
  rcases hvacant : c.vacant with _ | ⟨j, vacant⟩ <;> dsimp only <;>
    rw [hvacant] at hall <;> rw [(append_frame _ _).2.2.2.2]
  · rw [List.length_nil, allocated] at hall
    rw [Array.size_push]
    omega
  · rw [List.length_cons, allocated] at hall
    rw [modifyNode, Array.size_modify]
    show c.nodes.size = max c.nodes.size (c.size + 1)
    omega

end Holds

/-! ## Removals -/

theorem allocated_drop (c : SeqCache) (i : Nat) : (c.drop i).allocated = c.allocated := by
  unfold drop
  rcases c.nodes[i]? with _ | node
  · rfl
  · exact (c.detach_frame i).2.2.2.2

theorem allocated_dropExpired (now : Instant) (maxAge : Span) (fuel : Nat) (c : SeqCache) :
    (dropExpired now maxAge fuel c).1.allocated = c.allocated := by
  fun_induction dropExpired now maxAge fuel c with
  | case1 | case2 | case3 | case4 => rfl
  | case5 fuel c i _ node _ _ d n hd ih =>
    rw [hd] at ih
    exact ih.trans (c.allocated_drop i)

theorem allocated_purge (c : SeqCache) (now : Instant) : (c.purge now).1.allocated = c.allocated := by
  unfold purge
  split
  · rfl
  · exact allocated_dropExpired _ _ _ _

theorem allocated_removeBack (flow : Flow) (fuel : Nat) (cursor : Option Nat) (c : SeqCache) :
    (removeBack flow fuel cursor c).allocated = c.allocated := by
  fun_induction removeBack flow fuel cursor c with
  | case1 | case2 | case3 => rfl
  | case4 _ _ _ _ _ ih =>
    rw [ih]
    split_ifs
    · exact allocated_drop _ _
    · rfl

theorem allocated_takeCovered (key : StreamPoint) (fuel : Nat) (cursor : Option Nat)
    (candidate : Option (Sequence × Instant)) (c : SeqCache) :
    (takeCovered key fuel cursor candidate c).1.allocated = c.allocated := by
  fun_induction takeCovered key fuel cursor candidate c with
  | case1 | case2 | case3 | case5 => rfl
  | case4 _ _ _ _ _ _ _ ih => exact ih
  | case6 _ _ _ _ _ _ _ _ ih => exact ih.trans (allocated_drop _ _)

theorem allocated_pull (c : SeqCache) (key : StreamPoint) :
    (c.pull key).1.allocated = c.allocated := by
  unfold pull
  split_ifs
  · rfl
  · split
    · exact allocated_removeBack _ _ _ _
    · exact allocated_takeCovered _ _ _ _ _

/-! ## Calls -/

namespace Reflects

variable {c : SeqCache} {m : RecencyList}

theorem allocated_push (h : Reflects c m) (key : StreamPoint) (seen : Instant) :
    (c.push key seen).1.allocated = max c.allocated (c.push key seen).1.size := by
  obtain ⟨order, hc, -⟩ := h.holds
  obtain ⟨-, -, kept, hd, -⟩ := (h.purge seen).1
  have hpurged := c.allocated_purge seen
  unfold SeqCache.push
  split_ifs
  · exact hc.allocated_eq_max rfl
  · generalize (c.purge seen).1 = d at hd hpurged ⊢
    rw [← hpurged]
    dsimp only
    rcases hi : d.index[key]? with _ | i <;> dsimp only
    · exact hd.allocated_addNew key seen hi
    · obtain ⟨l, r, old, rfl, he, -⟩ := cut_of_found hd hi
      obtain ⟨-, -, -, -, hsize⟩ := d.renew_frame i seen
      exact (hd.renew he seen).1.allocated_eq_max hsize

/-- **One call makes the slab no larger than the entries need**, unless it tears the slab down. -/
theorem allocated_perform (h : Reflects c m) {call : CacheCall} (hcall : call ≠ .shut) :
    (c.perform call).1.allocated = max c.allocated (c.perform call).1.size := by
  obtain ⟨order, hafter, -⟩ := (h.perform call).1.holds
  cases call with
  | push key seen => exact h.allocated_push key seen
  | pull key => exact hafter.allocated_eq_max (c.allocated_pull key)
  | purge now => exact hafter.allocated_eq_max (c.allocated_purge now)
  | shut => exact absurd rfl hcall
  | reopen => exact hafter.allocated_eq_max rfl

end Reflects

theorem after_append (c : SeqCache) (calls : List CacheCall) (call : CacheCall) :
    c.after (calls ++ [call]) = ((c.after calls).perform call).1 := by
  unfold after
  rw [List.foldl_append]
  rfl

/-- The numbers of entries that a cache had before, between and after some calls, from the time on when it was
last torn down. -/
def sizesSinceShut (c : SeqCache) (calls : List CacheCall) : Set Nat :=
  {n | ∃ before later, calls = before ++ later ∧ .shut ∉ later ∧ n = (c.after before).size}

theorem sizesSinceShut_shut (c : SeqCache) (calls : List CacheCall) :
    c.sizesSinceShut (calls ++ [.shut]) = {(c.after (calls ++ [.shut])).size} := by
  ext n
  constructor
  · rintro ⟨before, later, hcalls, hlater, rfl⟩
    rcases List.eq_nil_or_concat later with rfl | ⟨later, call, rfl⟩
    · rw [hcalls, List.append_nil]
      rfl
    · rw [List.concat_eq_append, ← List.append_assoc] at hcalls
      obtain ⟨-, hlast⟩ := List.append_inj' hcalls rfl
      rw [List.concat_eq_append, ← hlast] at hlater
      exact absurd (List.mem_append_right later List.mem_cons_self) hlater
  · rintro rfl
    exact ⟨calls ++ [.shut], [], (List.append_nil _).symm, List.not_mem_nil, rfl⟩

theorem sizesSinceShut_other (c : SeqCache) (calls : List CacheCall) {call : CacheCall}
    (hcall : call ≠ .shut) :
    c.sizesSinceShut (calls ++ [call]) =
      insert (c.after (calls ++ [call])).size (c.sizesSinceShut calls) := by
  ext n
  constructor
  · rintro ⟨before, later, hcalls, hlater, rfl⟩
    rcases List.eq_nil_or_concat later with rfl | ⟨later, last, rfl⟩
    · rw [hcalls, List.append_nil]
      exact .inl rfl
    · rw [List.concat_eq_append, ← List.append_assoc] at hcalls
      obtain ⟨hbefore, -⟩ := List.append_inj' hcalls rfl
      rw [List.concat_eq_append] at hlater
      exact .inr ⟨before, later, hbefore, fun h => hlater (List.mem_append_left _ h), rfl⟩
  · rintro (rfl | ⟨before, later, rfl, hlater, rfl⟩)
    · exact ⟨calls ++ [call], [], (List.append_nil _).symm, List.not_mem_nil, rfl⟩
    · refine ⟨before, later ++ [call], List.append_assoc _ _ _, fun h => ?_, rfl⟩
      rcases List.mem_append.mp h with h | h
      · exact hlater h
      · exact hcall (List.mem_singleton.mp h).symm

/-- The slab is as large as the peak of the entries since it was last torn down. -/
theorem isGreatest_allocated (maxAge : Option Span) (calls : List CacheCall) :
    IsGreatest ((SeqCache.new maxAge).sizesSinceShut calls)
      ((SeqCache.new maxAge).after calls).allocated := by
  induction calls using List.reverseRecOn with
  | nil =>
    refine ⟨⟨[], [], rfl, List.not_mem_nil, rfl⟩, ?_⟩
    rintro n ⟨before, later, hcalls, -, rfl⟩
    obtain ⟨rfl, -⟩ := List.append_eq_nil_iff.mp hcalls.symm
    exact Nat.le_refl _
  | append_singleton calls call ih =>
    by_cases hcall : call = .shut
    · subst hcall
      rw [sizesSinceShut_shut, after_append]
      exact isGreatest_singleton
    · have hstep := (reflects_after maxAge calls).allocated_perform hcall
      rw [← after_append] at hstep
      rw [sizesSinceShut_other _ _ hcall, hstep, max_comm]
      exact ih.insert _

/-- **The slab is as small as it can be.** Whatever the greatest age and whatever the calls, the slab of a new
cache has then as many places as the most entries that were present at one time since it was made or last torn
down. Each of its places is either taken, which is to say that the index leads there from one entry, or
vacant, and is listed once. -/
theorem slab_follows_peak (maxAge : Option Span) (calls : List CacheCall) :
    let start := SeqCache.new maxAge
    let c := start.after calls
    IsGreatest (start.sizesSinceShut calls) c.allocated ∧
      c.allocated = c.size + c.vacant.length ∧ c.occupied.length = c.size ∧
      (c.occupied ++ c.vacant).Perm (List.range c.allocated) := by
  intro start c
  obtain ⟨order, hc, -⟩ := (reflects_after maxAge calls).holds
  have hoccupied := hc.occupied_perm
  refine ⟨isGreatest_allocated maxAge calls, hc.allocated_eq, ?_, ?_⟩
  · rw [hoccupied.length_eq, ← hc.size_eq]
    rfl
  · exact (hoccupied.append_right _).trans hc.places

end FlowWatch.SeqCache
