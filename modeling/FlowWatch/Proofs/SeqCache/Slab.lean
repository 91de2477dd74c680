/-
What a slab holds: the entries of a sequence cache in recency order.

`Holds c order` joins the three views of one slab. The places of `order` are its linked list; they
and the vacant places are all places, each once; and the index leads from the keys of the entries to
their places and nowhere else. `listed c order` reads the entries off an order, so what an operation
does to the entries is what it does to the order.

Keys and times are changed by `push` alone: every removal keeps `entryAt?` at every place, also at
the place that becomes vacant. That is why the walks of `pull` need no bookkeeping about the places
they have left behind.
-/
import FlowWatch.Proofs.SeqCache.Order
import Mathlib.Data.List.Perm.Basic
import Mathlib.Data.List.Range

set_option autoImplicit false

namespace FlowWatch.SeqCache

/-- The entries at the places of an order. -/
def listed (c : SeqCache) (order : List Nat) : List (StreamPoint × Instant) :=
  order.filterMap c.entryAt?

/-- The slab holds its entries at the places in `order`, the least recent first. -/
structure Holds (c : SeqCache) (order : List Nat) : Prop where
  linked : Linked c order
  places : (order ++ c.vacant).Perm (List.range c.nodes.size)
  found : ∀ key i, c.index[key]? = some i ↔
    i ∈ order ∧ ∃ seen, c.entryAt? i = some (key, seen)
  size_eq : c.index.size = order.length

@[simp] theorem listed_append (c : SeqCache) (l r : List Nat) :
    c.listed (l ++ r) = c.listed l ++ c.listed r := List.filterMap_append

theorem listed_cons (c : SeqCache) {i : Nat} {e : StreamPoint × Instant}
    (he : c.entryAt? i = some e) (r : List Nat) : c.listed (i :: r) = e :: c.listed r := by
  rw [listed, List.filterMap_cons, he]
  rfl

theorem listed_congr {c d : SeqCache} {order : List Nat}
    (h : ∀ i ∈ order, d.entryAt? i = c.entryAt? i) : d.listed order = c.listed order :=
  List.filterMap_congr h

namespace Holds

variable {c : SeqCache} {order l r : List Nat} {i : Nat} {key : StreamPoint} {seen : Instant}

theorem new (maxAge : Option Span) : Holds (.new maxAge) [] where
  linked := ⟨List.nodup_nil, rfl, rfl, fun l i r h => by simp at h⟩
  places := List.Perm.refl _
  found key i := by simp [SeqCache.new]
  size_eq := by simp [SeqCache.new]

theorem shut (c : SeqCache) : Holds c.shut [] where
  linked := ⟨List.nodup_nil, rfl, rfl, fun l i r h => by simp at h⟩
  places := List.Perm.refl _
  found key i := by simp [SeqCache.shut]
  size_eq := by simp [SeqCache.shut]

theorem reopen (h : Holds c order) : Holds c.reopen order :=
  ⟨h.linked.congr rfl rfl fun _ _ => rfl, h.places, h.found, h.size_eq⟩

/-! ## Reading the slab -/

theorem entryAt (h : Holds c order) (hi : i ∈ order) : ∃ e, c.entryAt? i = some e := by
  obtain ⟨n, hn⟩ := h.linked.node_mem hi
  exact ⟨(n.key, n.seen), by rw [entryAt?, hn]; rfl⟩

/-- Two places with one key are one place. -/
theorem place_unique (h : Holds c order) {j : Nat} {e e' : StreamPoint × Instant}
    (hi : i ∈ order) (hj : j ∈ order) (hei : c.entryAt? i = some e)
    (hej : c.entryAt? j = some e') (hk : e.1 = e'.1) : i = j := by
  have h1 := (h.found e.1 i).mpr ⟨hi, e.2, hei⟩
  have h2 := (h.found e.1 j).mpr ⟨hj, e'.2, by rw [hej, hk]⟩
  exact Option.some.inj (h1.symm.trans h2)

theorem length_le (h : Holds c order) : order.length ≤ c.nodes.size := by
  have := h.places.length_eq
  rw [List.length_append, List.length_range] at this
  omega

theorem place_lt (h : Holds c order) (hi : i ∈ order) : i < c.nodes.size :=
  List.mem_range.mp (h.places.mem_iff.mp (List.mem_append_left _ hi))

end Holds

/-! ## Removing an entry -/

theorem entryAt?_drop (c : SeqCache) (i j : Nat) : (c.drop i).entryAt? j = c.entryAt? j := by
  unfold drop
  rcases c.nodes[i]? with _ | node
  · rfl
  · exact c.entryAt?_detach i j

theorem listed_drop (c : SeqCache) (i : Nat) (order : List Nat) :
    (c.drop i).listed order = c.listed order :=
  listed_congr fun j _ => c.entryAt?_drop i j

/-- Removing an entry changes nothing of the settings. -/
theorem drop_frame (c : SeqCache) (i : Nat) :
    (c.drop i).maxAge = c.maxAge ∧ (c.drop i).closed = c.closed := by
  unfold drop
  rcases c.nodes[i]? with _ | node
  · exact ⟨rfl, rfl⟩
  · exact ⟨(c.detach_frame i).1, (c.detach_frame i).2.1⟩

/-- Removing the entry at `i` takes `i` out of the order and makes it vacant. -/
theorem Holds.drop {c : SeqCache} {l r : List Nat} {i : Nat} (h : Holds c (l ++ i :: r)) :
    Holds (c.drop i) (l ++ r) := by
  have hi : i ∈ l ++ i :: r := by simp
  obtain ⟨node, hnode⟩ := h.linked.node_mem hi
  have he : c.entryAt? i = some (node.key, node.seen) := by rw [entryAt?, hnode]; rfl
  have hdrop : c.drop i = { c.detach i with
      index := c.index.erase node.key, vacant := i :: c.vacant } := by
    unfold SeqCache.drop
    rw [hnode]
    simp only [(c.detach_frame i).2.2.1, (c.detach_frame i).2.2.2.1]
  have hil : i ∉ l ++ r := by
    have := h.linked.nodup
    rw [List.nodup_middle, List.nodup_cons] at this
    exact this.1
  refine ⟨?_, ?_, fun key j => ?_, ?_⟩
  · rw [hdrop]
    exact h.linked.detach.congr rfl rfl fun _ _ => rfl
  · rw [hdrop]
    have hsize : (c.detach i).nodes.size = c.nodes.size := (c.detach_frame i).2.2.2.2
    rw [hsize]
    refine List.Perm.trans ?_ h.places
    rw [List.append_assoc, List.append_assoc]
    exact List.Perm.append_left l (List.perm_middle)
  · rw [entryAt?_drop, hdrop]
    dsimp only
    rw [Std.HashMap.getElem?_erase]
    by_cases hk : node.key = key
    · subst hk
      rw [if_pos (by simp)]
      constructor
      · intro hf
        simp at hf
      · rintro ⟨hj, seen, hej⟩
        have hj' : j ∈ l ++ i :: r := by
          rcases List.mem_append.mp hj with hj | hj <;> simp [hj]
        exact absurd (h.place_unique hi hj' he hej rfl ▸ hj) hil
    · rw [if_neg (by simpa using hk), h.found]
      constructor
      · rintro ⟨hj, seen, hej⟩
        have hij : j ≠ i := by
          rintro rfl
          rw [he] at hej
          exact hk (Prod.mk.inj (Option.some.inj hej)).1
        refine ⟨?_, seen, hej⟩
        simpa [hij] using hj
      · rintro ⟨hj, seen, hej⟩
        refine ⟨?_, seen, hej⟩
        rcases List.mem_append.mp hj with hj | hj <;> simp [hj]
  · rw [hdrop]
    dsimp only
    have hin : c.index[node.key]? = some i := (h.found _ _).mpr ⟨hi, node.seen, he⟩
    have hmem : node.key ∈ c.index := by
      rw [Std.HashMap.mem_iff_isSome_getElem?, hin]
      rfl
    rw [Std.HashMap.size_erase, if_pos hmem, h.size_eq]
    simp only [List.length_append, List.length_cons]
    omega

/-! ## Adding an entry and renewing one -/

/-- The cache with the node of a new entry at `i`, before it is put behind the tail. -/
theorem Holds.append_fresh {c d : SeqCache} {order : List Nat} {i : Nat} {key : StreamPoint}
    {seen : Instant} (h : Holds c order) (hi : i ∉ order) (hkey : c.index[key]? = none)
    (hhead : d.head = c.head) (htail : d.tail = c.tail)
    (hold : ∀ j ∈ order, d.nodes[j]? = c.nodes[j]?)
    (hnew : d.nodes[i]? = some ⟨key, seen, none, none⟩)
    (hindex : d.index = c.index.insert key i)
    (hplaces : (order ++ i :: d.vacant).Perm (List.range d.nodes.size)) :
    Holds (d.append i) (order ++ [i]) ∧
      (d.append i).listed (order ++ [i]) = c.listed order ++ [(key, seen)] := by
  have hentry : ∀ j ∈ order, d.entryAt? j = c.entryAt? j := fun j hj => by
    rw [entryAt?, hold j hj, entryAt?]
  have hi' : d.entryAt? i = some (key, seen) := by rw [entryAt?, hnew]; rfl
  obtain ⟨-, -, hidx, hvac, hsize⟩ := d.append_frame i
  refine ⟨⟨?_, ?_, fun k j => ?_, ?_⟩, ?_⟩
  · exact (h.linked.congr hhead htail hold).append hi ⟨_, hnew⟩
  · rw [hvac, hsize, List.append_assoc]
    exact hplaces
  · rw [hidx, hindex, Std.HashMap.getElem?_insert, entryAt?_append]
    by_cases hk : key = k
    · subst hk
      rw [if_pos (by simp)]
      constructor
      · rintro ⟨⟩
        exact ⟨by simp, seen, hi'⟩
      · rintro ⟨hj, t, hej⟩
        rcases List.mem_append.mp hj with hj | hj
        · rw [hentry j hj] at hej
          have := (h.found key j).mpr ⟨hj, t, hej⟩
          rw [hkey] at this
          exact absurd this (by simp)
        · rw [List.mem_singleton.mp hj]
    · rw [if_neg (by simpa using hk), h.found]
      constructor
      · rintro ⟨hj, t, hej⟩
        exact ⟨List.mem_append_left _ hj, t, by rw [hentry j hj, hej]⟩
      · rintro ⟨hj, t, hej⟩
        rcases List.mem_append.mp hj with hj | hj
        · exact ⟨hj, t, by rw [← hentry j hj, hej]⟩
        · rw [List.mem_singleton.mp hj, hi'] at hej
          exact absurd (Prod.mk.inj (Option.some.inj hej)).1 hk
  · have hmem : key ∉ c.index := by
      rw [Std.HashMap.mem_iff_isSome_getElem?, hkey]
      simp
    rw [hidx, hindex, Std.HashMap.size_insert, if_neg hmem, h.size_eq, List.length_append]
    rfl
  · rw [listed_append, listed_congr fun j _ => d.entryAt?_append i j, listed_congr hentry,
      listed_cons _ (by rw [entryAt?_append, hi'])]
    rfl

/-- Adding an entry changes nothing of the settings. -/
theorem addNew_frame (c : SeqCache) (key : StreamPoint) (seen : Instant) :
    (c.addNew key seen).maxAge = c.maxAge ∧ (c.addNew key seen).closed = c.closed := by
  unfold addNew
  rcases c.vacant with _ | ⟨i, vacant⟩ <;> dsimp only
  · rw [(append_frame _ _).1, (append_frame _ _).2.1]
    exact ⟨rfl, rfl⟩
  · rw [(append_frame _ _).1, (append_frame _ _).2.1]
    exact ⟨rfl, rfl⟩

/-- A new entry takes the place left last, or a place at the end of the slab. -/
theorem Holds.addNew {c : SeqCache} {order : List Nat} (h : Holds c order) (key : StreamPoint)
    (seen : Instant) (hkey : c.index[key]? = none) :
    ∃ i, Holds (c.addNew key seen) (order ++ [i]) ∧
      (c.addNew key seen).listed (order ++ [i]) = c.listed order ++ [(key, seen)] := by
  have hplaces := h.places
  have hnd : (order ++ c.vacant).Nodup := hplaces.nodup_iff.mpr List.nodup_range
  unfold SeqCache.addNew
  rcases hv : c.vacant with _ | ⟨i, vacant⟩
  · refine ⟨c.nodes.size, h.append_fresh ?_ hkey rfl rfl (fun j hj => ?_) ?_ rfl ?_⟩
    · exact fun hi => absurd (h.place_lt hi) (Nat.lt_irrefl _)
    · exact Array.getElem?_push_lt (h.place_lt hj) ▸ (Array.getElem?_eq_getElem _).symm
    · exact Array.getElem?_push_size
    · dsimp only
      rw [hv, List.append_nil] at hplaces
      rw [Array.size_push, List.range_succ]
      exact hplaces.append_right _
  · rw [hv, List.nodup_middle, List.nodup_cons, List.mem_append, not_or] at hnd
    have hi : i < c.nodes.size := by
      have : i ∈ order ++ c.vacant := by rw [hv]; simp
      exact List.mem_range.mp (hplaces.mem_iff.mp this)
    refine ⟨i, h.append_fresh hnd.1.1 hkey rfl rfl (fun j hj => ?_) ?_ rfl ?_⟩
    · have hij : i ≠ j := fun e => hnd.1.1 (e ▸ hj)
      rw [nodes_modifyNode, if_neg hij]
    · rw [nodes_modifyNode, if_pos rfl]
      dsimp only
      rw [Array.getElem?_eq_getElem hi]
      rfl
    · rw [hv] at hplaces
      dsimp only [modifyNode]
      rw [Array.size_modify]
      exact hplaces

/-- What a push does to the place of a known key. -/
def renew (c : SeqCache) (i : Nat) (seen : Instant) : SeqCache :=
  ((c.detach i).append i).modifyNode i fun n => { n with seen := seen }

theorem renew_frame (c : SeqCache) (i : Nat) (seen : Instant) :
    (c.renew i seen).maxAge = c.maxAge ∧ (c.renew i seen).closed = c.closed ∧
      (c.renew i seen).index = c.index ∧ (c.renew i seen).vacant = c.vacant ∧
      (c.renew i seen).nodes.size = c.nodes.size := by
  obtain ⟨h1, h2, h3, h4, h5⟩ := c.detach_frame i
  obtain ⟨k1, k2, k3, k4, k5⟩ := (c.detach i).append_frame i
  refine ⟨k1.trans h1, k2.trans h2, k3.trans h3, k4.trans h4, ?_⟩
  rw [renew, modifyNode, Array.size_modify, k5, h5]

theorem entryAt?_renew {c : SeqCache} {i : Nat} {key : StreamPoint} {old : Instant}
    (he : c.entryAt? i = some (key, old)) (seen : Instant) (j : Nat) :
    (c.renew i seen).entryAt? j = if i = j then some (key, seen) else c.entryAt? j := by
  have hentry : ((c.detach i).append i).entryAt? j = c.entryAt? j := by
    rw [entryAt?_append, entryAt?_detach]
  rw [entryAt?, renew, nodes_modifyNode]
  split_ifs with hij
  · subst hij
    rw [he, entryAt?, Option.map_eq_some_iff] at hentry
    obtain ⟨n, hn, hke⟩ := hentry
    rw [hn]
    exact congrArg (fun k => some (k, seen)) (Prod.mk.inj hke).1
  · exact hentry

/-- Renewing an entry moves its place to the end and gives it the new time. -/
theorem Holds.renew {c : SeqCache} {l r : List Nat} {i : Nat} (h : Holds c (l ++ i :: r))
    {key : StreamPoint} {old : Instant} (he : c.entryAt? i = some (key, old)) (seen : Instant) :
    Holds (c.renew i seen) (l ++ r ++ [i]) ∧
      (c.renew i seen).listed (l ++ r ++ [i]) = c.listed (l ++ r) ++ [(key, seen)] := by
  have hi : i ∈ l ++ i :: r := by simp
  have hnd := h.linked.nodup
  rw [List.nodup_middle, List.nodup_cons] at hnd
  have hil : i ∉ l ++ r := hnd.1
  have hperm : (l ++ r ++ [i]).Perm (l ++ i :: r) := by
    rw [List.append_assoc]
    exact List.Perm.append_left l (List.perm_append_singleton i r)
  obtain ⟨node, hnode⟩ := h.linked.node_mem hi
  obtain ⟨-, -, hidx, hvac, hsize⟩ := c.renew_frame i seen
  have hlinked : Linked ((c.detach i).append i) (l ++ r ++ [i]) :=
    h.linked.detach.append hil ⟨_, by rw [c.nodes_detach hnode, hnode]; rfl⟩
  refine ⟨⟨?_, ?_, fun k j => ?_, ?_⟩, ?_⟩
  · refine hlinked.congr_links rfl rfl fun j _ n hn => ?_
    rw [SeqCache.renew, nodes_modifyNode, hn]
    split_ifs
    · exact ⟨{ n with seen := seen }, rfl, rfl, rfl⟩
    · exact ⟨n, rfl, rfl, rfl⟩
  · rw [hvac, hsize]
    exact (hperm.append_right _).trans h.places
  · rw [hidx, h.found, hperm.mem_iff, entryAt?_renew he]
    refine and_congr_right fun _ => ?_
    split_ifs with hij
    · subst hij
      rw [he]
      simp
    · exact Iff.rfl
  · rw [hidx, h.size_eq, hperm.length_eq]
  · rw [listed_append, listed_cons _ ((entryAt?_renew he seen i).trans (if_pos rfl))]
    refine congrArg₂ (· ++ ·) (listed_congr fun j hj => ?_) rfl
    rw [entryAt?_renew he, if_neg fun (e : i = j) => hil (e ▸ hj)]

end FlowWatch.SeqCache
