/-
The recency order of a sequence cache: a doubly linked list inside the slab.

`Linked c order` says that the places in `order` are the linked list of `c` from head to tail. The
link fields are stated at every split `order = l ++ i :: r`: the node at `i` points back to the last
place of `l` and forward to the first place of `r`. In that form a removal drops `i` from the split
and an addition puts a place behind it, and head, tail, middle and only nodes need no case of their
own.

Detaching and appending leave keys and times alone, which is `entryAt?_detach` and
`entryAt?_append`: what an order lists changes only with the order itself.
-/
import FlowWatch.SeqCache.Basic
import Mathlib.Data.List.Nodup

set_option autoImplicit false

namespace FlowWatch.SeqCache

/-- The key and the time at a place, without the links. -/
def entryAt? (c : SeqCache) (i : Nat) : Option (StreamPoint × Instant) :=
  c.nodes[i]?.map fun n => (n.key, n.seen)

/-- The places in `order` are the linked list of the cache, from head to tail. -/
structure Linked (c : SeqCache) (order : List Nat) : Prop where
  nodup : order.Nodup
  head_eq : c.head = order.head?
  tail_eq : c.tail = order.getLast?
  node_at : ∀ l i r, order = l ++ i :: r →
    ∃ n, c.nodes[i]? = some n ∧ n.prev = l.getLast? ∧ n.next = r.head?

/-! ## What the list operations do to a node -/

/-- The node at `j` after `i`, whose node is `node`, was taken out of the order. -/
def unlinked (i : Nat) (node : CacheNode) (j : Nat) (n : CacheNode) : CacheNode :=
  if i = j then { n with prev := none, next := none }
  else
    { n with
      next := if node.prev = some j then node.next else n.next
      prev := if node.next = some j then node.prev else n.prev }

/-- The node at `j` after `i` was put behind the tail. -/
def linkedBehind (tail : Option Nat) (i j : Nat) (n : CacheNode) : CacheNode :=
  if i = j then { n with prev := tail, next := if tail = some i then some i else none }
  else { n with next := if tail = some j then some i else n.next }

theorem nodes_modifyNode (c : SeqCache) (i j : Nat) (f : CacheNode → CacheNode) :
    (c.modifyNode i f).nodes[j]? = if i = j then c.nodes[j]?.map f else c.nodes[j]? := by
  simp only [modifyNode, Array.getElem?_modify]

theorem nodes_detach (c : SeqCache) {i : Nat} {node : CacheNode} (h : c.nodes[i]? = some node)
    (j : Nat) : (c.detach i).nodes[j]? = c.nodes[j]?.map (unlinked i node j) := by
  unfold detach
  rw [h]
  rcases hp : node.prev with _ | p <;> rcases hn : node.next with _ | q <;>
    rcases hj : c.nodes[j]? with _ | n <;> by_cases hij : i = j <;>
    simp only [nodes_modifyNode, unlinked, hp, hn, hj, hij, if_true, if_false, Option.map_none,
      Option.map_some, ite_self, reduceCtorEq, Option.some.injEq] <;>
    split_ifs <;> rfl

theorem nodes_append (c : SeqCache) (i j : Nat) :
    (c.append i).nodes[j]? = c.nodes[j]?.map (linkedBehind c.tail i j) := by
  unfold append
  rcases ht : c.tail with _ | t <;> rcases hj : c.nodes[j]? with _ | n <;>
    by_cases hij : i = j <;>
    simp only [nodes_modifyNode, linkedBehind, hj, hij, if_true, if_false, Option.map_none,
      Option.map_some, ite_self, reduceCtorEq, Option.some.injEq] <;>
    split_ifs <;> rfl

theorem ends_detach (c : SeqCache) {i : Nat} {node : CacheNode} (h : c.nodes[i]? = some node) :
    (c.detach i).head = (if node.prev = none then node.next else c.head) ∧
      (c.detach i).tail = (if node.next = none then node.prev else c.tail) := by
  unfold detach
  rw [h]
  rcases hp : node.prev with _ | p <;> rcases hn : node.next with _ | q <;>
    simp only [modifyNode, hp, hn, if_true, if_false, reduceCtorEq, and_self]

theorem ends_append (c : SeqCache) (i : Nat) :
    (c.append i).head = (if c.tail = none then some i else c.head) ∧
      (c.append i).tail = some i := by
  unfold append
  rcases ht : c.tail with _ | t <;>
    simp only [modifyNode, if_true, if_false, reduceCtorEq, and_self]

/-! ## What the list operations leave alone -/

theorem entryAt?_eq_of_nodes {c d : SeqCache} {i : Nat} {f : CacheNode → CacheNode}
    (h : d.nodes[i]? = c.nodes[i]?.map f) (hf : ∀ n, (f n).key = n.key ∧ (f n).seen = n.seen) :
    d.entryAt? i = c.entryAt? i := by
  unfold entryAt?
  rw [h]
  rcases c.nodes[i]? with _ | n
  · rfl
  · simp only [Option.map_some, (hf n).1, (hf n).2]

@[simp] theorem entryAt?_detach (c : SeqCache) (i j : Nat) :
    (c.detach i).entryAt? j = c.entryAt? j := by
  rcases h : c.nodes[i]? with _ | node
  · rw [detach, h]
  · refine entryAt?_eq_of_nodes (c.nodes_detach h j) fun n => ?_
    unfold unlinked
    split_ifs <;> exact ⟨rfl, rfl⟩

@[simp] theorem entryAt?_append (c : SeqCache) (i j : Nat) :
    (c.append i).entryAt? j = c.entryAt? j := by
  refine entryAt?_eq_of_nodes (c.nodes_append i j) fun n => ?_
  unfold linkedBehind
  split_ifs <;> exact ⟨rfl, rfl⟩

/-- Detaching changes nothing but links, head and tail. -/
theorem detach_frame (c : SeqCache) (i : Nat) :
    (c.detach i).maxAge = c.maxAge ∧ (c.detach i).closed = c.closed ∧
      (c.detach i).index = c.index ∧ (c.detach i).vacant = c.vacant ∧
      (c.detach i).nodes.size = c.nodes.size := by
  unfold detach
  rcases c.nodes[i]? with _ | node
  · exact ⟨rfl, rfl, rfl, rfl, rfl⟩
  · rcases hp : node.prev with _ | p <;> rcases hn : node.next with _ | q <;>
      simp only [modifyNode, Array.size_modify, hp, hn, and_self]

/-- Appending changes nothing but links, head and tail. -/
theorem append_frame (c : SeqCache) (i : Nat) :
    (c.append i).maxAge = c.maxAge ∧ (c.append i).closed = c.closed ∧
      (c.append i).index = c.index ∧ (c.append i).vacant = c.vacant ∧
      (c.append i).nodes.size = c.nodes.size := by
  unfold append
  rcases ht : c.tail with _ | t <;> simp only [modifyNode, Array.size_modify, and_self]

/-! ## The order after an operation -/

/-- Two ways to cut one list, the second at an element: it stands behind the first cut or before
it. -/
theorem append_eq_append_cons {α : Type} {l r l' r' : List α} {a : α}
    (h : l ++ r = l' ++ a :: r') :
    (∃ m, l' = l ++ m ∧ r = m ++ a :: r') ∨ ∃ m, l = l' ++ a :: m ∧ r' = m ++ r := by
  rcases List.append_eq_append_iff.mp h with ⟨m, hl, hr⟩ | ⟨m, hl, hr⟩
  · exact .inl ⟨m, hl, hr⟩
  · rcases m with _ | ⟨b, m⟩
    · exact .inl ⟨[], by simpa using hl.symm, hr.symm⟩
    · obtain ⟨rfl, rfl⟩ := List.cons.inj hr
      exact .inr ⟨m, hl, rfl⟩

namespace Linked

variable {c d : SeqCache} {order l r : List Nat} {i : Nat}

/-- The order depends on the ends and on the links of the places it names only. -/
theorem congr_links (h : Linked c order) (hhead : d.head = c.head) (htail : d.tail = c.tail)
    (hlinks : ∀ i ∈ order, ∀ n, c.nodes[i]? = some n →
      ∃ n', d.nodes[i]? = some n' ∧ n'.prev = n.prev ∧ n'.next = n.next) : Linked d order where
  nodup := h.nodup
  head_eq := hhead.trans h.head_eq
  tail_eq := htail.trans h.tail_eq
  node_at l i r hs := by
    obtain ⟨n, hn, hp, hx⟩ := h.node_at l i r hs
    obtain ⟨n', hn', hp', hx'⟩ := hlinks i (by rw [hs]; simp) n hn
    exact ⟨n', hn', hp'.trans hp, hx'.trans hx⟩

theorem congr (h : Linked c order) (hhead : d.head = c.head) (htail : d.tail = c.tail)
    (hnodes : ∀ i ∈ order, d.nodes[i]? = c.nodes[i]?) : Linked d order :=
  h.congr_links hhead htail fun i hi n hn => ⟨n, (hnodes i hi).trans hn, rfl, rfl⟩

theorem node_mem (h : Linked c order) (hi : i ∈ order) : ∃ n, c.nodes[i]? = some n := by
  obtain ⟨l, r, hs⟩ := List.append_of_mem hi
  obtain ⟨n, hn, -⟩ := h.node_at l i r hs
  exact ⟨n, hn⟩

/-- Detaching takes the place out of the order. A remaining place stands before or behind the gap,
and only the two places beside the gap get a new neighbour. -/
theorem detach (h : Linked c (l ++ i :: r)) : Linked (c.detach i) (l ++ r) := by
  obtain ⟨node, hnode, hprev, hnext⟩ := h.node_at l i r rfl
  have hnd := h.nodup
  rw [List.nodup_middle, List.nodup_cons, List.mem_append, not_or] at hnd
  obtain ⟨⟨hil, hir⟩, hlr⟩ := hnd
  have hdisj : ∀ j, j ∈ l → j ∉ r := fun j hl hr => (List.nodup_append.mp hlr).2.2 j hl j hr rfl
  obtain ⟨hhead, htail⟩ := c.ends_detach hnode
  refine ⟨hlr, ?_, ?_, fun l' j r' hs => ?_⟩
  · rw [hhead, hprev, hnext, h.head_eq]
    rcases l with _ | ⟨a, l⟩ <;> simp
  · rw [htail, hprev, hnext, h.tail_eq]
    rcases r with _ | ⟨a, r⟩ <;> simp
  · rcases append_eq_append_cons hs with ⟨m, rfl, rfl⟩ | ⟨m, rfl, rfl⟩
    · -- `j` stands behind the gap, with `m` in between
      obtain ⟨n, hn, hp, hx⟩ := h.node_at (l ++ i :: m) j r' (by simp)
      have hij : i ≠ j := fun e => hir (by rw [e]; simp)
      have hjl : j ∉ l := fun hj => hdisj j hj (by simp)
      refine ⟨unlinked i node j n, by rw [c.nodes_detach hnode, hn]; rfl, ?_, ?_⟩
      · rw [unlinked, if_neg hij]
        dsimp only
        rcases m with _ | ⟨a, m⟩
        · rw [if_pos (by rw [hnext]; rfl), hprev, List.append_nil]
        · have haj : a ≠ j := fun e => by
            have := (List.nodup_append.mp hlr).2.1
            simp [e] at this
          rw [if_neg (by rw [hnext]; simpa using haj), hp]
          simp
      · rw [unlinked, if_neg hij]
        dsimp only
        rw [if_neg, hx]
        rw [hprev]
        exact fun e => hjl (List.mem_of_getLast? e)
    · -- `j` stands before the gap, with `m` in between
      obtain ⟨n, hn, hp, hx⟩ := h.node_at l' j (m ++ i :: r) (by simp)
      have hij : i ≠ j := fun e => hil (by rw [e]; simp)
      have hjr : j ∉ r := hdisj j (by simp)
      refine ⟨unlinked i node j n, by rw [c.nodes_detach hnode, hn]; rfl, ?_, ?_⟩
      · rw [unlinked, if_neg hij]
        dsimp only
        rw [if_neg, hp]
        rw [hnext]
        exact fun e => hjr (List.mem_of_mem_head? e)
      · rw [unlinked, if_neg hij]
        dsimp only
        rcases m.eq_nil_or_concat with rfl | ⟨m, a, rfl⟩
        · rw [if_pos (by rw [hprev]; simp), hnext, List.nil_append]
        · have haj : a ≠ j := fun e => by
            have := (List.nodup_append.mp hlr).1
            simp [e, List.nodup_append] at this
          rw [if_neg (by rw [hprev]; simpa [List.getLast?_cons] using haj), hx]
          rcases m <;> simp

/-- Appending puts a detached place at the end: only the old tail gets a new neighbour. -/
theorem append (h : Linked c order) (hi : i ∉ order) (hn : ∃ n, c.nodes[i]? = some n) :
    Linked (c.append i) (order ++ [i]) := by
  obtain ⟨node, hnode⟩ := hn
  obtain ⟨hhead, htail⟩ := c.ends_append i
  have hti : c.tail ≠ some i := by
    rw [h.tail_eq]
    exact fun e => hi (List.mem_of_getLast? e)
  refine ⟨by simpa [List.nodup_append] using ⟨h.nodup, fun a ha e => hi (e ▸ ha)⟩, ?_, ?_,
    fun l' j r' hs => ?_⟩
  · rw [hhead, h.tail_eq, h.head_eq]
    rcases order with _ | ⟨a, order⟩ <;> simp
  · rw [htail]
    simp
  · rcases append_eq_append_cons hs with ⟨m, rfl, hm⟩ | ⟨m, rfl, rfl⟩
    · -- `j` is the appended place itself
      obtain ⟨rfl, rfl, rfl⟩ : m = [] ∧ i = j ∧ r' = [] := by
        rcases m with _ | ⟨a, m⟩
        · simpa [eq_comm] using hm
        · simp at hm
      refine ⟨linkedBehind c.tail i i node, by rw [c.nodes_append, hnode]; rfl, ?_, ?_⟩
      · rw [linkedBehind, if_pos rfl, h.tail_eq, List.append_nil]
      · rw [linkedBehind, if_pos rfl, if_neg hti]
        rfl
    · obtain ⟨n, hn, hp, hx⟩ := h.node_at l' j m rfl
      have hij : i ≠ j := fun e => hi (by rw [e]; simp)
      refine ⟨linkedBehind c.tail i j n, by rw [c.nodes_append, hn]; rfl, ?_, ?_⟩
      · rw [linkedBehind, if_neg hij, hp]
      · rw [linkedBehind, if_neg hij]
        dsimp only
        rcases m.eq_nil_or_concat with rfl | ⟨m, a, rfl⟩
        · rw [if_pos (by rw [h.tail_eq]; simp)]
          rfl
        · have haj : a ≠ j := fun e => by
            have := h.nodup
            simp [e, List.nodup_append] at this
          rw [if_neg (by rw [h.tail_eq]; simpa [List.getLast?_cons] using haj), hx]
          rcases m <;> simp

end Linked

end FlowWatch.SeqCache
