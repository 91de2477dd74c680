/-
Time has no origin in a sequence cache.

A cache keeps the time of every entry and looks at it twice: expiry takes its distance from the present,
and a hit returns it. So when all times are later by `d`, the present included, the cache goes through the
same changes, and the one time it hands out is later by `d` as well. Nothing in the slab hangs on a time:
the index hashes positions, and the order is that of the pushes. That is why a cache can be moved as it
stands, node by node, and `delay` commutes with every operation as an equation.
-/
import FlowWatch.SeqCache.Basic
import Mathlib.Tactic.SplitIfs

set_option autoImplicit false

namespace FlowWatch

/-- The node, with its time later by `d`. -/
def CacheNode.delay (d : Span) (n : CacheNode) : CacheNode := { n with seen := n.seen + d }

namespace SeqCache

/-- The cache, with the times of all its nodes later by `d`. -/
def delay (d : Span) (c : SeqCache) : SeqCache := { c with nodes := c.nodes.map (·.delay d) }

variable (d : Span) (c : SeqCache)

theorem nodes_delay (i : Nat) : (c.delay d).nodes[i]? = c.nodes[i]?.map (·.delay d) :=
  Array.getElem?_map

theorem size_nodes_delay : (c.delay d).nodes.size = c.nodes.size := Array.size_map

@[simp] theorem new_delay (maxAge : Option Span) :
    (SeqCache.new maxAge).delay d = SeqCache.new maxAge := by
  unfold delay SeqCache.new
  rw [Array.map_empty]

@[simp] theorem shut_delay : (c.delay d).shut = c.shut.delay d := by
  unfold delay shut
  rw [Array.map_empty]

@[simp] theorem reopen_delay : (c.delay d).reopen = c.reopen.delay d := rfl

/-! ## The linked list -/

/-- Two changes of a node that agree up to the delay. -/
theorem modifyNode_delay (i : Nat) {f g : CacheNode → CacheNode}
    (h : ∀ n, g (n.delay d) = (f n).delay d) :
    (c.delay d).modifyNode i g = (c.modifyNode i f).delay d := by
  have hnodes : (c.nodes.map (·.delay d)).modify i g = (c.nodes.modify i f).map (·.delay d) := by
    refine Array.ext_getElem? fun j => ?_
    rw [Array.getElem?_modify, Array.getElem?_map, Array.getElem?_map, Array.getElem?_modify]
    split_ifs
    · rcases c.nodes[j]? with _ | n
      · rfl
      · exact congrArg some (h n)
    · rfl
  unfold modifyNode delay
  dsimp only
  rw [hnodes]

/-- A node that gets neighbours keeps its time. -/
theorem link_delay (i : Nat) (prev next : Option Nat) :
    (c.delay d).modifyNode i (fun n => { n with prev := prev, next := next }) =
      (c.modifyNode i fun n => { n with prev := prev, next := next }).delay d :=
  modifyNode_delay d c i fun _ => rfl

theorem linkNext_delay (i : Nat) (next : Option Nat) :
    (c.delay d).modifyNode i (fun n => { n with next := next }) =
      (c.modifyNode i fun n => { n with next := next }).delay d :=
  modifyNode_delay d c i fun _ => rfl

theorem linkPrev_delay (i : Nat) (prev : Option Nat) :
    (c.delay d).modifyNode i (fun n => { n with prev := prev }) =
      (c.modifyNode i fun n => { n with prev := prev }).delay d :=
  modifyNode_delay d c i fun _ => rfl

theorem append_delay (i : Nat) : (c.delay d).append i = (c.append i).delay d := by
  have htail : (c.delay d).tail = c.tail := rfl
  unfold append
  dsimp only
  rw [htail, link_delay]
  rcases c.tail with _ | t
  · rfl
  · dsimp only
    rw [linkNext_delay]
    rfl

theorem detach_delay (i : Nat) : (c.delay d).detach i = (c.detach i).delay d := by
  unfold detach
  rw [nodes_delay]
  rcases c.nodes[i]? with _ | node
  · rfl
  · have hprev : (node.delay d).prev = node.prev := rfl
    have hnext : (node.delay d).next = node.next := rfl
    dsimp only [Option.map_some]
    rw [hprev, hnext]
    -- Up to three nodes are touched, and each keeps its time.
    rcases node.prev with _ | p <;> rcases node.next with _ | q <;> dsimp only
    · rw [← link_delay]
      rfl
    · rw [← link_delay, ← linkPrev_delay]
      rfl
    · rw [linkNext_delay, ← link_delay]
      rfl
    · rw [linkNext_delay, linkPrev_delay, link_delay]

theorem addNew_delay (key : StreamPoint) (seen : Instant) :
    (c.delay d).addNew key (seen + d) = (c.addNew key seen).delay d := by
  unfold addNew
  dsimp only
  have hvacant : (c.delay d).vacant = c.vacant := rfl
  rw [hvacant]
  rcases c.vacant with _ | ⟨i, vacant⟩
  · have hpush : (c.delay d).nodes.push ⟨key, seen + d, none, none⟩ =
        (c.nodes.push ⟨key, seen, none, none⟩).map (·.delay d) := by
      rw [Array.map_push]
      rfl
    dsimp only
    rw [hpush, size_nodes_delay, ← append_delay]
    rfl
  · have hfree : ({ c.delay d with vacant := vacant, index := c.index.insert key i } : SeqCache) =
        ({ c with vacant := vacant, index := c.index.insert key i } : SeqCache).delay d := rfl
    dsimp only
    rw [← append_delay, ← modifyNode_delay d _ i (f := fun _ => ⟨key, seen, none, none⟩)
      (g := fun _ => ⟨key, seen + d, none, none⟩) fun _ => rfl, ← hfree]
    rfl

theorem drop_delay (i : Nat) : (c.delay d).drop i = (c.drop i).delay d := by
  unfold drop
  rw [nodes_delay]
  rcases c.nodes[i]? with _ | node
  · rfl
  · dsimp only [Option.map_some]
    rw [detach_delay]
    rfl

/-! ## Expiry -/

/-- An entry is as old as it was. -/
theorem dropExpired_delay (now : Instant) (maxAge : Span) (fuel : Nat) :
    dropExpired (now + d) maxAge fuel (c.delay d) =
      ((dropExpired now maxAge fuel c).1.delay d, (dropExpired now maxAge fuel c).2) := by
  induction fuel generalizing c with
  | zero => rfl
  | succ fuel ih =>
    have hhead : (c.delay d).head = c.head := rfl
    unfold dropExpired
    rw [hhead]
    rcases c.head with _ | i
    · rfl
    · dsimp only
      rw [nodes_delay]
      rcases c.nodes[i]? with _ | node
      · rfl
      · have hage : now + d - (node.delay d).seen = now - node.seen := Int.add_sub_add_right _ _ _
        dsimp only [Option.map_some]
        rw [hage, drop_delay, ih]
        split_ifs <;> rfl

theorem purge_delay (now : Instant) :
    (c.delay d).purge (now + d) = ((c.purge now).1.delay d, (c.purge now).2) := by
  have hage : (c.delay d).maxAge = c.maxAge := rfl
  unfold purge
  rw [hage]
  rcases c.maxAge with _ | maxAge
  · rfl
  · exact dropExpired_delay d c now maxAge c.size

/-! ## Reading and writing -/

theorem push_delay (key : StreamPoint) (seen : Instant) :
    (c.delay d).push key (seen + d) = ((c.push key seen).1.delay d, (c.push key seen).2) := by
  have hclosed : (c.delay d).closed = c.closed := rfl
  unfold push
  rw [hclosed]
  split_ifs
  · rfl
  · dsimp only
    rw [purge_delay]
    have hindex : ((c.purge seen).1.delay d).index = (c.purge seen).1.index := rfl
    dsimp only
    rw [hindex]
    rcases (c.purge seen).1.index[key]? with _ | i
    · dsimp only
      rw [addNew_delay]
    · dsimp only
      rw [detach_delay, append_delay]
      exact Prod.ext (modifyNode_delay d _ i fun _ => rfl) rfl

theorem removeBack_delay (flow : Flow) (fuel : Nat) (cursor : Option Nat) :
    removeBack flow fuel cursor (c.delay d) = (removeBack flow fuel cursor c).delay d := by
  induction fuel generalizing cursor c with
  | zero => rfl
  | succ fuel ih =>
    rcases cursor with _ | i
    · rfl
    · unfold removeBack
      rw [nodes_delay]
      rcases c.nodes[i]? with _ | node
      · rfl
      · have hkey : (node.delay d).key = node.key := rfl
        have hprev : (node.delay d).prev = node.prev := rfl
        dsimp only [Option.map_some]
        rw [hkey, hprev, drop_delay, ← apply_ite (delay d)]
        exact ih _ _

/-- The walk takes the same entries, and its candidate is later by `d`. -/
theorem takeCovered_delay (key : StreamPoint) (fuel : Nat) (cursor : Option Nat)
    (candidate : Option (Sequence × Instant)) :
    takeCovered key fuel cursor (candidate.map fun e => (e.1, e.2 + d)) (c.delay d) =
      ((takeCovered key fuel cursor candidate c).1.delay d,
        (takeCovered key fuel cursor candidate c).2.map fun e => (e.1, e.2 + d)) := by
  induction fuel generalizing cursor candidate c with
  | zero => rfl
  | succ fuel ih =>
    rcases cursor with _ | i
    · rfl
    · unfold takeCovered
      rw [nodes_delay]
      rcases c.nodes[i]? with _ | node
      · rfl
      · have hkey : (node.delay d).key = node.key := rfl
        have hnext : (node.delay d).next = node.next := rfl
        dsimp only [Option.map_some]
        rw [hkey, hnext, drop_delay]
        split_ifs
        · exact ih c node.next candidate
        · rfl
        · exact ih (c.drop i) node.next (some (node.key.seq, node.seen))

theorem pull_delay (key : StreamPoint) :
    (c.delay d).pull key =
      ((c.pull key).1.delay d, (c.pull key).2.map fun sent => sent.map (· + d)) := by
  have hclosed : (c.delay d).closed = c.closed := rfl
  have hindex : (c.delay d).index = c.index := rfl
  have hhead : (c.delay d).head = c.head := rfl
  unfold pull
  rw [hclosed, hindex, hhead, size_nodes_delay]
  split_ifs
  · rfl
  · rcases c.index[key]? with _ | i
    · have hwalk := takeCovered_delay d c key c.nodes.size c.head none
      rw [Option.map_none] at hwalk
      dsimp only
      rw [hwalk]
      refine Prod.ext rfl (congrArg Except.ok ?_)
      rcases (takeCovered key c.nodes.size c.head none c).2 with _ | ⟨seq, sent⟩
      · rfl
      · simp only [Option.map_some, Option.filter_some]
        split_ifs <;> rfl
    · dsimp only
      rw [removeBack_delay, nodes_delay]
      refine Prod.ext rfl (congrArg Except.ok ?_)
      rcases c.nodes[i]? with _ | node <;> rfl

end SeqCache

end FlowWatch
