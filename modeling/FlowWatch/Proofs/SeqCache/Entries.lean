/-
The entries of a sequence cache, read off its links.

`entries` follows the links from the head on, as the walks of the cache do, and needs nothing but the
cache to be computed. On a slab that is in order it gives what the order lists, so it is the list that
the cache stands for, and what is known of that list can be said of the cache itself: of every cache that
some calls have made out of a new one.
-/
import FlowWatch.Proofs.SeqCache.Refinement

set_option autoImplicit false

namespace FlowWatch

namespace SeqCache

/-- The entries from place `cursor` on toward the recent end, at most `fuel` of them. -/
def walk (c : SeqCache) : Nat → Option Nat → List (StreamPoint × Instant)
  | 0, _ => []
  | _ + 1, none => []
  | fuel + 1, some i =>
    match c.nodes[i]? with
    | none => []
    | some node => (node.key, node.seen) :: c.walk fuel node.next

/-- The entries, from the least to the most recently pushed. -/
def entries (c : SeqCache) : List (StreamPoint × Instant) := c.walk c.nodes.size c.head

/-- The cache after a sequence of calls. -/
def after (c : SeqCache) (calls : List CacheCall) : SeqCache :=
  calls.foldl (fun c call => (c.perform call).1) c

namespace Holds

variable {c : SeqCache}

/-- The walk from a cut of the order lists what lies behind the cut. -/
theorem walk_eq {fuel : Nat} {l r : List Nat} (h : Holds c (l ++ r)) (hfuel : r.length ≤ fuel) :
    c.walk fuel r.head? = c.listed r := by
  induction fuel generalizing l r with
  | zero =>
    obtain rfl := List.length_eq_zero_iff.mp (Nat.le_zero.mp hfuel)
    rfl
  | succ fuel ih =>
    rcases r with _ | ⟨i, r⟩
    · rfl
    · obtain ⟨n, hn, he, -, hnext⟩ := h.node_at
      have hrest : Holds c ((l ++ [i]) ++ r) := by
        rw [List.append_assoc]
        exact h
      rw [c.listed_cons he, List.head?_cons, walk]
      simp only [hn]
      rw [hnext, ih hrest (Nat.le_of_succ_le_succ hfuel)]

theorem entries_eq {order : List Nat} (h : Holds c order) : c.entries = c.listed order := by
  unfold entries
  rw [h.linked.head_eq]
  exact walk_eq (l := []) h h.length_le

end Holds

namespace Reflects

variable {c : SeqCache} {m : RecencyList}

theorem entries_eq (h : Reflects c m) : c.entries = m.entries := by
  obtain ⟨order, hc, hm⟩ := h.holds
  rw [hc.entries_eq, hm]

theorem after (h : Reflects c m) (calls : List CacheCall) :
    Reflects (c.after calls) (m.after calls) := by
  induction calls generalizing c m with
  | nil => exact h
  | cons call calls ih => exact ih (h.perform call).1

end Reflects

/-- Every cache that calls make out of a new one stands for the list that they make. -/
theorem reflects_after (maxAge : Option Span) (calls : List CacheCall) :
    ((SeqCache.new maxAge).after calls).Reflects ((RecencyList.empty maxAge).after calls) :=
  (Reflects.new maxAge).after calls

end SeqCache

namespace RecencyList

/-- One more call. -/
theorem after_append (m : RecencyList) (calls : List CacheCall) (call : CacheCall) :
    m.after (calls ++ [call]) = ((m.after calls).perform call).1 := by
  unfold after
  rw [List.foldl_append]
  rfl

/-- Where a property is not regained once it is lost, the longest beginning that has it is all that
has it, and the rest is all that has it not. -/
theorem cut_eq_filter {p : StreamPoint × Instant → Bool} {entries : List (StreamPoint × Instant)}
    (h : entries.Pairwise fun a b => p b = true → p a = true) :
    entries.takeWhile p = entries.filter p ∧
      entries.dropWhile p = entries.filter fun e => !p e := by
  induction entries with
  | nil => exact ⟨rfl, rfl⟩
  | cons e entries ih =>
    obtain ⟨hhead, htail⟩ := List.pairwise_cons.mp h
    obtain ⟨htake, hdrop⟩ := ih htail
    by_cases he : p e = true
    · rw [List.takeWhile_cons_of_pos he, List.filter_cons_of_pos he, List.dropWhile_cons_of_pos he,
        List.filter_cons_of_neg (by simpa using he), htake, hdrop]
      exact ⟨rfl, rfl⟩
    · -- From the first entry without it on, no entry has it.
      have hnone : ∀ a ∈ entries, ¬ p a = true := fun a ha hp => he (hhead a ha hp)
      have hall : ∀ a ∈ entries, (!p a) = true := fun a ha => by simpa using hnone a ha
      rw [List.takeWhile_cons_of_neg he, List.filter_cons_of_neg he, List.dropWhile_cons_of_neg he,
        List.filter_cons_of_pos (by simpa using he), List.filter_eq_nil_iff.mpr hnone,
        List.filter_eq_self.mpr hall]
      exact ⟨rfl, rfl⟩

end RecencyList

end FlowWatch
