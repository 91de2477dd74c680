/-
The figures of round trips summarise the samples.

What the statistics keep is little: the first sample, the extremes, the sum and the count. `Covers` says
what these are of the samples that count, and one more sample keeps it, so it holds after any sequence of
samples. The figures of a summary follow from it. They are ordered as one expects because nothing in them
is lost on the way: a mean lies between the extremes, so it fits the signed word into which it is cut, and
whole microseconds are in the order of the times that they are cut from.

A count is a 64-bit word. What is said of a mean needs that it has not wrapped, and nothing else does.
-/
import FlowWatch.Proofs.Session.Samples
import Mathlib.Algebra.Order.BigOperators.Group.List
import Mathlib.Algebra.Order.Ring.Int
import Mathlib.Order.Bounds.Basic

set_option autoImplicit false

namespace FlowWatch

/-- Whole microseconds of a time that fits a signed 64-bit word. -/
theorem Span.toInt_microseconds_of_nonneg {d : Int} (hpos : 0 ≤ d) (hsmall : d < 2 ^ 63) :
    (microseconds d).toInt = d / 1000 := by
  unfold microseconds
  rw [Int.tdiv_eq_ediv_of_nonneg hpos]
  exact Int64.toInt_ofInt_of_le (by omega) (by omega)

namespace RoundTrips

/-- The statistics of samples taken one after the other. -/
def ofList (rtts : List Span) : RoundTrips := rtts.foldl add {}

/-- The samples that count: those that are not negative. -/
def counted (rtts : List Span) : List Span := rtts.filter (0 ≤ ·)

theorem nonneg_of_mem_counted {rtts : List Span} {d : Span} (h : d ∈ counted rtts) : 0 ≤ d :=
  of_decide_eq_true (List.mem_filter.mp h).2

/-- Leaving out the negative samples changes nothing. -/
theorem ofList_counted (rtts : List Span) : ofList (counted rtts) = ofList rtts := by
  have hskip : (fun (s : RoundTrips) (d : Span) => if decide (0 ≤ d) = true then s.add d else s) =
      add := by
    funext s d
    by_cases hd : 0 ≤ d
    · rw [if_pos (decide_eq_true hd)]
    · rw [if_neg (by simpa using hd), s.add_of_neg (Int.not_le.mp hd)]
  unfold ofList counted
  rw [List.foldl_filter, hskip]

/-! ## What the statistics keep -/

/-- The statistics hold what there is to say of the samples `ds`. -/
structure Covers (s : RoundTrips) (ds : List Span) : Prop where
  count_eq : s.count = UInt64.ofNat ds.length
  first_eq : s.first = ds.head?
  total_eq : s.total = ds.sum
  /-- Without samples there are no extremes, and none are shown. -/
  eq_empty : ds = [] → s = {}
  least : ds ≠ [] → IsLeast {d | d ∈ ds} s.min
  greatest : ds ≠ [] → IsGreatest {d | d ∈ ds} s.max

namespace Covers

variable {s t : RoundTrips} {ds es : List Span}

theorem empty : Covers {} [] :=
  ⟨rfl, rfl, rfl, fun _ => rfl, fun h => absurd rfl h, fun h => absurd rfl h⟩

/-- One sample more. -/
theorem add (h : s.Covers ds) {d : Span} (hd : 0 ≤ d) : (s.add d).Covers (ds ++ [d]) := by
  have hcount : (s.add d).count = UInt64.ofNat (ds ++ [d]).length := by
    rw [s.count_add hd, h.count_eq, List.length_append, UInt64.ofNat_add]
    rfl
  have hnonempty : ds ++ [d] = [] → s.add d = {} := fun hnil => absurd hnil (by simp)
  rcases hds : ds with _ | ⟨a, rest⟩
  · -- The first sample sets all figures.
    subst hds
    obtain rfl := h.eq_empty rfl
    have hadd : RoundTrips.add {} d = ⟨some d, d, d, 0 + d, 0 + 1⟩ := if_neg (Int.not_lt.mpr hd)
    refine ⟨hcount, ?_, ?_, hnonempty, fun _ => ?_, fun _ => ?_⟩ <;> rw [hadd]
    · rfl
    · exact (Int.zero_add d).trans (Int.add_zero d).symm
    · exact ⟨List.mem_singleton.mpr rfl, fun x hx => (List.mem_singleton.mp hx).ge⟩
    · exact ⟨List.mem_singleton.mpr rfl, fun x hx => (List.mem_singleton.mp hx).le⟩
  · have hne : ds ≠ [] := hds ▸ List.cons_ne_nil a rest
    have hfirst : s.first = some a := by rw [h.first_eq, hds, List.head?_cons]
    have hadd : s.add d = ⟨s.first, Min.min s.min d, Max.max s.max d, s.total + d, s.count + 1⟩ := by
      unfold RoundTrips.add
      rw [if_neg (Int.not_lt.mpr hd), hfirst]
    have hset : {x | x ∈ ds ++ [d]} = insert d {x | x ∈ ds} := by
      ext x
      simp [or_comm]
    rw [← hds]
    refine ⟨hcount, ?_, ?_, hnonempty, fun _ => ?_, fun _ => ?_⟩ <;> rw [hadd]
    · rw [List.head?_append_of_ne_nil _ hne]
      exact h.first_eq
    · rw [List.sum_append, List.sum_singleton, ← h.total_eq]
    · rw [hset]
      exact min_comm d s.min ▸ (h.least hne).insert d
    · rw [hset]
      exact max_comm d s.max ▸ (h.greatest hne).insert d

/-- Statistics of the same samples in another order differ in the first at most. -/
theorem eq_of_perm (h : s.Covers ds) (h' : t.Covers es) (hperm : es.Perm ds) :
    t = { s with first := t.first } := by
  by_cases hne : ds = []
  · rw [h.eq_empty hne, h'.eq_empty (List.perm_nil.mp (hne ▸ hperm))]
  · have hne' : es ≠ [] := fun hnil => hne (List.nil_perm.mp (hnil ▸ hperm))
    have hset : {d | d ∈ es} = {d | d ∈ ds} := Set.ext fun d => hperm.mem_iff
    have hmin : t.min = s.min := (hset ▸ h'.least hne').unique (h.least hne)
    have hmax : t.max = s.max := (hset ▸ h'.greatest hne').unique (h.greatest hne)
    have htotal : t.total = s.total := by rw [h.total_eq, h'.total_eq, hperm.sum_eq]
    have hcount : t.count = s.count := by rw [h.count_eq, h'.count_eq, hperm.length_eq]
    rw [← hmin, ← hmax, ← htotal, ← hcount]

/-- The summary is there as soon as the count says so. -/
theorem summary_isSome (h : s.Covers ds) : s.summary.isSome = true ↔ 0 < s.count := by
  have hmean : s.mean.isSome = true ↔ 0 < s.count := by
    unfold mean
    rw [UInt64.pos_iff_ne_zero]
    split_ifs with hzero
    · simpa using hzero
    · simpa using hzero
  rw [← hmean]
  unfold summary
  rcases hfirst : s.first with _ | first
  · -- Without a first sample there is none at all.
    have hnil : ds = [] := List.head?_eq_none_iff.mp (h.first_eq.symm.trans hfirst)
    rw [h.eq_empty hnil]
    rfl
  · rcases s.mean with _ | mean <;> simp

theorem min_mul_le (h : s.Covers ds) (hne : ds ≠ []) : s.min * ds.length ≤ ds.sum := by
  have hsum := List.card_nsmul_le_sum ds s.min fun d hd => (h.least hne).2 hd
  rwa [nsmul_eq_mul, mul_comm] at hsum

theorem le_max_mul (h : s.Covers ds) (hne : ds ≠ []) : ds.sum ≤ s.max * ds.length := by
  have hsum := List.sum_le_card_nsmul ds s.max fun d hd => (h.greatest hne).2 hd
  rwa [nsmul_eq_mul, mul_comm] at hsum

/-- The exact mean, rounded down, lies between the extremes. -/
theorem min_le_mean_le_max (h : s.Covers ds) (hne : ds ≠ []) :
    s.min ≤ ds.sum / ds.length ∧ ds.sum / ds.length ≤ s.max := by
  have hlength : (0 : Int) < ds.length := Int.natCast_pos.mpr (List.length_pos_iff.mpr hne)
  exact ⟨Int.le_ediv_of_mul_le hlength (h.min_mul_le hne),
    Int.ediv_le_of_le_mul hlength (h.le_max_mul hne)⟩

/-- The mean is exact, rounded down. -/
theorem mean_eq (h : s.Covers ds) (hpos : ∀ d ∈ ds, 0 ≤ d) (hsmall : ∀ d ∈ ds, d < 2 ^ 63)
    (hfits : ds.length < 2 ^ 64) (hne : ds ≠ []) : s.mean = some (ds.sum / ds.length) := by
  obtain ⟨hlow, hhigh⟩ := h.min_le_mean_le_max hne
  have hmin : (0 : Int) ≤ ds.sum / ds.length := (hpos _ (h.least hne).1).trans hlow
  have hmax : (ds.sum / ds.length : Int) < 2 ^ 63 :=
    hhigh.trans_lt (hsmall _ (h.greatest hne).1)
  have hcount : s.count.toNat = ds.length := by
    rw [h.count_eq]
    exact UInt64.toNat_ofNat_of_lt' hfits
  have hzero : (s.count == 0) = false := by
    rw [beq_eq_false_iff_ne]
    intro hzero
    rw [hzero] at hcount
    exact hne (List.length_eq_zero_iff.mp hcount.symm)
  unfold mean
  rw [hzero, if_neg Bool.false_ne_true, hcount, h.total_eq,
    Int.tdiv_eq_ediv_of_nonneg (List.sum_nonneg hpos),
    Int64.toInt_ofInt_of_le (by omega) (by omega)]

end Covers

/-- Any sequence of samples is covered, as far as it counts. -/
theorem covers_ofList (rtts : List Span) : (ofList rtts).Covers (counted rtts) := by
  induction rtts using List.reverseRecOn with
  | nil => exact .empty
  | append_singleton rtts d ih =>
    have hlast : ofList (rtts ++ [d]) = (ofList rtts).add d := List.foldl_concat ..
    unfold counted at ih ⊢
    rw [hlast, List.filter_append]
    by_cases hd : 0 ≤ d
    · rw [List.filter_singleton, decide_eq_true hd]
      exact ih.add hd
    · rw [add_of_neg _ (Int.not_le.mp hd), List.filter_singleton, decide_eq_false hd, cond_false,
        List.append_nil]
      exact ih

/-- No sum on the way is greater than the last one. -/
theorem total_take_le (rtts : List Span) (k : Nat) :
    (ofList (rtts.take k)).total ≤ (counted rtts).sum := by
  have hsplit : counted rtts = counted (rtts.take k) ++ counted (rtts.drop k) := by
    unfold counted
    rw [← List.filter_append, List.take_append_drop]
  have hrest : 0 ≤ (counted (rtts.drop k)).sum := List.sum_nonneg fun d => nonneg_of_mem_counted
  rw [(covers_ofList _).total_eq, hsplit, List.sum_append]
  exact Int.le_add_of_nonneg_right hrest

end RoundTrips

/-! ## The figures of a summary -/

/-- The figures are those of the samples `ds`, in whole microseconds, and in order. -/
structure RttFigures.Describes (f : RttFigures) (ds : List Span) : Prop where
  samples_eq : f.samples.toNat = ds.length
  first_eq : ∀ first, ds.head? = some first → f.firstUs.toInt = first / 1000
  min_eq : ∀ least, IsLeast {d | d ∈ ds} least → f.minUs.toInt = least / 1000
  max_eq : ∀ greatest, IsGreatest {d | d ∈ ds} greatest → f.maxUs.toInt = greatest / 1000
  nonneg : 0 ≤ f.minUs.toInt
  min_le_first : f.minUs.toInt ≤ f.firstUs.toInt
  first_le_max : f.firstUs.toInt ≤ f.maxUs.toInt
  min_le_avg : f.minUs.toInt ≤ f.avgUs.toInt
  avg_le_max : f.avgUs.toInt ≤ f.maxUs.toInt

namespace RoundTrips

/-- A summary describes the samples that are covered. -/
theorem Covers.describes {s : RoundTrips} {ds : List Span} {f : RttFigures} (h : s.Covers ds)
    (hpos : ∀ d ∈ ds, 0 ≤ d) (hsmall : ∀ d ∈ ds, d < 2 ^ 63) (hfits : ds.length < 2 ^ 64)
    (hf : s.summary = some f) : f.Describes ds := by
  obtain ⟨first, hfirst, hf⟩ := Option.bind_eq_some_iff.mp hf
  obtain ⟨mean, hmean, hf⟩ := Option.bind_eq_some_iff.mp hf
  have hhead : ds.head? = some first := h.first_eq.symm.trans hfirst
  have hmem : first ∈ ds := List.mem_of_head? hhead
  have hne : ds ≠ [] := List.ne_nil_of_mem hmem
  have hleast := h.least hne
  have hgreatest := h.greatest hne
  obtain ⟨hlow, hhigh⟩ := h.min_le_mean_le_max hne
  obtain rfl : ds.sum / ds.length = mean :=
    Option.some.inj ((h.mean_eq hpos hsmall hfits hne).symm.trans hmean)
  -- All four times lie between the extremes, and the extremes are samples.
  have hmicros : ∀ d : Span, s.min ≤ d → d ≤ s.max → (Span.microseconds d).toInt = d / 1000 :=
    fun d hle hge => Span.toInt_microseconds_of_nonneg ((hpos _ hleast.1).trans hle)
      (hge.trans_lt (hsmall _ hgreatest.1))
  have hfirstUs := hmicros first (hleast.2 hmem) (hgreatest.2 hmem)
  have hminUs := hmicros s.min le_rfl (hgreatest.2 hleast.1)
  have hmaxUs := hmicros s.max (hgreatest.2 hleast.1) le_rfl
  have havgUs := hmicros _ hlow hhigh
  have hcut : ∀ a b : Span, a ≤ b → a / 1000 ≤ b / 1000 :=
    fun a b hle => Int.ediv_le_ediv (by decide) hle
  rw [← Option.some.inj hf]
  refine ⟨?_, fun a ha => ?_, fun a ha => ?_, fun a ha => ?_, ?_, ?_, ?_, ?_, ?_⟩
  · change s.count.toNat = _
    rw [h.count_eq]
    exact UInt64.toNat_ofNat_of_lt' hfits
  · rw [hhead] at ha
    exact Option.some.inj ha ▸ hfirstUs
  · exact hleast.unique ha ▸ hminUs
  · exact hgreatest.unique ha ▸ hmaxUs
  · exact hminUs ▸ Int.ediv_nonneg (hpos _ hleast.1) (by decide)
  · exact hminUs ▸ hfirstUs ▸ hcut _ _ (hleast.2 hmem)
  · exact hfirstUs ▸ hmaxUs ▸ hcut _ _ (hgreatest.2 hmem)
  · exact hminUs ▸ havgUs ▸ hcut _ _ hlow
  · exact havgUs ▸ hmaxUs ▸ hcut _ _ hhigh

/-- Summaries of statistics that differ in the first sample differ in its figure at most. -/
theorem summary_congr {s t : RoundTrips} {f g : RttFigures} (h : t = { s with first := t.first })
    (hf : s.summary = some f) (hg : t.summary = some g) : g = { f with firstUs := g.firstUs } := by
  have hmean : t.mean = s.mean := by
    rw [h]
    rfl
  obtain ⟨first, -, hf⟩ := Option.bind_eq_some_iff.mp hf
  obtain ⟨mean, hs, hf⟩ := Option.bind_eq_some_iff.mp hf
  obtain ⟨first', -, hg⟩ := Option.bind_eq_some_iff.mp hg
  obtain ⟨mean', ht, hg⟩ := Option.bind_eq_some_iff.mp hg
  obtain rfl : mean' = mean := Option.some.inj (ht.symm.trans (hmean.trans hs))
  rw [← Option.some.inj hf, ← Option.some.inj hg, h]

/-- **The statistics summarise the samples.** Of any sequence of samples, the negative ones count for
nothing, and the others are counted, added up and averaged exactly, the mean rounded down to nanoseconds.
No sum on the way is greater than the last. There is a summary as soon as a sample counts; it has the
extremes in whole microseconds, and the first sample and the mean lie between them. The order of the
samples has a say in nothing but the first. The mean is taken of a count that has not wrapped at
2 ^ 64. -/
theorem figures_of_samples (rtts : List Span) (hsmall : ∀ d ∈ rtts, d < 2 ^ 63) :
    let s := ofList rtts
    let ds := counted rtts
    (s.count = UInt64.ofNat ds.length ∧ s.first = ds.head? ∧ s.total = ds.sum ∧
        ∀ k, (ofList (rtts.take k)).total ≤ ds.sum) ∧
      (ds.length < 2 ^ 64 → ds ≠ [] → ∃ mean, s.mean = some mean ∧
        mean * ds.length ≤ ds.sum ∧ ds.sum < (mean + 1) * ds.length) ∧
      (s.summary.isSome = true ↔ 0 < s.count) ∧
      (ds.length < 2 ^ 64 → ∀ f, s.summary = some f → f.Describes ds) ∧
      s = ofList ds ∧
      ∀ rtts', rtts'.Perm rtts →
        ofList rtts' = { s with first := (ofList rtts').first } ∧
          ((ofList rtts').summary.isSome = s.summary.isSome) ∧
          ∀ f f', s.summary = some f → (ofList rtts').summary = some f' →
            f' = { f with firstUs := f'.firstUs } := by
  intro s ds
  have h : s.Covers ds := covers_ofList rtts
  have hpos : ∀ d ∈ ds, 0 ≤ d := fun d => nonneg_of_mem_counted
  have hword : ∀ d ∈ ds, d < 2 ^ 63 := fun d hd => hsmall d (List.mem_filter.mp hd).1
  refine ⟨⟨h.count_eq, h.first_eq, h.total_eq, total_take_le rtts⟩, fun hfits hne => ?_,
    h.summary_isSome, fun hfits f => h.describes hpos hword hfits, (ofList_counted rtts).symm,
    fun rtts' hperm => ?_⟩
  · have hlength : (0 : Int) < ds.length := Int.natCast_pos.mpr (List.length_pos_iff.mpr hne)
    exact ⟨_, h.mean_eq hpos hword hfits hne, Int.ediv_mul_le _ hlength.ne',
      Int.lt_ediv_add_one_mul_self _ hlength⟩
  · have h' := covers_ofList rtts'
    have heq := h.eq_of_perm h' (hperm.filter _)
    have hcount : (ofList rtts').count = s.count := by rw [heq]
    refine ⟨heq, ?_, fun f f' => summary_congr heq⟩
    rw [Bool.eq_iff_iff, h.summary_isSome, h'.summary_isSome, hcount]

/-- A negative sample among three others, the least of which is not a whole microsecond. -/
theorem figures_of_samples_out_of_order :
    let rtts : List Span := [30000000, -1, 10000999, 20000000]
    (∀ d ∈ rtts, d < 2 ^ 63) ∧
      (ofList rtts).summary = some ⟨30000, 10000, 30000, 20000, 3⟩ ∧
      RttFigures.Describes ⟨30000, 10000, 30000, 20000, 3⟩ (counted rtts) := by
  intro rtts
  have hsmall : ∀ d ∈ rtts, d < 2 ^ 63 := by decide
  have hsummary : (ofList rtts).summary = some ⟨30000, 10000, 30000, 20000, 3⟩ := by decide
  obtain ⟨-, -, -, hdescribes, -⟩ := figures_of_samples rtts hsmall
  exact ⟨hsmall, hsummary, hdescribes (by decide) _ hsummary⟩

end RoundTrips

end FlowWatch
