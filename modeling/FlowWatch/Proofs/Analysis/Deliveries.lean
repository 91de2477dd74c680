/-
The lists of a report do not hang on the order of delivery.

What a run tells reaches the report in some order. Sessions work side by side, and a flush takes the open
ones in any order, so only what one connection tells is sure to come in the order in which it was told.
That is enough: the lists of a report are sorted by time and endpoints, the text of an endpoint names it,
so two records of one place are of one connection, and the sort leaves those as they came.
-/
import FlowWatch.Proofs.Analysis.Totals
import FlowWatch.Proofs.Flow.Endpoints
import FlowWatch.Proofs.Pool.Parties
import FlowWatch.Proofs.Pool.Unmarked
import FlowWatch.Proofs.Report.Order

set_option autoImplicit false

namespace FlowWatch

open Capture (Event)

/-! ## Deliveries -/

/-- A notice and the session it is from. -/
abbrev Delivery : Type := Option Tenant × Notice

namespace Delivery

/-- Whether a delivery is from a session of the flow's connection. -/
def isOf (f : Flow) (d : Delivery) : Bool := d.1.any fun t => f.connects t.key

/-- Of all that is told, the records. -/
def reported (told : List Delivery) : List Delivery := told.filter (·.2.isReported)

/-- The same deliveries in another order, those of one connection in the same. -/
structure Reorders (told reordered : List Delivery) : Prop where
  perm : reordered.Perm told
  inOrder : ∀ f : Flow, reordered.filter (isOf f) = told.filter (isOf f)

variable {told reordered : List Delivery}

theorem Reorders.refl (told : List Delivery) : Reorders told told := ⟨.refl told, fun _ => rfl⟩

theorem Reorders.reported (h : Reorders told reordered) :
    Reorders (reported told) (reported reordered) := by
  refine ⟨h.perm.filter _, fun f => ?_⟩
  have hcomm : ∀ ds : List Delivery, (Delivery.reported ds).filter (isOf f) =
      (ds.filter (isOf f)).filter (·.2.isReported) := by
    intro ds
    rw [Delivery.reported, List.filter_filter, List.filter_filter]
    simp only [Bool.and_comm]
  rw [hcomm, hcomm, h.inOrder f]

section Parties

variable {β : Type} {record? : Notice → Option β} {client server : β → String}

/-- Whoever has a record between the endpoints of a session is of its connection. -/
theorem filter_parties_isOf {ds : List Delivery}
    (hnamed : ∀ d ∈ ds, ∀ r, record? d.2 = some r →
      ∃ t, d.1 = some t ∧ client r = t.key.sender ∧ server r = t.key.receiver) (key : Flow) :
    ((ds.filter (isOf key)).filterMap fun e => record? e.2).filter
        (fun q => client q = key.sender ∧ server q = key.receiver) =
      (ds.filterMap fun e => record? e.2).filter
        (fun q => client q = key.sender ∧ server q = key.receiver) := by
  rw [List.filter_filterMap, List.filter_filterMap, List.filterMap_filter]
  refine List.filterMap_congr fun e he => ?_
  split_ifs with hof
  · rfl
  · symm
    rw [Option.filter_eq_none_iff]
    intro q hq hparties
    obtain ⟨u, hu, hclient, hserver⟩ := hnamed e he q hq
    obtain ⟨hqclient, hqserver⟩ := of_decide_eq_true hparties
    have hkey : u.key = key :=
      Flow.eq_of_texts (hclient.symm.trans hqclient) (hserver.symm.trans hqserver)
    refine hof ?_
    rw [isOf, hu, Option.any_some, Flow.connects_iff]
    exact .inl hkey

/-- Records between two endpoints come in one order, whichever way the deliveries are ordered. -/
theorem Reorders.filter_parties (h : Reorders told reordered)
    (hnamed : ∀ d ∈ told, ∀ r, record? d.2 = some r →
      ∃ t, d.1 = some t ∧ client r = t.key.sender ∧ server r = t.key.receiver) (c s : String) :
    (reordered.filterMap fun d => record? d.2).filter (fun r => client r = c ∧ server r = s) =
      (told.filterMap fun d => record? d.2).filter (fun r => client r = c ∧ server r = s) := by
  by_cases hsome : ∃ d ∈ told, ∃ r, record? d.2 = some r ∧ client r = c ∧ server r = s
  · obtain ⟨d, hd, r, hr, rfl, rfl⟩ := hsome
    obtain ⟨t, -, hclient, hserver⟩ := hnamed d hd r hr
    rw [hclient, hserver, ← filter_parties_isOf hnamed t.key,
      ← filter_parties_isOf (fun e he => hnamed e (h.perm.mem_iff.mp he)) t.key, h.inOrder t.key]
  · -- No record is between these endpoints at all.
    have hnone : ∀ ds : List Delivery, (∀ e ∈ ds, e ∈ told) →
        (ds.filterMap fun e => record? e.2).filter (fun q => client q = c ∧ server q = s) = [] := by
      intro ds hmem
      refine List.filter_eq_nil_iff.mpr fun q hq hparties => hsome ?_
      obtain ⟨e, he, hrecord⟩ := List.mem_filterMap.mp hq
      exact ⟨e, hmem e he, q, hrecord, of_decide_eq_true hparties⟩
    rw [hnone reordered fun e he => h.perm.mem_iff.mp he, hnone told fun e he => he]

/-- Sorted by time and endpoints, the records are the same list. -/
theorem Reorders.mergeSort_eq (h : Reorders told reordered)
    (hnamed : ∀ d ∈ told, ∀ r, record? d.2 = some r →
      ∃ t, d.1 = some t ∧ client r = t.key.sender ∧ server r = t.key.receiver)
    {time : β → Instant} {le : β → β → Bool}
    (hle : ∀ a b, le a b = true ↔ Report.place (time a) (client a) (server a) ≤
      Report.place (time b) (client b) (server b)) :
    (reordered.filterMap fun d => record? d.2).mergeSort le =
      (told.filterMap fun d => record? d.2).mergeSort le := by
  refine mergeSort_eq_of_places hle (h.perm.filterMap _) fun k => ?_
  -- Those of one place are among those between its endpoints.
  have hplace : ∀ rs : List β,
      rs.filter (fun r => Report.place (time r) (client r) (server r) = k) =
        (rs.filter fun r => client r = (ofLex (ofLex k).2).1 ∧
          server r = (ofLex (ofLex k).2).2).filter
            (fun r => Report.place (time r) (client r) (server r) = k) := by
    intro rs
    rw [List.filter_filter]
    refine List.filter_congr fun r _ => ?_
    by_cases hk : Report.place (time r) (client r) (server r) = k
    · subst hk
      simp [Report.place]
    · simp [hk]
  rw [hplace, hplace (told.filterMap _), h.filter_parties hnamed]

end Parties

end Delivery

open Delivery

/-! ## What a run tells -/

namespace Pool

variable {p : Pool}

/-- A record is from a session, and shows its endpoints. -/
theorem Consistent.summary_named (h : p.Consistent) (ss : List PoolStep) :
    ∀ d ∈ reported (p.telling ss), ∀ r, d.2.summary? = some r →
      ∃ t, d.1 = some t ∧ r.client = t.key.sender ∧ r.server = t.key.receiver := by
  rintro ⟨tenant, n⟩ hd r hr
  have hd := (List.mem_filter.mp hd).1
  cases tenant with
  | none =>
    rw [(h.telling_of_nobody ss n hd).1] at hr
    cases hr
  | some t => exact ⟨t, rfl, (h.between_telling ss hd).summary r hr⟩

theorem Consistent.exchange_named (h : p.Consistent) (ss : List PoolStep) :
    ∀ d ∈ reported (p.telling ss), ∀ e, d.2.exchange? = some e →
      ∃ t, d.1 = some t ∧ e.client = t.key.sender ∧ e.server = t.key.receiver := by
  rintro ⟨tenant, n⟩ hd e he
  have hd := (List.mem_filter.mp hd).1
  cases tenant with
  | none =>
    rw [(h.telling_of_nobody ss n hd).2] at he
    cases he
  | some t => exact ⟨t, rfl, (h.between_telling ss hd).exchange e he⟩

/-- A connection has one target of a flush at most. -/
theorem Consistent.farewells_alone (h : p.Consistent) {targets : List (Nat × Nat)}
    (ht : p.Targets targets) (f : Flow) :
    ((targets.filterMap p.farewell).filter (isOf f)).Pairwise fun _ _ => False := by
  rw [List.filter_filterMap, List.pairwise_filterMap]
  refine (List.pairwise_map.mp ht.nodup).imp fun {t u} hne d hd e he => hne ?_
  have hof : ∀ {target : Nat × Nat} {d : Delivery}, (p.farewell target).filter (isOf f) = some d →
      ∃ slot session, p.occupant target.1 = some (slot, session) ∧
        f.connects session.key = true := by
    intro target d hd
    obtain ⟨hd, hf⟩ := Option.filter_eq_some_iff.mp hd
    obtain ⟨⟨slot, session⟩, ho, rfl⟩ := Option.map_eq_some_iff.mp hd
    exact ⟨slot, session, ho, hf⟩
  obtain ⟨a, s, hs, hfs⟩ := hof hd
  obtain ⟨b, t, ht, hft⟩ := hof he
  exact h.targets_alone hs ht hfs hft

/-- Closing the same sessions in another order only reorders what is told. -/
theorem Consistent.reorders_closes (h : p.Consistent) {targets others : List (Nat × Nat)}
    (ht : p.Targets targets) (hperm : others.Perm targets) :
    Reorders (p.telling (targets.map fun t => .close t.1 t.2 .flush))
      (p.telling (others.map fun t => .close t.1 t.2 .flush)) := by
  have hothers : p.Targets others :=
    ⟨(hperm.map _).nodup_iff.mpr ht.nodup, fun t hmem => ht.opened t (hperm.mem_iff.mp hmem)⟩
  rw [h.telling_closes ht, h.telling_closes hothers]
  refine ⟨hperm.filterMap _, fun f => ?_⟩
  exact List.Perm.eq_of_pairwise (fun _ _ _ _ hfalse => hfalse.elim)
    (h.farewells_alone hothers f) (h.farewells_alone ht f) ((hperm.filterMap _).filter _)

end Pool

theorem Delivery.Reorders.append_left {told reordered : List Delivery} (h : Reorders told reordered)
    (before : List Delivery) : Reorders (before ++ told) (before ++ reordered) := by
  refine ⟨h.perm.append_left before, fun f => ?_⟩
  rw [List.filter_append, List.filter_append, h.inOrder f]

namespace Analysis

/-! ## Reports on deliveries -/

/-- What a run tells, its last flush included. -/
def toldBy (config : Config) (calls : List TrackerCall) : List Delivery :=
  (Pool.new config .standard).telling
    ((Pool.new config .standard).stepsOfAll (calls ++ [TrackerCall.flushAll]))

/-- The tracker with nothing in its journal but what was delivered, in this order. -/
def delivering (tracker : Tracker) (deliveries : List Delivery) : Tracker :=
  { tracker with pool := { tracker.pool with journal := (deliveries.map (·.2)).toArray } }

/-- The report on a run whose records were delivered in some order. -/
def deliveredReport (path : Path) (bytes : UInt64) (events : List Event) (config : Config)
    (calls : List TrackerCall) (deliveries : List Delivery) : Report :=
  report path bytes (tallyOf events)
    (delivering (Tracker.flushed (captureName path) config .standard calls) deliveries)

/-- The tracker whose last flush takes the open sessions in an order of its own. -/
def flushedInOrder (name : String) (config : Config) (calls : List TrackerCall)
    (targets : List (Nat × Nat)) : Tracker :=
  let tracker := (Tracker.new name config .standard).run calls
  { tracker with pool := targets.foldl (fun p t => p.close t.1 t.2 .flush) tracker.pool }

variable {told reordered : List Delivery} {tracker : Tracker}

theorem filterMap_reported {β : Type} {record? : Notice → Option β}
    (hrecord : ∀ n, n.isReported = false → record? n = none) (told : List Delivery) :
    (told.map (·.2)).filterMap record? = (reported told).filterMap fun d => record? d.2 := by
  rw [List.filterMap_map, reported, List.filterMap_filter]
  refine List.filterMap_congr fun d _ => ?_
  dsimp only [Function.comp]
  split_ifs with hreported
  · rfl
  · exact hrecord d.2 (Bool.eq_false_iff.mpr hreported)

/-- The lists of a report, by what its tracker has told. -/
theorem report_lists (path : Path) (bytes : UInt64) (tally : Tally)
    (h : tracker.pool.journal.toList = told.map (·.2)) :
    (report path bytes tally tracker).sessions =
        ((reported told).filterMap fun d => d.2.summary?).mergeSort Report.sessionBefore ∧
      (report path bytes tally tracker).exchanges =
        ((reported told).filterMap fun d => d.2.exchange?).mergeSort Report.exchangeBefore := by
  have hnone : ∀ n : Notice, n.isReported = false → n.summary? = none ∧ n.exchange? = none := by
    intro n hn
    simpa [Notice.isReported] using hn
  unfold report
  dsimp only
  rw [h, filterMap_reported (fun n hn => (hnone n hn).1),
    filterMap_reported (fun n hn => (hnone n hn).2)]
  exact ⟨rfl, rfl⟩

/-- The lists of a report hang on what a pool has told, and not on the order between connections. -/
theorem lists_of_reorders {p : Pool} (hp : p.Consistent) {ss : List PoolStep}
    (h : Reorders (reported (p.telling ss)) reordered) :
    (reordered.filterMap fun d => d.2.summary?).mergeSort Report.sessionBefore =
        ((reported (p.telling ss)).filterMap fun d => d.2.summary?).mergeSort
          Report.sessionBefore ∧
      (reordered.filterMap fun d => d.2.exchange?).mergeSort Report.exchangeBefore =
        ((reported (p.telling ss)).filterMap fun d => d.2.exchange?).mergeSort
          Report.exchangeBefore :=
  ⟨h.mergeSort_eq (hp.summary_named ss) Report.sessionBefore_iff,
    h.mergeSort_eq (hp.exchange_named ss) Report.exchangeBefore_iff⟩

theorem reported_of_reorders (h : Reorders (reported told) reordered) :
    reported reordered = reordered :=
  List.filter_eq_self.mpr fun _ hd => (List.mem_filter.mp (h.perm.mem_iff.mp hd)).2

section Runs

variable (path : Path) (bytes : UInt64) (events : List Event) (config : Config)
  (calls : List TrackerCall)

theorem journal_flushed (name : String) :
    (Tracker.flushed name config .standard calls).pool.journal.toList =
      (toldBy config calls).map (·.2) := by
  rw [Tracker.pool_flushed, (Pool.Consistent.new config .standard).journal_steps]
  rfl

/-- A report on reordered deliveries has the lists of the run. -/
theorem lists_deliveredReport (h : Reorders (reported (toldBy config calls)) reordered) :
    (deliveredReport path bytes events config calls reordered).sessions =
        (pacedReport path bytes events config calls).sessions ∧
      (deliveredReport path bytes events config calls reordered).exchanges =
        (pacedReport path bytes events config calls).exchanges := by
  obtain ⟨hsessions, hexchanges⟩ := lists_of_reorders (.new config .standard) h
  obtain ⟨hrunSessions, hrunExchanges⟩ := report_lists path bytes (tallyOf events)
    (journal_flushed config calls (captureName path))
  have hjournal : (delivering (Tracker.flushed (captureName path) config .standard calls)
      reordered).pool.journal.toList = reordered.map (·.2) := rfl
  obtain ⟨hownSessions, hownExchanges⟩ := report_lists path bytes (tallyOf events) hjournal
  rw [reported_of_reorders h] at hownSessions hownExchanges
  exact ⟨(hownSessions.trans hsessions).trans hrunSessions.symm,
    (hownExchanges.trans hexchanges).trans hrunExchanges.symm⟩

/-- What a run tells before its last flush, and then in it. -/
theorem toldBy_eq (name : String) :
    let p := ((Tracker.new name config .standard).run calls).pool
    toldBy config calls =
      (Pool.new config .standard).telling ((Pool.new config .standard).stepsOfAll calls) ++
        p.telling ((p.selected fun _ => true).map fun t => .close t.1 t.2 .flush) := by
  intro p
  have hp : p = (Pool.new config .standard).steps ((Pool.new config .standard).stepsOfAll calls) :=
    (Tracker.new name config .standard).pool_run calls
  have hsteps : (Pool.new config .standard).stepsOfAll (calls ++ [TrackerCall.flushAll]) =
      (Pool.new config .standard).stepsOfAll calls ++ p.flushSteps fun _ => true := by
    rw [hp, Pool.stepsOfAll_append]
    exact congrArg _ (List.append_nil _)
  rw [toldBy, hsteps, Pool.telling_append, ← hp]
  rfl

/-- A flush in an order of its own tells what the flush of the run tells, in another order. -/
theorem reorders_flushedInOrder (name : String) {targets : List (Nat × Nat)}
    (h : targets.Perm (((Tracker.new name config .standard).run calls).pool.selected
      fun _ => true)) :
    ∃ told, Reorders (toldBy config calls) told ∧
      (flushedInOrder name config calls targets).pool.journal.toList = told.map (·.2) := by
  have hp := Tracker.consistent_run name config .standard calls
  have hsteps : (flushedInOrder name config calls targets).pool =
      ((Tracker.new name config .standard).run calls).pool.steps
        (targets.map fun t => .close t.1 t.2 .flush) := by
    unfold Pool.steps
    rw [List.foldl_map]
    rfl
  have hreordered := (hp.reorders_closes (hp.targets_selected _) h).append_left
    ((Pool.new config .standard).telling ((Pool.new config .standard).stepsOfAll calls))
  rw [← toldBy_eq config calls name] at hreordered
  refine ⟨_, hreordered, ?_⟩
  rw [hsteps, hp.journal_steps, List.map_append]
  refine congrArg (· ++ _) ?_
  rw [Tracker.pool_run]
  exact (Pool.Consistent.new config .standard).journal_steps _

/-- **The order of delivery has no say in a report.** Whatever calls a run makes, any two orders in which
its records reach the report, those of one connection in the order in which they were told, lead to the
same lists of sessions and exchanges, and these are the lists of the run itself. In particular the last
flush may take the open sessions in any order. -/
theorem lists_of_any_order :
    (∀ a b, Reorders (reported (toldBy config calls)) a →
        Reorders (reported (toldBy config calls)) b →
        (deliveredReport path bytes events config calls a).sessions =
            (deliveredReport path bytes events config calls b).sessions ∧
          (deliveredReport path bytes events config calls a).exchanges =
            (deliveredReport path bytes events config calls b).exchanges) ∧
      (∀ a, Reorders (reported (toldBy config calls)) a →
        (deliveredReport path bytes events config calls a).sessions =
            (pacedReport path bytes events config calls).sessions ∧
          (deliveredReport path bytes events config calls a).exchanges =
            (pacedReport path bytes events config calls).exchanges) ∧
      ∀ targets : List (Nat × Nat),
        targets.Perm (((Tracker.new (captureName path) config .standard).run calls).pool.selected
          fun _ => true) →
        let r := report path bytes (tallyOf events)
          (flushedInOrder (captureName path) config calls targets)
        r.sessions = (pacedReport path bytes events config calls).sessions ∧
          r.exchanges = (pacedReport path bytes events config calls).exchanges := by
  refine ⟨fun a b ha hb => ?_, fun a ha => lists_deliveredReport path bytes events config calls ha,
    fun targets htargets => ?_⟩
  · obtain ⟨hasessions, haexchanges⟩ := lists_deliveredReport path bytes events config calls ha
    obtain ⟨hbsessions, hbexchanges⟩ := lists_deliveredReport path bytes events config calls hb
    exact ⟨hasessions.trans hbsessions.symm, haexchanges.trans hbexchanges.symm⟩
  · obtain ⟨told, htold, hjournal⟩ :=
      reorders_flushedInOrder config calls (captureName path) htargets
    obtain ⟨hsessions, hexchanges⟩ := report_lists path bytes (tallyOf events) hjournal
    obtain ⟨hsame, hsame'⟩ := lists_of_reorders (.new config .standard) htold.reported
    obtain ⟨hrun, hrun'⟩ := report_lists path bytes (tallyOf events)
      (journal_flushed config calls (captureName path))
    exact ⟨(hsessions.trans hsame).trans hrun.symm, (hexchanges.trans hsame').trans hrun'.symm⟩

end Runs

/-- Two connections that are both open when the capture ends, flushed in either order. -/
theorem lists_of_any_order_two_open :
    let syn (port : UInt8) : List UInt8 :=
      [1, 2, 3, 4, 5, 6, 5, 4, 3, 2, 1, 0, 8, 0,
        69, 0, 0, 40, 0, 0, 64, 0, 64, 6, 38, 206, 10, 0, 0, 1, 10, 0, 0, 2,
        156, port, 0, 80, 0, 0, 0, 0, 100, 0, 0, 0, 80, 2, 255, 255, 0, 0, 0, 0]
    let events : List Event := [⟨some (.utc 1700000000000000005), Frame.linkEthernet, syn 64⟩,
      ⟨some (.utc 1700000000000000005), Frame.linkEthernet, syn 65⟩]
    let calls : List TrackerCall := (segmentsOf events).map .feed
    let targets := ((Tracker.new "c" {} .standard).run calls).pool.selected fun _ => true
    (segmentsOf events).length = 2 ∧
      (report "c.pcap" 148 (tallyOf events)
          (flushedInOrder "c" {} calls targets.reverse)).sessions =
        (deliveredReport "c.pcap" 148 events {} calls (reported (toldBy {} calls))).sessions := by
  intro syn events calls targets
  obtain ⟨-, hdelivered, hflushed⟩ := lists_of_any_order "c.pcap" 148 events {} calls
  have hrun := (hdelivered _ (.refl _)).1
  have hreversed := (hflushed targets.reverse targets.reverse_perm).1
  exact ⟨by decide, hreversed.trans hrun.symm⟩

end Analysis

end FlowWatch
