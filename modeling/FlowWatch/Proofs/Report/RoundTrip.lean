/-
Written reports read back.

A record is an object with a fixed list of names, from which the absent values are left out. That is
`present`, and `fields?_present` gives the values back by name, absent ones included. So a record is read
back as soon as each of its values is: `Restores read v a` says that of one value, and goes from the
values of a record to the record, from there to a list of records, and at last to the report. With the
text of a JSON value read back, and of a timestamp, nothing of a report is lost in its text.
-/
import FlowWatch.Proofs.Json.Values
import FlowWatch.Proofs.Time.Stamps
import FlowWatch.Report.Codec
import Mathlib.Data.List.Nodup

set_option autoImplicit false

namespace FlowWatch

open Time

namespace Json

/-! ## Objects with fixed names -/

/-- The members that are there, of values in the order of their names. -/
def present (names : List String) (values : List (Option Json)) : List (String × Json) :=
  (names.zip values).filterMap fun p => p.2.map (p.1, ·)

theorem present_cons (name : String) (names : List String) (value : Option Json)
    (values : List (Option Json)) :
    present (name :: names) (value :: values) =
      optional name value ++ present names values := by
  cases value <;> rfl

/-- Names are left out, but none is added and none moves. -/
theorem present_names (names : List String) (values : List (Option Json)) :
    ((present names values).map Prod.fst).Sublist names := by
  induction names generalizing values with
  | nil => simp [present]
  | cons name names ih =>
    cases values with
    | nil => simp [present]
    | cons value values =>
      rw [present_cons]
      cases value with
      | none => exact (ih values).cons name
      | some v => exact (ih values).cons_cons name

variable {names : List String} {values : List (Option Json)}

theorem present_unique (hnames : names.Nodup) (values : List (Option Json)) (name : String) :
    ((present names values).filter (·.1 == name)).length ≤ 1 := by
  have hnodup := hnames.sublist (present_names names values)
  have hcount := List.nodup_iff_count_le_one.mp hnodup name
  rwa [List.count, List.countP_map, List.countP_eq_length_filter] at hcount

/-- A name that stands in front is not looked for further back. -/
theorem present_find (hnames : names.Nodup) (hlength : names.length = values.length) :
    names.map (fun name => ((present names values).find? (·.1 == name)).map (·.2)) = values := by
  induction names generalizing values with
  | nil => exact (List.length_eq_zero_iff.mp hlength.symm).symm
  | cons name names ih =>
    obtain ⟨value, values, rfl⟩ := List.exists_cons_of_length_eq_add_one hlength.symm
    obtain ⟨hname, hnodup⟩ := List.nodup_cons.mp hnames
    have hrest := ih hnodup (Nat.succ.inj hlength)
    have habsent : (present names values).find? (·.1 == name) = none := by
      rw [List.find?_eq_none]
      intro m hm heq
      have hmem := (present_names names values).subset (List.mem_map_of_mem hm)
      rw [beq_iff_eq.mp heq] at hmem
      exact hname hmem
    have hskip : ∀ other ∈ names, (present (name :: names) (value :: values)).find? (·.1 == other) =
        (present names values).find? (·.1 == other) := by
      intro other hother
      have hne : name ≠ other := fun heq => hname (heq ▸ hother)
      rw [present_cons]
      cases value <;> simp [optional, hne]
    rw [List.map_cons, List.map_congr_left fun other hother => by rw [hskip other hother], hrest,
      present_cons]
    cases value <;> simp [optional, habsent]

/-- The values of an object are found by name, whichever of them are absent. -/
theorem fields?_present (hnames : names.Nodup) (hlength : names.length = values.length) :
    fields? names (.object (present names values)) = some values := by
  have hunique : (names.any fun name =>
      decide (1 < ((present names values).filter (·.1 == name)).length)) = false := by
    rw [List.any_eq_false]
    intro name _ h
    have hle := present_unique hnames values name
    exact absurd (of_decide_eq_true h) (by omega)
  rw [fields?, hunique, present_find hnames hlength]
  rfl

theorem exact_present (names : List String) (h : ∀ value ∈ values, ∀ v, value = some v → Exact v) :
    Exact (.object (present names values)) := by
  refine .object _ fun m hm => ?_
  obtain ⟨⟨name, value⟩, hpair, hmember⟩ := List.mem_filterMap.mp hm
  obtain ⟨v, hv, rfl⟩ := Option.map_eq_some_iff.mp hmember
  exact h value (List.of_mem_zip hpair).2 v hv

/-! ## Values that are restored -/

/-- The value has an exact text, is not null, and is read as what it was written from. -/
structure Restores {α : Type} (read : Json → Option α) (v : Json) (a : α) : Prop where
  exact : Exact v
  ne_null : v ≠ .null
  read : read v = some a

theorem restores_text (s : String) : Restores text? (.text s) s :=
  ⟨.text s, nofun, rfl⟩

theorem restores_natural (limit : Nat) {n : Nat} (hn : n ≤ limit) (hlimit : limit ≤ uint64Max) :
    Restores (natural? limit) (.natural n) n := by
  refine ⟨.integer n ?_ ?_, nofun, ?_⟩
  · simp only [int64Min]
    omega
  · exact Int.ofNat_le.mpr (hn.trans hlimit)
  · simp [natural, integer, natural?, hn]

theorem restores_word64 (n : UInt64) : Restores word64? (.word64 n) n := by
  have hle : n.toNat ≤ uint64Max := Nat.le_of_lt_succ n.toNat_lt
  have hn := restores_natural uint64Max hle le_rfl
  refine ⟨hn.exact, hn.ne_null, ?_⟩
  have hread : (Json.word64 n).natural? 18446744073709551615 = some n.toNat := hn.read
  rw [word64?, hread, Option.map_some, UInt64.ofNat_toNat]

theorem restores_signed64 (n : Int64) : Restores signed64? (.signed64 n) n := by
  have hmin : int64Min ≤ n.toInt := n.le_toInt
  have hmax : n.toInt ≤ int64Max := by
    have := n.toInt_lt
    unfold int64Max
    omega
  refine ⟨.integer _ hmin ?_, nofun, ?_⟩
  · unfold uint64Max
    unfold int64Max at hmax
    omega
  · have hrange : (decide (int64Min ≤ n.toInt) && decide (n.toInt ≤ int64Max)) = true := by
      simp [hmin, hmax]
    simp [signed64, integer, signed64?, hrange]

/-- An optional value is restored, absent or not. -/
theorem absentOr_map {α : Type} {read : Json → Option α} {write : α → Json}
    (h : ∀ a, Restores read (write a) a) (o : Option α) :
    absentOr read (o.map write) = some o := by
  cases o with
  | none => rfl
  | some a =>
    have hread := h a
    rw [Option.map_some, absentOr.eq_3 _ _ hread.ne_null, hread.read, Option.map_some]

theorem exact_map {α : Type} {read : Json → Option α} {write : α → Json}
    (h : ∀ a, Restores read (write a) a) (o : Option α) (v : Json) (hv : o.map write = some v) :
    Exact v := by
  obtain ⟨a, -, rfl⟩ := Option.map_eq_some_iff.mp hv
  exact (h a).exact

/-- A record is restored if its values are exact and its reader finds it behind them. -/
theorem restores_present {α : Type} {read : Json → Option α} {a : α} (names : List String)
    (values : List (Option Json)) (hnames : names.Nodup)
    (hlength : names.length = values.length)
    (hexact : ∀ value ∈ values, ∀ v, value = some v → Exact v)
    (hread : fields? names (.object (present names values)) = some values →
      read (.object (present names values)) = some a) :
    Restores read (.object (present names values)) a :=
  ⟨exact_present names hexact, nofun, hread (fields?_present hnames hlength)⟩

/-- The items of an array are restored one by one. -/
theorem mapM_restores {α : Type} {read : Json → Option α} {write : α → Option Json}
    (h : ∀ a v, write a = some v → Restores read v a) {as : List α} {items : List Json}
    (hwrite : as.mapM write = some items) :
    Exact (.array items) ∧ items.mapM read = some as := by
  suffices hitems : (∀ v ∈ items, Exact v) ∧ items.mapM read = some as from
    ⟨.array items hitems.1, hitems.2⟩
  induction as generalizing items with
  | nil =>
    cases hwrite
    exact ⟨nofun, rfl⟩
  | cons a as ih =>
    rw [List.mapM_cons] at hwrite
    obtain ⟨v, hv, hwrite⟩ := Option.bind_eq_some_iff.mp hwrite
    obtain ⟨rest, hrest, hwrite⟩ := Option.bind_eq_some_iff.mp hwrite
    cases hwrite
    obtain ⟨hexact, hread⟩ := ih hrest
    have hhead := h a v hv
    refine ⟨List.forall_mem_cons.mpr ⟨hhead.exact, hexact⟩, ?_⟩
    rw [List.mapM_cons, hhead.read, hread]
    rfl

end Json

open Json

/-! ## The records of a report -/

namespace Stamp

theorem restores {s : Stamp} {v : Json} (h : s.toJson? = some v) : Restores ofJson? v s := by
  obtain ⟨text, htext, rfl⟩ := Option.map_eq_some_iff.mp h
  exact ⟨.text text, nofun, ofRfc3339?_of_rfc3339? htext⟩

end Stamp

namespace CloseReason

theorem restores (r : CloseReason) : Restores ofJson? (.text r.name) r := by
  refine ⟨.text _, nofun, ?_⟩
  cases r <;> decide

end CloseReason

namespace Traffic

theorem restores (d : Traffic) : Restores ofJson? d.toJson d := by
  have hbytes := restores_word64 d.bytes
  have hpackets := restores_word64 d.packets
  refine restores_present ["bytes", "packets"]
    [some (.word64 d.bytes), some (.word64 d.packets)] (by decide) rfl ?_ fun hfields => ?_
  · simp [hbytes.exact, hpackets.exact]
  · simp only [ofJson?, hfields, hbytes.read, hpackets.read, Option.bind_eq_bind, Option.bind_some]

end Traffic

namespace RttFigures

theorem restores (r : RttFigures) : Restores ofJson? r.toJson r := by
  have hfirst := restores_signed64 r.firstUs
  have hmin := restores_signed64 r.minUs
  have hmax := restores_signed64 r.maxUs
  have havg := restores_signed64 r.avgUs
  have hsamples := restores_word64 r.samples
  refine restores_present ["first_us", "min_us", "max_us", "avg_us", "samples"]
    [some (.signed64 r.firstUs), some (.signed64 r.minUs), some (.signed64 r.maxUs),
      some (.signed64 r.avgUs), some (.word64 r.samples)] (by decide) rfl ?_ fun hfields => ?_
  · simp [hfirst.exact, hmin.exact, hmax.exact, havg.exact, hsamples.exact]
  · simp only [ofJson?, hfields, hfirst.read, hmin.read, hmax.read, havg.read, hsamples.read,
      Option.bind_eq_bind, Option.bind_some]

end RttFigures

namespace SessionRecord

theorem restores {s : SessionRecord} {v : Json} (h : s.toJson? = some v) :
    Restores ofJson? v s := by
  obtain ⟨first, hfirst, h⟩ := Option.bind_eq_some_iff.mp h
  obtain ⟨last, hlast, h⟩ := Option.bind_eq_some_iff.mp h
  have hvalue : v = .object (present fieldNames
      [some (.text s.client), some (.text s.server), some (.text s.closeReason.name), some first,
        some last, some (.signed64 s.durationUs), some s.forward.toJson, some s.backward.toJson,
        s.rtt.map (·.toJson), s.protocol.map .text, some (.word64 s.exchanges)]) := by
    rw [← Option.some.inj h]
    cases s.rtt <;> cases s.protocol <;> rfl
  have hreason := CloseReason.restores s.closeReason
  have hfirst := Stamp.restores hfirst
  have hlast := Stamp.restores hlast
  have hduration := restores_signed64 s.durationUs
  have hforward := s.forward.restores
  have hbackward := s.backward.restores
  have hexchanges := restores_word64 s.exchanges
  rw [hvalue]
  refine restores_present _ _ (by decide) rfl ?_ fun hfields => ?_
  · simp only [List.forall_mem_cons, Option.some.injEq, forall_eq']
    exact ⟨.text _, .text _, .text _, hfirst.exact, hlast.exact, hduration.exact, hforward.exact,
      hbackward.exact, exact_map RttFigures.restores _, exact_map restores_text _, hexchanges.exact,
      nofun⟩
  · simp only [ofJson?, hfields, (restores_text _).read, hreason.read, hfirst.read, hlast.read,
      hduration.read, hforward.read, hbackward.read, absentOr_map RttFigures.restores,
      absentOr_map restores_text, hexchanges.read, Option.bind_eq_bind, Option.bind_some]

end SessionRecord

namespace ExchangeRecord

theorem restores {e : ExchangeRecord} {v : Json} (h : e.toJson? = some v) :
    Restores ofJson? v e := by
  obtain ⟨requested, hrequested, h⟩ := Option.bind_eq_some_iff.mp h
  have hvalue : v = .object (present fieldNames
      [some (.text e.client), some (.text e.server), some (.text e.protocol), some (.text e.method),
        e.host.map .text, some (.text e.target), some (.natural e.status.toNat), some requested,
        some (.signed64 e.latencyUs)]) := by
    rw [← Option.some.inj h]
    cases e.host <;> rfl
  have hstatus := restores_natural 65535 (n := e.status.toNat)
    (Nat.le_of_lt_succ e.status.toNat_lt) (by decide)
  have hrequested := Stamp.restores hrequested
  have hlatency := restores_signed64 e.latencyUs
  rw [hvalue]
  refine restores_present _ _ (by decide) rfl ?_ fun hfields => ?_
  · simp only [List.forall_mem_cons, Option.some.injEq, forall_eq']
    exact ⟨.text _, .text _, .text _, .text _, exact_map restores_text _, .text _, hstatus.exact,
      hrequested.exact, hlatency.exact, nofun⟩
  · simp only [ofJson?, hfields, (restores_text _).read, absentOr_map restores_text, hstatus.read,
      hrequested.read, hlatency.read, Option.bind_eq_bind, Option.bind_some, UInt16.ofNat_toNat]

end ExchangeRecord

namespace InterfaceTotals

/-- The counters that stand beside the name go back into their own record. -/
theorem restores (t : InterfaceTotals) : Restores ofJson? t.toJson t := by
  have htxBytes := restores_word64 t.totals.txBytes
  have htxPackets := restores_word64 t.totals.txPackets
  have hrxBytes := restores_word64 t.totals.rxBytes
  have hrxPackets := restores_word64 t.totals.rxPackets
  refine restores_present
    ["interface", "tx_bytes", "tx_packets", "rx_bytes", "rx_packets"]
    [some (.text t.interface), some (.word64 t.totals.txBytes),
      some (.word64 t.totals.txPackets), some (.word64 t.totals.rxBytes),
      some (.word64 t.totals.rxPackets)] (by decide) rfl ?_ fun hfields => ?_
  · simp only [List.forall_mem_cons, Option.some.injEq, forall_eq']
    exact ⟨.text _, htxBytes.exact, htxPackets.exact, hrxBytes.exact, hrxPackets.exact, nofun⟩
  · simp only [ofJson?, hfields, (restores_text _).read, htxBytes.read, htxPackets.read,
      hrxBytes.read, hrxPackets.read, Option.bind_eq_bind, Option.bind_some]

end InterfaceTotals

namespace CaptureExtent

theorem restores (c : CaptureExtent) : Restores ofJson? c.toJson c := by
  have hvalue : c.toJson = .object (present
      ["packets_total", "tcp_segments", "time_start", "time_end"]
      [some (.word64 c.packetsTotal), some (.word64 c.tcpSegments), c.timeStart.map .text,
        c.timeEnd.map .text]) := by
    rw [toJson]
    cases c.timeStart <;> cases c.timeEnd <;> rfl
  have hpackets := restores_word64 c.packetsTotal
  have hsegments := restores_word64 c.tcpSegments
  rw [hvalue]
  refine restores_present _ _ (by decide) rfl ?_ fun hfields => ?_
  · simp only [List.forall_mem_cons, Option.some.injEq, forall_eq']
    exact ⟨hpackets.exact, hsegments.exact, exact_map restores_text _, exact_map restores_text _,
      nofun⟩
  · simp only [ofJson?, hfields, hpackets.read, hsegments.read, absentOr_map restores_text,
      Option.bind_eq_bind, Option.bind_some]

end CaptureExtent

namespace Tool

theorem restores (t : Tool) :
    Restores ofJson? (.object [("name", .text t.name), ("version", .text t.version)]) t := by
  refine restores_present ["name", "version"]
    [some (.text t.name), some (.text t.version)] (by decide) rfl ?_ fun hfields => ?_
  · simp only [List.forall_mem_cons, Option.some.injEq, forall_eq']
    exact ⟨.text _, .text _, nofun⟩
  · simp only [ofJson?, hfields, (restores_text _).read, Option.bind_eq_bind, Option.bind_some]

end Tool

namespace Input

theorem restores (i : Input) :
    Restores ofJson? (.object [("path", .text i.path), ("bytes", .word64 i.bytes)]) i := by
  have hbytes := restores_word64 i.bytes
  refine restores_present ["path", "bytes"]
    [some (.text i.path), some (.word64 i.bytes)] (by decide) rfl ?_ fun hfields => ?_
  · simp only [List.forall_mem_cons, Option.some.injEq, forall_eq']
    exact ⟨.text _, hbytes.exact, nofun⟩
  · simp only [ofJson?, hfields, (restores_text _).read, hbytes.read, Option.bind_eq_bind,
      Option.bind_some]

end Input

/-! ## The report -/

namespace Report

theorem restores {r : Report} {v : Json} (h : r.toJson? = some v) : Restores ofJson? v r := by
  obtain ⟨sessions, hsessions, h⟩ := Option.bind_eq_some_iff.mp h
  obtain ⟨exchanges, hexchanges, h⟩ := Option.bind_eq_some_iff.mp h
  have hvalue : v = .object (present fieldNames
      [some (.natural r.reportVersion.toNat),
        some (.object [("name", .text r.tool.name), ("version", .text r.tool.version)]),
        some (.text r.generatedAt),
        some (.object [("path", .text r.input.path), ("bytes", .word64 r.input.bytes)]),
        r.captureSummary.map (·.toJson), some (.array sessions), some (.array exchanges),
        some (.array (r.throughput.map (·.toJson)))]) := by
    rw [← Option.some.inj h]
    cases r.captureSummary <;> rfl
  have hversion := restores_natural 4294967295 (n := r.reportVersion.toNat)
    (Nat.le_of_lt_succ r.reportVersion.toNat_lt) (by decide)
  have htool := r.tool.restores
  have hinput := r.input.restores
  obtain ⟨hsessionsExact, hsessionsRead⟩ :=
    mapM_restores (fun _ _ => SessionRecord.restores) hsessions
  obtain ⟨hexchangesExact, hexchangesRead⟩ :=
    mapM_restores (fun _ _ => ExchangeRecord.restores) hexchanges
  have hthroughput : r.throughput.mapM (fun t => some t.toJson) =
      some (r.throughput.map (·.toJson)) := by
    simpa using List.mapM_pure (m := Option) (l := r.throughput) (f := InterfaceTotals.toJson)
  obtain ⟨hthroughputExact, hthroughputRead⟩ :=
    mapM_restores (fun t v hv => Option.some.inj hv ▸ InterfaceTotals.restores t) hthroughput
  rw [hvalue]
  refine restores_present _ _ (by decide) rfl ?_ fun hfields => ?_
  · simp only [List.forall_mem_cons, Option.some.injEq, forall_eq']
    exact ⟨hversion.exact, htool.exact, .text _, hinput.exact, exact_map CaptureExtent.restores _,
      hsessionsExact, hexchangesExact, hthroughputExact, nofun⟩
  · simp only [ofJson?, hfields, hversion.read, htool.read, (restores_text _).read, hinput.read,
      absentOr_map CaptureExtent.restores, items?, hsessionsRead, hexchangesRead, hthroughputRead,
      Option.bind_eq_bind, Option.bind_some, UInt32.ofNat_toNat]

/-- Whatever text a report has, in either layout, it is read off that text. -/
theorem parse?_of_render? {layout : Json.Layout} {r : Report} {text : String}
    (h : r.render? layout = some text) : parse? text = some r := by
  obtain ⟨v, hv, rfl⟩ := Option.map_eq_some_iff.mp h
  have hr := restores hv
  rw [parse?, parse_render layout hr.exact]
  exact hr.read

end Report

/-! ## Reports that have a text -/

namespace Stamp

/-- A timestamp in UTC whose year has at most four digits. -/
structure IsPlain (s : Stamp) : Prop where
  utc : s.offset = 0
  year_nonneg : 0 ≤ (dateTime s.instant).1.year
  year_le : (dateTime s.instant).1.year ≤ 9999

theorem IsPlain.toJson? {s : Stamp} (h : s.IsPlain) : ∃ v, s.toJson? = some v := by
  have hwritten : s.rfc3339? ≠ none := by
    rw [Ne, rfc3339?_eq_none_iff, not_not, localNanoseconds_of_utc h.utc, h.utc]
    exact ⟨⟨h.year_nonneg, h.year_le⟩, rfl⟩
  obtain ⟨text, htext⟩ := Option.ne_none_iff_exists'.mp hwritten
  exact ⟨.text text, congrArg _ htext⟩

end Stamp

theorem SessionRecord.toJson?_of_isPlain {s : SessionRecord} (hfirst : s.firstSeen.IsPlain)
    (hlast : s.lastSeen.IsPlain) : ∃ v, s.toJson? = some v := by
  obtain ⟨first, hfirst⟩ := hfirst.toJson?
  obtain ⟨last, hlast⟩ := hlast.toJson?
  exact ⟨_, by rw [SessionRecord.toJson?, hfirst, hlast]; rfl⟩

theorem ExchangeRecord.toJson?_of_isPlain {e : ExchangeRecord} (h : e.requestedAt.IsPlain) :
    ∃ v, e.toJson? = some v := by
  obtain ⟨requested, hrequested⟩ := h.toJson?
  exact ⟨_, by rw [ExchangeRecord.toJson?, hrequested]; rfl⟩

namespace Report

/-- All timestamps of the sessions and the exchanges are plain. -/
structure IsPlain (r : Report) : Prop where
  sessions : ∀ s ∈ r.sessions, s.firstSeen.IsPlain ∧ s.lastSeen.IsPlain
  exchanges : ∀ e ∈ r.exchanges, e.requestedAt.IsPlain

theorem exists_mapM {α β : Type} {f : α → Option β} {as : List α} (h : ∀ a ∈ as, ∃ b, f a = some b) :
    ∃ bs, as.mapM f = some bs := by
  induction as with
  | nil => exact ⟨[], rfl⟩
  | cons a as ih =>
    obtain ⟨⟨b, hb⟩, has⟩ := List.forall_mem_cons.mp h
    obtain ⟨bs, hbs⟩ := ih has
    exact ⟨b :: bs, by rw [List.mapM_cons, hb, hbs]; rfl⟩

theorem IsPlain.toJson? {r : Report} (h : r.IsPlain) : ∃ v, r.toJson? = some v := by
  obtain ⟨sessions, hsessions⟩ := exists_mapM fun s hs =>
    SessionRecord.toJson?_of_isPlain (h.sessions s hs).1 (h.sessions s hs).2
  obtain ⟨exchanges, hexchanges⟩ := exists_mapM fun e he =>
    ExchangeRecord.toJson?_of_isPlain (h.exchanges e he)
  exact ⟨_, by rw [Report.toJson?, hsessions, hexchanges]; rfl⟩

/-- A report whose times are in UTC and in years of four digits can be written in either layout, and
either text is read as the report itself. -/
theorem render_parse (r : Report) (h : r.IsPlain) (layout : Json.Layout) :
    ∃ text, r.render? layout = some text ∧ parse? text = some r := by
  obtain ⟨v, hv⟩ := h.toJson?
  have htext : r.render? layout = some (v.render layout) := by rw [render?, hv, Option.map_some]
  exact ⟨_, htext, parse?_of_render? htext⟩

/-- A report with a session that has no protocol and an exchange that has no host, at the first and
the last nanosecond of the years that can be written. -/
theorem render_parse_extremes :
    let r : Report := { stub "a \"quoted\" path\n" 24 with
      sessions := [{
        client := "10.0.0.1:80", server := "[::1]:443", closeReason := .timeout
        firstSeen := .utc (-62167219200000000000), lastSeen := .utc 1500000000
        durationUs := -9223372036854775808, forward := ⟨18446744073709551615, 1⟩, backward := {}
        rtt := some ⟨1, 2, 3, 4, 5⟩, protocol := none, exchanges := 1 }]
      exchanges := [{
        client := "", server := "", protocol := "http", method := "GET", host := none
        target := "/", status := 200, requestedAt := .utc 253402300799999999999, latencyUs := 7 }]
      throughput := [⟨"eth0", ⟨1, 2, 3, 4⟩⟩] }
    r.IsPlain ∧ ∃ text, r.render? .indented = some text ∧ parse? text = some r := by
  intro r
  have hr : r.IsPlain := by
    constructor
    · intro s hs
      rw [List.mem_singleton.mp hs]
      exact ⟨⟨by decide, by decide, by decide⟩, ⟨by decide, by decide, by decide⟩⟩
    · intro e he
      rw [List.mem_singleton.mp he]
      exact ⟨by decide, by decide, by decide⟩
  exact ⟨hr, render_parse r hr .indented⟩

end Report

end FlowWatch
