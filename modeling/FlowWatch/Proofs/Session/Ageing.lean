/-
How old a send may be that is answered.

Every input of a session is at most one call to its cache: a segment of the client pushes, a segment of
the server pulls and a tick purges (`cache_replay`). A push and a purge tell the time and drop what is too
old by then. A pull does neither: it answers with what is there. So a sample is not bounded by the
greatest age alone; it may also have aged since time was last told, and on a path of its own from the
client to the server, with no tick in between, as long as the server takes.
-/
import FlowWatch.Http.Decoding
import FlowWatch.Proofs.SeqCache.Answers
import FlowWatch.Proofs.SeqCache.Expiry
import FlowWatch.Proofs.Session.Samples

set_option autoImplicit false

namespace FlowWatch

namespace Lifecycle

/-- The call that an input makes to the cache of its session. -/
def Input.cacheCall? (session : Session) : Input → Option CacheCall
  | .segment s =>
    match session.route s.flow with
    | some .clientToServer => some (.push ⟨session.key, s.coveringAck⟩ s.seen)
    | some .serverToClient => some (.pull ⟨session.key, s.ack⟩)
    | none => none
  | .tick now => now.map .purge

/-- The calls that a list of inputs makes. -/
def cacheCalls (session : Session) (inputs : List Input) : List CacheCall :=
  inputs.filterMap (Input.cacheCall? session)

/-- The times that a list of inputs tells the cache: those of the client's segments and of the ticks. -/
def timesTold (session : Session) (inputs : List Input) : List Instant :=
  (cacheCalls session inputs).filterMap CacheCall.time?

/-- The sample that an input records: the time since the send that the cache answers with, unless it is
negative. -/
def sample? (l : Lifecycle) : Input → Option Span
  | .segment s =>
    match l.session.route s.flow, (l.cache.pull ⟨l.session.key, s.ack⟩).2 with
    | some .serverToClient, .ok (some sent) =>
      if s.seen - sent < 0 then none else some (s.seen - sent)
    | _, _ => none
  | .tick _ => none

/-- The sample recorded at place `r` of the inputs. -/
def sampleAt? (config : Config) (registry : Registry) (l : Lifecycle) (inputs : List Input)
    (r : Nat) : Option Span :=
  inputs[r]?.bind (l.after config registry inputs r).sample?

/-- The samples recorded at the places of the inputs, in their order. -/
def samples (config : Config) (registry : Registry) (l : Lifecycle) (inputs : List Input) :
    List Span :=
  (List.range inputs.length).filterMap (l.sampleAt? config registry inputs)

variable (config : Config) (registry : Registry) (counters : Counters) {l : Lifecycle}

/-! ## One turn -/

/-- A turn does to the cache and to the statistics what the input's call does. -/
theorem sampling_of_routed (hl : l.session.TwoSided) {s : Segment} {d : Direction}
    (hroute : l.session.route s.flow = some d) :
    (l.turn config registry counters (.segment s)).next.cache =
        l.cache.after (Input.cacheCall? l.session (.segment s)).toList ∧
      (l.turn config registry counters (.segment s)).next.session.rtt =
        (l.sample? (.segment s)).elim l.session.rtt l.session.rtt.add := by
  obtain ⟨-, hrtt, hcache, -⟩ :=
    Session.receiveOn_of_twoSided config registry hl l.cache counters d s
  rw [turn_of_routed config registry counters hroute]
  dsimp only at hrtt hcache ⊢
  rw [hrtt, hcache]
  unfold Side.sample Input.cacheCall? sample?
  dsimp only
  rw [hl.direction_eq d, hroute]
  cases d with
  | clientToServer =>
    rw [show (l.session.side .clientToServer).key = l.session.key from hl.forward_key]
    show _ = (l.cache.push _ _).1 ∧ _ = l.session.rtt
    dsimp only
    rcases l.cache.push ⟨l.session.key, s.coveringAck⟩ s.seen with ⟨c, _ | _⟩ <;> exact ⟨rfl, rfl⟩
  | serverToClient =>
    rw [show (l.session.side .serverToClient).key.reverse = l.session.key from
      congrArg Flow.reverse hl.backward_key]
    show _ = (l.cache.pull _).1 ∧ _
    dsimp only
    rcases l.cache.pull ⟨l.session.key, s.ack⟩ with ⟨c, _ | _ | sent⟩
    · exact ⟨rfl, rfl⟩
    · exact ⟨rfl, rfl⟩
    · refine ⟨rfl, ?_⟩
      dsimp only
      split_ifs with hneg
      · exact RoundTrips.add_of_neg _ hneg
      · rfl

theorem cache_turn (hl : l.session.TwoSided) (input : Input) :
    (l.turn config registry counters input).next.cache =
      l.cache.after (input.cacheCall? l.session).toList := by
  cases input with
  | segment s =>
    rcases hroute : l.session.route s.flow with _ | d
    · rw [turn_of_unrouted config registry counters hroute]
      unfold Input.cacheCall?
      dsimp only
      rw [hroute]
      rfl
    · exact (sampling_of_routed config registry counters hl hroute).1
  | tick now =>
    unfold turn Session.tick
    rcases now with _ | now <;> rfl

theorem rtt_turn (hl : l.session.TwoSided) (input : Input) :
    (l.turn config registry counters input).next.session.rtt =
      (l.sample? input).elim l.session.rtt l.session.rtt.add := by
  cases input with
  | segment s =>
    rcases hroute : l.session.route s.flow with _ | d
    · rw [turn_of_unrouted config registry counters hroute]
      unfold sample?
      dsimp only
      rw [hroute]
      rfl
    · exact (sampling_of_routed config registry counters hl hroute).2
  | tick now =>
    unfold turn Session.tick
    rcases now with _ | now <;> rfl

/-! ## A whole lifecycle -/

theorem Input.cacheCall?_congr {s t : Session} (h : t.key = s.key) (input : Input) :
    input.cacheCall? t = input.cacheCall? s := by
  cases input with
  | segment segment =>
    unfold cacheCall?
    dsimp only
    rw [Session.route_congr h, h]
  | tick now => rfl

/-- **The cache of a session is made by its inputs alone.** -/
theorem cache_replay (hl : l.session.TwoSided) (inputs : List Input) :
    (l.replay config registry inputs).1.cache = l.cache.after (cacheCalls l.session inputs) := by
  induction inputs using List.reverseRecOn with
  | nil => rfl
  | append_singleton inputs input ih =>
    have hkey := key_replay config registry (l := l) inputs
    have hcalls : cacheCalls l.session (inputs ++ [input]) =
        cacheCalls l.session inputs ++ (input.cacheCall? l.session).toList := by
      unfold cacheCalls
      rw [List.filterMap_append, List.filterMap_eq_flatMap_toList _ [input], List.flatMap_singleton]
    rw [replay_append, hcalls, SeqCache.after, List.foldl_append]
    exact (cache_turn config registry {} (twoSided_replay config registry hl inputs) input).trans
      (by rw [ih, Input.cacheCall?_congr hkey]; rfl)

/-- **The statistics are made of the samples.** -/
theorem rtt_replay (hl : l.session.TwoSided) (inputs : List Input) :
    (l.replay config registry inputs).1.session.rtt =
      (l.samples config registry inputs).foldl RoundTrips.add l.session.rtt := by
  induction inputs using List.reverseRecOn with
  | nil => rfl
  | append_singleton inputs input ih =>
    have hbefore : ∀ r ∈ List.range inputs.length,
        l.sampleAt? config registry (inputs ++ [input]) r = l.sampleAt? config registry inputs r := by
      intro r hr
      have hlt := List.mem_range.mp hr
      unfold sampleAt?
      rw [List.getElem?_append_left hlt, after_append (Nat.le_of_lt hlt)]
    have hlast : l.sampleAt? config registry (inputs ++ [input]) inputs.length =
        (l.replay config registry inputs).1.sample? input := by
      unfold sampleAt?
      rw [List.getElem?_concat_length, after_append (Nat.le_refl _), after_of_le (Nat.le_refl _)]
      rfl
    have hsamples : l.samples config registry (inputs ++ [input]) =
        l.samples config registry inputs ++
          ((l.replay config registry inputs).1.sample? input).toList := by
      unfold samples
      rw [List.length_append, List.length_singleton, List.range_succ, List.filterMap_append,
        List.filterMap_congr hbefore, List.filterMap_eq_flatMap_toList _ [inputs.length],
        List.flatMap_singleton, hlast]
    have hturn := rtt_turn config registry {} (twoSided_replay config registry hl inputs) input
    rw [replay_append, hsamples, List.foldl_append, ← ih]
    refine hturn.trans ?_
    rcases (l.replay config registry inputs).1.sample? input with _ | x <;> rfl

/-! ## The age of a sample -/

theorem sample?_eq_some_iff {input : Input} {x : Span} :
    l.sample? input = some x ↔
      ∃ s sent, input = .segment s ∧ l.session.route s.flow = some .serverToClient ∧
        (l.cache.pull ⟨l.session.key, s.ack⟩).2 = .ok (some sent) ∧ x = s.seen - sent ∧ 0 ≤ x := by
  constructor
  · intro h
    cases input with
    | segment s =>
      unfold sample? at h
      dsimp only at h
      split at h
      · rename_i sent hroute hanswer
        split_ifs at h with hneg
        obtain rfl := Option.some.inj h
        exact ⟨s, sent, rfl, hroute, hanswer, rfl, Int.not_lt.mp hneg⟩
      · exact absurd h (by simp)
    | tick now => exact absurd h (by simp [sample?])
  · rintro ⟨s, sent, rfl, hroute, hanswer, rfl, hpos⟩
    unfold sample?
    dsimp only
    rw [hroute, hanswer]
    exact if_neg (Int.not_lt.mpr hpos)

/-- A cache that knows when time was told last answers with nothing that was too old by then. -/
theorem age_of_answer {maxAge : Span} (hmax : 0 ≤ maxAge) {calls : List CacheCall}
    (htimes : (calls.filterMap CacheCall.time?).Pairwise (· ≤ ·)) {key : StreamPoint} {sent : Instant}
    (hanswer : (((SeqCache.new (some maxAge)).after calls).pull key).2 = .ok (some sent)) :
    ∀ t ∈ calls.filterMap CacheCall.time?, t - sent ≤ maxAge := by
  have hc := SeqCache.reflects_after (some maxAge) calls
  have hage := RecencyList.age_le hmax htimes
  generalize (RecencyList.empty (some maxAge)).after calls = m at hc hage
  have hpull := (hc.pull key).2.symm.trans hanswer
  have hopen : m.closed = false := by
    by_contra hclosed
    unfold RecencyList.pull at hpull
    rw [if_pos (by simpa using hclosed)] at hpull
    exact absurd hpull (by simp)
  obtain ⟨e, he, rfl, -⟩ := RecencyList.pull_answer hc.keys_nodup hopen hpull
  exact fun t ht => hage t ht e he

/-- **How old a sample may be.** In a session with a greatest age, whose times are told in order, the
statistics are made of the samples. Each is recorded by a segment of the server and never negative, and it
exceeds the greatest age by no more than has passed since the client's segments and the ticks before
it. -/
theorem sample_ages (key : Flow) (now : Instant) {maxAge : Span}
    (hage : config.rttMaxAge = some maxAge) (inputs : List Input)
    (htimes : (timesTold (Session.new key now) inputs).Pairwise (· ≤ ·)) :
    let l := begin config key now
    (l.replay config registry inputs).1.session.rtt =
        (l.samples config registry inputs).foldl RoundTrips.add {} ∧
      ∀ r x, l.sampleAt? config registry inputs r = some x →
        ∃ answer, l.segmentAt? .serverToClient inputs r = some answer ∧ 0 ≤ x ∧
          ∀ t ∈ timesTold l.session (inputs.take r), x ≤ maxAge + (answer.seen - t) := by
  intro l
  have htwo : l.session.TwoSided := .new key now
  have hmax : 0 ≤ maxAge := by
    unfold Config.rttMaxAge at hage
    split_ifs at hage
    rw [← Option.some.inj hage]
    exact Int.mul_nonneg (le_min (Int.natCast_nonneg _) (by decide)) (by decide)
  refine ⟨rtt_replay config registry htwo inputs, fun r x hx => ?_⟩
  obtain ⟨input, hinput, hsample⟩ := Option.bind_eq_some_iff.mp hx
  obtain ⟨answer, sent, rfl, hroute, hanswer, rfl, hpos⟩ := sample?_eq_some_iff.mp hsample
  have hkey : (l.after config registry inputs r).session.key = l.session.key :=
    key_replay config registry (inputs.take r)
  have hcache : (l.after config registry inputs r).cache =
      (SeqCache.new (some maxAge)).after (cacheCalls l.session (inputs.take r)) := by
    rw [← hage]
    exact cache_replay config registry htwo (inputs.take r)
  rw [hcache] at hanswer
  have hbefore : (timesTold l.session (inputs.take r)).Pairwise (· ≤ ·) :=
    htimes.sublist (((List.take_sublist r inputs).filterMap _).filterMap _)
  refine ⟨answer, ?_, hpos, fun t ht => ?_⟩
  · unfold segmentAt?
    rw [hinput]
    exact if_pos ((Session.route_congr hkey answer.flow).symm.trans hroute)
  · have hold : t - sent ≤ maxAge := age_of_answer hmax hbefore hanswer t ht
    calc answer.seen - sent
      _ = t - sent + (answer.seen - t) := (sub_add_sub_cancel' t sent answer.seen).symm
      _ ≤ maxAge + (answer.seen - t) := Int.add_le_add_right hold _

/-- What a segment of the server records after some inputs, by the list that these make. -/
theorem sample?_begin (key : Flow) (now sent : Instant) (inputs : List Input) (s : Segment)
    (hroute : (Session.new key now).route s.flow = some .serverToClient)
    (hpull : (((RecencyList.empty config.rttMaxAge).after
      (cacheCalls (Session.new key now) inputs)).pull ⟨key, s.ack⟩).2 = .ok (some sent))
    (hpos : 0 ≤ s.seen - sent) :
    ((begin config key now).replay config registry inputs).1.sample? (.segment s) =
      some (s.seen - sent) := by
  have hkey := key_replay config registry (l := begin config key now) inputs
  have hcache := cache_replay config registry (l := begin config key now) (.new key now) inputs
  have hanswer := ((SeqCache.reflects_after config.rttMaxAge
    (cacheCalls (Session.new key now) inputs)).pull ⟨key, s.ack⟩).2.trans hpull
  refine sample?_eq_some_iff.mpr ⟨s, sent, rfl, ?_, ?_, rfl, hpos⟩
  · rw [Session.route_congr hkey]
    exact hroute
  · rw [hkey, hcache]
    exact hanswer

/-- A server that answers after a second and a half, nine tenths after a tick. -/
theorem sample_ages_after_tick :
    let f : Flow := ⟨.v4 ⟨10, 0, 0, 1⟩, 40000, .v4 ⟨10, 0, 0, 2⟩, 80⟩
    let config : Config := { rttMaxAgeMs := 1000 }
    let opening : Segment := ⟨f, { syn := true }, 100, 0, [], 1700000000000000000⟩
    let answer : Segment :=
      ⟨f.reverse, { syn := true, ack := true }, 500, 101, [], 1700000001500000000⟩
    let inputs : List Input :=
      [.segment opening, .tick (some 1700000000600000000), .segment answer]
    let l := begin config f opening.seen
    config.rttMaxAge = some 1000000000 ∧ (timesTold l.session inputs).Pairwise (· ≤ ·) ∧
      l.sampleAt? config .standard inputs 2 = some 1500000000 ∧
      (1500000000 : Span) ≤ 1000000000 + (answer.seen - 1700000000600000000) := by
  intro f config opening answer inputs l
  have hage : config.rttMaxAge = some 1000000000 := by decide
  have htimes : (timesTold l.session inputs).Pairwise (· ≤ ·) := by decide
  have hsample : l.sampleAt? config .standard inputs 2 = some 1500000000 :=
    sample?_begin config .standard f opening.seen opening.seen (inputs.take 2) answer (by decide)
      (by decide) (by decide)
  obtain ⟨-, hages⟩ := sample_ages config .standard f opening.seen hage inputs htimes
  obtain ⟨s, hs, -, hbound⟩ := hages 2 _ hsample
  obtain rfl : answer = s := Option.some.inj hs
  exact ⟨hage, htimes, hsample, hbound 1700000000600000000 (by decide)⟩

/-- With neither a tick nor a segment of the client in between, the greatest age does not bound a sample:
here it is one second, and the server takes two. -/
theorem sample_older_than_maxAge :
    let f : Flow := ⟨.v4 ⟨10, 0, 0, 1⟩, 40000, .v4 ⟨10, 0, 0, 2⟩, 80⟩
    let config : Config := { rttMaxAgeMs := 1000 }
    let opening : Segment := ⟨f, { syn := true }, 100, 0, [], 1700000000000000000⟩
    let answer : Segment :=
      ⟨f.reverse, { syn := true, ack := true }, 500, 101, [], 1700000002000000000⟩
    let inputs : List Input := [.segment opening, .segment answer]
    let l := begin config f opening.seen
    config.rttMaxAge = some 1000000000 ∧ l.samples config .standard inputs = [2000000000] ∧
      (l.replay config .standard inputs).1.session.rtt.max = 2000000000 := by
  intro f config opening answer inputs l
  have hfirst : l.sampleAt? config .standard inputs 0 = none := rfl
  have hsample : l.sampleAt? config .standard inputs 1 = some 2000000000 :=
    sample?_begin config .standard f opening.seen opening.seen (inputs.take 1) answer (by decide)
      (by decide) (by decide)
  have hsamples : l.samples config .standard inputs = [2000000000] := by
    show ([0, 1] : List Nat).filterMap _ = _
    rw [List.filterMap_cons_none hfirst, List.filterMap_cons_some hsample, List.filterMap_nil]
  have hrtt := rtt_replay config .standard (l := l) (.new f opening.seen) inputs
  rw [hsamples] at hrtt
  exact ⟨by decide, hsamples, by rw [hrtt]; rfl⟩

end Lifecycle

end FlowWatch
