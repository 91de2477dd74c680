/-
Flows are told apart by what is written about them.

The text of a flow is cut at its arrow into the texts of its endpoints, and these name the endpoints; so
every flow has a text of its own. Reports, the order of their records, and the lines of the log say of a
connection no more than such texts, and that is enough: what is said of one connection is never said of
another. The text of an IPv6 address leaves out zero groups, so it is also said here which ones: of all
runs of zero groups the longest, and of equally long ones the first.
-/
import FlowWatch.Observation.Line
import FlowWatch.Observation.Notice
import FlowWatch.Proofs.Flow.Endpoints
import FlowWatch.Proofs.Report.Order
import FlowWatch.Session.Basic

set_option autoImplicit false

namespace FlowWatch

open Text

namespace IPv6

/-! ## The groups that are left out -/

/-- From a place on, so many groups are zero. -/
def ZeroRun (ws : List UInt16) (place count : Nat) : Prop :=
  (ws.drop place).take count = List.replicate count 0

/-- The longest run of zero groups, and of equally long ones the first. -/
structure FirstLongest (ws : List UInt16) (place count : Nat) : Prop where
  run : ZeroRun ws place count
  longest : ∀ p n, ZeroRun ws p n → n ≤ count
  first : ∀ p, ZeroRun ws p count → place ≤ p

theorem zeroRun_head_iff (ws : List UInt16) (n : Nat) : ZeroRun ws 0 n ↔ n ≤ leadingZeros ws := by
  induction ws generalizing n with
  | nil => cases n <;> simp [ZeroRun, leadingZeros]
  | cons w ws ih =>
    rcases n with _ | n
    · simp [ZeroRun]
    · have hstep : ZeroRun (w :: ws) 0 (n + 1) ↔ w = 0 ∧ ZeroRun ws 0 n := by
        unfold ZeroRun
        rw [List.drop_zero, List.drop_zero, List.take_succ_cons, List.replicate_succ, List.cons.injEq]
      rw [hstep, ih, leadingZeros]
      by_cases hw : w = 0 <;> simp [hw]

/-- **The run that is found is the first of the longest ones.** -/
theorem firstLongest_longestZeroRun (start : Nat) (ws : List UInt16) :
    ∃ place, (longestZeroRun start ws).1 = start + place ∧
      FirstLongest ws place (longestZeroRun start ws).2 := by
  induction ws generalizing start with
  | nil =>
    refine ⟨0, rfl, rfl, fun p n h => ?_, fun p _ => Nat.zero_le p⟩
    unfold ZeroRun at h
    have hlength := congrArg List.length h
    rw [List.drop_nil, List.take_nil, List.length_replicate] at hlength
    exact hlength.symm.le
  | cons w ws ih =>
    obtain ⟨place, hstart, hrun⟩ := ih (start + 1)
    have hhead := zeroRun_head_iff (w :: ws)
    rw [longestZeroRun]
    split_ifs with hle
    · -- The run at the head is at least as long as any later one.
      refine ⟨0, rfl, (hhead _).mpr (Nat.le_refl _), fun p n h => ?_, fun p _ => Nat.zero_le p⟩
      rcases p with _ | p
      · exact (hhead n).mp h
      · exact (hrun.longest p n h).trans hle
    · refine ⟨place + 1, by rw [hstart]; omega, hrun.run, fun p n h => ?_, fun p h => ?_⟩
      · rcases p with _ | p
        · exact ((hhead n).mp h).trans (by omega)
        · exact hrun.longest p n h
      · rcases p with _ | p
        · exact absurd ((hhead _).mp h) hle
        · exact Nat.succ_le_succ (hrun.first p h)

theorem FirstLongest.unique {ws : List UInt16} {p q m n : Nat} (hp : FirstLongest ws p m)
    (hq : FirstLongest ws q n) : p = q ∧ m = n := by
  obtain rfl : m = n := Nat.le_antisymm (hq.longest p m hp.run) (hp.longest q n hq.run)
  exact ⟨Nat.le_antisymm (hp.first q hq.run) (hq.first p hp.run), rfl⟩

/-- The text of an address: an embedded IPv4 address is shown as such, else a double colon stands for the
longest run of two zero groups or more, and else all groups are written. -/
inductive Printed (ip : IPv6) : List Char → Prop where
  | mapped {v4 : IPv4} (h : ip.mapped? = some v4) : Printed ip ("::ffff:".toList ++ v4.text)
  | compressed {place count : Nat} (h : ip.mapped? = none) (hcount : 2 ≤ count)
    (hrun : FirstLongest ip.groups place count) :
    Printed ip (groupsText (ip.groups.take place) ++ ':' :: ':' ::
      groupsText (ip.groups.drop (place + count)))
  | full (h : ip.mapped? = none) (hruns : ∀ place, ¬ZeroRun ip.groups place 2) :
    Printed ip (groupsText ip.groups)

/-- **The text of an address follows the rules**, and there is no other text that does. -/
theorem printed_iff (ip : IPv6) (text : List Char) : ip.Printed text ↔ text = ip.text := by
  obtain ⟨place, hplace, hrun⟩ := firstLongest_longestZeroRun 0 ip.groups
  rw [Nat.zero_add] at hplace
  unfold IPv6.text
  -- Of the run that is found it is only used that it is the first of the longest.
  generalize longestZeroRun 0 ip.groups = found at hplace hrun ⊢
  obtain ⟨start, count⟩ := found
  obtain rfl : start = place := hplace
  dsimp only at hrun ⊢
  constructor
  · intro h
    cases h with
    | mapped h => rw [h]
    | compressed h hcount hother =>
      obtain ⟨rfl, rfl⟩ := hother.unique hrun
      rw [h]
      exact (if_pos hcount).symm
    | full h hruns =>
      have hshort : ¬2 ≤ count := by
        intro hlong
        have htwo := congrArg (List.take 2) hrun.run
        rw [List.take_take, List.take_replicate, Nat.min_eq_left hlong] at htwo
        exact hruns start htwo
      rw [h]
      exact (if_neg hshort).symm
  · rintro rfl
    rcases h : ip.mapped? with _ | v4
    · dsimp only
      split_ifs with hlong
      · exact .compressed h hlong hrun
      · exact .full h fun p hp => hlong (hrun.longest p 2 hp)
    · exact .mapped h

/-- Of two runs of the same length the first is left out. -/
example : (⟨0x2001, 0xDB8, 0, 0, 1, 0, 0, 1⟩ : IPv6).text = "2001:db8::1:0:0:1".toList := by
  decide +kernel

end IPv6

/-! ## Texts of flows -/

/-- Only digits and the marks between them stand in the text of an endpoint. -/
theorem Address.not_mem_endpoint {c : Char} (hc : hexDigit? c = none)
    (hmarks : c ∉ ([':', '.', '[', ']'] : List Char)) (a : Address) (port : UInt16) :
    c ∉ a.endpoint port := by
  simp only [List.mem_cons, List.not_mem_nil, or_false, not_or] at hmarks
  obtain ⟨hcolon, hpoint, hopen, hclose⟩ := hmarks
  have hport := not_mem_decimal (isDigit_eq_false hc) port.toNat
  cases a with
  | v4 ip =>
    rw [endpoint, List.mem_append, List.mem_cons, not_or, not_or]
    exact ⟨IPv4.not_mem_text (isDigit_eq_false hc) hpoint ip, hcolon, hport⟩
  | v6 ip =>
    simp only [endpoint, List.cons_append, List.mem_cons, List.mem_append, not_or]
    exact ⟨hopen, IPv6.not_mem_text hc hcolon hpoint ip, hclose, hcolon, hport⟩

namespace Flow

theorem toList_text (f : Flow) :
    f.text.toList = f.src.endpoint f.srcPort ++ '-' :: '>' :: f.dst.endpoint f.dstPort := by
  unfold text sender receiver
  simp

/-- **A flow is known by its text.** -/
theorem text_injective : Function.Injective text := by
  intro f g h
  have hdash : ∀ (a : Address) (port : UInt16), '-' ∉ a.endpoint port :=
    Address.not_mem_endpoint rfl (by decide)
  have hlist := congrArg String.toList h
  rw [toList_text, toList_text] at hlist
  obtain ⟨hsender, hreceiver⟩ := eq_of_cut (hdash _ _) (hdash _ _) hlist
  exact eq_of_texts (congrArg String.ofList hsender)
    (congrArg String.ofList (List.cons.inj hreceiver).2)

theorem space_not_mem_text (f : Flow) : ' ' ∉ f.text.toList := by
  have hspace : ∀ (a : Address) (port : UInt16), ' ' ∉ a.endpoint port :=
    Address.not_mem_endpoint rfl (by decide)
  rw [toList_text, List.mem_append, List.mem_cons, List.mem_cons, not_or, not_or, not_or]
  exact ⟨hspace _ _, by decide, by decide, hspace _ _⟩

/-- A text in brackets, set off by a space, names the flow whatever follows. -/
theorem eq_of_bracketed {f g : Flow} {xs ys : List Char}
    (h : '[' :: f.text.toList ++ ']' :: ' ' :: xs = '[' :: g.text.toList ++ ']' :: ' ' :: ys) :
    f = g := by
  have hspace : ∀ f : Flow, ' ' ∉ f.text.toList ++ [']'] := by
    intro f
    rw [List.mem_append, List.mem_singleton, not_or]
    exact ⟨f.space_not_mem_text, by decide⟩
  have hcut : (f.text.toList ++ [']']) ++ ' ' :: xs = (g.text.toList ++ [']']) ++ ' ' :: ys := by
    rw [List.append_assoc, List.append_assoc]
    exact (List.cons.inj h).2
  obtain ⟨hbrackets, -⟩ := eq_of_cut (hspace f) (hspace g) hcut
  exact text_injective (String.toList_inj.mp (List.append_cancel_right hbrackets))

end Flow

/-! ## What is written about a connection -/

/-- The lines of the log about a flow: its session when it is closed, its exchanges, and what the ticks of
its session find. -/
inductive Line.About : Flow → String → Prop where
  | session (s : Session) (reason : CloseReason) : About s.key (Line.session (s.summary reason))
  | exchange (f : Flow) (e : Exchange) : About f (Line.exchange f e)
  | traffic (f : Flow) (direction : Direction) (delta total : Traffic) {line : String}
    (h : (Notice.sessionTraffic f direction delta total).tickLine? = some line) : About f line
  | purge (f : Flow) (entries : Nat) {line : String}
    (h : (Notice.cachePurged f entries).tickLine? = some line) : About f line

/-- Every line about a flow begins with its text in brackets. -/
theorem Line.About.bracketed {f : Flow} {line : String} (h : Line.About f line) :
    ∃ rest, line.toList = '[' :: f.text.toList ++ ']' :: ' ' :: rest := by
  cases h with
  | session s reason =>
    unfold Line.session Flow.text
    simp only [String.append_assoc, String.toList_append, List.cons_append, List.append_assoc]
    exact ⟨_, rfl⟩
  | exchange f e =>
    unfold Line.exchange
    simp only [String.append_assoc, String.toList_append]
    exact ⟨_, rfl⟩
  | traffic f direction delta total h =>
    simp only [Notice.tickLine?, Option.some.injEq] at h
    rw [← h]
    simp only [String.append_assoc, String.toList_append]
    exact ⟨_, rfl⟩
  | purge f entries h =>
    simp only [Notice.tickLine?, Option.some.injEq] at h
    rw [← h]
    simp only [String.append_assoc, String.toList_append]
    exact ⟨_, rfl⟩

/-- Records of one place are of one connection. -/
theorem Report.eq_of_place {t u : Instant} {f g : Flow}
    (h : place t f.sender f.receiver = place u g.sender g.receiver) : f = g := by
  simp only [place, EmbeddingLike.apply_eq_iff_eq, Prod.mk.injEq] at h
  exact Flow.eq_of_texts h.2.1 h.2.2

/-- **Texts tell flows apart.** No two flows have one text, nor the same pair of endpoint texts, where the
text of an IPv6 address is the one that its rules say. So sessions that are sorted to one place are of one
connection, and so are exchanges; and no line of the log is about two flows. -/
theorem Flow.named_apart :
    (∀ f g : Flow, f.text = g.text → f = g) ∧
      (∀ f g : Flow, f.sender = g.sender → f.receiver = g.receiver → f = g) ∧
      (∀ (ip : IPv6) (text : List Char), ip.Printed text ↔ text = ip.text) ∧
      (∀ (s t : Session) (q r : CloseReason),
        Report.sessionPlace (s.summary q) = Report.sessionPlace (t.summary r) → s.key = t.key) ∧
      (∀ (f g : Flow) (d e : Exchange),
        Report.exchangePlace (.of f d) = Report.exchangePlace (.of g e) → f = g) ∧
      ∀ (f g : Flow) (line : String), Line.About f line → Line.About g line → f = g := by
  refine ⟨fun f g h => text_injective h, fun f g => eq_of_texts, IPv6.printed_iff,
    fun s t q r h => Report.eq_of_place h, fun f g d e h => Report.eq_of_place h,
    fun f g line hf hg => ?_⟩
  obtain ⟨xs, hxs⟩ := hf.bracketed
  obtain ⟨ys, hys⟩ := hg.bracketed
  exact eq_of_bracketed (hxs.symm.trans hys)

end FlowWatch
