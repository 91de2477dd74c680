/-
The clock of a packet is that of its own interface.

A reader of blocks keeps a table of the interfaces that the section has described so far. Here the interface
of a packet is told from the blocks before it alone: the last section header is found, and from there on
the descriptions are counted (`Describes`). `tableAfter` is what the table is after some blocks, and it
holds exactly these descriptions, so a packet gets the clock of the description that its number says, or
the default clock if there is none.

A reader is asked for one packet at a time, and keeps the table between two calls. `Reader` is what it
keeps, and its calls answer with the packets one by one, so where the calls fall has no say in the clocks.
-/
import FlowWatch.Capture.Block
import Mathlib.Algebra.Group.Nat.Defs
import Mathlib.Data.List.DropRight
import Mathlib.Data.List.Forall2

set_option autoImplicit false

namespace FlowWatch.Capture

namespace Block

/-! ## The interface of a packet -/

def isSection : Block → Bool
  | .section _ => true
  | _ => false

def isInterface : Block → Bool
  | .interface .. => true
  | _ => false

def isPacket : Block → Bool
  | .packet .. => true
  | _ => false

/-- What an interface description tells about its packets. -/
structure Description where
  link : Frame.LinkType
  resolution : UInt8
  offset : Int
  deriving DecidableEq, Repr

/-- The units per second that a resolution asks for: a power of two if the high bit is set, else of ten. -/
def unitsAsked (resolution : UInt8) : Nat :=
  if 128 ≤ resolution.toNat then 2 ^ (resolution.toNat - 128) else 10 ^ resolution.toNat

namespace Description

/-- The block of a description. -/
def block (d : Description) : Block := .interface d.link d.resolution d.offset

/-- The clock of a description. Units whose number does not fit 64 bits are not supported, and count as
microseconds. -/
def clock (d : Description) : Clock :=
  ⟨d.link, if unitsAsked d.resolution < 2 ^ 64 then unitsAsked d.resolution else 1000000, d.offset⟩

end Description

/-- The blocks since the last section header, or all of them if there is none. -/
def sinceSection (before : List Block) : List Block := before.rtakeWhile (!·.isSection)

/-- Among the blocks since the last section header, `d` is the description with the number `id`. -/
def Describes (before : List Block) (id : Nat) (d : Description) : Prop :=
  ∃ own later, sinceSection before = own ++ d.block :: later ∧ own.countP isInterface = id

/-- The clock of a packet of the interface `id`, after some blocks. -/
inductive ClockOf (before : List Block) (id : Nat) : Clock → Prop where
  | described {d : Description} (h : Describes before id d) : ClockOf before id d.clock
  | missing (h : ∀ d, ¬ Describes before id d) : ClockOf before id ⟨Frame.linkEthernet, 1000000, 0⟩

/-- The block at a place is a packet, and the event is that packet by the clock of its interface. -/
def IsEventAt (blocks : List Block) (place : Nat) (e : Event) : Prop :=
  ∃ id high low data clock, blocks[place]? = some (.packet id high low data) ∧
    ClockOf (blocks.take place) id clock ∧ e = ⟨unitsTime clock high low, clock.link, data⟩

/-- Where the packets are among some blocks. -/
def packetPlaces (blocks : List Block) : List Nat :=
  (List.range blocks.length).filter fun place => blocks[place]?.any isPacket

/-! ## The table -/

/-- The description in a block. -/
def description? : Block → Option Description
  | .interface link resolution offset => some ⟨link, resolution, offset⟩
  | _ => none

/-- The descriptions since the last section header. -/
def tableAfter (before : List Block) : List Description :=
  (sinceSection before).filterMap description?

theorem description?_eq_some {b : Block} {d : Description} :
    b.description? = some d ↔ b = d.block := by
  obtain ⟨link, resolution, offset⟩ := d
  cases b <;> simp [description?, Description.block]

theorem sinceSection_append_singleton (before : List Block) (b : Block) :
    sinceSection (before ++ [b]) = if b.isSection then [] else sinceSection before ++ [b] := by
  unfold sinceSection
  rw [List.rtakeWhile_concat]
  cases b.isSection <;> rfl

theorem countP_isInterface (blocks : List Block) :
    blocks.countP isInterface = (blocks.filterMap description?).length := by
  induction blocks with
  | nil => rfl
  | cons b blocks ih =>
    rw [List.countP_cons, List.filterMap_cons, ih]
    cases b <;> rfl

/-- The place of a value in a filtered list is the number of values before it. -/
theorem getElem?_filterMap_eq_some {α β : Type} {f : α → Option β} {xs : List α} {n : Nat} {y : β} :
    (xs.filterMap f)[n]? = some y ↔
      ∃ own x later, xs = own ++ x :: later ∧ f x = some y ∧ (own.filterMap f).length = n := by
  constructor
  · intro h
    induction xs generalizing n with
    | nil => simp at h
    | cons x xs ih =>
      rcases hx : f x with _ | z
      · rw [List.filterMap_cons_none hx] at h
        obtain ⟨own, w, later, rfl, hw, hlength⟩ := ih h
        exact ⟨x :: own, w, later, rfl, hw, by rw [List.filterMap_cons_none hx, hlength]⟩
      · rw [List.filterMap_cons_some hx] at h
        rcases n with _ | n
        · exact ⟨[], x, xs, rfl, hx.trans h, rfl⟩
        · obtain ⟨own, w, later, rfl, hw, hlength⟩ := ih h
          exact ⟨x :: own, w, later, rfl, hw, by
            rw [List.filterMap_cons_some hx, List.length_cons, hlength]⟩
  · rintro ⟨own, x, later, rfl, hx, rfl⟩
    rw [List.filterMap_append, List.filterMap_cons_some hx, List.getElem?_append_right le_rfl,
      Nat.sub_self, List.getElem?_cons_zero]

/-- **The table holds what is described**, each description at its number. -/
theorem describes_iff {before : List Block} {id : Nat} {d : Description} :
    Describes before id d ↔ (tableAfter before)[id]? = some d := by
  unfold Describes tableAfter
  rw [getElem?_filterMap_eq_some]
  constructor
  · rintro ⟨own, later, heq, rfl⟩
    exact ⟨own, d.block, later, heq, description?_eq_some.mpr rfl, (countP_isInterface own).symm⟩
  · rintro ⟨own, b, later, heq, hb, rfl⟩
    obtain rfl := description?_eq_some.mp hb
    exact ⟨own, later, heq, countP_isInterface own⟩

theorem pow_two_lt_iff {n : Nat} : 2 ^ n < 2 ^ 64 ↔ n < 64 :=
  Nat.pow_lt_pow_iff_right (by decide)

theorem pow_ten_lt_iff {n : Nat} : 10 ^ n < 2 ^ 64 ↔ n < 20 := by
  constructor
  · intro h
    by_contra hn
    have hle : 10 ^ 20 ≤ 10 ^ n := Nat.pow_le_pow_right (by decide) (Nat.not_lt.mp hn)
    exact absurd (hle.trans_lt h) (by decide)
  · intro hn
    have hle : 10 ^ n ≤ 10 ^ 19 := Nat.pow_le_pow_right (by decide) (Nat.le_of_lt_succ hn)
    exact hle.trans_lt (by decide)

theorem clock_eq (d : Description) : Block.clock d.link d.resolution d.offset = d.clock := by
  have hunits : (unitsPerSecond? d.resolution).getD defaultUnits =
      if unitsAsked d.resolution < 2 ^ 64 then unitsAsked d.resolution else 1000000 := by
    have hr := d.resolution.toNat_lt
    unfold unitsPerSecond? unitsAsked
    by_cases hbinary : 128 ≤ d.resolution.toNat
    · have hexponent : d.resolution.toNat % 128 = d.resolution.toNat - 128 := by omega
      simp only [if_pos hbinary, hexponent, pow_two_lt_iff]
      split_ifs <;> rfl
    · have hexponent : d.resolution.toNat % 128 = d.resolution.toNat := by omega
      simp only [if_neg hbinary, hexponent, pow_ten_lt_iff]
      split_ifs <;> rfl
  rw [Block.clock, hunits]
  rfl

/-! ## The clocks of a reader -/

/-- The table of clocks after some blocks. -/
def clocksAfter (before : List Block) : Array Clock :=
  ((tableAfter before).map Description.clock).toArray

/-- The clocks after one block more. -/
theorem clocksAfter_append_singleton (before : List Block) (b : Block) :
    clocksAfter (before ++ [b]) =
      match b with
      | .section _ => #[]
      | .interface link resolution offset =>
        (clocksAfter before).push (Block.clock link resolution offset)
      | _ => clocksAfter before := by
  have hclock := fun link resolution offset => clock_eq ⟨link, resolution, offset⟩
  dsimp only at hclock
  unfold clocksAfter tableAfter
  rw [sinceSection_append_singleton]
  cases b <;> simp [isSection, description?, hclock]

/-- A packet is looked up by the clock that is due. -/
theorem clockOf_getD (before : List Block) (id : Nat) :
    ClockOf before id ((clocksAfter before)[id]?.getD Clock.default) := by
  rw [clocksAfter, List.getElem?_toArray, List.getElem?_map]
  rcases h : (tableAfter before)[id]? with _ | d
  · refine .missing fun d hd => ?_
    rw [describes_iff, h] at hd
    cases hd
  · exact .described (describes_iff.mpr h)

theorem events_append (before blocks : List Block) (b : Block) :
    events (clocksAfter before) (blocks ++ [b]) =
      events (clocksAfter before) blocks ++ events (clocksAfter (before ++ blocks)) [b] := by
  induction blocks generalizing before with
  | nil => rw [List.append_nil]; rfl
  | cons a blocks ih =>
    have hrest := ih (before ++ [a])
    rw [List.append_assoc, clocksAfter_append_singleton before a] at hrest
    cases a <;> simp only [List.cons_append, List.nil_append, events] at hrest ⊢ <;> rw [hrest]

theorem packetPlaces_append_singleton (blocks : List Block) (b : Block) :
    packetPlaces (blocks ++ [b]) =
      packetPlaces blocks ++ if b.isPacket then [blocks.length] else [] := by
  have hlast : (blocks ++ [b])[blocks.length]? = some b := List.getElem?_concat_length
  unfold packetPlaces
  rw [List.length_append, List.length_singleton, List.range_succ, List.filter_append,
    List.filter_singleton, hlast, Option.any_some]
  refine congrArg₂ _ (List.filter_congr fun place hplace => ?_) ?_
  · rw [List.getElem?_append_left (List.mem_range.mp hplace)]
  · cases b.isPacket <;> rfl

/-- What is behind a place has no say in the event there. -/
theorem IsEventAt.append {blocks : List Block} {place : Nat} {e : Event}
    (h : IsEventAt blocks place e) (later : List Block) : IsEventAt (blocks ++ later) place e := by
  obtain ⟨id, high, low, data, clock, hblock, hclock, rfl⟩ := h
  have hplace : place < blocks.length := (List.getElem?_eq_some_iff.mp hblock).1
  refine ⟨id, high, low, data, clock, ?_, ?_, rfl⟩
  · rw [List.getElem?_append_left hplace]
    exact hblock
  · rw [List.take_append_of_le_length hplace.le]
    exact hclock

/-- A number stands for one clock at most. -/
theorem ClockOf.unique {before : List Block} {id : Nat} {c c' : Clock} (h : ClockOf before id c)
    (h' : ClockOf before id c') : c = c' := by
  rcases h with @⟨d, hd⟩ | hnone <;> rcases h' with @⟨d', hd'⟩ | hnone'
  · rw [describes_iff] at hd hd'
    rw [Option.some.inj (hd.symm.trans hd')]
  · exact absurd hd (hnone' d)
  · exact absurd hd' (hnone d')
  · rfl

theorem rightUnique_isEventAt (blocks : List Block) : Relator.RightUnique (IsEventAt blocks) := by
  rintro place e e' ⟨id, high, low, data, c, hb, hc, rfl⟩ ⟨id', high', low', data', c', hb', hc', rfl⟩
  obtain ⟨rfl, rfl, rfl, rfl⟩ := Block.packet.inj (Option.some.inj (hb.symm.trans hb'))
  rw [hc.unique hc']

/-- The events are those of the packets, in order. -/
theorem forall₂_events (blocks : List Block) :
    List.Forall₂ (IsEventAt blocks) (packetPlaces blocks) (events #[] blocks) := by
  induction blocks using List.reverseRecOn with
  | nil => exact .nil
  | append_singleton blocks b ih =>
    have hstart : events #[] (blocks ++ [b]) =
        events #[] blocks ++ events (clocksAfter blocks) [b] := events_append [] blocks b
    have hearlier := ih.imp fun _ _ h => h.append [b]
    rw [packetPlaces_append_singleton, hstart]
    cases b with
    | packet id high low data =>
      refine List.rel_append hearlier (.cons ?_ .nil)
      refine ⟨id, high, low, data, _, List.getElem?_concat_length, ?_, rfl⟩
      rw [List.take_left]
      exact clockOf_getD blocks id
    | _ => exact List.rel_append hearlier .nil

end Block

/-! ## One packet at a time -/

/-- What a reader of blocks keeps between two calls: the interfaces of the section so far, and the blocks
that are to come. -/
structure Reader where
  interfaces : Array Clock
  blocks : List Block

namespace Reader

/-- Reads blocks up to the next packet. -/
def nextFrom (interfaces : Array Clock) : List Block → Option Event × Reader
  | [] => (none, ⟨interfaces, []⟩)
  | .section _ :: blocks => nextFrom #[] blocks
  | .interface link resolution offset :: blocks =>
    nextFrom (interfaces.push (Block.clock link resolution offset)) blocks
  | .packet id high low data :: blocks =>
    let c := interfaces[id]?.getD Clock.default
    (some ⟨unitsTime c high low, c.link, data⟩, ⟨interfaces, blocks⟩)
  | .other _ :: blocks => nextFrom interfaces blocks

/-- One call. -/
def next (r : Reader) : Option Event × Reader := nextFrom r.interfaces r.blocks

/-- What the call answers that comes after `n` others. -/
def answer : Nat → Reader → Option Event
  | 0, r => r.next.1
  | n + 1, r => answer n r.next.2

/-- The events still to come are the next one, and those of the reader after it. -/
theorem events_next (r : Reader) :
    Block.events r.interfaces r.blocks =
      r.next.1.toList ++ Block.events r.next.2.interfaces r.next.2.blocks := by
  obtain ⟨interfaces, blocks⟩ := r
  unfold next
  dsimp only
  fun_induction nextFrom interfaces blocks with
  | case1 => rfl
  | case2 _ _ _ ih => exact ih
  | case3 _ _ _ _ _ ih => exact ih
  | case4 => rfl
  | case5 _ _ _ ih => exact ih

/-- A reader without an answer has no blocks left. -/
theorem blocks_of_none {r : Reader} (h : r.next.1 = none) : r.next.2.blocks = [] := by
  obtain ⟨interfaces, blocks⟩ := r
  unfold next at h ⊢
  dsimp only at h ⊢
  fun_induction nextFrom interfaces blocks with
  | case1 => rfl
  | case2 _ _ _ ih => exact ih h
  | case3 _ _ _ _ _ ih => exact ih h
  | case4 => cases h
  | case5 _ _ _ ih => exact ih h

/-- The calls answer with the events one by one, and with nothing once they are through. -/
theorem answer_eq (n : Nat) (r : Reader) :
    r.answer n = (Block.events r.interfaces r.blocks)[n]? := by
  induction n generalizing r with
  | zero =>
    rw [events_next]
    rcases h : r.next.1 with _ | e
    · simp [answer, h, blocks_of_none h, Block.events]
    · simp [answer, h]
  | succ n ih =>
    rw [answer, ih, events_next r]
    rcases h : r.next.1 with _ | e
    · simp [blocks_of_none h, Block.events]
    · simp

end Reader

namespace Block

/-- **Every packet has the clock of its own interface.** Whatever blocks a capture holds, its events are one
for each packet, in order, and none for any other block. The event of a packet has the link type and the
time of the description with the packet's number, counted from the last section header before it, and those
of Ethernet in microseconds if there is no such description. No other events are like that. A reader that
is called again and again answers with these events one by one, and then with nothing. -/
theorem events_by_own_interface (blocks : List Block) :
    (∀ es, List.Forall₂ (IsEventAt blocks) (packetPlaces blocks) es ↔ es = events #[] blocks) ∧
      ∀ n, Reader.answer n ⟨#[], blocks⟩ = (events #[] blocks)[n]? := by
  refine ⟨fun es => ⟨fun h => ?_, fun h => h ▸ forall₂_events blocks⟩,
    fun n => Reader.answer_eq n ⟨#[], blocks⟩⟩
  exact List.right_unique_forall₂' (rightUnique_isEventAt blocks) h (forall₂_events blocks)

/-- The second section describes no interface with the number that the first one has used. -/
example :
    events #[] [.section .little, .interface 101 9 0, .packet 0 0 7 [1], .section .big,
      .packet 0 0 7 [2]] = [⟨some (.utc 7), 101, [1]⟩, ⟨some (.utc 7000), 1, [2]⟩] := by
  decide

end Block

end FlowWatch.Capture
