/-
The text of an endpoint names it.

No two endpoints have one text, and so no two flows have one pair of texts. Numbers in a text end at a
character that no numeral has, which is enough for an IPv4 address and for the port. An IPv6 address
loses its longest run of zero groups: what is left of it are the groups before the double colon and those
behind it, both found in the text as the non-empty parts between colons from either end, and the missing
groups are as many as there are places for.
-/
import FlowWatch.Flow
import FlowWatch.Proofs.Text.Numerals
import Mathlib.Data.List.DropRight
import Mathlib.Tactic.SplitIfs

set_option autoImplicit false

namespace FlowWatch

open Text

/-! ## Characters of numerals -/

theorem not_mem_decimal {c : Char} (hc : isDigit c = false) (n : Nat) : c ∉ decimal n := by
  intro h
  rw [isDigit_of_mem_decimal h] at hc
  cases hc

theorem not_mem_hexadecimal {c : Char} (hc : hexDigit? c = none) (n : Nat) : c ∉ hexadecimal n := by
  intro h
  have hdigit := forall_mem_numeral (P := fun c => hexDigit? c ≠ none)
    (fun d hd => by rw [hexDigit?_digitChar d hd]; exact Option.some_ne_none d) n c h
  exact hdigit hc

/-- A decimal digit is a hexadecimal one. -/
theorem isDigit_eq_false {c : Char} (hc : hexDigit? c = none) : isDigit c = false := by
  rw [Bool.eq_false_iff]
  intro hdigit
  rw [isDigit] at hdigit
  rw [hexDigit?, if_pos hdigit] at hc
  cases hc

/-- A text is cut at the first place of a character in one way only. -/
theorem eq_of_cut {c : Char} {xs ys xs' ys' : List Char} (hx : c ∉ xs) (hy : c ∉ ys)
    (h : xs ++ c :: xs' = ys ++ c :: ys') : xs = ys ∧ xs' = ys' := by
  have hcut : ∀ {zs zs' : List Char}, c ∉ zs → (zs ++ c :: zs').takeWhile (· ≠ c) = zs := by
    intro zs zs' hz
    have hall : ∀ d ∈ zs, decide (d ≠ c) = true := fun d hd => decide_eq_true fun heq => hz (heq ▸ hd)
    rw [List.takeWhile_append_of_pos hall, List.takeWhile_cons_of_neg (by simp), List.append_nil]
  obtain rfl : xs = ys := by rw [← hcut hx, h, hcut hy]
  exact ⟨rfl, (List.cons.inj (List.append_cancel_left h)).2⟩

namespace IPv4

theorem not_mem_text {c : Char} (hc : isDigit c = false) (hpoint : c ≠ '.') (ip : IPv4) :
    c ∉ ip.text := by
  simp only [text, List.mem_append, List.mem_cons, not_or]
  exact ⟨⟨⟨not_mem_decimal hc _, hpoint, not_mem_decimal hc _⟩, hpoint, not_mem_decimal hc _⟩,
    hpoint, not_mem_decimal hc _⟩

theorem text_injective : Function.Injective text := by
  intro x y h
  have hpoint : ∀ n, '.' ∉ decimal n := not_mem_decimal rfl
  simp only [text, List.append_assoc, List.cons_append] at h
  obtain ⟨ha, h⟩ := eq_of_cut (hpoint _) (hpoint _) h
  obtain ⟨hb, h⟩ := eq_of_cut (hpoint _) (hpoint _) h
  obtain ⟨hc, hd⟩ := eq_of_cut (hpoint _) (hpoint _) h
  have hoctet : ∀ {a b : UInt8}, decimal a.toNat = decimal b.toNat → a = b :=
    fun h => UInt8.toNat_inj.mp (decimal_injective h)
  rw [IPv4.mk.injEq]
  exact ⟨hoctet ha, hoctet hb, hoctet hc, hoctet hd⟩

end IPv4

namespace IPv6

/-! ## Runs of zero groups -/

theorem leadingZeros_zeros (ws : List UInt16) :
    leadingZeros ws ≤ ws.length ∧
      ws.take (leadingZeros ws) = List.replicate (leadingZeros ws) 0 := by
  induction ws with
  | nil => exact ⟨Nat.le_refl 0, rfl⟩
  | cons w ws ih =>
    obtain ⟨hle, htake⟩ := ih
    by_cases hw : w = 0
    · have hcount : leadingZeros (w :: ws) = leadingZeros ws + 1 := by
        rw [leadingZeros, if_pos (beq_iff_eq.mpr hw)]
      rw [hcount, List.take_succ_cons, htake, hw, List.replicate_succ]
      exact ⟨Nat.succ_le_succ hle, rfl⟩
    · have hcount : leadingZeros (w :: ws) = 0 := by
        rw [leadingZeros, if_neg (by simpa using hw)]
      rw [hcount]
      exact ⟨Nat.zero_le _, rfl⟩

/-- The longest run lies within the groups and is a run of zeros. -/
theorem longestZeroRun_zeros (start : Nat) (ws : List UInt16) :
    ∃ place, (longestZeroRun start ws).1 = start + place ∧
      place + (longestZeroRun start ws).2 ≤ ws.length ∧
      (ws.drop place).take (longestZeroRun start ws).2 =
        List.replicate (longestZeroRun start ws).2 0 := by
  induction ws generalizing start with
  | nil => exact ⟨0, rfl, Nat.le_refl 0, rfl⟩
  | cons w ws ih =>
    rw [longestZeroRun]
    split
    · obtain ⟨hle, htake⟩ := leadingZeros_zeros (w :: ws)
      exact ⟨0, rfl, by simpa using hle, htake⟩
    · obtain ⟨place, hstart, hle, htake⟩ := ih (start + 1)
      refine ⟨place + 1, by omega, ?_, htake⟩
      rw [List.length_cons]
      omega

/-! ## The groups that are written -/

/-- The groups before the double colon and those behind it, or all of them twice. -/
def written (ip : IPv6) : List UInt16 × List UInt16 :=
  let run := longestZeroRun 0 ip.groups
  if 2 ≤ run.2 then (ip.groups.take run.1, ip.groups.drop (run.1 + run.2))
  else (ip.groups, ip.groups)

/-- Eight groups with zeros in the place of the missing ones. -/
def filled (ws : List UInt16 × List UInt16) : List UInt16 :=
  if ws.1.length = 8 then ws.1
  else ws.1 ++ List.replicate (8 - ws.1.length - ws.2.length) 0 ++ ws.2

theorem groups_length (ip : IPv6) : ip.groups.length = 8 := rfl

theorem filled_written (ip : IPv6) : filled ip.written = ip.groups := by
  obtain ⟨place, hstart, hle, hzeros⟩ := longestZeroRun_zeros 0 ip.groups
  rw [groups_length] at hle
  rw [Nat.zero_add] at hstart
  rw [written]
  simp only [hstart]
  split_ifs with hrun
  · have hleft : (ip.groups.take place).length = place := by
      rw [List.length_take, groups_length]
      omega
    have hright : (ip.groups.drop (place + (longestZeroRun 0 ip.groups).2)).length =
        8 - (place + (longestZeroRun 0 ip.groups).2) := by
      rw [List.length_drop, groups_length]
    have hmissing : 8 - place - (8 - (place + (longestZeroRun 0 ip.groups).2)) =
        (longestZeroRun 0 ip.groups).2 := by omega
    simp only [filled]
    rw [if_neg (by omega), hleft, hright, hmissing, ← hzeros, List.append_assoc,
      ← List.drop_drop, List.take_append_drop, List.take_append_drop]
  · exact if_pos (groups_length ip)

theorem groups_injective : Function.Injective groups := by
  intro x y h
  simp only [groups, List.cons.injEq, and_true] at h
  rw [IPv6.mk.injEq]
  exact h

/-! ## The parts of a text -/

/-- What stands between the colons of groups in hexadecimal. -/
def parts (ws : List UInt16) : List (List Char) :=
  if ws = [] then [[]] else ws.map fun w => hexadecimal w.toNat

theorem parts_ne_nil (ws : List UInt16) : parts ws ≠ [] := by
  rw [parts]
  split_ifs with h
  · exact List.cons_ne_nil _ _
  · simpa using h

theorem groupsText_eq (ws : List UInt16) : groupsText ws = [':'].intercalate (parts ws) := by
  rw [parts]
  split_ifs with h
  · rw [h]
    rfl
  · rfl

theorem intercalate_append {α : Type} (sep : List α) (xs ys : List (List α)) (hx : xs ≠ [])
    (hy : ys ≠ []) :
    sep.intercalate (xs ++ ys) = sep.intercalate xs ++ sep ++ sep.intercalate ys := by
  induction xs with
  | nil => exact absurd rfl hx
  | cons x xs ih =>
    cases xs with
    | nil => simpa using List.intercalate_cons_of_ne_nil hy
    | cons z zs =>
      have hrest := ih (List.cons_ne_nil z zs)
      simp only [List.cons_append, List.intercalate_cons_cons, List.append_assoc] at hrest ⊢
      rw [hrest]

theorem mem_intercalate {α : Type} {a : α} {sep : List α} {xs : List (List α)}
    (h : a ∈ sep.intercalate xs) : a ∈ sep ∨ ∃ x ∈ xs, a ∈ x := by
  induction xs with
  | nil => exact absurd h List.not_mem_nil
  | cons x xs ih =>
    by_cases hxs : xs = []
    · subst hxs
      exact .inr ⟨x, List.mem_cons_self, by simpa using h⟩
    · rw [List.intercalate_cons_of_ne_nil hxs, List.mem_append, List.mem_append] at h
      rcases h with (hx | hsep) | hrest
      · exact .inr ⟨x, List.mem_cons_self, hx⟩
      · exact .inl hsep
      · obtain hsep | ⟨y, hy, hmem⟩ := ih hrest
        · exact .inl hsep
        · exact .inr ⟨y, List.mem_cons_of_mem x hy, hmem⟩

/-- The parts between the colons of a whole text; the double colon leaves an empty one. -/
def textParts (ip : IPv6) : List (List Char) :=
  if 2 ≤ (longestZeroRun 0 ip.groups).2 then parts ip.written.1 ++ [] :: parts ip.written.2
  else parts ip.groups

theorem text_eq_intercalate {ip : IPv6} (h : ip.mapped? = none) :
    ip.text = [':'].intercalate ip.textParts := by
  simp only [text, h, textParts, written]
  split_ifs with hrun
  · rw [intercalate_append _ _ _ (parts_ne_nil _) (List.cons_ne_nil _ _),
      List.intercalate_cons_of_ne_nil (parts_ne_nil _), ← groupsText_eq, ← groupsText_eq,
      List.nil_append, List.append_assoc, List.singleton_append, List.singleton_append]
  · exact groupsText_eq _

/-- A part is a numeral or nothing at all. -/
theorem part_cases {ip : IPv6} {part : List Char} (h : part ∈ ip.textParts) :
    part = [] ∨ ∃ n, part = hexadecimal n := by
  have hparts : ∀ ws, part ∈ parts ws → part = [] ∨ ∃ n, part = hexadecimal n := by
    intro ws hmem
    rw [parts] at hmem
    split_ifs at hmem with hws
    · exact .inl (List.mem_singleton.mp hmem)
    · obtain ⟨w, -, rfl⟩ := List.mem_map.mp hmem
      exact .inr ⟨_, rfl⟩
  rw [textParts] at h
  split_ifs at h
  · rcases List.mem_append.mp h with hleft | hright
    · exact hparts _ hleft
    · rcases List.mem_cons.mp hright with hnil | hright
      · exact .inl hnil
      · exact hparts _ hright
  · exact hparts _ h

theorem not_mem_part {ip : IPv6} {part : List Char} (h : part ∈ ip.textParts) {c : Char}
    (hc : hexDigit? c = none) : c ∉ part := by
  rcases part_cases h with rfl | ⟨n, rfl⟩
  · exact List.not_mem_nil
  · exact not_mem_hexadecimal hc n

theorem textParts_ne_nil (ip : IPv6) : ip.textParts ≠ [] := by
  rw [textParts]
  split_ifs
  · simp
  · exact parts_ne_nil _

theorem takeWhile_nonempty {ps : List (List Char)} (h : ∀ p ∈ ps, p ≠ []) (rest : List (List Char)) :
    ((if ps = [] then [[]] else ps) ++ [] :: rest).takeWhile (· ≠ []) = ps := by
  split_ifs with hps
  · rw [hps]
    simp
  · rw [List.takeWhile_append_of_pos (by simpa using h), List.takeWhile_cons_of_neg (by simp),
      List.append_nil]

theorem parts_eq (ws : List UInt16) :
    parts ws = if (ws.map fun w => hexadecimal w.toNat) = [] then [[]]
      else ws.map fun w => hexadecimal w.toNat := by
  simp only [parts, List.map_eq_nil_iff]

theorem parts_reverse (ws : List UInt16) :
    (parts ws).reverse = if (ws.map fun w => hexadecimal w.toNat).reverse = [] then [[]]
      else (ws.map fun w => hexadecimal w.toNat).reverse := by
  rw [parts]
  by_cases hws : ws = []
  · simp [hws]
  · simp [hws]

theorem map_hexadecimal_ne_nil (ws : List UInt16) :
    ∀ p ∈ ws.map fun w => hexadecimal w.toNat, p ≠ [] := by
  intro p hp
  obtain ⟨w, -, rfl⟩ := List.mem_map.mp hp
  exact hexadecimal_ne_nil _

theorem parts_groups (ip : IPv6) : parts ip.groups = ip.groups.map fun w => hexadecimal w.toNat :=
  if_neg (List.cons_ne_nil _ _)

/-- The non-empty parts from the front are the groups before the double colon. -/
theorem takeWhile_textParts (ip : IPv6) :
    ip.textParts.takeWhile (· ≠ []) = ip.written.1.map fun w => hexadecimal w.toNat := by
  rw [textParts]
  split_ifs with hrun
  · rw [parts_eq ip.written.1]
    exact takeWhile_nonempty (map_hexadecimal_ne_nil _) _
  · have hwritten : ip.written.1 = ip.groups := by rw [written, if_neg hrun]
    rw [parts_groups, hwritten, List.takeWhile_eq_self_iff]
    exact fun p hp => by simpa using map_hexadecimal_ne_nil _ p hp

/-- The non-empty parts from the end are the groups behind the double colon. -/
theorem rtakeWhile_textParts (ip : IPv6) :
    ip.textParts.rtakeWhile (· ≠ []) = ip.written.2.map fun w => hexadecimal w.toNat := by
  rw [textParts, List.rtakeWhile]
  split_ifs with hrun
  · have hreverse : ∀ p ∈ (ip.written.2.map fun w => hexadecimal w.toNat).reverse, p ≠ [] :=
      fun p hp => map_hexadecimal_ne_nil _ p (List.mem_reverse.mp hp)
    rw [List.reverse_append, List.reverse_cons, List.append_assoc, List.singleton_append,
      parts_reverse, takeWhile_nonempty hreverse, List.reverse_reverse]
  · have hwritten : ip.written.2 = ip.groups := by rw [written, if_neg hrun]
    rw [parts_groups, hwritten, List.takeWhile_eq_self_iff.mpr, List.reverse_reverse]
    exact fun p hp => by simpa using map_hexadecimal_ne_nil _ p (List.mem_reverse.mp hp)

theorem map_hexadecimal_injective :
    Function.Injective fun ws : List UInt16 => ws.map fun w => hexadecimal w.toNat :=
  List.map_injective_iff.mpr fun _ _ h => UInt16.toNat_inj.mp (hexadecimal_injective h)

/-! ## Addresses -/

/-- An address that embeds no IPv4 address is known by its text. -/
theorem eq_of_text_unmapped {x y : IPv6} (hx : x.mapped? = none) (hy : y.mapped? = none)
    (h : x.text = y.text) : x = y := by
  rw [text_eq_intercalate hx, text_eq_intercalate hy] at h
  have hparts : x.textParts = y.textParts := by
    have hsplit := congrArg (List.splitOn ':') h
    rwa [List.splitOn_intercalate _ (fun _ hp => not_mem_part hp rfl) (textParts_ne_nil x),
      List.splitOn_intercalate _ (fun _ hp => not_mem_part hp rfl) (textParts_ne_nil y)] at hsplit
  have hfront : x.written.1 = y.written.1 := by
    apply map_hexadecimal_injective
    change (x.written.1.map fun w => hexadecimal w.toNat) = _
    rw [← takeWhile_textParts, hparts, takeWhile_textParts]
  have hback : x.written.2 = y.written.2 := by
    apply map_hexadecimal_injective
    change (x.written.2.map fun w => hexadecimal w.toNat) = _
    rw [← rtakeWhile_textParts, hparts, rtakeWhile_textParts]
  apply groups_injective
  rw [← filled_written x, ← filled_written y, Prod.ext hfront hback]

theorem text_mapped {ip : IPv6} {v4 : IPv4} (h : ip.mapped? = some v4) :
    ip.text = "::ffff:".toList ++ v4.text := by
  rw [text, h]

/-- Two bytes are the halves of one group. -/
theorem eq_of_halves {x y : UInt16}
    (hhigh : UInt8.ofNat (x.toNat / 256) = UInt8.ofNat (y.toNat / 256))
    (hlow : UInt8.ofNat (x.toNat % 256) = UInt8.ofNat (y.toNat % 256)) : x = y := by
  have hx := x.toNat_lt
  have hy := y.toNat_lt
  have hhigh := congrArg UInt8.toNat hhigh
  have hlow := congrArg UInt8.toNat hlow
  rw [UInt8.toNat_ofNat', UInt8.toNat_ofNat'] at hhigh hlow
  apply UInt16.toNat_inj.mp
  omega

/-- The embedded address and the prefix are the whole address. -/
theorem eq_of_mapped {x y : IPv6} {v4 : IPv4} (hx : x.mapped? = some v4)
    (hy : y.mapped? = some v4) : x = y := by
  simp only [mapped?, Option.ite_none_right_eq_some, Bool.and_eq_true, beq_iff_eq,
    Option.some.injEq] at hx hy
  obtain ⟨⟨⟨⟨⟨⟨hxa, hxb⟩, hxc⟩, hxd⟩, hxe⟩, hxf⟩, hxv⟩ := hx
  obtain ⟨⟨⟨⟨⟨⟨hya, hyb⟩, hyc⟩, hyd⟩, hye⟩, hyf⟩, hyv⟩ := hy
  have hhalves := hxv.trans hyv.symm
  rw [IPv4.mk.injEq] at hhalves
  obtain ⟨hgHigh, hgLow, hhHigh, hhLow⟩ := hhalves
  rw [IPv6.mk.injEq]
  exact ⟨hxa.trans hya.symm, hxb.trans hyb.symm, hxc.trans hyc.symm, hxd.trans hyd.symm,
    hxe.trans hye.symm, hxf.trans hyf.symm, eq_of_halves hgHigh hgLow, eq_of_halves hhHigh hhLow⟩

/-- Characters that are neither hexadecimal digits nor separators stand in no text. -/
theorem not_mem_text_unmapped {ip : IPv6} (h : ip.mapped? = none) {c : Char}
    (hc : hexDigit? c = none) (hcolon : c ≠ ':') : c ∉ ip.text := by
  rw [text_eq_intercalate h]
  intro hmem
  obtain hsep | ⟨part, hpart, hmem⟩ := mem_intercalate hmem
  · exact hcolon (List.mem_singleton.mp hsep)
  · exact not_mem_part hpart hc hmem

theorem point_mem_text {ip : IPv4} : '.' ∈ ip.text := by
  simp [IPv4.text]

theorem text_injective : Function.Injective text := by
  intro x y h
  cases hx : x.mapped? with
  | none =>
    cases hy : y.mapped? with
    | none => exact eq_of_text_unmapped hx hy h
    | some v4 =>
      have hpoint := not_mem_text_unmapped hx (c := '.') rfl (by decide)
      rw [h, text_mapped hy] at hpoint
      exact absurd (List.mem_append_right _ point_mem_text) hpoint
  | some v4 =>
    cases hy : y.mapped? with
    | none =>
      have hpoint := not_mem_text_unmapped hy (c := '.') rfl (by decide)
      rw [← h, text_mapped hx] at hpoint
      exact absurd (List.mem_append_right _ point_mem_text) hpoint
    | some w4 =>
      rw [text_mapped hx, text_mapped hy] at h
      have hv4 := IPv4.text_injective (List.append_cancel_left h)
      exact eq_of_mapped hx (hv4 ▸ hy)

/-- Only hexadecimal digits, colons and points stand in a text. -/
theorem not_mem_text {c : Char} (hc : hexDigit? c = none) (hcolon : c ≠ ':') (hpoint : c ≠ '.')
    (ip : IPv6) : c ∉ ip.text := by
  cases h : ip.mapped? with
  | none => exact not_mem_text_unmapped h hc hcolon
  | some v4 =>
    have hletter : c ≠ 'f' := by
      rintro rfl
      exact absurd hc (by decide)
    rw [text_mapped h, List.mem_append, not_or]
    refine ⟨?_, IPv4.not_mem_text (isDigit_eq_false hc) hpoint v4⟩
    show c ∉ [':', ':', 'f', 'f', 'f', 'f', ':']
    simp [hcolon, hletter]

theorem bracket_not_mem_text (ip : IPv6) : ']' ∉ ip.text :=
  not_mem_text rfl (by decide) (by decide) ip

end IPv6

/-! ## Endpoints and flows -/

namespace Address

theorem port_eq {p q : UInt16} (h : decimal p.toNat = decimal q.toNat) : p = q :=
  UInt16.toNat_inj.mp (decimal_injective h)

/-- Brackets tell the families apart. -/
theorem bracket_not_mem_endpoint_v4 (ip : IPv4) (port : UInt16) :
    '[' ∉ (Address.v4 ip).endpoint port := by
  rw [endpoint, List.mem_append, List.mem_cons, not_or, not_or]
  exact ⟨IPv4.not_mem_text rfl (by decide) ip, by decide, not_mem_decimal rfl _⟩

/-- An endpoint is known by its text. -/
theorem endpoint_injective {a b : Address} {p q : UInt16} (h : a.endpoint p = b.endpoint q) :
    a = b ∧ p = q := by
  cases a with
  | v4 x =>
    cases b with
    | v4 y =>
      have hcolon : ∀ ip : IPv4, ':' ∉ ip.text := IPv4.not_mem_text rfl (by decide)
      obtain ⟨htext, hport⟩ := eq_of_cut (hcolon x) (hcolon y) h
      exact ⟨congrArg v4 (IPv4.text_injective htext), port_eq hport⟩
    | v6 y =>
      have hbracket := bracket_not_mem_endpoint_v4 x p
      rw [h] at hbracket
      exact absurd List.mem_cons_self hbracket
  | v6 x =>
    cases b with
    | v4 y =>
      have hbracket := bracket_not_mem_endpoint_v4 y q
      rw [← h] at hbracket
      exact absurd List.mem_cons_self hbracket
    | v6 y =>
      obtain ⟨htext, hport⟩ := eq_of_cut (IPv6.bracket_not_mem_text x)
        (IPv6.bracket_not_mem_text y) (List.cons.inj h).2
      exact ⟨congrArg v6 (IPv6.text_injective htext), port_eq (List.cons.inj hport).2⟩

end Address

namespace Flow

/-- A flow is known by the texts of its endpoints. -/
theorem eq_of_texts {f g : Flow} (hsender : f.sender = g.sender) (hreceiver : f.receiver = g.receiver) :
    f = g := by
  obtain ⟨hsrc, hsrcPort⟩ := Address.endpoint_injective (String.ofList_injective hsender)
  obtain ⟨hdst, hdstPort⟩ := Address.endpoint_injective (String.ofList_injective hreceiver)
  rw [Flow.mk.injEq]
  exact ⟨hsrc, hsrcPort, hdst, hdstPort⟩

end Flow

end FlowWatch
