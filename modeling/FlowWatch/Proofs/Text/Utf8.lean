/-
Decoding undoes encoding.

The encoder writes one of four forms, by the size of the character. Each is what its lead byte announces,
the continuation bytes pass their tests because characters are neither surrogates nor above U+10FFFF,
and the bits add up to the character again. Since the scanner leaves the bytes behind a character alone,
a text is decoded character by character. The tests are also just those that make this true the other way
round: what is read as a character are the bytes that the encoder writes for it.
-/
import FlowWatch.Text.Utf8
import Mathlib.Data.UInt
import Mathlib.Tactic.SplitIfs

set_option autoImplicit false

namespace FlowWatch.Text.Utf8

/-- A number that fits into a byte. -/
theorem toNat_byte {n : Nat} (h : n < 256) : (UInt8.ofNat n).toNat = n :=
  UInt8.toNat_ofNat_of_lt' h

/-- The code of a character is in one of the two ranges. -/
theorem toNat_range (c : Char) : c.toNat < 0xD800 ∨ (0xDFFF < c.toNat ∧ c.toNat < 0x110000) := c.valid

theorem isTail_byte {n : Nat} (h : n < 64) : isTail (UInt8.ofNat (0x80 + n)) = true := by
  unfold isTail
  rw [toNat_byte (by omega)]
  simp only [Bool.and_eq_true, decide_eq_true_eq]
  omega

theorem tailBits_byte {n : Nat} (h : n < 64) : tailBits (UInt8.ofNat (0x80 + n)) = n := by
  unfold tailBits
  rw [toNat_byte (by omega)]
  omega

/-- A byte that passes its test adds its six bits. -/
theorem follow_byte {fits : UInt8 → Bool} {tests : List (UInt8 → Bool)} {n : Nat} (hn : n < 64)
    (hfits : fits (UInt8.ofNat (0x80 + n)) = true) (acc : Nat) (rest : List UInt8) :
    follow (fits :: tests) acc (UInt8.ofNat (0x80 + n) :: rest) =
      follow tests (acc * 64 + n) rest := by
  rw [follow, if_pos hfits, tailBits_byte hn]

section Forms

variable (c : Char) (rest : List UInt8)

theorem next_one (h : c.toNat < 0x80) :
    next (UInt8.ofNat c.toNat) rest = (some c, rest) := by
  unfold next announced?
  rw [toNat_byte (by omega)]
  dsimp only
  rw [if_pos h]
  dsimp only
  rw [follow, Option.map_some, Char.ofNat_toNat]

theorem next_two (hlow : 0x80 ≤ c.toNat) (h : c.toNat < 0x800) :
    next (UInt8.ofNat (0xC0 + c.toNat / 64)) (UInt8.ofNat (0x80 + c.toNat % 64) :: rest) =
      (some c, rest) := by
  have hbits : (0xC0 + c.toNat / 64 - 0xC0) * 64 + c.toNat % 64 = c.toNat := by omega
  unfold next announced?
  rw [toNat_byte (by omega)]
  dsimp only
  rw [if_neg (by omega), if_neg (by omega), if_pos (by omega)]
  dsimp only
  rw [follow_byte (by omega) (isTail_byte (by omega)), hbits, follow, Option.map_some,
    Char.ofNat_toNat]

theorem next_three (hlow : 0x800 ≤ c.toNat) (h : c.toNat < 0x10000) :
    next (UInt8.ofNat (0xE0 + c.toNat / 4096))
        (UInt8.ofNat (0x80 + c.toNat / 64 % 64) :: UInt8.ofNat (0x80 + c.toNat % 64) :: rest) =
      (some c, rest) := by
  have hbits : ((0xE0 + c.toNat / 4096 - 0xE0) * 64 + c.toNat / 64 % 64) * 64 + c.toNat % 64 =
      c.toNat := by omega
  have hvalid := toNat_range c
  have hsecond : isSecondOfThree (UInt8.ofNat (0xE0 + c.toNat / 4096))
      (UInt8.ofNat (0x80 + c.toNat / 64 % 64)) = true := by
    unfold isSecondOfThree
    rw [isTail_byte (by omega), toNat_byte (by omega), toNat_byte (by omega)]
    simp only [Bool.true_and, Bool.and_eq_true, Bool.or_eq_true, bne_iff_ne, ne_eq,
      decide_eq_true_eq]
    omega
  unfold next announced?
  rw [toNat_byte (by omega)]
  dsimp only
  rw [if_neg (by omega), if_neg (by omega), if_neg (by omega), if_pos (by omega)]
  dsimp only
  rw [follow_byte (by omega) hsecond, follow_byte (by omega) (isTail_byte (by omega)), hbits, follow,
    Option.map_some, Char.ofNat_toNat]

theorem next_four (hlow : 0x10000 ≤ c.toNat) :
    next (UInt8.ofNat (0xF0 + c.toNat / 262144))
        (UInt8.ofNat (0x80 + c.toNat / 4096 % 64) :: UInt8.ofNat (0x80 + c.toNat / 64 % 64) ::
          UInt8.ofNat (0x80 + c.toNat % 64) :: rest) =
      (some c, rest) := by
  have hvalid := toNat_range c
  have hbits : (((0xF0 + c.toNat / 262144 - 0xF0) * 64 + c.toNat / 4096 % 64) * 64 +
      c.toNat / 64 % 64) * 64 + c.toNat % 64 = c.toNat := by omega
  have hsecond : isSecondOfFour (UInt8.ofNat (0xF0 + c.toNat / 262144))
      (UInt8.ofNat (0x80 + c.toNat / 4096 % 64)) = true := by
    unfold isSecondOfFour
    rw [isTail_byte (by omega), toNat_byte (by omega), toNat_byte (by omega)]
    simp only [Bool.true_and, Bool.and_eq_true, Bool.or_eq_true, bne_iff_ne, ne_eq,
      decide_eq_true_eq]
    omega
  unfold next announced?
  rw [toNat_byte (by omega)]
  dsimp only
  rw [if_neg (by omega), if_neg (by omega), if_neg (by omega), if_neg (by omega), if_pos (by omega)]
  dsimp only
  rw [follow_byte (by omega) hsecond, follow_byte (by omega) (isTail_byte (by omega)),
    follow_byte (by omega) (isTail_byte (by omega)), hbits, follow, Option.map_some,
    Char.ofNat_toNat]

end Forms

/-- **The scanner reads a character back** and stops behind it. -/
theorem next_encodeChar (c : Char) (rest : List UInt8) :
    ∃ lead tail, encodeChar c = lead :: tail ∧ next lead (tail ++ rest) = (some c, rest) := by
  unfold encodeChar
  dsimp only
  split_ifs with hone htwo hthree
  · exact ⟨_, _, rfl, next_one c rest hone⟩
  · exact ⟨_, _, rfl, next_two c rest (by omega) htwo⟩
  · exact ⟨_, _, rfl, next_three c rest (by omega) hthree⟩
  · exact ⟨_, _, rfl, next_four c rest (by omega)⟩

theorem decode?_encodeChar (c : Char) (rest : List UInt8) :
    decode? (encodeChar c ++ rest) = (decode? rest).map (c :: ·) := by
  obtain ⟨lead, tail, hbytes, hnext⟩ := next_encodeChar c rest
  rw [hbytes, List.cons_append, decode?, hnext]

theorem decodeLossy_encodeChar (c : Char) (rest : List UInt8) :
    decodeLossy (encodeChar c ++ rest) = c :: decodeLossy rest := by
  obtain ⟨lead, tail, hbytes, hnext⟩ := next_encodeChar c rest
  rw [hbytes, List.cons_append, decodeLossy, hnext]
  rfl

/-- **Decoding undoes encoding.** -/
theorem decode?_encode (cs : List Char) : decode? (encode cs) = some cs := by
  induction cs with
  | nil => rw [encode, List.flatMap_nil, decode?]
  | cons c cs ih =>
    rw [encode, List.flatMap_cons, decode?_encodeChar]
    show (decode? (encode cs)).map (c :: ·) = _
    rw [ih]
    rfl

theorem encode_injective : Function.Injective encode := by
  intro xs ys h
  have hread := decode?_encode xs
  rw [h, decode?_encode] at hread
  exact (Option.some.inj hread).symm

/-- Of a text nothing is lost. -/
theorem decodeLossy_encode (cs : List Char) : decodeLossy (encode cs) = cs := by
  induction cs with
  | nil => rw [encode, List.flatMap_nil, decodeLossy]
  | cons c cs ih =>
    rw [encode, List.flatMap_cons, decodeLossy_encodeChar]
    exact congrArg (c :: ·) ih

/-! ## What the scanner accepts -/

/-- A byte is read for every test. -/
theorem follow_cons_eq {fits : UInt8 → Bool} {tests : List (UInt8 → Bool)} {acc n : Nat}
    {rest after : List UInt8} (h : follow (fits :: tests) acc rest = (some n, after)) :
    ∃ b tail, rest = b :: tail ∧ fits b = true ∧
      follow tests (acc * 64 + tailBits b) tail = (some n, after) := by
  rcases rest with _ | ⟨b, tail⟩
  · exact absurd (congrArg Prod.fst h) (by simp [follow])
  · rw [follow] at h
    split_ifs at h with hfits
    · exact ⟨b, tail, rfl, hfits, h⟩
    · exact absurd (congrArg Prod.fst h) (by simp)

theorem isTail_range {b : UInt8} (h : isTail b = true) : 0x80 ≤ b.toNat ∧ b.toNat ≤ 0xBF := by
  unfold isTail at h
  simpa only [Bool.and_eq_true, decide_eq_true_eq] using h

theorem ofNat_eq_byte {n : Nat} {b : UInt8} (h : n = b.toNat) : UInt8.ofNat n = b := by
  rw [h, UInt8.ofNat_toNat]

theorem toNat_ofNat_valid {n : Nat} (h : n < 0xD800 ∨ (0xDFFF < n ∧ n < 0x110000)) :
    (Char.ofNat n).toNat = n := by
  unfold Char.ofNat
  rw [dif_pos h]
  rfl

section Accepted

variable {lead b d e : UInt8}

/-- The character of a lead byte and one continuation byte has just these bytes. -/
theorem encodeChar_two (hlow : 0xC2 ≤ lead.toNat) (h : lead.toNat < 0xE0) (hb : isTail b = true) :
    encodeChar (Char.ofNat ((lead.toNat - 0xC0) * 64 + tailBits b)) = [lead, b] := by
  have hrange := isTail_range hb
  unfold encodeChar tailBits
  rw [toNat_ofNat_valid (by omega)]
  dsimp only
  rw [if_neg (by omega), if_pos (by omega), ofNat_eq_byte (b := lead) (by omega),
    ofNat_eq_byte (b := b) (by omega)]

theorem encodeChar_three (hlow : 0xE0 ≤ lead.toNat) (h : lead.toNat < 0xF0)
    (hb : isSecondOfThree lead b = true) (hd : isTail d = true) :
    encodeChar (Char.ofNat (((lead.toNat - 0xE0) * 64 + tailBits b) * 64 + tailBits d)) =
      [lead, b, d] := by
  unfold isSecondOfThree at hb
  simp only [Bool.and_eq_true, Bool.or_eq_true, bne_iff_ne, ne_eq, decide_eq_true_eq] at hb
  have hsecond := isTail_range hb.1.1
  have hthird := isTail_range hd
  unfold encodeChar tailBits
  rw [toNat_ofNat_valid (by omega)]
  dsimp only
  rw [if_neg (by omega), if_neg (by omega), if_pos (by omega), ofNat_eq_byte (b := lead) (by omega),
    ofNat_eq_byte (b := b) (by omega), ofNat_eq_byte (b := d) (by omega)]

theorem encodeChar_four (hlow : 0xF0 ≤ lead.toNat) (h : lead.toNat < 0xF5)
    (hb : isSecondOfFour lead b = true) (hd : isTail d = true) (he : isTail e = true) :
    encodeChar (Char.ofNat ((((lead.toNat - 0xF0) * 64 + tailBits b) * 64 + tailBits d) * 64 +
      tailBits e)) = [lead, b, d, e] := by
  unfold isSecondOfFour at hb
  simp only [Bool.and_eq_true, Bool.or_eq_true, bne_iff_ne, ne_eq, decide_eq_true_eq] at hb
  have hsecond := isTail_range hb.1.1
  have hthird := isTail_range hd
  have hfourth := isTail_range he
  unfold encodeChar tailBits
  rw [toNat_ofNat_valid (by omega)]
  dsimp only
  rw [if_neg (by omega), if_neg (by omega), if_neg (by omega), ofNat_eq_byte (b := lead) (by omega),
    ofNat_eq_byte (b := b) (by omega), ofNat_eq_byte (b := d) (by omega),
    ofNat_eq_byte (b := e) (by omega)]

/-- **What is read as a character are its bytes.** -/
theorem encodeChar_of_next {rest after : List UInt8} {c : Char}
    (h : next lead rest = (some c, after)) : lead :: rest = encodeChar c ++ after := by
  unfold next at h
  rcases hannounced : announced? lead with _ | ⟨bits, tests⟩
  · rw [hannounced] at h
    exact absurd (congrArg Prod.fst h) (by simp)
  · rw [hannounced] at h
    obtain ⟨hchar, hafter⟩ := Prod.mk.inj h
    obtain ⟨n, hn, rfl⟩ := Option.map_eq_some_iff.mp hchar
    have hfollow : follow tests bits rest = (some n, after) := Prod.ext hn hafter
    -- The lead byte announces one of four forms.
    unfold announced? at hannounced
    dsimp only at hannounced
    split_ifs at hannounced with hone hlow htwo hthree hfour <;>
      obtain ⟨rfl, rfl⟩ := Prod.mk.inj (Option.some.inj hannounced)
    · obtain ⟨hvalue, rfl⟩ := Prod.mk.inj hfollow
      unfold encodeChar
      rw [← Option.some.inj hvalue, toNat_ofNat_valid (by omega), if_pos hone, ofNat_eq_byte rfl]
      rfl
    · obtain ⟨b, tail, rfl, hb, hend⟩ := follow_cons_eq hfollow
      obtain ⟨hvalue, rfl⟩ := Prod.mk.inj hend
      rw [← Option.some.inj hvalue, encodeChar_two (by omega) htwo hb]
      rfl
    · obtain ⟨b, tail, rfl, hb, hmore⟩ := follow_cons_eq hfollow
      obtain ⟨d, tail, rfl, hd, hend⟩ := follow_cons_eq hmore
      obtain ⟨hvalue, rfl⟩ := Prod.mk.inj hend
      rw [← Option.some.inj hvalue, encodeChar_three (by omega) hthree hb hd]
      rfl
    · obtain ⟨b, tail, rfl, hb, hmore⟩ := follow_cons_eq hfollow
      obtain ⟨d, tail, rfl, hd, hmore⟩ := follow_cons_eq hmore
      obtain ⟨e, tail, rfl, he, hend⟩ := follow_cons_eq hmore
      obtain ⟨hvalue, rfl⟩ := Prod.mk.inj hend
      rw [← Option.some.inj hvalue, encodeChar_four (by omega) hfour hb hd he]
      rfl

end Accepted

/-- **What is decoded strictly is the text's encoding**, and nothing else is. -/
theorem decode?_eq_some_iff {bs : List UInt8} {cs : List Char} :
    decode? bs = some cs ↔ bs = encode cs := by
  constructor
  · intro h
    induction cs generalizing bs with
    | nil =>
      rcases bs with _ | ⟨lead, rest⟩
      · rfl
      · rw [decode?] at h
        rcases hchar : (next lead rest).1 with _ | c
        · rw [hchar] at h
          exact absurd h (by simp)
        · rw [hchar] at h
          exact absurd h (by simp)
    | cons c cs ih =>
      rcases bs with _ | ⟨lead, rest⟩
      · rw [decode?] at h
        exact absurd h (by simp)
      · rw [decode?] at h
        rcases hchar : (next lead rest).1 with _ | d
        · rw [hchar] at h
          exact absurd h (by simp)
        · rw [hchar] at h
          obtain ⟨tail, htail, heq⟩ := Option.map_eq_some_iff.mp h
          obtain ⟨rfl, rfl⟩ := List.cons.inj heq
          have hnext : next lead rest = (some d, (next lead rest).2) := Prod.ext hchar rfl
          rw [encodeChar_of_next hnext, ih htail]
          exact List.flatMap_cons.symm
  · rintro rfl
    exact decode?_encode cs

/-! ## The bytes of a text -/

theorem encode_append (xs ys : List Char) : encode (xs ++ ys) = encode xs ++ encode ys :=
  List.flatMap_append

theorem encode_cons (c : Char) (cs : List Char) : encode (c :: cs) = encodeChar c ++ encode cs :=
  List.flatMap_cons

theorem encodeChar_ne_nil (c : Char) : encodeChar c ≠ [] := by
  unfold encodeChar
  dsimp only
  split_ifs <;> simp

theorem encode_ne_nil {cs : List Char} (h : cs ≠ []) : encode cs ≠ [] := by
  obtain ⟨c, tail, rfl⟩ := List.exists_cons_of_ne_nil h
  rw [encode_cons]
  exact List.append_ne_nil_of_left_ne_nil (encodeChar_ne_nil c) _

/-- No character takes less than a byte. -/
theorem length_le_encode (cs : List Char) : cs.length ≤ (encode cs).length := by
  induction cs with
  | nil => exact Nat.le_refl 0
  | cons c cs ih =>
    have hc := List.length_pos_of_ne_nil (encodeChar_ne_nil c)
    rw [encode_cons, List.length_append, List.length_cons]
    omega

/-- An ASCII byte is the whole of an ASCII character. -/
theorem encodeChar_of_ascii {c : Char} {b : UInt8} (hb : b ∈ encodeChar c) (hascii : b.toNat < 0x80) :
    c.toNat = b.toNat ∧ encodeChar c = [b] := by
  have hvalid := toNat_range c
  unfold encodeChar at hb ⊢
  dsimp only at hb ⊢
  split_ifs at hb ⊢ with hone htwo hthree
  · obtain rfl := List.mem_singleton.mp hb
    rw [toNat_byte (by omega)]
    exact ⟨rfl, rfl⟩
  -- Every byte of the longer forms is above the ASCII range.
  · simp only [List.mem_cons, List.not_mem_nil, or_false] at hb
    rcases hb with rfl | rfl <;> rw [toNat_byte (by omega)] at hascii <;> omega
  · simp only [List.mem_cons, List.not_mem_nil, or_false] at hb
    rcases hb with rfl | rfl | rfl <;> rw [toNat_byte (by omega)] at hascii <;> omega
  · simp only [List.mem_cons, List.not_mem_nil, or_false] at hb
    rcases hb with rfl | rfl | rfl | rfl <;> rw [toNat_byte (by omega)] at hascii <;> omega

/-- An ASCII byte occurs in the bytes of a text only if its character occurs in the text. -/
theorem mem_of_mem_encode {cs : List Char} {a : Char} {b : UInt8} (ha : a.toNat = b.toNat)
    (hascii : b.toNat < 0x80) (hb : b ∈ encode cs) : a ∈ cs := by
  obtain ⟨c, hc, hbc⟩ := List.mem_flatMap.mp hb
  obtain ⟨hcode, -⟩ := encodeChar_of_ascii hbc hascii
  have hsame : a = c := Char.toNat_inj.mp (ha.trans hcode.symm)
  rw [hsame]
  exact hc

end FlowWatch.Text.Utf8
