/-
Numbers in captures, written and read.

A capture is bytes behind bytes: what is read at a place is what was written there, whatever stands before
and behind it. So each reader is said to pass over what it does not read (`append`), and to get back what
was written where it begins.
-/
import FlowWatch.Capture.Block

set_option autoImplicit false

namespace FlowWatch

namespace Frame

variable {xs ys : List UInt8} {i j : Nat}

theorem byteAt_append (h : j = xs.length + i) : byteAt (xs ++ ys) j = byteAt ys i := by
  unfold byteAt
  rw [h, List.getElem?_append_right (Nat.le_add_right _ _), Nat.add_sub_cancel_left]

theorem wordAt_append (h : j = xs.length + i) : wordAt (xs ++ ys) j = wordAt ys i := by
  unfold wordAt
  rw [byteAt_append h, byteAt_append (i := i + 1) (by omega)]

theorem longAt_append (h : j = xs.length + i) : longAt (xs ++ ys) j = longAt ys i := by
  unfold longAt
  rw [wordAt_append h, wordAt_append (i := i + 2) (by omega)]

theorem sliceAt_append (h : j = xs.length + i) (n : Nat) :
    sliceAt (xs ++ ys) j n = sliceAt ys i n := by
  unfold sliceAt
  rw [h, List.drop_append, List.drop_eq_nil_of_le (Nat.le_add_right _ _), List.nil_append,
    Nat.add_sub_cancel_left]

/-- The slice that was written. -/
theorem sliceAt_self (xs ys : List UInt8) : sliceAt (xs ++ ys) 0 xs.length = xs :=
  List.take_left' rfl

end Frame

namespace Capture.ByteOrder

variable (o : ByteOrder) {xs ys : List UInt8} {i j : Nat}

/-- A 16-bit number in two bytes. -/
def wordBytes (n : Nat) : List UInt8 :=
  match o with
  | .big => [UInt8.ofNat (n / 256), UInt8.ofNat n]
  | .little => [UInt8.ofNat n, UInt8.ofNat (n / 256)]

/-- A 32-bit number in four bytes. -/
def longBytes (n : Nat) : List UInt8 :=
  match o with
  | .big => o.wordBytes (n / 65536) ++ o.wordBytes n
  | .little => o.wordBytes n ++ o.wordBytes (n / 65536)

@[simp] theorem length_wordBytes (n : Nat) : (o.wordBytes n).length = 2 := by
  cases o <;> rfl

@[simp] theorem length_longBytes (n : Nat) : (o.longBytes n).length = 4 := by
  cases o <;> rfl

theorem word_append (h : j = xs.length + i) : o.word (xs ++ ys) j = o.word ys i := by
  cases o with
  | little =>
    unfold word
    rw [Frame.byteAt_append h, Frame.byteAt_append (i := i + 1) (by omega)]
  | big => exact Frame.wordAt_append h

theorem long_append (h : j = xs.length + i) : o.long (xs ++ ys) j = o.long ys i := by
  cases o <;> unfold long <;> rw [word_append _ h, word_append _ (i := i + 2) (by omega)]

/-- A 16-bit number is read as it was written. -/
theorem word_wordBytes (n : Nat) : o.word (o.wordBytes n ++ ys) 0 = n % 65536 := by
  have hbyte : ∀ m : Nat, (UInt8.ofNat m).toNat = m % 256 := fun _ => UInt8.toNat_ofNat'
  cases o <;> simp only [word, wordBytes, Frame.wordAt, Frame.byteAt, List.cons_append,
    List.nil_append, List.getElem?_cons_zero, List.getElem?_cons_succ, Option.getD_some, hbyte] <;>
    omega

/-- A 32-bit number is read as it was written. -/
theorem long_longBytes (n : Nat) : o.long (o.longBytes n ++ ys) 0 = n % 4294967296 := by
  cases o <;> simp only [long, longBytes, List.append_assoc] <;>
    rw [word_wordBytes, word_append _ (i := 0) (by rw [length_wordBytes]), word_wordBytes] <;>
    omega

/-- A number that fits is read as it was written, behind what comes before it. -/
theorem word_field {n : Nat} (hn : n < 65536) (h : j = xs.length) :
    o.word (xs ++ (o.wordBytes n ++ ys)) j = n := by
  rw [o.word_append (i := 0) h, word_wordBytes, Nat.mod_eq_of_lt hn]

theorem long_field {n : Nat} (hn : n < 4294967296) (h : j = xs.length) :
    o.long (xs ++ (o.longBytes n ++ ys)) j = n := by
  rw [o.long_append (i := 0) h, long_longBytes, Nat.mod_eq_of_lt hn]

end Capture.ByteOrder

end FlowWatch
