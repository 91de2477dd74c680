/-
Text as a terminal would show it: without control sequences.

The escape character begins a sequence, and the characters behind it say where the sequence ends:
a command at a letter or sign, a title at a bell, a string at its terminator. Nothing of a sequence
is shown, with one exception: white space inside a command is shown, and so is the text behind it,
up to the next control character. Outside of sequences everything is shown but the control
characters other than white space.
-/

set_option autoImplicit false

namespace FlowWatch.Text.Terminal

/-! ## Characters -/

/-- Begins a sequence, wherever it stands. -/
def escape : Char := '\x1b'

/-- The two characters that cancel a sequence. -/
def cancels (c : Char) : Bool := c == '\x18' || c == '\x1a'

/-- The control characters that are white space. -/
def isSpacing (c : Char) : Bool := c == '\t' || c == '\n' || c == '\x0c' || c == '\r'

/-- Whether a character is shown outside of sequences. -/
def isShown (c : Char) : Bool := isSpacing c || (0x20 ≤ c.toNat && c.toNat != 0x7F)

/-- Whether a character ends a string: one of the bytes it is written with is the terminator. -/
def terminates (c : Char) : Bool := (String.utf8EncodeChar c).contains 0x9C

/-- Whether a character lies between two others. -/
def between (low high c : Char) : Bool := low ≤ c && c ≤ high

/-! ## Sequences -/

/-- The kinds of sequences, as far as they have been read. -/
inductive Sequence where
  /-- Nothing but the escape character. -/
  | begun
  /-- Intermediate characters, which one more character ends. -/
  | intermediate
  /-- A command with its parameters. -/
  | command
  /-- The letter that announces a device string. -/
  | device
  | deviceParameters
  | deviceIntermediate
  /-- A string up to its terminator. -/
  | string
  | title
  deriving DecidableEq, Repr

namespace Sequence

/-- Whether white space inside the sequence is shown. -/
def showsSpacing : Sequence → Bool
  | .begun | .intermediate | .command => true
  | _ => false

/-- The sequence after one more character, or none if that was its last one. A character that has
no meaning there is passed over. -/
def next? : Sequence → Char → Option Sequence
  | .begun, c =>
    if between ' ' '/' c then some .intermediate
    else if c == '[' then some .command
    else if c == ']' then some .title
    else if c == 'P' then some .device
    else if c == 'X' || c == '^' || c == '_' then some .string
    else if between '0' '~' c then none
    else some .begun
  | .intermediate, c => if between '0' '~' c then none else some .intermediate
  | .command, c => if between '@' '~' c then none else some .command
  | .device, c =>
    if between ' ' '/' c then some .deviceIntermediate
    else if between '0' '?' c then some .deviceParameters
    else if between '@' '~' c then some .string
    else some .device
  | .deviceParameters, c =>
    if between ' ' '/' c then some .deviceIntermediate
    else if between '<' '~' c then some .string
    else some .deviceParameters
  | .deviceIntermediate, c => if between '0' '~' c then some .string else some .deviceIntermediate
  | .string, c => if terminates c then none else some .string
  | .title, c => if c == '\x07' then none else some .title

end Sequence

/-! ## Showing -/

/-- Where a reader stands in a text. -/
inductive Place where
  | text
  | inside (s : Sequence)
  /-- In text that follows white space inside a sequence, which a control character resumes. -/
  | aside (s : Sequence)
  deriving DecidableEq, Repr

/-- Reads one character: the place behind it, and whether it is shown. -/
def Place.step (p : Place) (c : Char) : Place × Bool :=
  if c == escape then (.inside .begun, false)
  else if cancels c then (.text, false)
  else
    match p with
    | .text => (.text, isShown c)
    | .inside s =>
      if s.showsSpacing && isSpacing c then (.aside s, true)
      else
        match s.next? c with
        | some s => (.inside s, false)
        | none => (.text, false)
    | .aside s =>
      if !isShown c then (.inside s, false)
      -- A character beyond ASCII ends the sequence for good.
      else if c.toNat < 0x80 then (.aside s, true)
      else (.text, true)

/-- What is shown of a text from a place on. -/
def shownFrom : Place → List Char → List Char
  | _, [] => []
  | p, c :: cs =>
    match p.step c with
    | (p, true) => c :: shownFrom p cs
    | (p, false) => shownFrom p cs

/-- What is shown of a text. -/
def shown (s : String) : String := String.ofList (shownFrom .text s.toList)

/-- Text without control characters is shown as it is. -/
theorem shownFrom_text_of_isShown (cs : List Char) (h : ∀ c ∈ cs, isShown c = true) :
    shownFrom .text cs = cs := by
  induction cs with
  | nil => rfl
  | cons c cs ih =>
    have hc : isShown c = true := h c List.mem_cons_self
    have hescape : (c == escape) = false := by
      rw [beq_eq_false_iff_ne]
      rintro rfl
      exact absurd hc (by decide)
    have hcancels : cancels c = false := by
      rw [cancels, Bool.or_eq_false_iff, beq_eq_false_iff_ne, beq_eq_false_iff_ne]
      constructor <;> rintro rfl <;> exact absurd hc (by decide)
    have hrest := ih fun d hd => h d (List.mem_cons_of_mem c hd)
    simp only [shownFrom, Place.step, hescape, hcancels, hc, hrest, Bool.false_eq_true,
      ite_false]

end FlowWatch.Text.Terminal
