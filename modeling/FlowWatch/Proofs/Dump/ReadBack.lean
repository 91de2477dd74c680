/-
A dump with payloads is read back from its text.

The reader knows the form of a dump and nothing of the segments. It cuts the text at its line feeds, takes
every line that is not indented for the line of a segment, and reads the indented lines below it as rows:
an offset and some bytes. What it finds is what was recorded (`readBack?_verboseText`). A payload has no
say in where lines begin and end, because its bytes are shown as hexadecimal digits, and as themselves
only where they are printable; and it cannot pass for the line of a segment, because its rows are indented.
-/
import FlowWatch.Dump
import FlowWatch.Proofs.Text.Printable
import Mathlib.Data.List.Range

set_option autoImplicit false

namespace FlowWatch

open Text

namespace Dump

/-! ## Reading -/

/-- A row of a payload. -/
structure Row where
  offset : Nat
  bytes : List UInt8
  deriving DecidableEq, Repr

/-- The line of a segment, and the rows below it. -/
structure Entry where
  headline : List Char
  rows : List Row
  deriving DecidableEq, Repr

/-- The number written by hexadecimal digits. -/
def hexValue? (cs : List Char) : Option Nat :=
  cs.foldlM (fun v c => (hexDigit? c).map fun d => 16 * v + d) 0

/-- The bytes in a column, two digits each, whatever blanks there are between them. -/
def columnBytes? : List Char → Option (List UInt8)
  | [] => some []
  | [c] => if c = ' ' then some [] else none
  | c :: d :: rest =>
    if c = ' ' then columnBytes? (d :: rest)
    else do
      let high ← hexDigit? c
      let low ← hexDigit? d
      let bytes ← columnBytes? rest
      some (UInt8.ofNat (16 * high + low) :: bytes)

/-- Whether a line begins with four blanks. -/
def isIndented (line : List Char) : Bool := line.take 4 == [' ', ' ', ' ', ' ']

/-- The width of the column with the bytes. -/
def columnWidth : Nat := 47

/-- Reads a row: behind the indentation an offset, two blanks, and the column with the bytes. -/
def Row.ofLine? (line : List Char) : Option Row :=
  if isIndented line then do
    let columns := line.drop 4
    let offset ← hexValue? (columns.takeWhile (· ≠ ' '))
    let bytes ← columnBytes? (((columns.dropWhile (· ≠ ' ')).drop 2).take columnWidth)
    some ⟨offset, bytes⟩
  else none

/-- The lines of a text, each of which a line feed has to end. -/
def lines? (text : List Char) : Option (List (List Char)) :=
  let pieces := text.splitOn '\n'
  if pieces.getLast? = some [] then some pieces.dropLast else none

/-- Every line that is not indented opens an entry, and the indented ones up to the next are its rows. -/
def entries? : List (List Char) → Option (List Entry)
  | [] => some []
  | line :: rest =>
    if isIndented line then none
    else do
      let rows ← (rest.takeWhile isIndented).mapM Row.ofLine?
      let entries ← entries? (rest.dropWhile isIndented)
      some (⟨line, rows⟩ :: entries)
termination_by lines => lines.length
decreasing_by exact Nat.lt_succ_of_le (List.length_dropWhile_le _ _)

/-- Reads a dump. -/
def readBack? (text : List Char) : Option (List Entry) := lines? text >>= entries?

/-! ## Rows -/

/-- The rows of a payload: sixteen bytes each, and what is left in the last one. -/
def rowsOf (payload : List UInt8) : List Row :=
  (List.range ((payload.length + 15) / 16)).map fun k =>
    ⟨16 * k, (payload.drop (16 * k)).take 16⟩

theorem payloadRows_eq (offset : Nat) (bytes : List UInt8) :
    payloadRows offset bytes = (List.range ((bytes.length + 15) / 16)).map fun k =>
      payloadRow (offset + 16 * k) ((bytes.drop (16 * k)).take 16) := by
  fun_induction payloadRows offset bytes with
  | case1 offset => rfl
  | case2 offset b bs ih =>
    -- The first row takes up to sixteen bytes, and the rows of the rest count from sixteen on.
    have hcount : ((b :: bs).length + 15) / 16 = (((b :: bs).drop 16).length + 15) / 16 + 1 := by
      rw [List.length_drop, List.length_cons]
      omega
    rw [rowLength] at ih ⊢
    rw [ih, hcount, List.range_succ_eq_map, List.map_cons, List.map_map]
    refine congrArg₂ List.cons rfl (List.map_congr_left fun k _ => ?_)
    rw [Function.comp_apply, List.drop_drop, Nat.mul_succ, Nat.add_assoc, Nat.add_comm 16]

theorem payloadRows_zero (payload : List UInt8) :
    payloadRows 0 payload = (rowsOf payload).map fun row => payloadRow row.offset row.bytes := by
  rw [payloadRows_eq, rowsOf, List.map_map]
  refine List.map_congr_left fun k _ => ?_
  rw [Function.comp_apply, Nat.zero_add]

/-- The rows hold the payload. -/
theorem flatMap_rowsOf (payload : List UInt8) :
    (rowsOf payload).flatMap (·.bytes) = payload := by
  have htake : ∀ n, (List.range n).flatMap (fun k => (payload.drop (16 * k)).take 16) =
      payload.take (16 * n) := by
    intro n
    induction n with
    | zero => rfl
    | succ n ih =>
      rw [List.range_succ, List.flatMap_append, ih, List.flatMap_singleton, Nat.mul_succ,
        List.take_add]
  rw [rowsOf, List.flatMap_map, htake]
  exact List.take_of_length_le (by omega)

/-! ## Reading a row -/

theorem hexValue?_append {cs ds : List Char} {v : Nat} (h : hexValue? cs = some v) :
    hexValue? (cs ++ ds) = ds.foldlM (fun v c => (hexDigit? c).map fun d => 16 * v + d) v := by
  unfold hexValue? at h ⊢
  rw [List.foldlM_append, h]
  rfl

theorem hexValue?_hexadecimal (n : Nat) : hexValue? (hexadecimal n) = some n := by
  unfold hexadecimal
  fun_induction numeral 14 n with
  | case1 n hn => simp [hexValue?, hexDigit?_digitChar n hn]
  | case2 n hn ih =>
    have hlast := hexDigit?_digitChar (n % 16) (Nat.mod_lt _ (by decide))
    rw [hexValue?_append ih]
    simp only [List.foldlM_cons, List.foldlM_nil, hlast, Option.map_some, Option.bind_eq_bind,
      Option.bind_some, Option.pure_def, Option.some.injEq]
    omega

theorem hexValue?_zeros (k : Nat) : hexValue? (List.replicate k '0') = some 0 := by
  induction k with
  | zero => rfl
  | succ k ih =>
    rw [List.replicate_succ', hexValue?_append ih]
    rfl

/-- The zeros in front of an offset have no say in it. -/
theorem hexValue?_padLeft (w n : Nat) : hexValue? (padLeft '0' w (hexadecimal n)) = some n := by
  rw [padLeft, hexValue?_append (hexValue?_zeros _)]
  exact hexValue?_hexadecimal n

theorem columnBytes?_blank (cs : List Char) : columnBytes? (' ' :: cs) = columnBytes? cs := by
  cases cs with
  | nil => rfl
  | cons c cs => simp [columnBytes?]

theorem columnBytes?_blanks (k : Nat) : columnBytes? (List.replicate k ' ') = some [] := by
  induction k with
  | zero => rfl
  | succ k ih => rw [List.replicate_succ, columnBytes?_blank, ih]

theorem columnBytes?_hexByte (b : UInt8) {cs : List Char} {bytes : List UInt8}
    (h : columnBytes? cs = some bytes) : columnBytes? (hexByte b ++ cs) = some (b :: bytes) := by
  have hb := b.toNat_lt
  have hhigh := hexDigit?_digitChar (b.toNat / 16) (by omega)
  have hlow := hexDigit?_digitChar (b.toNat % 16) (by omega)
  have hdigit : digitChar (b.toNat / 16) ≠ ' ' := by
    intro hblank
    rw [hblank] at hhigh
    cases hhigh
  have hbyte : UInt8.ofNat (16 * (b.toNat / 16) + b.toNat % 16) = b := by
    rw [Nat.div_add_mod, UInt8.ofNat_toNat]
  simp only [hexByte, List.cons_append, List.nil_append, columnBytes?, if_neg hdigit, hhigh, hlow,
    h, hbyte, Option.bind_eq_bind, Option.bind_some]

/-- The bytes of a row with blanks between them and behind them. -/
theorem columnBytes?_column (row : List UInt8) (k : Nat) :
    columnBytes? ([' '].intercalate (row.map hexByte) ++ List.replicate k ' ') = some row := by
  induction row with
  | nil => exact columnBytes?_blanks k
  | cons b row ih =>
    rcases row with _ | ⟨b', row⟩
    · exact columnBytes?_hexByte b (columnBytes?_blanks k)
    · rw [List.map_cons, List.map_cons, List.intercalate_cons_cons, List.append_assoc,
        List.append_assoc]
      refine columnBytes?_hexByte b ?_
      rw [List.singleton_append, columnBytes?_blank]
      exact ih

theorem length_column (row : List UInt8) :
    ([' '].intercalate (row.map hexByte)).length = 3 * row.length - 1 := by
  induction row with
  | nil => rfl
  | cons b row ih =>
    rcases row with _ | ⟨b', row⟩
    · rfl
    · rw [List.map_cons, List.map_cons, List.intercalate_cons_cons, List.length_append,
        List.length_append, ← List.map_cons, ih]
      simp only [hexByte, List.length_cons, List.length_nil]
      omega

theorem not_blank_of_mem_offset {w n : Nat} {c : Char}
    (hc : c ∈ padLeft '0' w (hexadecimal n)) : c ≠ ' ' := by
  rintro rfl
  rcases List.mem_append.mp hc with hzero | hdigit
  · exact absurd (List.eq_of_mem_replicate hzero) (by decide)
  · exact not_mem_hexadecimal rfl n hdigit

/-- A row of up to sixteen bytes is read back, however great its offset is. -/
theorem ofLine?_payloadRow (offset : Nat) {row : List UInt8} (hrow : row.length ≤ 16) :
    Row.ofLine? (payloadRow offset row) = some ⟨offset, row⟩ := by
  have hdigits : ∀ c ∈ padLeft '0' 4 (hexadecimal offset), decide (c ≠ ' ') = true :=
    fun c hc => decide_eq_true (not_blank_of_mem_offset hc)
  have hwidth : (padRight 47 ([' '].intercalate (row.map hexByte))).length = columnWidth := by
    rw [padRight, List.length_append, List.length_replicate, length_column, columnWidth]
    omega
  have hline : payloadRow offset row = ' ' :: ' ' :: ' ' :: ' ' ::
      (padLeft '0' 4 (hexadecimal offset) ++ ' ' :: ' ' ::
        (padRight 47 ([' '].intercalate (row.map hexByte)) ++ ' ' :: ' ' :: row.map shownByte)) := by
    unfold payloadRow
    simp only [List.append_assoc]
    rfl
  have hindented : isIndented (payloadRow offset row) = true := by
    rw [hline]
    rfl
  rw [Row.ofLine?, if_pos hindented, hline]
  simp only [List.drop_succ_cons, List.drop_zero, List.takeWhile_append_of_pos hdigits,
    List.dropWhile_append_of_pos hdigits]
  rw [List.takeWhile_cons_of_neg (by decide), List.dropWhile_cons_of_neg (by decide),
    List.append_nil, hexValue?_padLeft]
  simp only [List.drop_succ_cons, List.drop_zero, List.take_left' hwidth]
  rw [padRight, columnBytes?_column]
  rfl

/-! ## Reading the entries -/

/-- What is read of a segment. -/
def Entry.ofSegment (s : Segment) : Entry := ⟨headlineChars s, rowsOf s.payload⟩

theorem isIndented_headlineChars (s : Segment) : isIndented (headlineChars s) = false := by
  obtain ⟨rest, hrest⟩ : ∃ rest, headlineChars s = "TCP  ".toList ++ rest := by
    unfold headlineChars
    simp only [List.append_assoc]
    exact ⟨_, rfl⟩
  rw [hrest]
  rfl

theorem isIndented_payloadRow (offset : Nat) (row : List UInt8) :
    isIndented (payloadRow offset row) = true := by
  unfold payloadRow
  rfl

theorem isIndented_of_mem_payloadRows {payload line : List _} (h : line ∈ payloadRows 0 payload) :
    isIndented line = true := by
  rw [payloadRows_zero] at h
  obtain ⟨row, -, rfl⟩ := List.mem_map.mp h
  exact isIndented_payloadRow row.offset row.bytes

theorem mapM_payloadRows (payload : List UInt8) :
    (payloadRows 0 payload).mapM Row.ofLine? = some (rowsOf payload) := by
  have hread : ∀ row ∈ rowsOf payload,
      Row.ofLine? (payloadRow row.offset row.bytes) = some row := by
    intro row hrow
    obtain ⟨k, -, rfl⟩ := List.mem_map.mp hrow
    exact ofLine?_payloadRow _ (List.length_take_le _ _)
  rw [payloadRows_zero, List.mapM_map]
  generalize rowsOf payload = rows at hread
  induction rows with
  | nil => rfl
  | cons row rows ih =>
    rw [List.mapM_cons, Function.comp_apply, hread row List.mem_cons_self,
      ih fun r hr => hread r (List.mem_cons_of_mem row hr)]
    rfl

/-- The rows of a segment end where the line of the next one begins, or with the dump. -/
theorem rows_end (segments : List Segment) :
    (segments.flatMap (lines true)).takeWhile isIndented = [] ∧
      (segments.flatMap (lines true)).dropWhile isIndented = segments.flatMap (lines true) := by
  cases segments with
  | nil => exact ⟨rfl, rfl⟩
  | cons s segments =>
    have hline : ¬ isIndented (headlineChars s) = true :=
      Bool.eq_false_iff.mp (isIndented_headlineChars s)
    exact ⟨List.takeWhile_cons_of_neg hline, List.dropWhile_cons_of_neg hline⟩

/-- The lines of segments are read entry by entry. -/
theorem entries?_lines (segments : List Segment) :
    entries? (segments.flatMap (lines true)) = some (segments.map Entry.ofSegment) := by
  induction segments with
  | nil => rw [List.flatMap_nil, entries?, List.map_nil]
  | cons s segments ih =>
    have hrows : ∀ line ∈ payloadRows 0 s.payload, isIndented line = true :=
      fun line => isIndented_of_mem_payloadRows
    obtain ⟨htake, hdrop⟩ := rows_end segments
    rw [List.flatMap_cons, lines, if_pos rfl, List.cons_append, entries?,
      if_neg (Bool.eq_false_iff.mp (isIndented_headlineChars s)),
      List.takeWhile_append_of_pos hrows, List.dropWhile_append_of_pos hrows, htake, hdrop, ih,
      List.append_nil, mapM_payloadRows]
    rfl

/-! ## Printable lines -/

theorem all_isPrintable_flagText (f : TcpFlags) : (flagText f).all isPrintable = true := by
  refine all_isPrintable_intercalate (by decide) fun name hname => ?_
  obtain ⟨flag, hflag, rfl⟩ := List.mem_map.mp hname
  have hnames : ∀ flag ∈ [(f.syn, "SYN"), (f.fin, "FIN"), (f.rst, "RST"), (f.psh, "PSH"),
      (f.ack, "ACK")], flag.2.toList.all isPrintable = true := by
    simp [isPrintable]
  exact hnames flag (List.mem_filter.mp hflag).1

theorem all_isPrintable_headlineChars (s : Segment) :
    (headlineChars s).all isPrintable = true := by
  unfold headlineChars directionText Flow.sender Flow.receiver
  simp only [String.toList_ofList, List.all_append, all_isPrintable_padRight,
    all_isPrintable_decimal, Address.all_isPrintable_endpoint, Instant.all_isPrintable_shown,
    all_isPrintable_flagText]
  decide

theorem isPrintable_shownByte (b : UInt8) : isPrintable (shownByte b) = true := by
  unfold shownByte
  split_ifs with hb
  · have hvalid : b.toNat.isValidChar := .inl (b.toNat_lt.trans (by decide))
    have hchar : (Char.ofNat b.toNat).toNat = b.toNat := by
      rw [Char.ofNat, dif_pos hvalid]
      rfl
    rwa [isPrintable, hchar]
  · decide

theorem all_isPrintable_payloadRow (offset : Nat) (row : List UInt8) :
    (payloadRow offset row).all isPrintable = true := by
  have hcolumn : ([' '].intercalate (row.map hexByte)).all isPrintable = true := by
    refine all_isPrintable_intercalate (by decide) fun x hx => ?_
    obtain ⟨b, -, rfl⟩ := List.mem_map.mp hx
    exact all_isPrintable_hexByte b
  have hshown : (row.map shownByte).all isPrintable = true := by
    rw [List.all_map]
    exact List.all_eq_true.mpr fun b _ => isPrintable_shownByte b
  unfold payloadRow
  simp only [List.all_append, all_isPrintable_padLeft (show isPrintable '0' = true by
    decide), all_isPrintable_hexadecimal, all_isPrintable_padRight, hcolumn, hshown]
  decide

theorem all_isPrintable_lines {s : Segment} {line : List Char} (h : line ∈ lines true s) :
    line.all isPrintable = true := by
  rcases List.mem_cons.mp h with rfl | hrow
  · exact all_isPrintable_headlineChars s
  · rw [if_pos rfl, payloadRows_zero] at hrow
    obtain ⟨row, -, rfl⟩ := List.mem_map.mp hrow
    exact all_isPrintable_payloadRow row.offset row.bytes

/-! ## Recording -/

/-- The dump of some segments into memory, in order. -/
def recording (segments : List Segment) : Writer (List String) :=
  segments.foldl (fun w s => (w.record s).1) (toMemory true)

/-- The text of a dump with payloads. -/
def verboseText (segments : List Segment) : List Char :=
  (memoryText (recording segments).state).toList

theorem writeLines_memory (texts : List String) (ls : List (List Char)) :
    writeLines memory texts ls = ((ls.map terminated).reverse ++ texts, true) := by
  induction ls generalizing texts with
  | nil => rfl
  | cons l ls ih =>
    rw [writeLines]
    change writeLines memory (terminated l :: texts) ls = _
    rw [ih, List.map_cons, List.reverse_cons, List.append_assoc]
    rfl

/-- A memory takes every line of a segment. -/
theorem record_memory (texts : List String) (s : Segment) :
    Writer.record ⟨memory, true, texts⟩ s =
      (⟨memory, true, ((lines true s).map terminated).reverse ++ texts⟩, true) := by
  unfold Writer.record
  rw [writeLines_memory]

theorem recording_eq (segments : List Segment) :
    recording segments =
      ⟨memory, true, ((segments.flatMap (lines true)).map terminated).reverse⟩ := by
  induction segments using List.reverseRecOn with
  | nil => rfl
  | append_singleton segments s ih =>
    have hlast : recording (segments ++ [s]) = ((recording segments).record s).1 :=
      List.foldl_concat ..
    rw [hlast, ih, record_memory, List.flatMap_append, List.flatMap_singleton, List.map_append,
      List.reverse_append]

/-- A dump is its lines, each with a line feed at its end. -/
theorem verboseText_eq (segments : List Segment) :
    verboseText segments = (segments.flatMap (lines true)).flatMap (· ++ ['\n']) := by
  rw [verboseText, memoryText, recording_eq, List.reverse_reverse, String.toList_join,
    List.flatMap_map]
  refine List.flatMap_congr fun line _ => ?_
  rw [terminated, String.toList_ofList]

/-! ## Lines of a text -/

theorem flatMap_terminated (ls : List (List Char)) :
    ls.flatMap (· ++ ['\n']) = ['\n'].intercalate (ls ++ [[]]) := by
  induction ls with
  | nil => rfl
  | cons l ls ih =>
    rw [List.flatMap_cons, ih, List.cons_append, List.intercalate_cons_of_ne_nil (by simp)]

/-- Lines that hold no line feed are cut out of the text that they make. -/
theorem lines?_terminated {ls : List (List Char)} (h : ∀ l ∈ ls, '\n' ∉ l) :
    lines? (ls.flatMap (· ++ ['\n'])) = some ls := by
  have hpieces : (ls.flatMap (· ++ ['\n'])).splitOn '\n' = ls ++ [[]] := by
    rw [flatMap_terminated]
    refine List.splitOn_intercalate '\n' (fun l hl => ?_) (by simp)
    rcases List.mem_append.mp hl with hl | hl
    · exact h l hl
    · rw [List.mem_singleton.mp hl]
      exact List.not_mem_nil
  rw [lines?]
  simp [hpieces]

theorem lines?_verboseText (segments : List Segment) :
    lines? (verboseText segments) = some (segments.flatMap (lines true)) := by
  rw [verboseText_eq]
  refine lines?_terminated fun line hline hfeed => ?_
  obtain ⟨s, -, hs⟩ := List.mem_flatMap.mp hline
  exact absurd (List.all_eq_true.mp (all_isPrintable_lines hs) _ hfeed) (by decide)

/-- The lines that are not indented are those of the segments. -/
theorem headlines_lines (segments : List Segment) :
    (segments.flatMap (lines true)).filter (!isIndented ·) = segments.map headlineChars := by
  induction segments with
  | nil => rfl
  | cons s segments ih =>
    have hrows : (payloadRows 0 s.payload).filter (!isIndented ·) = [] := by
      refine List.filter_eq_nil_iff.mpr fun line hline => ?_
      simp [isIndented_of_mem_payloadRows hline]
    rw [List.flatMap_cons, List.filter_append, ih, lines, if_pos rfl,
      List.filter_cons_of_pos (by simp [isIndented_headlineChars]), hrows]
    rfl

/-- What is read of a segment tells its line and its payload. -/
theorem Entry.of_map_eq {segments others : List Segment}
    (h : others.map ofSegment = segments.map ofSegment) :
    others.map headlineChars = segments.map headlineChars ∧
      others.map (·.payload) = segments.map (·.payload) := by
  have hlines := congrArg (List.map headline) h
  have hbytes := congrArg (List.map fun entry : Entry => entry.rows.flatMap (·.bytes)) h
  simp only [List.map_map] at hlines hbytes
  have hpayload : (fun entry : Entry => entry.rows.flatMap (·.bytes)) ∘ ofSegment =
      fun s => s.payload := funext fun s => flatMap_rowsOf s.payload
  rw [hpayload] at hbytes
  exact ⟨hlines, hbytes⟩

/-- **A dump with payloads loses nothing.** Its text is a sequence of lines of printable ASCII, each ended
by a line feed. Those that are not indented are the lines of the segments in order, and reading the text
alone gives, below each of them, one row for every sixteen bytes of the payload or part of them. Their
offsets count by sixteen, and their bytes one after the other are the payload. So whatever the payloads
are, no other lines and no other payloads have the same text. -/
theorem readBack?_verboseText (segments : List Segment) :
    (∃ ls, lines? (verboseText segments) = some ls ∧
        verboseText segments = ls.flatMap (· ++ ['\n']) ∧
        (∀ l ∈ ls, l.all isPrintable = true) ∧
        ls.filter (!isIndented ·) = segments.map headlineChars) ∧
      (∃ entries, readBack? (verboseText segments) = some entries ∧
        List.Forall₂ (fun (entry : Entry) s => entry.headline = headlineChars s ∧
          entry.rows.length = (s.payload.length + 15) / 16 ∧
          entry.rows.map (·.offset) = (List.range entry.rows.length).map (16 * ·) ∧
          entry.rows.flatMap (·.bytes) = s.payload) entries segments) ∧
      ∀ others, verboseText others = verboseText segments →
        others.map headlineChars = segments.map headlineChars ∧
          others.map (·.payload) = segments.map (·.payload) := by
  have hread : ∀ segments, readBack? (verboseText segments) =
      some (segments.map Entry.ofSegment) := by
    intro segments
    rw [readBack?, lines?_verboseText]
    exact entries?_lines segments
  refine ⟨⟨_, lines?_verboseText segments, verboseText_eq segments, fun l hl => ?_,
    headlines_lines segments⟩, ⟨_, hread segments, ?_⟩, fun others hsame => ?_⟩
  · obtain ⟨s, -, hs⟩ := List.mem_flatMap.mp hl
    exact all_isPrintable_lines hs
  · rw [List.forall₂_map_left_iff, List.forall₂_same]
    refine fun s _ => ⟨rfl, ?_, ?_, flatMap_rowsOf s.payload⟩
    · exact (List.length_map _).trans List.length_range
    · change (rowsOf s.payload).map _ = (List.range (rowsOf s.payload).length).map _
      rw [rowsOf, List.map_map, List.length_map, List.length_range]
      rfl
  · exact Entry.of_map_eq (Option.some.inj ((hread others).symm.trans (hsame ▸ hread segments)))

end Dump

end FlowWatch
