/-
The place an output is written to, and the comparison with the input before it.

An output is compared with the input by the directory of its path, while it is written to where its pieces
lead. `Lands.locate_directory` says that this is one directory, so an output whose directory can be
located is compared with the right place. A directory that cannot be located yet may be made on the way
to the report, and two dots behind it lead back to what is old. That is the case `Overlooks`, and the only
one in which the comparison says nothing about the place that is written to.
-/
import FlowWatch.Proofs.Files.Trees

set_option autoImplicit false

namespace FlowWatch.FileTree

variable {t t' : FileTree} {p : Path} {dir : List String} {name : String}

/-! ## Where a path lands -/

/-- The place that a path spells, whatever is there. -/
def spelled (t : FileTree) (p : Path) : List String := spell [] (t.start p ++ p.pieces)

namespace Lands

theorem fileName? (h : t.Lands p dir name) : p.fileName? = some name := by
  obtain ⟨front, hpieces, -⟩ := h.way
  exact Path.fileName?_eq hpieces h.isName.notVoid h.isName.down

/-- **A file lands in the directory of its path.** The text of the path without its name can be located,
and is where the pieces in front of the name lead. -/
theorem locate_directory (h : t.Lands p dir name) :
    ∃ parent, p.directory? = some parent ∧ t.locate parent = .ok dir := by
  obtain ⟨front, hpieces, hleads⟩ := h.way
  obtain ⟨hp, hsize⟩ := refusal?_eq_none.mp h.accepted
  obtain ⟨parent, hparent, hempty, habs, hshorter, htelling⟩ :=
    Path.exists_directory hp hpieces h.isName.notVoid
  refine ⟨parent, hparent, locate_iff.mpr ⟨refusal?_eq_none.mpr ⟨hempty, ?_⟩, ?_⟩⟩
  · exact Nat.le_trans hshorter hsize
  · have hstart : t.start parent = t.start p := by rw [start, start, habs]
    apply Leads.of_telling h.isDirectory
    rw [hstart, Path.telling_append, htelling, ← Path.telling_append]
    exact hleads.telling

/-- It lands at the place that it spells. -/
theorem eq_spelled (h : t.Lands p dir name) : t.spelled p = dir ++ [name] := by
  obtain ⟨front, hpieces, hleads⟩ := h.way
  rw [spelled, hpieces, ← List.append_assoc, spell_append, hleads.eq_spell, spell_name h.isName]
  rfl

end Lands

/-- What is written is at the place that its path spells. -/
theorem at?_spelled {bytes : List UInt8} (h : t.writeNode p bytes = .ok t') :
    t'.at? (t.spelled p) = some (.file bytes) := by
  obtain ⟨dir, name, hlands, -, rfl⟩ := exists_lands h
  obtain ⟨entries, hentries⟩ := hlands.isDirectory
  rw [hlands.eq_spelled]
  exact Node.get?_put hentries

/-! ## The comparison -/

/-- An output whose directory can be located is not at a place. -/
def Apart (t : FileTree) (p : Path) (place : List String) : Prop :=
  ∀ parent dir name, p.directory? = some parent → t.locate parent = .ok dir →
    p.fileName? = some name → dir ++ [name] ≠ place

/-- No output is at the root. -/
theorem apart_root (t : FileTree) (p : Path) : t.Apart p [] := by
  intro parent dir name _ _ _
  simp

/-- The comparison overlooks a place that the path spells if the directory of the path cannot be located,
as when the path goes through a directory that is missing and up again out of it. -/
structure Overlooks (t : FileTree) (p : Path) (place : List String) : Prop where
  inTree : p ≠ fullDevice
  spelled : t.spelled p = place
  missing : ∀ parent dir, p.directory? = some parent → t.locate parent ≠ .ok dir

/-- **An output that was told apart from a file leaves the file alone**, also when it is written into a
later tree, unless its path spells the file and was overlooked. -/
theorem writeFile_spares {t₀ : FileTree} {place : List String} {bytes : List UInt8}
    (hspares : Spares place t₀ t) (hapart : t₀.Apart p place) (hseen : ¬ t₀.Overlooks p place)
    (h : t.writeFile p bytes = .ok t') : Spares place t₀ t' := by
  by_cases hdevice : p = fullDevice
  · -- The device takes no bytes, so the tree is as it was.
    rw [writeFile, if_pos (by simpa using hdevice)] at h
    split at h
    · obtain rfl := Except.ok.inj h
      exact hspares
    · cases h
  · rw [writeFile, if_neg (by simpa using hdevice)] at h
    apply hspares.trans
    apply writeNode_spares h
    intro dir name hlands hplace
    obtain ⟨parent, hparent, hlocate⟩ := hlands.locate_directory
    apply hseen
    refine ⟨hdevice, ?_, ?_⟩
    · rw [spelled, ← hspares.start_eq, ← hplace]
      exact hlands.eq_spelled
    · -- A directory that is located first is the one the file lands in later.
      intro parent' dir' hparent' hfirst
      obtain rfl : parent = parent' := Option.some.inj (hparent.symm.trans hparent')
      obtain rfl : dir' = dir := Except.ok.inj ((hspares.locate hfirst).symm.trans hlocate)
      exact hapart parent dir' name hparent hfirst hlands.fileName? hplace

/-- A path that can be written to is not overlooked. -/
theorem not_overlooks {bytes : List UInt8} (h : t.writeFile p bytes = .ok t') (place : List String) :
    ¬ t.Overlooks p place := by
  intro hover
  rw [writeFile, if_neg (by simpa using hover.inTree)] at h
  obtain ⟨dir, name, hlands, -⟩ := exists_lands h
  obtain ⟨parent, hparent, hlocate⟩ := hlands.locate_directory
  exact hover.missing parent dir hparent hlocate

/-! ## Paths from the root -/

/-- A place whose names can stand between slashes. -/
def IsPlain (place : List String) : Prop := ∀ n ∈ place, n ≠ "" ∧ '/' ∉ n.toList

/-- A path from the root ends in a slash only if it is the root. -/
theorem getLast?_pathOf {names : List String} (hnames : names ≠ []) (h : IsPlain names) :
    (pathOf names).toList.getLast? ≠ some '/' := by
  obtain ⟨front, last, rfl⟩ := List.eq_nil_or_concat names |>.resolve_left hnames
  obtain ⟨hempty, hslash⟩ := h last (by simp)
  have hend : ∀ before : String, (before ++ last).toList.getLast? = last.toList.getLast? := by
    intro before
    rw [String.toList_append, List.getLast?_append_of_ne_nil _ (by simpa using hempty)]
  have htext : ∃ before : String, pathOf (front ++ [last]) = before ++ last := by
    by_cases hfront : front = []
    · exact ⟨"/", by simp [pathOf, hfront]⟩
    · refine ⟨"/" ++ "/".intercalate front ++ "/", ?_⟩
      rw [pathOf, String.intercalate_append_of_ne_nil hfront (by simp), String.intercalate_singleton]
      simp [String.append_assoc]
  obtain ⟨before, htext⟩ := htext
  rw [List.concat_eq_append, htext, hend]
  exact fun hlast => hslash (List.mem_of_getLast? hlast)

/-- The path of an entry is the path of its directory with the name behind it. -/
theorem join_pathOf (hdir : IsPlain dir) (hname : '/' ∉ name.toList) :
    Path.join (pathOf dir) name = pathOf (dir ++ [name]) := by
  have habs : Path.isAbsolute name = false := by
    rw [Path.isAbsolute, beq_eq_false_iff_ne]
    exact fun hhead => hname (List.mem_of_head? hhead)
  have hroot : pathOf dir ≠ "" := by
    simp [pathOf]
  rw [Path.join, habs, Bool.false_or, if_neg (by simpa using hroot)]
  by_cases hdir' : dir = []
  · subst hdir'
    simp [pathOf]
  · rw [if_neg (by simpa using getLast?_pathOf hdir' hdir)]
    simp only [pathOf]
    rw [String.intercalate_append_of_ne_nil hdir' (by simp), String.intercalate_singleton]
    simp [String.append_assoc]

theorem isPlain_of_leads {place goal pieces : List String} (h : t.Leads place pieces goal)
    (hplace : IsPlain place) (hpieces : ∀ piece ∈ pieces, '/' ∉ piece.toList) : IsPlain goal := by
  induction h with
  | here => exact hplace
  | stay _ _ _ ih => exact ih hplace fun piece hpiece => hpieces piece (List.mem_cons_of_mem _ hpiece)
  | up _ _ ih =>
    apply ih
    · exact fun n hn => hplace n (List.dropLast_subset _ hn)
    · exact fun piece hpiece => hpieces piece (List.mem_cons_of_mem _ hpiece)
  | @down place name _ _ _ _ hname _ _ ih =>
    apply ih
    · intro n hn
      rcases List.mem_append.mp hn with hn | hn
      · exact hplace n hn
      · obtain rfl := List.mem_singleton.mp hn
        refine ⟨?_, hpieces n List.mem_cons_self⟩
        rintro rfl
        exact absurd hname.notVoid (by decide)
    · exact fun piece hpiece => hpieces piece (List.mem_cons_of_mem _ hpiece)

/-- A located place is plain, since no piece of a path has a slash. -/
theorem isPlain_of_locate {place : List String} (hcwd : ∀ n ∈ t.cwd, '/' ∉ n.toList)
    (h : t.locate p = .ok place) : IsPlain place := by
  apply isPlain_of_leads (locate_iff.mp h).2
  · exact fun n hn => absurd hn List.not_mem_nil
  · intro piece hpiece
    rcases List.mem_append.mp hpiece with hpiece | hpiece
    · rw [start] at hpiece
      split at hpiece
      · cases hpiece
      · exact hcwd piece hpiece
    · exact Path.not_mem_of_mem_pieces hpiece

/-- Comparing the paths of two places tells them apart. -/
theorem apart_of_join_ne {place : List String} (hplain : IsPlain place)
    (h : ∀ parent dir name, p.directory? = some parent → t.locate parent = .ok dir →
      p.fileName? = some name → Path.join (pathOf dir) name ≠ pathOf place) : t.Apart p place := by
  intro parent dir name hparent hlocate hname hplace
  apply h parent dir name hparent hlocate hname
  subst hplace
  apply join_pathOf
  · exact fun n hn => hplain n (List.mem_append_left _ hn)
  · exact (hplain name (List.mem_append_right _ List.mem_cons_self)).2

end FlowWatch.FileTree
