/-
A path and the directory it names.

A path whose last piece is a name says where a file is put: in the directory that the pieces in front of
the name lead to. The text of that directory is taken from the text of the path by `parent?`, which
drops some of the void pieces on the way. What matters of it is kept: whether it starts at the root, and
every piece that says something. So the two readings of a path, its text cut by `parent?` and its pieces
walked one by one, are about one directory.
-/
import FlowWatch.Files.Path
import Mathlib.Data.List.DropRight

set_option autoImplicit false

namespace FlowWatch.Path

/-! ## Pieces and their text -/

theorem splitSlash_eq_splitOn (cs : List Char) : splitSlash cs = cs.splitOn '/' := by
  induction cs with
  | nil => rfl
  | cons c cs ih =>
    rw [splitSlash, ih, List.splitOn_cons_eq_if_modifyHead]
    cases hsplit : cs.splitOn '/' with
    | nil => exact absurd hsplit (List.splitOn_ne_nil '/' cs)
    | cons piece pieces => rfl

theorem not_mem_of_mem_splitSlash {cs piece : List Char} (h : piece ∈ splitSlash cs) :
    '/' ∉ piece := by
  induction cs generalizing piece with
  | nil =>
    rw [splitSlash, List.mem_singleton] at h
    simp [h]
  | cons c cs ih =>
    rw [splitSlash] at h
    cases hsplit : splitSlash cs with
    | nil => simp [splitSlash_eq_splitOn] at hsplit
    | cons first rest =>
      simp only [hsplit] at h ih
      by_cases hc : c = '/'
      · simp only [hc, beq_self_eq_true, if_true, List.mem_cons] at h
        rcases h with rfl | h
        · exact List.not_mem_nil
        · exact ih (List.mem_cons.mpr h)
      · simp only [beq_iff_eq, hc, if_false, List.mem_cons] at h
        rcases h with rfl | h
        · simp [Ne.symm hc, ih List.mem_cons_self]
        · exact ih (List.mem_cons_of_mem _ h)

/-- No piece of a path has a slash. -/
theorem not_mem_of_mem_pieces {p : Path} {piece : String} (h : piece ∈ p.pieces) :
    '/' ∉ piece.toList := by
  obtain ⟨cs, hcs, rfl⟩ := List.mem_map.mp h
  simpa using not_mem_of_mem_splitSlash hcs

theorem pieces_ne_nil (p : Path) : p.pieces ≠ [] := by
  simp [pieces, splitSlash_eq_splitOn]

/-- Pieces joined by slashes are found again. -/
theorem pieces_intercalate {ps : List String} (hne : ps ≠ [])
    (h : ∀ piece ∈ ps, '/' ∉ piece.toList) : pieces ("/".intercalate ps) = ps := by
  have hlist : ∀ cs ∈ ps.map String.toList, '/' ∉ cs := by
    intro cs hcs
    obtain ⟨piece, hpiece, rfl⟩ := List.mem_map.mp hcs
    exact h piece hpiece
  have hsplit := List.splitOn_intercalate '/' hlist (by simpa using hne)
  rw [pieces, splitSlash_eq_splitOn, String.toList_intercalate]
  change ((['/'].intercalate (ps.map String.toList)).splitOn '/').map String.ofList = ps
  rw [hsplit, List.map_map]
  simp [Function.comp_def]

/-- The pieces of a path joined by slashes are the path. -/
theorem intercalate_pieces (p : Path) : "/".intercalate p.pieces = p := by
  apply String.toList_inj.mp
  rw [String.toList_intercalate, pieces, splitSlash_eq_splitOn, List.map_map]
  change ['/'].intercalate ((p.toList.splitOn '/').map _) = _
  simp [Function.comp_def, List.intercalate_splitOn]

theorem pieces_slash_append (s : Path) : pieces ("/" ++ s) = "" :: s.pieces := by
  have hslash : ∀ piece ∈ "" :: pieces s, '/' ∉ piece.toList := by
    intro piece hpiece
    rcases List.mem_cons.mp hpiece with rfl | hpiece
    · exact List.not_mem_nil
    · exact not_mem_of_mem_pieces hpiece
  have hpieces := pieces_intercalate (List.cons_ne_nil _ _) hslash
  rwa [String.intercalate_cons_of_ne_nil (pieces_ne_nil s), intercalate_pieces, String.empty_append]
    at hpieces

/-- A path from the root is a slash and the rest. -/
theorem exists_of_isAbsolute {p : Path} (h : p.isAbsolute = true) : ∃ rest, p = "/" ++ rest := by
  rw [isAbsolute, beq_iff_eq, List.head?_eq_some_iff] at h
  obtain ⟨cs, hcs⟩ := h
  refine ⟨String.ofList cs, String.toList_inj.mp ?_⟩
  simp [hcs]

theorem isAbsolute_slash_append (s : String) : isAbsolute ("/" ++ s) = true := by
  rw [isAbsolute, String.toList_append]
  rfl

/-- A path starts at the root only if its first piece is empty. -/
theorem isAbsolute_eq_false {p : Path} {first : String} {rest : List String}
    (h : p.pieces = first :: rest) (hfirst : first ≠ "") : p.isAbsolute = false := by
  cases habs : p.isAbsolute with
  | false => rfl
  | true =>
    obtain ⟨s, rfl⟩ := exists_of_isAbsolute habs
    rw [pieces_slash_append, List.cons.injEq] at h
    exact absurd h.1.symm hfirst

/-- The first piece of a path that does not start at the root says something or is a dot. -/
theorem first_ne_empty {p : Path} {first : String} {rest : List String} (hp : p ≠ "")
    (habs : p.isAbsolute = false) (h : p.pieces = first :: rest) : first ≠ "" := by
  rintro rfl
  have hp' := intercalate_pieces p
  rw [h] at hp'
  cases rest with
  | nil => exact hp (hp'.symm.trans String.intercalate_singleton)
  | cons second rest =>
    rw [String.intercalate_cons_cons, String.empty_append] at hp'
    rw [← hp', isAbsolute_slash_append] at habs
    cases habs

/-! ## Pieces that say something -/

/-- The pieces that say something. -/
def telling (ps : List String) : List String := ps.filter (!isVoid ·)

theorem telling_append (ps qs : List String) : telling (ps ++ qs) = telling ps ++ telling qs :=
  List.filter_append ..

/-- Void pieces at the end say nothing. -/
theorem telling_rdropWhile (ps : List String) : telling (ps.rdropWhile isVoid) = telling ps := by
  have hvoid : telling (ps.rtakeWhile isVoid) = [] := by
    rw [telling, List.filter_eq_nil_iff]
    intro piece hpiece
    simpa using List.mem_rtakeWhile_imp hpiece
  have h := congrArg telling (List.rdropWhile_append_rtakeWhile (p := isVoid) (l := ps))
  rwa [telling_append, hvoid, List.append_nil] at h

/-- A path that is put together from pieces says what they say. -/
theorem telling_pieces_ofBody (fromRoot : Bool) {ps : List String}
    (h : ∀ piece ∈ ps, '/' ∉ piece.toList) : telling (ofBody fromRoot ps).pieces = telling ps := by
  have hjoined : telling (pieces ("/".intercalate ps)) = telling ps := by
    by_cases hps : ps = []
    · subst hps
      rfl
    · rw [pieces_intercalate hps h]
  cases fromRoot with
  | false => simpa [ofBody] using hjoined
  | true =>
    rw [ofBody, if_pos rfl, pieces_slash_append]
    exact hjoined

/-! ## The directory of a path -/

/-- What is left of the pieces in front of a name behind the slash that a path may start with. -/
def behindRoot (p : Path) (front : List String) : List String :=
  if p.isAbsolute then front.tail else front

section

variable {p : Path} {front : List String} {name : String}

theorem mem_of_mem_behindRoot {piece : String} (h : piece ∈ behindRoot p front) : piece ∈ front := by
  rw [behindRoot] at h
  split at h
  · exact List.mem_of_mem_tail h
  · exact h

/-- In front of the name of a path from the root stands an empty piece. -/
theorem exists_of_pieces (h : p.pieces = front ++ [name]) (hname : name ≠ "")
    (habs : p.isAbsolute = true) : ∃ rest, front = "" :: rest ∧ p = ofBody true (rest ++ [name]) := by
  obtain ⟨s, rfl⟩ := exists_of_isAbsolute habs
  rw [pieces_slash_append] at h
  cases front with
  | nil => exact absurd (List.cons.inj h).1.symm hname
  | cons first rest =>
    obtain ⟨rfl, hrest⟩ := List.cons.inj h
    refine ⟨rest, rfl, ?_⟩
    have hs := intercalate_pieces s
    rw [hrest] at hs
    exact congrArg ("/" ++ ·) hs.symm

theorem telling_behindRoot (h : p.pieces = front ++ [name]) (hname : name ≠ "") :
    telling (behindRoot p front) = telling front := by
  rw [behindRoot]
  split
  next habs =>
    obtain ⟨rest, rfl, -⟩ := exists_of_pieces h hname habs
    rfl
  next => rfl

/-- The text of a path is that of its start and of its pieces behind it. -/
theorem eq_ofBody (h : p.pieces = front ++ [name]) (hname : name ≠ "") :
    p = ofBody p.isAbsolute (behindRoot p front ++ [name]) := by
  rw [behindRoot]
  split
  next habs =>
    obtain ⟨rest, rfl, hp⟩ := exists_of_pieces h hname habs
    rwa [habs]
  next habs =>
    have hp := intercalate_pieces p
    rw [h] at hp
    simpa [ofBody, habs] using hp.symm

theorem body_eq (h : p.pieces = front ++ [name]) (hname : isVoid name = false) :
    p.body = behindRoot p front ++ [name] := by
  have htrim : ∀ ps : List String, (ps ++ [name]).rdropWhile isVoid = ps ++ [name] := fun ps =>
    List.rdropWhile_concat_neg _ _ _ (by simp [hname])
  cases front with
  | nil =>
    have hne : name ≠ "" ∧ name ≠ "." := by simpa [isVoid] using hname
    simp only [body, behindRoot, h, isAbsolute_eq_false h hne.1]
    simpa [hne.2] using htrim []
  | cons first rest =>
    simp only [body, behindRoot, h, List.cons_append]
    by_cases habs : p.isAbsolute = true
    · simpa [habs] using htrim rest
    · by_cases hdot : first = "."
      · simpa [habs, hdot] using htrim rest
      · simpa [habs, hdot] using htrim (first :: rest)

theorem fileName?_eq (h : p.pieces = front ++ [name]) (hname : isVoid name = false)
    (hdots : name ≠ "..") : p.fileName? = some name := by
  have hdot : name ≠ "." := by
    rintro rfl
    cases hname
  simp [fileName?, body_eq h hname, hdot, hdots]

/-- The parent of a path keeps the start of what stands in front of the name, and all of it that says
something. -/
theorem exists_parent (h : p.pieces = front ++ [name]) (hname : isVoid name = false) :
    ∃ kept, p.parent? = some (ofBody p.isAbsolute kept) ∧ kept <+: behindRoot p front ∧
      telling kept = telling (behindRoot p front) := by
  have htrim : ∀ ps : List String, ps.rdropWhile isVoid <+: ps ∧
      telling (ps.rdropWhile isVoid) = telling ps := fun ps =>
    ⟨List.rdropWhile_prefix _ _, telling_rdropWhile ps⟩
  unfold parent?
  rw [body_eq h hname]
  split
  next hnil => simp at hnil
  next =>
    refine ⟨_, rfl, ?_⟩
    rw [List.dropLast_concat]
    split
    · exact htrim _
    · split
      next _ rest heq =>
        -- A dot at the start stays, and the void pieces are dropped behind it.
        rw [heq]
        exact ⟨(List.prefix_cons_inj _).mpr (htrim rest).1,
          congrArg (telling ["."] ++ ·) (htrim rest).2⟩
      next => exact htrim _

/-- Text of fewer pieces is not longer. -/
theorem utf8ByteSize_ofBody_le (fromRoot : Bool) {ps qs : List String} (h : ps <+: qs) :
    (ofBody fromRoot ps).utf8ByteSize ≤ (ofBody fromRoot qs).utf8ByteSize := by
  obtain ⟨rest, rfl⟩ := h
  simp only [ofBody, String.utf8ByteSize_append]
  apply Nat.add_le_add_left
  by_cases hps : ps = []
  · simp [hps]
  · by_cases hrest : rest = []
    · simp [hrest]
    · rw [String.intercalate_append_of_ne_nil hps hrest]
      simp only [String.utf8ByteSize_append]
      omega

/-- The parent of a path starts where the path starts, unless nothing is left of it. -/
theorem isAbsolute_of_kept {kept : List String} (hp : p ≠ "") (h : p.pieces = front ++ [name])
    (hstart : kept <+: behindRoot p front) (hkept : ofBody p.isAbsolute kept ≠ "") :
    (ofBody p.isAbsolute kept).isAbsolute = p.isAbsolute := by
  cases habs : p.isAbsolute with
  | true => exact isAbsolute_slash_append _
  | false =>
    rw [behindRoot, habs, if_neg Bool.false_ne_true] at hstart
    rw [habs] at hkept
    obtain ⟨behind, rfl⟩ := hstart
    cases kept with
    | nil => exact absurd rfl hkept
    | cons first rest =>
      have hslash : ∀ piece ∈ first :: rest, '/' ∉ piece.toList := by
        intro piece hpiece
        apply not_mem_of_mem_pieces (p := p)
        rw [h]
        exact List.mem_append_left _ (List.mem_append_left _ hpiece)
      have hpieces := pieces_intercalate (List.cons_ne_nil first rest) hslash
      simpa [ofBody] using isAbsolute_eq_false hpieces (first_ne_empty hp habs h)

/-- The directory a path is looked for in. -/
def directory? (p : Path) : Option Path :=
  p.parent?.map fun parent => if parent == "" then "." else parent

/-- **The directory of a path, by its text and by its pieces.** A path that ends in a name has a
directory; that starts where the path starts, is no longer, and says what the pieces in front of the
name say. -/
theorem exists_directory (hp : p ≠ "") (h : p.pieces = front ++ [name])
    (hname : isVoid name = false) :
    ∃ dir, p.directory? = some dir ∧ dir ≠ "" ∧ dir.isAbsolute = p.isAbsolute ∧
      dir.utf8ByteSize ≤ p.utf8ByteSize ∧ telling dir.pieces = telling front := by
  have hempty : name ≠ "" := by
    rintro rfl
    cases hname
  obtain ⟨kept, hparent, hstart, htelling⟩ := exists_parent h hname
  have hslash : ∀ piece ∈ kept, '/' ∉ piece.toList := by
    intro piece hpiece
    apply not_mem_of_mem_pieces (p := p)
    rw [h]
    exact List.mem_append_left _ (mem_of_mem_behindRoot (hstart.subset hpiece))
  have htold : telling (ofBody p.isAbsolute kept).pieces = telling front := by
    rw [telling_pieces_ofBody _ hslash, htelling, telling_behindRoot h hempty]
  simp only [directory?, hparent, Option.map_some, Option.some.injEq, exists_eq_left', beq_iff_eq]
  by_cases hkept : ofBody p.isAbsolute kept = ""
  · -- Nothing is left of the text, which is another way to say a dot.
    rw [hkept] at htold
    have habs : p.isAbsolute = false := by
      cases habs : p.isAbsolute with
      | false => rfl
      | true => simp [ofBody, habs] at hkept
    have hpos : p.utf8ByteSize ≠ 0 := by simpa using hp
    rw [if_pos hkept, habs]
    exact ⟨by decide, by decide, by change 1 ≤ _; omega, htold⟩
  · rw [if_neg hkept]
    refine ⟨hkept, isAbsolute_of_kept hp h hstart hkept, ?_, htold⟩
    conv_rhs => rw [eq_ofBody h hempty]
    exact utf8ByteSize_ofBody_le _ (hstart.trans (List.prefix_append _ _))

end

end FlowWatch.Path
