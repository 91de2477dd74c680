/-
What a tree keeps while files and directories are made in it.

Nothing is ever taken out of a tree: a directory stays a directory and a file a file, and only the
place that is written to may get other bytes. `Spares` says so of two trees and one place. What leads
somewhere in a tree leads there in every later one, which is why a place that was compared with the
input before the analysis is still the place that is written to after it.

Walking is done along trails of nodes. Here it is told by places alone: `Leads` relates a place, the
pieces of a path and the place they lead to, one rule for each kind of piece, and the walker finds exactly
that place.
-/
import FlowWatch.Files.Tree
import FlowWatch.Proofs.Files.Paths

set_option autoImplicit false

namespace FlowWatch

namespace Node

/-! ## Nodes below a node -/

theorem get?_nil (n : Node) : n.get? [] = some n := by
  cases n <;> rfl

theorem get?_cons_directory (entries : List (String × Node)) (name : String) (names : List String) :
    (Node.directory entries).get? (name :: names) = (child? entries name).bind (·.get? names) := by
  rw [get?]
  cases child? entries name <;> rfl

theorem get?_append (n : Node) (names others : List String) :
    n.get? (names ++ others) = (n.get? names).bind (·.get? others) := by
  induction names generalizing n with
  | nil => rw [get?_nil]; rfl
  | cons name names ih =>
    cases n with
    | file bytes => rfl
    | directory entries =>
      rw [List.cons_append, get?_cons_directory, get?_cons_directory]
      cases child? entries name with
      | none => rfl
      | some child => exact ih child

theorem child?_setEntry_self (entries : List (String × Node)) (name : String) (child : Node) :
    child? (setEntry entries name child) name = some child := by
  rw [child?, setEntry]
  by_cases h : entries.any (·.1 == name) = true
  · rw [if_pos h]
    induction entries with
    | nil => cases h
    | cons e entries ih =>
      by_cases he : e.1 = name
      · simp [he]
      · rw [List.map_cons, if_neg (by simpa using he),
          List.find?_cons_of_neg (by simpa using he)]
        apply ih
        simpa [he] using h
  · rw [if_neg h, List.find?_append]
    have hnone : entries.find? (·.1 == name) = none := by
      rw [List.find?_eq_none]
      intro e he heq
      exact h (List.any_eq_true.mpr ⟨e, he, heq⟩)
    simp [hnone]

theorem child?_setEntry_of_ne (entries : List (String × Node)) {name other : String} (child : Node)
    (hne : other ≠ name) : child? (setEntry entries name child) other = child? entries other := by
  rw [child?, child?, setEntry]
  split
  · clear * - hne
    induction entries with
    | nil => rfl
    | cons e entries ih =>
      rw [List.map_cons]
      by_cases he : e.1 = name
      · rw [if_pos (by simpa using he), List.find?_cons_of_neg (by simpa using Ne.symm hne),
          List.find?_cons_of_neg (by simpa [he] using Ne.symm hne)]
        exact ih
      · rw [if_neg (by simpa using he)]
        by_cases hother : e.1 = other
        · simp [hother]
        · rw [List.find?_cons_of_neg (by simpa using hother),
            List.find?_cons_of_neg (by simpa using hother)]
          exact ih
  · rw [List.find?_append]
    have hnone : [(name, child)].find? (·.1 == other) = none := by
      simp [Ne.symm hne]
    simp [hnone]

/-- **Putting a node changes nothing else.** Where nothing is replaced but a file by a file, every node
stays where it is and what it is, and files elsewhere keep their bytes. -/
theorem exists_get?_put {n m : Node} (value : Node) (target : List String) {place : List String}
    (hfree : ∀ old, n.get? target = some old → old.kind = .file ∧ value.kind = .file)
    (hm : n.get? place = some m) :
    ∃ m', (n.put value target).get? place = some m' ∧ m'.kind = m.kind ∧
      (place ≠ target → m.kind = .file → m' = m) := by
  induction target generalizing n place with
  | nil =>
    obtain ⟨hold, hvalue⟩ := hfree n (get?_nil n)
    cases n with
    | directory entries => cases hold
    | file bytes =>
      cases place with
      | cons name names => cases hm
      | nil =>
        obtain rfl : Node.file bytes = m := Option.some.inj hm
        exact ⟨value, get?_nil value, hvalue, fun hne => absurd rfl hne⟩
  | cons name names ih =>
    cases n with
    | file bytes => exact ⟨m, hm, rfl, fun _ _ => rfl⟩
    | directory entries =>
      rw [put]
      cases place with
      | nil =>
        obtain rfl : Node.directory entries = m := Option.some.inj hm
        refine ⟨_, get?_nil _, rfl, ?_⟩
        intro _ hkind
        cases hkind
      | cons first rest =>
        rw [get?_cons_directory] at hm ⊢
        by_cases hfirst : first = name
        · -- The way goes through the entry that is put, so it goes on inside that.
          subst hfirst
          rw [child?_setEntry_self, Option.bind_some]
          cases hchild : child? entries first with
          | none => simp [hchild] at hm
          | some child =>
            rw [hchild, Option.bind_some] at hm
            have hrest := @ih child rest (fun old hold => hfree old (by
              rw [get?_cons_directory, hchild, Option.bind_some, hold])) hm
            simpa using hrest
        · rw [child?_setEntry_of_ne _ _ hfirst]
          exact ⟨m, hm, rfl, fun _ _ => rfl⟩

/-- What is put into a directory is there. -/
theorem get?_put {n value : Node} {dir : List String} {name : String} {entries : List (String × Node)}
    (h : n.get? dir = some (.directory entries)) :
    (n.put value (dir ++ [name])).get? (dir ++ [name]) = some value := by
  induction dir generalizing n with
  | nil =>
    obtain rfl : n = .directory entries := by
      rw [get?_nil] at h
      exact Option.some.inj h
    change (Node.directory (setEntry entries name value)).get? [name] = _
    rw [get?_cons_directory, child?_setEntry_self]
    exact value.get?_nil
  | cons first rest ih =>
    cases n with
    | file bytes => cases h
    | directory others =>
      rw [get?_cons_directory] at h
      rw [List.cons_append, put, get?_cons_directory, child?_setEntry_self, Option.bind_some]
      cases hchild : child? others first with
      | none => simp [hchild] at h
      | some child =>
        rw [hchild, Option.bind_some] at h
        exact ih h

end Node

namespace FileTree

variable {t t' : FileTree}

/-! ## Places -/

/-- Whether a place is a directory. -/
def IsDirectory (t : FileTree) (place : List String) : Prop :=
  ∃ entries, t.at? place = some (.directory entries)

theorem at?_nil (t : FileTree) : t.at? [] = some t.root := t.root.get?_nil

theorem at?_append (t : FileTree) (place others : List String) :
    t.at? (place ++ others) = (t.at? place).bind (·.get? others) :=
  t.root.get?_append place others

/-- What lies in a directory is one of its entries. -/
theorem at?_entry {place : List String} {entries : List (String × Node)}
    (h : t.at? place = some (.directory entries)) (name : String) :
    t.at? (place ++ [name]) = Node.child? entries name := by
  rw [at?_append, h, Option.bind_some, Node.get?_cons_directory]
  cases Node.child? entries name with
  | none => rfl
  | some child => exact child.get?_nil

/-! ## Walking, told by places -/

/-- A piece that is the name of an entry. -/
structure IsName (piece : String) : Prop where
  notVoid : Path.isVoid piece = false
  down : piece ≠ ".."
  short : piece.utf8ByteSize ≤ maxName

/-- Where pieces lead to from a place. -/
inductive Leads (t : FileTree) : List String → List String → List String → Prop where
  | here (place : List String) : t.Leads place [] place
  | stay {place : List String} {piece : String} {pieces : List String} {goal : List String} :
    t.IsDirectory place → Path.isVoid piece = true → t.Leads place pieces goal →
      t.Leads place (piece :: pieces) goal
  | up {place : List String} {pieces : List String} {goal : List String} :
    t.IsDirectory place → t.Leads place.dropLast pieces goal → t.Leads place (".." :: pieces) goal
  | down {place : List String} {name : String} {pieces : List String} {goal : List String} {m : Node} :
    t.IsDirectory place → IsName name → t.at? (place ++ [name]) = some m →
      t.Leads (place ++ [name]) pieces goal → t.Leads place (name :: pieces) goal

/-- The place that pieces spell from a place, whatever is there: two dots take the last name away. -/
def spell (place : List String) : List String → List String
  | [] => place
  | piece :: pieces =>
    if Path.isVoid piece then spell place pieces
    else if piece == ".." then spell place.dropLast pieces
    else spell (place ++ [piece]) pieces

theorem spell_name {name : String} (hname : IsName name) (place pieces : List String) :
    spell place (name :: pieces) = spell (place ++ [name]) pieces := by
  simp [spell, hname.notVoid, hname.down]

theorem spell_append (place ps qs : List String) :
    spell place (ps ++ qs) = spell (spell place ps) qs := by
  induction ps generalizing place with
  | nil => rfl
  | cons piece ps ih =>
    rw [List.cons_append, spell, spell]
    split
    · exact ih place
    · split
      · exact ih place.dropLast
      · exact ih (place ++ [piece])

/-- A trail whose nodes are those of the tree. -/
def IsTrail (t : FileTree) : Trail → Prop
  | [] => True
  | (name, node) :: rest =>
    t.IsTrail rest ∧ ∃ entries, t.nodeAt rest = .directory entries ∧
      Node.child? entries name = some node

theorem isTrail_nil (t : FileTree) : t.IsTrail [] := trivial

theorem placeOf_cons (name : String) (node : Node) (trail : Trail) :
    placeOf ((name, node) :: trail) = placeOf trail ++ [name] := by
  simp [placeOf]

theorem placeOf_tail (trail : Trail) : placeOf trail.tail = (placeOf trail).dropLast := by
  cases trail with
  | nil => rfl
  | cons e trail => rw [placeOf_cons, List.dropLast_concat, List.tail_cons]

theorem IsTrail.tail {trail : Trail} (h : t.IsTrail trail) : t.IsTrail trail.tail := by
  cases trail with
  | nil => exact h
  | cons e trail => exact h.1

theorem IsTrail.at? {trail : Trail} (h : t.IsTrail trail) :
    t.at? (placeOf trail) = some (t.nodeAt trail) := by
  induction trail with
  | nil => exact t.at?_nil
  | cons e trail ih =>
    obtain ⟨hrest, entries, hentries, hchild⟩ := h
    have hrest := ih hrest
    rw [hentries] at hrest
    rw [placeOf_cons, at?_entry hrest, hchild]
    rfl

/-- The walker goes where the pieces lead. -/
theorem leads_of_walk {trail goal : Trail} {pieces : List String} (htrail : t.IsTrail trail)
    (h : t.walk trail pieces = .ok goal) :
    t.IsTrail goal ∧ t.Leads (placeOf trail) pieces (placeOf goal) := by
  induction pieces generalizing trail with
  | nil =>
    obtain rfl : trail = goal := by simpa [walk] using h
    exact ⟨htrail, .here _⟩
  | cons piece pieces ih =>
    rw [walk] at h
    split at h
    next => cases h
    next entries hentries =>
      have hdirectory : t.IsDirectory (placeOf trail) := ⟨entries, by rw [htrail.at?, hentries]⟩
      split at h
      next hvoid =>
        obtain ⟨hgoal, hleads⟩ := ih htrail h
        exact ⟨hgoal, .stay hdirectory hvoid hleads⟩
      next hvoid =>
        split at h
        next hup =>
          obtain ⟨hgoal, hleads⟩ := ih htrail.tail h
          rw [beq_iff_eq] at hup
          rw [placeOf_tail] at hleads
          exact ⟨hgoal, hup ▸ .up hdirectory hleads⟩
        next hup =>
          split at h
          next => cases h
          next hshort =>
            split at h
            next child hchild =>
              have hnext : t.IsTrail ((piece, child) :: trail) := ⟨htrail, entries, hentries, hchild⟩
              obtain ⟨hgoal, hleads⟩ := ih hnext h
              rw [placeOf_cons] at hleads
              have hname : IsName piece :=
                ⟨by simpa using hvoid, by simpa using hup, Nat.le_of_not_lt hshort⟩
              refine ⟨hgoal, .down (m := child) hdirectory hname ?_ hleads⟩
              rw [at?_entry (by rw [htrail.at?, hentries]), hchild]
            next => cases h

/-- Where pieces lead, the walker arrives. -/
theorem walk_of_leads {place goal pieces : List String} (h : t.Leads place pieces goal)
    {trail : Trail} (htrail : t.IsTrail trail) (hplace : placeOf trail = place) :
    ∃ final, t.walk trail pieces = .ok final ∧ placeOf final = goal := by
  -- A piece is passed only where the trail ends in a directory of the tree.
  have hnode : ∀ {trail : Trail}, t.IsTrail trail → t.IsDirectory (placeOf trail) →
      ∃ entries, t.nodeAt trail = .directory entries := by
    rintro trail htrail ⟨entries, hat⟩
    rw [htrail.at?] at hat
    exact ⟨entries, Option.some.inj hat⟩
  induction h generalizing trail with
  | here place => exact ⟨trail, rfl, hplace⟩
  | stay hdirectory hvoid _ ih =>
    obtain ⟨entries, hentries⟩ := hnode htrail (hplace ▸ hdirectory)
    rw [walk, hentries]
    simp only [hvoid, if_true]
    exact ih htrail hplace
  | up hdirectory _ ih =>
    obtain ⟨entries, hentries⟩ := hnode htrail (hplace ▸ hdirectory)
    rw [walk, hentries]
    exact ih htrail.tail (by rw [placeOf_tail, hplace])
  | @down place name pieces goal m hdirectory hname hat _ ih =>
    obtain ⟨entries, hentries⟩ := hnode htrail (hplace ▸ hdirectory)
    have hchild : Node.child? entries name = some m := by
      rw [← hat, ← hplace, at?_entry (by rw [htrail.at?, hentries])]
    rw [walk, hentries]
    simp only [hname.notVoid, Bool.false_eq_true, if_false, beq_iff_eq, hname.down,
      Nat.not_lt.mpr hname.short, hchild]
    have hnext : t.IsTrail ((name, m) :: trail) := ⟨htrail, entries, hentries, hchild⟩
    exact ih hnext (by rw [placeOf_cons, hplace])

theorem walk_append (trail : Trail) (ps qs : List String) :
    t.walk trail (ps ++ qs) = (t.walk trail ps).bind fun mid => t.walk mid qs := by
  induction ps generalizing trail with
  | nil => rfl
  | cons piece ps ih =>
    rw [List.cons_append, walk, walk]
    repeat' split
    all_goals first | exact ih _ | rfl

/-- The place a path starts from. -/
def start (t : FileTree) (p : Path) : List String := if p.isAbsolute then [] else t.cwd

theorem walkFrom_eq (p : Path) (pieces : List String) :
    t.walkFrom p pieces = t.walk [] (t.start p ++ pieces) := by
  rw [walkFrom, start]
  split
  · rfl
  · rw [walk_append]
    cases t.walk [] t.cwd <;> rfl

/-- Pieces of a path lead where the walker gets from where the path starts. -/
theorem walkFrom_iff {p : Path} {pieces : List String} {goal : List String} :
    (∃ trail, t.walkFrom p pieces = .ok trail ∧ placeOf trail = goal) ↔
      t.Leads [] (t.start p ++ pieces) goal := by
  rw [walkFrom_eq]
  constructor
  · rintro ⟨trail, hwalk, rfl⟩
    exact (leads_of_walk t.isTrail_nil hwalk).2
  · intro hleads
    exact walk_of_leads hleads t.isTrail_nil rfl

theorem locate_iff {p : Path} {place : List String} :
    t.locate p = .ok place ↔ refusal? p = none ∧ t.Leads [] (t.start p ++ p.pieces) place := by
  rw [← walkFrom_iff, locate, trail]
  cases refusal? p with
  | some e => simp [Except.map]
  | none =>
    cases t.walkFrom p p.pieces with
    | error e => simp [Except.map]
    | ok trail => simp [Except.map]

/-- A file is read at the place its path leads to. -/
theorem readFile_iff {p : Path} {bytes : List UInt8} :
    t.readFile p = .ok bytes ↔ ∃ place, t.locate p = .ok place ∧ t.at? place = some (.file bytes) := by
  rw [readFile, locate]
  cases htrail : t.trail p with
  | error e => simp [Except.map]
  | ok trail =>
    have hat : t.at? (placeOf trail) = some (t.nodeAt trail) := by
      rw [FileTree.trail] at htrail
      split at htrail
      · cases htrail
      · rw [walkFrom_eq] at htrail
        exact (leads_of_walk t.isTrail_nil htrail).1.at?
    cases hnode : t.nodeAt trail with
    | file old => simp [Except.map, hat, hnode]
    | directory entries => simp [Except.map, hat, hnode]

theorem at?_of_walkFrom {p : Path} {pieces : List String} {trail : Trail}
    {entries : List (String × Node)} (h : t.walkFrom p pieces = .ok trail)
    (hentries : t.nodeAt trail = .directory entries) :
    t.at? (placeOf trail) = some (.directory entries) := by
  rw [walkFrom_eq] at h
  have htrail := (leads_of_walk t.isTrail_nil h).1
  rw [htrail.at?, hentries]

/-! ## Where pieces lead -/

namespace Leads

variable {place goal pieces : List String}

/-- Void pieces make no difference on the way to a directory. -/
theorem telling (h : t.Leads place pieces goal) : t.Leads place (Path.telling pieces) goal := by
  induction h with
  | here place => exact .here place
  | stay _ hvoid _ ih =>
    rw [Path.telling, List.filter_cons_of_neg (by simp [hvoid])]
    exact ih
  | up hdirectory _ ih => exact .up hdirectory ih
  | down hdirectory hname hat _ ih =>
    rw [Path.telling, List.filter_cons_of_pos (by simp [hname.notVoid])]
    exact .down hdirectory hname hat ih

/-- On the way to a directory lie directories only. -/
theorem isDirectory (h : t.Leads place pieces goal) (hgoal : t.IsDirectory goal) :
    t.IsDirectory place := by
  cases h with
  | here => exact hgoal
  | stay hdirectory => exact hdirectory
  | up hdirectory => exact hdirectory
  | down hdirectory => exact hdirectory

theorem of_telling (hgoal : t.IsDirectory goal) (h : t.Leads place (Path.telling pieces) goal) :
    t.Leads place pieces goal := by
  induction pieces generalizing place with
  | nil => exact h
  | cons piece pieces ih =>
    by_cases hvoid : Path.isVoid piece = true
    · rw [Path.telling, List.filter_cons_of_neg (by simp [hvoid])] at h
      exact .stay (h.isDirectory hgoal) hvoid (ih h)
    · rw [Path.telling, List.filter_cons_of_pos (by simp [hvoid])] at h
      cases h with
      | stay _ hvoid' => exact absurd hvoid' hvoid
      | up hdirectory hrest => exact .up hdirectory (ih hrest)
      | down hdirectory hname hat hrest => exact .down hdirectory hname hat (ih hrest)

/-- The way ends at the place that its pieces spell. -/
theorem eq_spell (h : t.Leads place pieces goal) : spell place pieces = goal := by
  induction h with
  | here => rfl
  | stay _ hvoid _ ih =>
    rw [spell, if_pos hvoid]
    exact ih
  | up _ _ ih => exact ih
  | down _ hname _ _ ih =>
    rw [spell_name hname]
    exact ih

end Leads

/-! ## What a later tree keeps -/

/-- A later tree that spares a place: everything is still there and what it was, and if a file is at the
place, it has the same bytes. -/
structure Spares (place : List String) (t t' : FileTree) : Prop where
  cwd : t'.cwd = t.cwd
  kind : ∀ other m, t.at? other = some m → ∃ m', t'.at? other = some m' ∧ m'.kind = m.kind
  file : ∀ bytes, t.at? place = some (.file bytes) → t'.at? place = some (.file bytes)

namespace Spares

variable {place : List String} {t'' : FileTree}

theorem refl (place : List String) (t : FileTree) : Spares place t t where
  cwd := rfl
  kind _ m hm := ⟨m, hm, rfl⟩
  file _ hfile := hfile

theorem trans (h : Spares place t t') (h' : Spares place t' t'') : Spares place t t'' where
  cwd := h'.cwd.trans h.cwd
  kind other m hm := by
    obtain ⟨m', hm', hkind⟩ := h.kind other m hm
    obtain ⟨m'', hm'', hkind'⟩ := h'.kind other m' hm'
    exact ⟨m'', hm'', hkind'.trans hkind⟩
  file bytes hfile := h'.file bytes (h.file bytes hfile)

theorem isDirectory (h : Spares place t t') {other : List String} (hother : t.IsDirectory other) :
    t'.IsDirectory other := by
  obtain ⟨entries, hentries⟩ := hother
  obtain ⟨m', hm', hkind⟩ := h.kind other _ hentries
  cases m' with
  | file bytes => cases hkind
  | directory entries' => exact ⟨entries', hm'⟩

/-- What leads somewhere goes on leading there. -/
theorem leads (h : Spares place t t') {origin goal pieces : List String}
    (hleads : t.Leads origin pieces goal) : t'.Leads origin pieces goal := by
  induction hleads with
  | here place => exact .here place
  | stay hdirectory hvoid _ ih => exact .stay (h.isDirectory hdirectory) hvoid ih
  | up hdirectory _ ih => exact .up (h.isDirectory hdirectory) ih
  | down hdirectory hname hat _ ih =>
    obtain ⟨m', hm', -⟩ := h.kind _ _ hat
    exact .down (h.isDirectory hdirectory) hname hm' ih

theorem start_eq (h : Spares place t t') (p : Path) : t'.start p = t.start p := by
  rw [start, start, h.cwd]

theorem locate (h : Spares place t t') {p : Path} {other : List String}
    (hlocate : t.locate p = .ok other) : t'.locate p = .ok other := by
  rw [locate_iff] at hlocate ⊢
  rw [h.start_eq]
  exact ⟨hlocate.1, h.leads hlocate.2⟩

end Spares

/-- A node may be put where nothing is, and a file where another file is; the latter spares every place
but that one. -/
theorem spares_put {value : Node} {target place : List String}
    (hfree : ∀ old, t.at? target = some old →
      old.kind = .file ∧ value.kind = .file ∧ place ≠ target) :
    Spares place t { t with root := t.root.put value target } where
  cwd := rfl
  kind other m hm := by
    obtain ⟨m', hm', hkind, -⟩ := Node.exists_get?_put value target
      (fun old hold => ⟨(hfree old hold).1, (hfree old hold).2.1⟩) hm
    exact ⟨m', hm', hkind⟩
  file bytes hfile := by
    obtain ⟨m', hm', -, hsame⟩ := Node.exists_get?_put value target
      (fun old hold => ⟨(hfree old hold).1, (hfree old hold).2.1⟩) hfile
    have hplace : place ≠ target := by
      rintro rfl
      exact (hfree _ hfile).2.2 rfl
    exact hm'.trans (congrArg some (hsame hplace rfl))

/-! ## Writing -/

theorem refusal?_eq_none {p : Path} :
    refusal? p = none ↔ p ≠ "" ∧ p.utf8ByteSize ≤ maxPath := by
  rw [refusal?]
  by_cases hp : p = ""
  · simp [hp]
  · by_cases hsize : maxPath < p.utf8ByteSize
    · simp [hp, hsize]
    · simp [hp, hsize, Nat.not_lt.mp hsize]

/-- A last piece that is not empty is the last of all if no slash follows it. -/
theorem pieces_of_cutLast {p : Path} {front : List String} {name : String}
    (h : cutLast p = (front, some name, false)) : p.pieces = front ++ [name] ∧ name ≠ "" := by
  simp only [cutLast] at h
  split at h
  next => simp at h
  next last behind hdrop =>
    simp only [Prod.mk.injEq, Option.some.injEq, Bool.not_eq_false', List.isEmpty_iff] at h
    obtain ⟨rfl, rfl, htrailing⟩ := h
    rw [htrailing] at hdrop
    have hreverse : p.pieces.reverse = last :: behind := hdrop
    constructor
    · rw [← List.reverse_reverse p.pieces, hreverse, List.reverse_cons]
    · rintro rfl
      rw [hreverse] at htrailing
      cases htrailing

/-- Where a path puts a file: under a name, in a directory. -/
structure Lands (t : FileTree) (p : Path) (dir : List String) (name : String) : Prop where
  accepted : refusal? p = none
  isName : IsName name
  isDirectory : t.IsDirectory dir
  way : ∃ front, p.pieces = front ++ [name] ∧ t.Leads [] (t.start p ++ front) dir

/-- A file that is written lands somewhere, and no directory is there. -/
theorem exists_lands {p : Path} {bytes : List UInt8} (h : t.writeNode p bytes = .ok t') :
    ∃ dir name, t.Lands p dir name ∧ (∀ old, t.at? (dir ++ [name]) = some old → old.kind = .file) ∧
      t' = { t with root := t.root.put (.file bytes) (dir ++ [name]) } := by
  rw [writeNode] at h
  split at h
  · cases h
  rename_i haccepted
  split at h
  rename_i front last isSlashed hcut
  split at h
  · cases h
  rename_i trail hwalk
  split at h
  · cases h
  rename_i entries hentries
  cases last with
  | none => cases h
  | some name =>
    dsimp only at h
    split at h
    · cases h
    rename_i hplain
    split at h
    · cases h
    rename_i hshort
    split at h
    · cases h
    rename_i hfile
    have hdir := at?_of_walkFrom hwalk hentries
    simp only [Bool.or_eq_true, beq_iff_eq, not_or, Bool.not_eq_true] at hplain
    obtain ⟨⟨hslash, hdot⟩, hdots⟩ := hplain
    rw [hslash] at hcut
    obtain ⟨hpieces, hempty⟩ := pieces_of_cutLast hcut
    have hname : IsName name :=
      ⟨by simp [Path.isVoid, hempty, hdot], hdots, Nat.le_of_not_lt hshort⟩
    have hlands : t.Lands p (placeOf trail) name :=
      ⟨haccepted, hname, ⟨entries, hdir⟩, front, hpieces, walkFrom_iff.mp ⟨trail, hwalk, rfl⟩⟩
    refine ⟨placeOf trail, name, hlands, ?_, (Except.ok.inj h).symm⟩
    intro old hold
    rw [at?_entry hdir] at hold
    cases old with
    | file bytes => rfl
    | directory entries => exact absurd hold (hfile entries)

theorem writeNode_spares {place : List String} {p : Path} {bytes : List UInt8}
    (h : t.writeNode p bytes = .ok t')
    (hplace : ∀ dir name, t.Lands p dir name → dir ++ [name] ≠ place) :
    Spares place t t' := by
  obtain ⟨dir, name, hlands, hfile, rfl⟩ := exists_lands h
  apply spares_put
  intro old hold
  exact ⟨hfile old hold, rfl, (hplace dir name hlands).symm⟩

theorem makeDirectory_spares (place : List String) {p : Path} (h : t.makeDirectory p = .ok t') :
    Spares place t t' := by
  rw [makeDirectory] at h
  split at h
  · cases h
  split at h
  rename_i front last isSlashed hcut
  split at h
  · cases h
  rename_i trail hwalk
  split at h
  · cases h
  rename_i entries hentries
  cases last with
  | none => cases h
  | some name =>
    dsimp only at h
    split at h
    · cases h
    split at h
    · cases h
    split at h
    · cases h
    rename_i hmissing
    obtain rfl := Except.ok.inj h
    apply spares_put
    intro old hold
    rw [at?_entry (at?_of_walkFrom hwalk hentries)] at hold
    simp [hold] at hmissing

/-- Making directories takes nothing away, however far it gets. -/
theorem makeDirectoriesFrom_spares (place : List String) (fuel : Nat) (t : FileTree) (p : Path) :
    Spares place t (t.makeDirectoriesFrom fuel p).1 := by
  induction fuel generalizing t p with
  | zero => exact .refl place t
  | succ fuel ih =>
    rw [makeDirectoriesFrom]
    split
    · exact .refl place t
    split
    next hmade => exact makeDirectory_spares place hmade
    next =>
      split
      next => exact .refl place t
      next parent _ =>
        have habove := ih t parent
        split
        next heq => rwa [heq] at habove
        next above heq =>
          rw [heq] at habove
          split
          next hmade => exact habove.trans (makeDirectory_spares place hmade)
          next => split <;> exact habove
    next => split <;> exact .refl place t

theorem makeDirectories_spares (place : List String) (t : FileTree) (p : Path) :
    Spares place t (t.makeDirectories p).1 := makeDirectoriesFrom_spares place _ t p

end FileTree

end FlowWatch
