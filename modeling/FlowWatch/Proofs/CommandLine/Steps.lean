/-
The steps of a command on a tree.

Most steps only look: whatever they answer, the tree is as it was. What is left are the steps that write,
and for a run the rule of sequences: a step that fails ends the run where it stands, and one that answers
hands its answer on, with what can be known from it.
-/
import FlowWatch.CommandLine.Run
import FlowWatch.Proofs.Files.Outputs

set_option autoImplicit false

namespace FlowWatch.CommandLine

open FileTree (Spares)

variable {α β : Type}

/-! ## Actions that only look -/

/-- An action that leaves the tree as it was. -/
def Leaves (x : StateM FileTree α) : Prop := ∀ t, (x t).2 = t

theorem leaves_pure (a : α) : Leaves (pure a) := fun _ => rfl

theorem leaves_look (f : FileTree → α) : Leaves (FileTree.look f) := fun _ => rfl

theorem Leaves.bind {x : StateM FileTree α} {f : α → StateM FileTree β} (hx : Leaves x)
    (hf : ∀ a, Leaves (f a)) : Leaves (x >>= f) := by
  intro t
  change ((f (x t).1) (x t).2).2 = t
  rw [hf, hx]

theorem leaves_mapM {f : α → StateM FileTree β} (hf : ∀ a, Leaves (f a)) (l : List α) :
    Leaves (l.mapM f) := by
  induction l with
  | nil => exact leaves_pure []
  | cons a l ih =>
    rw [List.mapM_cons]
    exact (hf a).bind fun b => ih.bind fun bs => leaves_pure (b :: bs)

/-! ## Following a pattern -/

section

open Wildcard Glob

theorem leaves_kind? (p : Path) : Leaves (FileTree.system.kind? p) := leaves_look _

theorem leaves_isDirectory (p : Path) : Leaves (isDirectory FileTree.system p) :=
  (leaves_kind? p).bind fun _ => leaves_pure _

variable {onlyDirectories : Bool} {go : List Piece → Path → StateM FileTree (List Path)}

theorem leaves_arrive (hgo : ∀ rest p, Leaves (go rest p)) (rest : List Piece) (p : Path) :
    Leaves (arrive FileTree.system onlyDirectories go rest p) := by
  unfold arrive
  cases rest with
  | nil =>
    apply (leaves_isDirectory p).bind
    intro inside
    split <;> exact leaves_pure _
  | cons piece rest => exact hgo _ p

theorem leaves_tryName (hgo : ∀ rest p, Leaves (go rest p)) (tokens : List Token)
    (rest : List Piece) (name : String) (p : Path) :
    Leaves (tryName FileTree.system onlyDirectories go tokens rest name p) := by
  unfold tryName
  split
  · exact leaves_arrive hgo rest p
  · exact leaves_pure _

theorem leaves_visit (hgo : ∀ rest p, Leaves (go rest p)) (piece : Piece) (rest : List Piece)
    (name : String) (p : Path) :
    Leaves (visit FileTree.system onlyDirectories go piece rest name p) := by
  cases piece with
  | name tokens => exact leaves_tryName hgo tokens rest name p
  | directories =>
    apply (leaves_isDirectory p).bind
    intro inside
    dsimp only
    split
    · apply (leaves_tryName hgo _ _ name p).bind
      intro own
      split
      · exact (hgo _ p).bind fun deeper => leaves_pure _
      · exact (leaves_pure _).bind fun deeper => leaves_pure _
    · apply (leaves_pure _).bind
      intro own
      split
      · exact (hgo _ p).bind fun deeper => leaves_pure _
      · exact (leaves_pure _).bind fun deeper => leaves_pure _

theorem leaves_follow (onlyDirectories : Bool) (fuel : Nat) (pieces : List Piece) (dir : Path) :
    Leaves (follow FileTree.system onlyDirectories fuel pieces dir) := by
  induction fuel generalizing pieces dir with
  | zero => exact leaves_pure []
  | succ fuel ih =>
    cases pieces with
    | nil => exact leaves_pure []
    | cons piece rest =>
      simp only [follow]
      split
      next name _ =>
        -- A piece without wildcards is looked up.
        have hfound : ∀ isThere : Bool, Leaves (if isThere = true then
            arrive FileTree.system onlyDirectories (follow FileTree.system onlyDirectories fuel) rest
              (entryPath dir (String.ofList name)) else pure []) := by
          intro isThere
          split
          · exact leaves_arrive ih rest _
          · exact leaves_pure []
        split
        · exact (leaves_isDirectory dir).bind hfound
        · exact (leaves_kind? _).bind fun kind => (leaves_pure _).bind hfound
      next =>
        apply (leaves_isDirectory dir).bind
        intro inside
        split
        · apply (leaves_mapM (fun name => leaves_arrive ih rest (Path.join dir name)) _).bind
          intro dots
          apply (leaves_look _).bind
          intro names
          apply (leaves_mapM (fun name => leaves_visit ih piece rest name (entryPath dir name)) _).bind
          exact fun found => leaves_pure _
        · exact leaves_pure []

end

/-! ## Steps -/

section

variable {x : Step (StateM FileTree) α} {f : α → Step (StateM FileTree) β} {t t' : FileTree}

theorem run_bind_of_ok {a : α} (h : x.run t = (.ok a, t')) :
    (x >>= f).run t = (f a).run t' := by
  change (StateT.bind x.run (ExceptT.bindCont f)) t = _
  change (ExceptT.bindCont f (x.run t).1) (x.run t).2 = _
  rw [h]
  rfl

theorem run_bind_of_error {e : Failure} (h : x.run t = (.error e, t')) :
    (x >>= f).run t = (.error e, t') := by
  change (ExceptT.bindCont f (x.run t).1) (x.run t).2 = _
  rw [h]
  rfl

/-- What a sequence answers, its second step answers on the answer of the first. -/
theorem exists_of_run_bind {b : β} (h : (x >>= f).run t = (.ok b, t')) :
    ∃ a mid, x.run t = (.ok a, mid) ∧ (f a).run mid = (.ok b, t') := by
  cases hrun : x.run t with
  | mk answer mid =>
    cases answer with
    | ok a =>
      rw [run_bind_of_ok hrun] at h
      exact ⟨a, mid, rfl, h⟩
    | error e =>
      rw [run_bind_of_error hrun] at h
      cases h

/-- A step that leaves the tree as it was, whether it fails or not. -/
def Looks (x : Step (StateM FileTree) α) : Prop := Leaves x.run

theorem looks_pure (a : α) : Looks (pure a) := fun _ => rfl

theorem looks_throw (e : Failure) : Looks (throw e : Step (StateM FileTree) α) := fun _ => rfl

theorem looks_lift {x : StateM FileTree α} (hx : Leaves x) :
    Looks (liftM x : Step (StateM FileTree) α) := fun t => hx t

theorem Looks.exists_of_run_bind (hx : Looks x) {b : β} (h : (x >>= f).run t = (.ok b, t')) :
    ∃ a, x.run t = (.ok a, t) ∧ (f a).run t = (.ok b, t') := by
  obtain ⟨a, mid, hrun, hrest⟩ := CommandLine.exists_of_run_bind h
  have hsame := hx t
  rw [hrun] at hsame
  obtain rfl : mid = t := hsame
  exact ⟨a, hrun, hrest⟩

theorem Looks.bind (hx : Looks x) (hf : ∀ a, Looks (f a)) : Looks (x >>= f) := by
  intro t
  have hsame := hx t
  cases hrun : x.run t with
  | mk answer t' =>
    rw [hrun] at hsame
    cases answer with
    | ok a => rw [run_bind_of_ok hrun, ← hsame]; exact hf a t'
    | error e => rw [run_bind_of_error hrun, ← hsame]

theorem looks_filterM {p : α → Step (StateM FileTree) Bool} (hp : ∀ a, Looks (p a)) (l : List α) :
    Looks (l.filterM p) := by
  have haux : ∀ kept, Looks (l.filterAuxM p kept) := by
    induction l with
    | nil => exact looks_pure
    | cons a l ih => exact fun kept => (hp a).bind fun b => ih _
  exact (haux []).bind fun kept => looks_pure _

/-! ## What the steps look at -/

theorem looks_resolveInput (input : Path) : Looks (resolveInput FileTree.system input) := by
  unfold resolveInput
  split
  · exact looks_pure _
  · split
    next => exact looks_throw _
    next glob _ =>
      apply (looks_lift (leaves_follow glob.onlyDirectories _ _ _)).bind
      intro paths
      apply Looks.bind
      · apply looks_filterM
        exact fun p => (looks_lift (leaves_kind? p)).bind fun kind => looks_pure _
      · intro files
        unfold onlyMatch
        split
        · exact looks_pure _
        · exact looks_throw _
        · exact looks_throw _

theorem looks_validateInput (input : Path) : Looks (validateInput FileTree.system input) := by
  unfold validateInput
  apply (looks_lift (leaves_look _)).bind
  intro kind
  split
  · exact looks_throw _
  · split
    · exact looks_throw _
    · exact looks_pure _
  · exact looks_throw _

theorem looks_canonicalInput (input : Path) : Looks (canonicalInput FileTree.system input) := by
  unfold canonicalInput
  apply (looks_lift (leaves_look _)).bind
  intro answer
  split
  · exact looks_pure _
  · exact looks_throw _

theorem looks_ensureDistinct (what : String) (output input : Path) :
    Looks (ensureDistinct FileTree.system what output input) := by
  unfold ensureDistinct
  split
  · exact looks_pure _
  · apply (looks_lift (leaves_look _)).bind
    intro answer
    split
    · exact looks_pure _
    · split
      · exact looks_throw _
      · split
        · exact looks_throw _
        · exact looks_pure _

theorem looks_readConfig (path : Option Path) : Looks (readConfig FileTree.system path) := by
  unfold readConfig
  split
  · exact looks_pure _
  · apply (looks_lift (leaves_look _)).bind
    intro answer
    dsimp only
    split
    · exact looks_pure _
    · exact looks_throw _

end

end FlowWatch.CommandLine
