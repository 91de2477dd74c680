/-
What becomes of the capture that a run reads.

A run writes to two places, the dump and the report, and each was compared with the capture before
anything was written. The dump is opened in the tree that the comparison saw. The report is written into
a later one, in a directory that may have been made for it, and so a report that spells the place of the
capture behind a missing directory was overlooked (`FileTree.Overlooks`). Every other run leaves the
capture alone, and a run that overlooks it and succeeds replaces it.
-/
import FlowWatch.Proofs.CommandLine.Steps

set_option autoImplicit false

namespace FlowWatch.CommandLine

open FileTree (Spares)

variable {α β : Type} {place : List String} {tree t t' : FileTree}

/-! ## What answers tell -/

theorem run_ensureDistinct_ok {what : String} {output input : Path}
    (h : ((ensureDistinct FileTree.system what output input).run t).1 = .ok ()) :
    ∀ parent dir name, output.directory? = some parent → t.locate parent = .ok dir →
      output.fileName? = some name → Path.join (FileTree.pathOf dir) name ≠ input := by
  intro parent dir name hparent hlocate hname hinput
  obtain ⟨text, htext, rfl⟩ := Option.map_eq_some_iff.mp hparent
  unfold ensureDistinct at h
  rw [htext] at h
  have hcanonical : (liftM (FileTree.system.canonical (if text == "" then "." else text)) :
      Step (StateM FileTree) _).run t = (.ok (.ok (FileTree.pathOf dir)), t) := by
    change (Except.ok ((t.locate _).map FileTree.pathOf), t) = _
    rw [hlocate]
    rfl
  simp only [run_bind_of_ok hcanonical, hname, hinput, beq_self_eq_true, if_true] at h
  cases h

/-- An output that was compared with a plain place is apart from it. -/
theorem apart_of_compared {what : String} {output : Path} {answer : Unit}
    (hplain : FileTree.IsPlain place)
    (h : ((ensureDistinct FileTree.system what output (FileTree.pathOf place)).run tree).1 =
      .ok answer) : tree.Apart output place :=
  FileTree.apart_of_join_ne hplain (run_ensureDistinct_ok h)

theorem run_canonicalInput_ok {input canonical : Path}
    (h : ((canonicalInput FileTree.system input).run t).1 = .ok canonical) :
    ∃ place, t.locate input = .ok place ∧ canonical = FileTree.pathOf place := by
  unfold canonicalInput at h
  have hcanonical : (liftM (FileTree.system.canonical input) : Step (StateM FileTree) _).run t =
      (.ok ((t.locate input).map FileTree.pathOf), t) := rfl
  rw [run_bind_of_ok hcanonical] at h
  cases hlocate : t.locate input with
  | error e =>
    rw [hlocate] at h
    cases h
  | ok place =>
    rw [hlocate] at h
    exact ⟨place, rfl, (Except.ok.inj h).symm⟩

/-! ## Sequences of steps -/

section

variable {x : Step (StateM FileTree) α} {f : α → Step (StateM FileTree) β}

/-- A sequence spares a place if its first step does, and what follows on its answer. -/
theorem spares_bind (hx : Spares place tree (x.run t).2)
    (hf : ∀ a t', x.run t = (.ok a, t') → Spares place tree t' →
      Spares place tree ((f a).run t').2) :
    Spares place tree ((x >>= f).run t).2 := by
  cases hrun : x.run t with
  | mk answer t' =>
    rw [hrun] at hx
    cases answer with
    | ok a =>
      rw [run_bind_of_ok hrun]
      exact hf a t' hrun hx
    | error e =>
      rw [run_bind_of_error hrun]
      exact hx

/-- A step that looks at the tree is not seen by what follows. -/
theorem spares_bind_of_looks (hx : Looks x) (ht : Spares place tree t)
    (hf : ∀ a, (x.run t).1 = .ok a → Spares place tree ((f a).run t).2) :
    Spares place tree ((x >>= f).run t).2 := by
  apply spares_bind
  · rwa [hx t]
  · intro a t' hrun _
    obtain rfl : t' = t := by
      have hsame := hx t
      rwa [hrun] at hsame
    exact hf a (congrArg Prod.fst hrun)

theorem Looks.spares (hx : Looks x) (ht : Spares place tree t) : Spares place tree (x.run t).2 := by
  rwa [hx t]

theorem spares_bind_looks (hx : Spares place tree (x.run t).2) (hf : ∀ a, Looks (f a)) :
    Spares place tree ((x >>= f).run t).2 := by
  apply spares_bind hx
  intro a t' _ ht
  exact (hf a).spares ht

end

/-! ## Steps that write -/

theorem write_of_ok {path : Path} {bytes : List UInt8} (h : t.writeFile path bytes = .ok t') :
    FileTree.system.write path bytes t = (.ok (), t') := by
  change (FileTree.change fun t => t.writeFile path bytes).run t = _
  simp only [FileTree.change, StateT.run_bind, StateT.run_get, pure_bind, h]
  rfl

theorem write_of_error {path : Path} {bytes : List UInt8} {e : FileError}
    (h : t.writeFile path bytes = .error e) : FileTree.system.write path bytes t = (.error e, t) := by
  change (FileTree.change fun t => t.writeFile path bytes).run t = _
  simp only [FileTree.change, StateT.run_bind, StateT.run_get, pure_bind, h]
  rfl

theorem spares_write {path : Path} {bytes : List UInt8} (ht : Spares place tree t)
    (hwrite : ∀ t', t.writeFile path bytes = .ok t' → Spares place tree t') :
    Spares place tree (FileTree.system.write path bytes t).2 := by
  cases hanswer : t.writeFile path bytes with
  | ok t' =>
    rw [write_of_ok hanswer]
    exact hwrite t' hanswer
  | error e =>
    rw [write_of_error hanswer]
    exact ht

theorem spares_writeOrFail {what : String} {path : Path} {bytes : List UInt8}
    (ht : Spares place tree t)
    (hwrite : ∀ t', t.writeFile path bytes = .ok t' → Spares place tree t') :
    Spares place tree ((writeOrFail FileTree.system what path bytes).run t).2 := by
  unfold writeOrFail
  apply spares_bind_looks
  · exact spares_write ht hwrite
  · intro answer
    split
    · exact looks_pure _
    · exact looks_throw _

/-- A file whose writing did not fail has been written. -/
theorem writeFile_of_run {what : String} {path : Path} {bytes : List UInt8} {answer : Unit}
    (h : (writeOrFail FileTree.system what path bytes).run t = (.ok answer, t')) :
    t.writeFile path bytes = .ok t' := by
  unfold writeOrFail at h
  obtain ⟨written, mid, hlift, hrest⟩ := exists_of_run_bind h
  have hwritten : FileTree.system.write path bytes t = (written, mid) := by
    obtain ⟨hanswer, hmid⟩ := Prod.mk.inj hlift
    exact Prod.ext (Except.ok.inj hanswer) hmid
  cases written with
  | error e => cases hrest
  | ok =>
    obtain rfl : mid = t' := congrArg Prod.snd hrest
    cases hanswer : t.writeFile path bytes with
    | ok after =>
      rw [write_of_ok hanswer] at hwritten
      exact congrArg Except.ok (congrArg Prod.snd hwritten)
    | error e =>
      rw [write_of_error hanswer] at hwritten
      cases hwritten

theorem looks_analyseFile (input : Path) (config : Config) :
    Looks (analyseFile FileTree.system input config none) := by
  unfold analyseFile
  apply (looks_lift (leaves_look _)).bind
  intro answer
  split
  · exact looks_throw _
  · split
    · exact looks_throw _
    · split
      apply (looks_pure _).bind
      intro written
      dsimp only
      split
      · exact looks_throw _
      · exact looks_throw _
      · exact looks_pure _

/-- The dump is told apart from the capture in the tree that it is first written in, so it is not overlooked
when it is written again. -/
theorem spares_analyseFile {input : Path} {config : Config} {dump : Option DumpOptions}
    (hdump : ∀ d, dump = some d → tree.Apart d.path place) :
    Spares place tree ((analyseFile FileTree.system input config dump).run tree).2 := by
  cases dump with
  | none => exact (looks_analyseFile input config).spares (.refl place tree)
  | some d =>
    have hapart := hdump d rfl
    unfold analyseFile
    apply spares_bind
    · apply spares_writeOrFail (.refl place tree)
      intro t' hanswer
      exact FileTree.writeFile_spares (.refl place tree) hapart
        (FileTree.not_overlooks hanswer place) hanswer
    · intro _ t hrun ht
      apply spares_bind_of_looks (looks_lift (leaves_look _)) ht
      intro answer _
      split
      · exact (looks_throw _).spares ht
      · split
        · exact (looks_throw _).spares ht
        · split
          apply spares_bind_looks
          · apply spares_write ht
            intro t' hanswer
            exact FileTree.writeFile_spares ht hapart
              (FileTree.not_overlooks (writeFile_of_run hrun) place) hanswer
          · intro written
            dsimp only
            split
            · exact looks_throw _
            · exact looks_throw _
            · exact looks_pure _

theorem spares_writeReport {path : Path} {text : String} (ht : Spares place tree t)
    (hapart : tree.Apart path place) (hseen : ¬ tree.Overlooks path place) :
    Spares place tree ((writeReport FileTree.system path text).run t).2 := by
  have hwrite : ∀ {t : FileTree} {what : String} {bytes : List UInt8}, Spares place tree t →
      Spares place tree ((writeOrFail FileTree.system what path bytes).run t).2 := by
    intro t what bytes ht
    apply spares_writeOrFail ht
    intro t' hanswer
    exact FileTree.writeFile_spares ht hapart hseen hanswer
  unfold writeReport
  split
  next parent _ =>
    split
    · apply spares_bind
      · exact ht.trans (FileTree.makeDirectories_spares place t parent)
      · intro answer t' _ ht'
        cases answer with
        | ok => exact hwrite ht'
        | error e => exact (looks_throw _).spares ht'
    · exact hwrite ht
  next => exact hwrite ht

theorem spares_publish {path : Path} {text : String} {printed : Printed} (ht : Spares place tree t)
    (hapart : tree.Apart path place) (hseen : ¬ tree.Overlooks path place) :
    Spares place tree
      ((writeReport FileTree.system path text >>= fun _ => pure printed).run t).2 := by
  apply spares_bind_looks (spares_writeReport ht hapart hseen)
  intro _
  exact looks_pure printed

/-! ## The run -/

/-- What the input of a run stands for. -/
def inputOn (tree : FileTree) (input : Path) : Except Failure Path :=
  ((resolveInput FileTree.system input).run tree).1

/-- What follows the comparisons. -/
theorem spares_report {input : Path} {path : Option Path} {dump : Option DumpOptions}
    {publish : Report → Step (StateM FileTree) Printed}
    (hdump : ∀ d, dump = some d → tree.Apart d.path place)
    (hpublish : ∀ report t, Spares place tree t → Spares place tree ((publish report).run t).2) :
    Spares place tree ((readConfig FileTree.system path >>= fun config =>
      analyseFile FileTree.system input config dump >>= publish).run tree).2 := by
  apply spares_bind_of_looks (looks_readConfig path) (.refl place tree)
  intro config _
  apply spares_bind (spares_analyseFile hdump)
  intro report t _ ht
  exact hpublish report t ht

theorem spares_analyse {o : Options} {input : Path} (hcwd : ∀ name ∈ tree.cwd, '/' ∉ name.toList)
    (hinput : inputOn tree o.input = .ok input) (hlocate : tree.locate input = .ok place)
    (hseen : ∀ path, o.destination = .file path → ¬ tree.Overlooks path place) :
    Spares place tree ((analyse FileTree.system o).run tree).2 := by
  have hplain := FileTree.isPlain_of_locate hcwd hlocate
  unfold analyse
  apply spares_bind_of_looks (looks_resolveInput o.input) (.refl place tree)
  intro resolved hresolved
  obtain rfl : resolved = input := Except.ok.inj (hresolved.symm.trans hinput)
  apply spares_bind_of_looks (looks_validateInput resolved) (.refl place tree)
  intro _ _
  apply spares_bind_of_looks (looks_canonicalInput resolved) (.refl place tree)
  intro canonical hcanonical
  obtain ⟨place', hplace', rfl⟩ := run_canonicalInput_ok hcanonical
  obtain rfl : place' = place := Except.ok.inj (hplace'.symm.trans hlocate)
  -- Both comparisons come before anything is written, so what they tell is about `tree` itself.
  cases hdest : o.destination with
  | stdout =>
    cases o.dump with
    | none =>
      apply spares_report (by simp)
      intro report t ht
      split
      · exact (looks_throw _).spares ht
      · exact (looks_pure _).spares ht
    | some d =>
      apply spares_bind_of_looks (looks_ensureDistinct _ _ _) (.refl place' tree)
      intro _ hd
      apply spares_report (by simpa using apart_of_compared hplain hd)
      intro report t ht
      split
      · exact (looks_throw _).spares ht
      · exact (looks_pure _).spares ht
  | file path =>
    apply spares_bind_of_looks (looks_ensureDistinct _ _ _) (.refl place' tree)
    intro _ hpath
    have hapart := apart_of_compared hplain hpath
    cases o.dump with
    | none =>
      apply spares_report (by simp)
      intro report t ht
      split
      · exact (looks_throw _).spares ht
      · exact spares_publish ht hapart (hseen path hdest)
    | some d =>
      apply spares_bind_of_looks (looks_ensureDistinct _ _ _) (.refl place' tree)
      intro _ hd
      apply spares_report (by simpa using apart_of_compared hplain hd)
      intro report t ht
      split
      · exact (looks_throw _).spares ht
      · exact spares_publish ht hapart (hseen path hdest)

/-- A run makes of the tree what the analysis makes of it, and succeeds only if that does. -/
theorem runOn_of_run {args : List String} {o : Options} {answer : Except Failure Printed}
    (hargs : Options.read args = .ok o) (hrun : (analyse FileTree.system o).run tree = (answer, t')) :
    (runOn tree args).2 = t' ∧ ((runOn tree args).1.code = 0 → ∃ printed, answer = .ok printed) := by
  have hbind : ∀ finish : Except Failure Printed → StateM FileTree Outcome,
      ((analyse FileTree.system o).run >>= finish) tree = finish answer t' := by
    intro finish
    change finish ((analyse FileTree.system o).run tree).1 ((analyse FileTree.system o).run tree).2 = _
    rw [hrun]
  unfold runOn run
  rw [hargs]
  dsimp only
  rw [hbind]
  cases answer with
  | ok printed => exact ⟨rfl, fun _ => ⟨printed, rfl⟩⟩
  | error f => exact ⟨rfl, fun hcode => absurd hcode (by decide : ¬ 2 = 0)⟩

/-- **A run leaves the capture it reads alone**, whatever it ends with and however its paths are spelled,
unless the path of the report spells the place of the capture and was overlooked because the directory of
the report could not be located. -/
theorem capture_survives {args : List String} {o : Options} {input : Path} {bytes : List UInt8}
    (hcwd : ∀ name ∈ tree.cwd, '/' ∉ name.toList) (hargs : Options.read args = .ok o)
    (hinput : inputOn tree o.input = .ok input) (hread : tree.readFile input = .ok bytes)
    (hseen : ∀ path place, o.destination = .file path → tree.locate input = .ok place →
      ¬ tree.Overlooks path place) :
    (runOn tree args).2.readFile input = .ok bytes := by
  obtain ⟨place, hlocate, hfile⟩ := FileTree.readFile_iff.mp hread
  have hspares := spares_analyse hcwd hinput hlocate fun path hpath => hseen path place hpath hlocate
  rw [(runOn_of_run hargs rfl).1]
  exact FileTree.readFile_iff.mpr ⟨place, hspares.locate hlocate, hspares.file bytes hfile⟩

/-- A capture without packets, and a report that goes through a directory that is missing to another
place. -/
theorem capture_survives_beside :
    let capture : List UInt8 :=
      [77, 60, 178, 161, 2, 0, 4, 0, 0, 0, 0, 0, 0, 0, 0, 0, 255, 255, 0, 0, 1, 0, 0, 0]
    let tree : FileTree := ⟨.directory [("c.pcap", .file capture)], []⟩
    let args := ["pcap", "analyse", "c.pcap", "-o", "missing/../r.json"]
    tree.readFile "c.pcap" = .ok capture ∧ (runOn tree args).1.code = 0 ∧
      (runOn tree args).2.readFile "c.pcap" = .ok capture := by
  intro capture tree args
  refine ⟨rfl, by decide +kernel, ?_⟩
  refine capture_survives (o := ⟨"c.pcap", .file "missing/../r.json", .compact, false, none, none⟩)
    (by decide) rfl rfl rfl ?_
  intro path place hpath hlocate hover
  obtain rfl : "missing/../r.json" = path := Destination.file.inj hpath
  obtain rfl : ["c.pcap"] = place := Except.ok.inj hlocate
  exact absurd hover.spelled (by decide)

/-! ## What is overlooked -/

theorem exists_of_run_writeReport {path : Path} {text : String} {answer : Unit}
    (h : (writeReport FileTree.system path text).run t = (.ok answer, t')) :
    ∃ made, Spares [] t made ∧ made.writeFile path (Text.Utf8.encode text.toList) = .ok t' := by
  unfold writeReport at h
  split at h
  next parent _ =>
    split at h
    · obtain ⟨answer', mid, hlift, hrest⟩ := exists_of_run_bind h
      have hmade : Spares [] t mid := by
        have hmid : (t.makeDirectories parent).1 = mid := congrArg Prod.snd hlift
        exact hmid ▸ FileTree.makeDirectories_spares [] t parent
      cases answer' with
      | ok => exact ⟨mid, hmade, writeFile_of_run hrest⟩
      | error e => cases hrest
    · exact ⟨t, .refl [] t, writeFile_of_run h⟩
  next => exact ⟨t, .refl [] t, writeFile_of_run h⟩

theorem exists_of_run_report {input : Path} {path : Option Path} {dump : Option DumpOptions}
    {publish : Report → Step (StateM FileTree) Printed} {printed : Printed}
    (h : (readConfig FileTree.system path >>= fun config =>
      analyseFile FileTree.system input config dump >>= publish).run tree = (.ok printed, t')) :
    ∃ report t, Spares [] tree t ∧ (publish report).run t = (.ok printed, t') := by
  obtain ⟨config, -, h⟩ := (looks_readConfig path).exists_of_run_bind h
  obtain ⟨report, t, hrun, h⟩ := exists_of_run_bind h
  have hspares : Spares [] tree ((analyseFile FileTree.system input config dump).run tree).2 :=
    spares_analyseFile fun d _ => tree.apart_root d.path
  rw [hrun] at hspares
  exact ⟨report, t, hspares, h⟩

/-- A run that succeeds has written its report last. -/
theorem exists_of_run_analyse {o : Options} {path : Path} {printed : Printed}
    (hdest : o.destination = .file path)
    (h : (analyse FileTree.system o).run tree = (.ok printed, t')) :
    ∃ report text t answer, Report.render? o.layout report = some text ∧ Spares [] tree t ∧
      (writeReport FileTree.system path text).run t = (.ok answer, t') := by
  unfold analyse at h
  obtain ⟨input, -, h⟩ := (looks_resolveInput o.input).exists_of_run_bind h
  obtain ⟨_, -, h⟩ := (looks_validateInput input).exists_of_run_bind h
  obtain ⟨canonical, -, h⟩ := (looks_canonicalInput input).exists_of_run_bind h
  simp only [hdest] at h
  obtain ⟨_, -, h⟩ := (looks_ensureDistinct _ _ _).exists_of_run_bind h
  have hpublish : ∀ {text : String} {t : FileTree} {printed' : Printed},
      (writeReport FileTree.system path text >>= fun _ => pure printed').run t = (.ok printed, t') →
        ∃ answer, (writeReport FileTree.system path text).run t = (.ok answer, t') := by
    intro text t printed' h
    obtain ⟨answer, mid, hrun, hrest⟩ := exists_of_run_bind h
    obtain rfl : mid = t' := congrArg Prod.snd hrest
    exact ⟨answer, hrun⟩
  cases hdump : o.dump with
  | none =>
    rw [hdump] at h
    obtain ⟨report, t, hspares, h⟩ := exists_of_run_report h
    split at h
    next => cases h
    next text hrender =>
      obtain ⟨answer, hrun⟩ := hpublish h
      exact ⟨report, text, t, answer, hrender, hspares, hrun⟩
  | some d =>
    rw [hdump] at h
    obtain ⟨_, -, h⟩ := (looks_ensureDistinct _ _ _).exists_of_run_bind h
    obtain ⟨report, t, hspares, h⟩ := exists_of_run_report h
    split at h
    next => cases h
    next text hrender =>
      obtain ⟨answer, hrun⟩ := hpublish h
      exact ⟨report, text, t, answer, hrender, hspares, hrun⟩

/-- **A run that succeeds replaces the file that the path of its report spells.** If that is the capture,
nothing of it is left but what the report tells. -/
theorem capture_replaced {args : List String} {o : Options} {path input : Path}
    (hargs : Options.read args = .ok o) (hdest : o.destination = .file path)
    (hdevice : path ≠ FileTree.fullDevice) (hcode : (runOn tree args).1.code = 0)
    (hlocate : tree.locate input = .ok (tree.spelled path)) :
    ∃ report text, Report.render? o.layout report = some text ∧
      (runOn tree args).2.readFile input = .ok (Text.Utf8.encode text.toList) := by
  cases hrun : (analyse FileTree.system o).run tree with
  | mk answer t' =>
    obtain ⟨htree, hanswer⟩ := runOn_of_run hargs hrun
    obtain ⟨printed, rfl⟩ := hanswer hcode
    obtain ⟨report, text, t, _, hrender, ht, hreport⟩ := exists_of_run_analyse hdest hrun
    obtain ⟨made, hmade, hwrite⟩ := exists_of_run_writeReport hreport
    rw [FileTree.writeFile, if_neg (by simpa using hdevice)] at hwrite
    have hbefore : Spares [] tree made := ht.trans hmade
    have hafter : Spares [] tree t' :=
      hbefore.trans (FileTree.writeNode_spares hwrite fun dir name _ => by simp)
    have hfile : t'.at? (tree.spelled path) = some (.file (Text.Utf8.encode text.toList)) := by
      rw [FileTree.spelled, ← hbefore.start_eq]
      exact FileTree.at?_spelled hwrite
    refine ⟨report, text, hrender, ?_⟩
    rw [htree]
    exact FileTree.readFile_iff.mpr ⟨_, hafter.locate hlocate, hfile⟩

/-- The text of a report starts with a brace. -/
theorem exists_toList_render {layout : Json.Layout} {report : Report} {text : String}
    (h : Report.render? layout report = some text) : ∃ rest, text.toList = '\x7b' :: rest := by
  rw [Report.render?, Option.map_eq_some_iff] at h
  obtain ⟨v, hv, rfl⟩ := h
  have hobject : ∃ m ms, v = .object (m :: ms) := by
    simp only [Report.toJson?, Option.bind_eq_bind, Option.bind_eq_some_iff] at hv
    obtain ⟨sessions, -, exchanges, -, hv⟩ := hv
    exact ⟨_, _, (Option.some.inj hv).symm⟩
  obtain ⟨m, ms, rfl⟩ := hobject
  cases layout with
  | compact => exact ⟨_, String.toList_ofList⟩
  | indented => exact ⟨_, String.toList_ofList⟩

/-- The same capture, and a report that goes through a missing directory to the capture itself. The
comparison overlooks it, the directory is made, and the report is written over the capture. -/
theorem capture_lost_behind_missing :
    let capture : List UInt8 :=
      [77, 60, 178, 161, 2, 0, 4, 0, 0, 0, 0, 0, 0, 0, 0, 0, 255, 255, 0, 0, 1, 0, 0, 0]
    let tree : FileTree := ⟨.directory [("c.pcap", .file capture)], []⟩
    let args := ["pcap", "analyse", "c.pcap", "-o", "missing/../c.pcap"]
    tree.readFile "c.pcap" = .ok capture ∧ (runOn tree args).1.code = 0 ∧
      (runOn tree args).2.readFile "c.pcap" ≠ .ok capture := by
  intro capture tree args
  have hcode : (runOn tree args).1.code = 0 := by decide +kernel
  have hreplaced : ∃ report text, Report.render? .compact report = some text ∧
      (runOn tree args).2.readFile "c.pcap" = .ok (Text.Utf8.encode text.toList) :=
    capture_replaced (o := ⟨"c.pcap", .file "missing/../c.pcap", .compact, false, none, none⟩)
      rfl rfl (by decide) hcode rfl
  obtain ⟨report, text, hrender, hread⟩ := hreplaced
  refine ⟨rfl, hcode, ?_⟩
  intro hsame
  have hbytes : Text.Utf8.encode text.toList = capture :=
    Except.ok.inj (hread.symm.trans hsame)
  obtain ⟨rest, hrest⟩ := exists_toList_render hrender
  rw [hrest] at hbytes
  have hfirst : some (123 : UInt8) = some 77 := congrArg List.head? hbytes
  exact absurd hfirst (by decide)

end FlowWatch.CommandLine
