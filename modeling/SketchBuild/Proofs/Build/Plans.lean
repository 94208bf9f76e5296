import SketchBuild.Build.Sketches
import SketchBuild.Proofs.FileTree.Texts
import SketchBuild.Proofs.Host.Actions
import SketchBuild.Proofs.Host.Directories

/-!
# Plans of batches

What a batch of sketches is going to write can be told before it starts: each text and the place
where it goes (`plan`). If the outputs are different files, none of them a sketch (`Separate`), the
first outputs change nothing for the sketches behind them (`Separate.planned?_putTexts`), and so the
batch does what was planned:

* `run_mapM_generateFile`: all of it, if every sketch can be read and every output written.
* `run_mapM_generateFile_append`: all of it for the sketches before the first that fails.
* `generated_plan`: every output holds its text, and nothing else has changed.
-/

namespace SketchBuild

variable {options : SketchOptions} {output sketch : Path} {sketches : List Path} {w : Workspace}
  {s t tree : FileTree} {current : Location} {files : List (Location × Text)}

/-! ### One sketch -/

theorem run_generateText (options : SketchOptions) (sketch : Path) (w : Workspace) :
    (generateText options sketch : Action Session Text).run.run w =
      match w.tree.read w.current sketch with
      | .error cause => (.error (.readSketch sketch cause), w)
      | .ok source => (.ok (generate options sketch.text source),
          { w with events := w.events ++ (Analysis.ofSource options source).events }) := by
  rw [generateText, Action.run_bind, Action.run_orFail_read]
  cases w.tree.read w.current sketch with
  | error cause => rfl
  | ok source =>
    dsimp only [Except.mapError]
    rw [Action.run_bind, Action.run_forM_record]
    rfl

theorem run_generateFile (options : SketchOptions) (output sketch : Path) (w : Workspace) :
    (generateFile options output sketch : Action Session Path).run.run w =
      match w.tree.read w.current sketch with
      | .error cause => (.error (.readSketch sketch cause), w)
      | .ok source =>
        let events := (Analysis.ofSource options source).events
        match w.tree.write w.current (outputPath output sketch)
            (.text (generate options sketch.text source)) with
        | .error cause => (.error (.writeOutput (outputPath output sketch) cause),
            { w with events := w.events ++ events })
        | .ok tree => (.ok (outputPath output sketch),
            { w with
              tree
              events := w.events ++ events ++
                [.sketchWritten sketch (outputPath output sketch)] }) := by
  rw [generateFile, Action.run_bind, run_generateText]
  cases w.tree.read w.current sketch with
  | error cause => rfl
  | ok source =>
    dsimp only
    rw [Action.run_bind, Action.run_orFail_write]
    dsimp only
    cases w.tree.write w.current (outputPath output sketch)
      (.text (generate options sketch.text source)) with
    | error cause => rfl
    | ok tree => rfl

/-! ### Plans -/

/-- The text generated from a sketch as a tree holds it. -/
def generated? (options : SketchOptions) (tree : FileTree) (current : Location) (sketch : Path) :
    Option Text :=
  match tree.read current sketch with
  | .ok source => some (generate options sketch.text source)
  | .error _ => none

theorem generated?_eq_some_iff {text : Text} :
    generated? options tree current sketch = some text ↔
      ∃ source, tree.read current sketch = .ok source ∧
        generate options sketch.text source = text := by
  rw [generated?]
  cases tree.read current sketch with
  | error cause => simp
  | ok source => simp

/-- Where the text generated from a sketch goes, and the text. -/
def planned? (options : SketchOptions) (tree : FileTree) (current : Location)
    (output sketch : Path) : Option (Location × Text) :=
  match tree.writable? current (outputPath output sketch),
    generated? options tree current sketch with
  | some location, some text => some (location, text)
  | _, _ => none

theorem planned?_eq_some_iff {file : Location × Text} :
    planned? options tree current output sketch = some file ↔
      tree.writable? current (outputPath output sketch) = some file.1 ∧
        generated? options tree current sketch = some file.2 := by
  rw [planned?]
  cases tree.writable? current (outputPath output sketch) with
  | none => simp
  | some location =>
    cases generated? options tree current sketch with
    | none => simp
    | some text => simp [Prod.ext_iff]

/-- The files that a batch is to write. -/
def plan (options : SketchOptions) (tree : FileTree) (current : Location) (output : Path)
    (sketches : List Path) : List (Location × Text) :=
  sketches.filterMap (planned? options tree current output)

/-- The outputs of a batch are different files, and no sketch is one of them. -/
structure Separate (tree : FileTree) (current : Location) (output : Path)
    (sketches : List Path) : Prop where
  outputs : sketches.Pairwise fun sketch other =>
    ¬ tree.SameFile current (outputPath output sketch) (outputPath output other)
  sources : ∀ sketch ∈ sketches, ∀ other ∈ sketches,
    ¬ tree.SameFile current (outputPath output sketch) other

instance : Decidable (Separate tree current output sketches) :=
  decidable_of_iff
    ((sketches.Pairwise fun sketch other =>
        ¬ tree.SameFile current (outputPath output sketch) (outputPath output other)) ∧
      ∀ sketch ∈ sketches, ∀ other ∈ sketches,
        ¬ tree.SameFile current (outputPath output sketch) other)
    ⟨fun h => ⟨h.1, h.2⟩, fun h => ⟨h.outputs, h.sources⟩⟩

namespace Separate

theorem sublist {sketches' : List Path} (h : Separate tree current output sketches)
    (hsub : sketches'.Sublist sketches) : Separate tree current output sketches' where
  outputs := h.outputs.sublist hsub
  sources sketch hsketch other hother :=
    h.sources sketch (hsub.subset hsketch) other (hsub.subset hother)

theorem perm {sketches' : List Path} (h : Separate tree current output sketches)
    (hperm : sketches'.Perm sketches) : Separate tree current output sketches' where
  outputs := (hperm.pairwise_iff fun hne hsame => hne hsame.symm).2 h.outputs
  sources sketch hsketch other hother :=
    h.sources sketch (hperm.subset hsketch) other (hperm.subset hother)

theorem congr (hshape : FileTree.SameShape s t) (h : Separate s current output sketches) :
    Separate t current output sketches where
  outputs := h.outputs.imp fun hne hsame => hne ((FileTree.sameFile_congr hshape).2 hsame)
  sources sketch hsketch other hother hsame :=
    h.sources sketch hsketch other hother ((FileTree.sameFile_congr hshape).2 hsame)

end Separate

theorem exists_of_mem_plan {file : Location × Text}
    (h : file ∈ plan options tree current output sketches) :
    ∃ sketch ∈ sketches, tree.writable? current (outputPath output sketch) = some file.1 ∧
      generated? options tree current sketch = some file.2 := by
  obtain ⟨sketch, hsketch, hplanned⟩ := List.mem_filterMap.1 h
  exact ⟨sketch, hsketch, planned?_eq_some_iff.1 hplanned⟩

theorem freeAt_of_mem_plan (hground : tree.Grounded current) {file : Location × Text}
    (h : file ∈ plan options tree current output sketches) : tree.FreeAt file.1 := by
  obtain ⟨sketch, -, hwritable, -⟩ := exists_of_mem_plan h
  exact FileTree.freeAt_of_writable? hground hwritable

theorem ne_nil_of_mem_plan {file : Location × Text}
    (h : file ∈ plan options tree current output sketches) : file.1 ≠ [] := by
  obtain ⟨sketch, -, hwritable, -⟩ := exists_of_mem_plan h
  exact FileTree.ne_nil_of_isDirectoryAt (FileTree.writable?_eq_some_iff.1 hwritable).2

theorem Separate.nodup_plan (h : Separate tree current output sketches) :
    ((plan options tree current output sketches).map Prod.fst).Nodup := by
  rw [List.Nodup, List.pairwise_map, plan, List.pairwise_filterMap]
  refine h.outputs.imp fun hne file hfile file' hfile' heq => hne ?_
  have hlocate := (FileTree.writable?_eq_some_iff.1 (planned?_eq_some_iff.1 hfile).1).1
  have hlocate' := (FileTree.writable?_eq_some_iff.1 (planned?_eq_some_iff.1 hfile').1).1
  exact ⟨file.1, hlocate, heq ▸ hlocate'⟩

/-- A sketch that is none of the files that are put in free places gives what it gave before. -/
theorem generated?_putTexts (hfree : ∀ file ∈ files, tree.FreeAt file.1)
    (hother : ∀ file ∈ files, tree.locate true current sketch ≠ .ok file.1) :
    generated? options (tree.putTexts files) current sketch =
      generated? options tree current sketch := by
  ext text
  rw [generated?_eq_some_iff, generated?_eq_some_iff]
  exact exists_congr fun source =>
    and_congr_left fun _ => FileTree.read_putTexts hfree hother source

theorem planned?_putTexts (hfree : ∀ file ∈ files, tree.FreeAt file.1)
    (hother : ∀ file ∈ files, tree.locate true current sketch ≠ .ok file.1) :
    planned? options (tree.putTexts files) current output sketch =
      planned? options tree current output sketch := by
  rw [planned?, planned?, generated?_putTexts hfree hother,
    ← FileTree.writable?_congr (FileTree.sameShape_putTexts hfree)]

/-- The files of a batch are none of its sketches. -/
theorem Separate.locate_ne (h : Separate tree current output sketches) {sketches' : List Path}
    (hsub : sketches' ⊆ sketches) (hsketch : sketch ∈ sketches) {file : Location × Text}
    (hfile : file ∈ plan options tree current output sketches') :
    tree.locate true current sketch ≠ .ok file.1 := by
  intro hlocate
  obtain ⟨other, hother, hwritable, -⟩ := exists_of_mem_plan hfile
  exact h.sources other (hsub hother) sketch hsketch
    ⟨file.1, (FileTree.writable?_eq_some_iff.1 hwritable).1, hlocate⟩

/-- The files of some sketches of a batch change nothing for the others. -/
theorem Separate.planned?_putTexts (hground : tree.Grounded current)
    (h : Separate tree current output sketches) {sketches' : List Path}
    (hsub : sketches' ⊆ sketches) (hsketch : sketch ∈ sketches) :
    planned? options (tree.putTexts (plan options tree current output sketches')) current output
      sketch = planned? options tree current output sketch :=
  SketchBuild.planned?_putTexts (fun _ hfile => freeAt_of_mem_plan hground hfile)
    fun _ hfile => h.locate_ne hsub hsketch hfile

theorem Separate.plan_putTexts (hground : tree.Grounded current)
    (h : Separate tree current output sketches) {sketches' rest : List Path}
    (hsub : sketches' ⊆ sketches) (hrest : rest ⊆ sketches) :
    plan options (tree.putTexts (plan options tree current output sketches')) current output rest =
      plan options tree current output rest :=
  List.filterMap_congr fun _ hsketch => h.planned?_putTexts hground hsub (hrest hsketch)

theorem plan_append (first second : List Path) :
    plan options tree current output (first ++ second) =
      plan options tree current output first ++ plan options tree current output second :=
  List.filterMap_append

theorem sameShape_plan (options : SketchOptions) (output : Path) (sketches : List Path)
    (hground : tree.Grounded current) :
    FileTree.SameShape tree (tree.putTexts (plan options tree current output sketches)) :=
  FileTree.sameShape_putTexts fun _ hfile => freeAt_of_mem_plan hground hfile

/-! ### Running a batch -/

/-- The workspace with files put into its tree and events recorded. -/
def Workspace.withTexts (w : Workspace) (files : List (Location × Text)) (events : List Event) :
    Workspace :=
  { w with tree := w.tree.putTexts files, events := w.events ++ events }

theorem Workspace.withTexts_withTexts (w : Workspace) (files files' : List (Location × Text))
    (events events' : List Event) :
    (w.withTexts files events).withTexts files' events' =
      w.withTexts (files ++ files') (events ++ events') := by
  simp [withTexts, FileTree.putTexts, List.foldl_append]

theorem run_generateFile_of_planned? {file : Location × Text}
    (h : planned? options w.tree w.current output sketch = some file) :
    ∃ events, (generateFile options output sketch : Action Session Path).run.run w =
      (.ok (outputPath output sketch), w.withTexts [file] events) := by
  obtain ⟨hwritable, hgenerated⟩ := planned?_eq_some_iff.1 h
  obtain ⟨source, hread, htext⟩ := generated?_eq_some_iff.1 hgenerated
  rw [run_generateFile, hread]
  dsimp only
  rw [htext, FileTree.write_of_writable? hwritable]
  exact ⟨_, by rw [Workspace.withTexts, List.append_assoc]; rfl⟩

/-- A batch whose outputs can all be generated and written writes them and nothing else. -/
theorem run_mapM_generateFile (hground : w.tree.Grounded w.current)
    (hsep : Separate w.tree w.current output sketches)
    (hall : ∀ sketch ∈ sketches, planned? options w.tree w.current output sketch ≠ none) :
    ∃ events, (sketches.mapM (generateFile options output) : Action Session _).run.run w =
      (.ok (sketches.map (outputPath output)),
        w.withTexts (plan options w.tree w.current output sketches) events) := by
  induction sketches generalizing w with
  | nil => exact ⟨[], by simp [Workspace.withTexts, plan]; rfl⟩
  | cons sketch rest ih =>
    obtain ⟨file, hfile⟩ := Option.ne_none_iff_exists'.1 (hall sketch List.mem_cons_self)
    obtain ⟨events, hrun⟩ := run_generateFile_of_planned? hfile
    have hplan : plan options w.tree w.current output [sketch] = [file] := by simp [plan, hfile]
    have hsub : [sketch] ⊆ sketch :: rest := by simp
    have hrest : rest ⊆ sketch :: rest := List.subset_cons_self sketch rest
    -- The first output is none of the files that the rest of the batch is about.
    have hshape := sameShape_plan options output [sketch] hground
    have hplanned : ∀ other ∈ rest,
        planned? options (w.tree.putTexts [file]) w.current output other =
          planned? options w.tree w.current output other := fun other hother =>
      hplan ▸ hsep.planned?_putTexts hground hsub (hrest hother)
    have hplanRest : plan options (w.tree.putTexts [file]) w.current output rest =
        plan options w.tree w.current output rest :=
      List.filterMap_congr hplanned
    rw [hplan] at hshape
    obtain ⟨events', hrun'⟩ := ih (w := w.withTexts [file] events)
      (hground.of_carries (hshape.carries true))
      ((hsep.sublist (List.sublist_cons_self sketch rest)).congr hshape)
      (fun other hother => by
        rw [Workspace.withTexts, hplanned other hother]
        exact hall other (hrest hother))
    refine ⟨events ++ events', ?_⟩
    rw [Action.run_mapM_cons, hrun]
    dsimp only
    rw [hrun', Workspace.withTexts_withTexts]
    dsimp only [Workspace.withTexts] at hplanRest ⊢
    rw [hplanRest, ← hplan, ← plan_append]
    rfl

/-- A batch stops where one of its sketches fails. -/
theorem run_mapM_generateFile_append {before : List Path} (hground : w.tree.Grounded w.current)
    (hsep : Separate w.tree w.current output before)
    (hall : ∀ sketch ∈ before, planned? options w.tree w.current output sketch ≠ none) :
    ∃ events, ∀ sketch after failure w',
      (generateFile options output sketch : Action Session Path).run.run
        (w.withTexts (plan options w.tree w.current output before) events) = (.error failure, w') →
      ((before ++ sketch :: after).mapM (generateFile options output) :
        Action Session _).run.run w = (.error failure, w') := by
  obtain ⟨events, hrun⟩ := run_mapM_generateFile hground hsep hall
  refine ⟨events, fun sketch after failure w' hfails => ?_⟩
  rw [List.mapM_append, Action.run_bind, hrun]
  dsimp only
  rw [Action.run_bind, Action.run_mapM_cons, hfails]

/-- The trees differ in the texts generated from some sketches as the first tree holds them, and in
nothing else. -/
structure Generated (options : SketchOptions) (s : FileTree) (current : Location) (output : Path)
    (sketches : List Path) (t : FileTree) : Prop where
  content : ∀ sketch ∈ sketches, ∃ source, s.read current sketch = .ok source ∧
    t.read current (outputPath output sketch) = .ok (generate options sketch.text source)
  frame : ∀ location, (∀ sketch ∈ sketches,
      s.locate true current (outputPath output sketch) ≠ .ok location) →
    t.get? location = s.get? location

theorem generated_plan (hground : tree.Grounded current)
    (hsep : Separate tree current output sketches)
    (hall : ∀ sketch ∈ sketches, planned? options tree current output sketch ≠ none) :
    Generated options tree current output sketches
      (tree.putTexts (plan options tree current output sketches)) where
  content sketch hsketch := by
    obtain ⟨file, hfile⟩ := Option.ne_none_iff_exists'.1 (hall sketch hsketch)
    obtain ⟨hwritable, hgenerated⟩ := planned?_eq_some_iff.1 hfile
    obtain ⟨source, hread, htext⟩ := generated?_eq_some_iff.1 hgenerated
    refine ⟨source, hread, FileTree.read_eq_ok_iff.2 ⟨file.1, ?_, ?_⟩⟩
    · rw [← FileTree.locate_congr (sameShape_plan options output sketches hground)]
      exact (FileTree.writable?_eq_some_iff.1 hwritable).1
    · rw [htext]
      exact FileTree.get?_putTexts (fun _ => ne_nil_of_mem_plan) hsep.nodup_plan
        (List.mem_filterMap.2 ⟨sketch, hsketch, hfile⟩)
  frame location hother := by
    refine FileTree.get?_putTexts_of_not_mem (fun _ => ne_nil_of_mem_plan) ?_
    rintro file hfile rfl
    obtain ⟨sketch, hsketch, hwritable, -⟩ := exists_of_mem_plan hfile
    exact hother sketch hsketch (FileTree.writable?_eq_some_iff.1 hwritable).1

theorem run_generateFiles (options : SketchOptions) (output : Path) (sketches : List Path)
    (w : Workspace) :
    (generateFiles options output sketches : Action Session (List Path)).run.run w =
      match (makeDirectories output : Session _).run w with
      | (.error cause, made) => (.error (.createDirectory output cause), made)
      | (.ok (), made) =>
        (sketches.mapM (generateFile options output) : Action Session _).run.run made := by
  rw [generateFiles, Action.run_bind, Action.run_orFail]
  rcases (makeDirectories output : Session _).run w with ⟨_ | _, made⟩
  · rfl
  · rfl

end SketchBuild
