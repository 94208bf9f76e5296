import SketchBuild.Proofs.Build.Batches
import SketchBuild.Proofs.FileTree.Missing

/-!
# Printed and written texts

The texts generated from a list of sketches can be printed or written to files. Printing only reads
(`run_printGenerated_append`), while each file that is written may be met by the sketches behind it.
It is never one of them, but it can stand where the path of a later sketch that does not exist would
need a directory (`Obstructed`). Apart from the error that is reported then, both ways agree:
`printGenerated_agrees`.
-/

namespace SketchBuild

variable {options : SketchOptions} {output sketch : Path} {sketches before : List Path}
  {w : Workspace} {tree : FileTree} {current : Location} {cause : OsError}

/-- The texts of several files, one after the other. -/
def FileTree.readAll (tree : FileTree) (current : Location) : List Path → Except OsError Text
  | [] => .ok []
  | p :: ps => do return (← tree.read current p) ++ (← tree.readAll current ps)

/-- The texts generated from several sketches, one after the other. -/
def generatedTexts (options : SketchOptions) (tree : FileTree) (current : Location)
    (sketches : List Path) : Text :=
  (sketches.filterMap (generated? options tree current)).flatten

theorem generatedTexts_cons {text : Text}
    (h : generated? options tree current sketch = some text) (sketches : List Path) :
    generatedTexts options tree current (sketch :: sketches) =
      text ++ generatedTexts options tree current sketches := by
  simp [generatedTexts, h]

/-- The files of a batch hold the texts generated from its sketches. -/
theorem readAll_of_content {s t : FileTree}
    (h : ∀ sketch ∈ sketches, ∃ source, s.read current sketch = .ok source ∧
      t.read current (outputPath output sketch) = .ok (generate options sketch.text source)) :
    t.readAll current (sketches.map (outputPath output)) =
      .ok (generatedTexts options s current sketches) := by
  induction sketches with
  | nil => rfl
  | cons sketch sketches ih =>
    obtain ⟨source, hread, hwritten⟩ := h sketch List.mem_cons_self
    have hgenerated : generated? options s current sketch =
        some (generate options sketch.text source) := generated?_eq_some_iff.2 ⟨source, hread, rfl⟩
    rw [List.map_cons, FileTree.readAll, hwritten,
      ih fun other hother => h other (List.mem_cons_of_mem _ hother),
      generatedTexts_cons hgenerated]
    rfl

/-! ### Printing -/

/-- The workspace with a text printed and events recorded. -/
def Workspace.withPrinted (w : Workspace) (text : Text) (events : List Event) : Workspace :=
  { w with printed := w.printed ++ text, events := w.events ++ events }

theorem run_printGenerated_cons (options : SketchOptions) (sketch : Path) (rest : List Path)
    (w : Workspace) :
    (printGenerated options (sketch :: rest) : Action Session Unit).run.run w =
      match w.tree.read w.current sketch with
      | .error cause => (.error (.readSketch sketch cause), w)
      | .ok source => (printGenerated options rest : Action Session Unit).run.run
          (w.withPrinted (generate options sketch.text source)
            (Analysis.ofSource options source).events) := by
  rw [printGenerated, Action.run_forM_cons, Action.run_bind, run_generateText]
  cases w.tree.read w.current sketch with
  | error cause => rfl
  | ok source => rfl

/-- Sketches that can be read are printed, and then come the others. -/
theorem run_printGenerated_append
    (h : ∀ sketch ∈ before, ∃ source, w.tree.read w.current sketch = .ok source) :
    ∃ events, ∀ rest,
      (printGenerated options (before ++ rest) : Action Session Unit).run.run w =
        (printGenerated options rest : Action Session Unit).run.run
          (w.withPrinted (generatedTexts options w.tree w.current before) events) := by
  induction before generalizing w with
  | nil => exact ⟨[], fun rest => by simp [Workspace.withPrinted, generatedTexts]⟩
  | cons sketch before ih =>
    obtain ⟨source, hread⟩ := h sketch List.mem_cons_self
    have hgenerated : generated? options w.tree w.current sketch =
        some (generate options sketch.text source) := generated?_eq_some_iff.2 ⟨source, hread, rfl⟩
    obtain ⟨events, hrun⟩ := ih (w := w.withPrinted (generate options sketch.text source)
      (Analysis.ofSource options source).events)
      fun other hother => h other (List.mem_cons_of_mem _ hother)
    refine ⟨(Analysis.ofSource options source).events ++ events, fun rest => ?_⟩
    rw [List.cons_append, run_printGenerated_cons, hread]
    dsimp only
    rw [hrun, generatedTexts_cons hgenerated]
    simp [Workspace.withPrinted]

theorem run_printGenerated_readable
    (h : ∀ sketch ∈ sketches, ∃ source, w.tree.read w.current sketch = .ok source) :
    ∃ events, (printGenerated options sketches : Action Session Unit).run.run w =
      (.ok (), w.withPrinted (generatedTexts options w.tree w.current sketches) events) := by
  obtain ⟨events, hrun⟩ := run_printGenerated_append h
  refine ⟨events, ?_⟩
  rw [← List.append_nil sketches, hrun, List.append_nil]
  rfl

theorem run_printGenerated_unreadable
    (h : ∀ other ∈ before, ∃ source, w.tree.read w.current other = .ok source)
    (hread : w.tree.read w.current sketch = .error cause) (rest : List Path) :
    ∃ events, (printGenerated options (before ++ sketch :: rest) : Action Session Unit).run.run w =
      (.error (.readSketch sketch cause),
        w.withPrinted (generatedTexts options w.tree w.current before) events) := by
  obtain ⟨events, hrun⟩ := run_printGenerated_append h
  refine ⟨events, ?_⟩
  rw [hrun, run_printGenerated_cons]
  dsimp only [Workspace.withPrinted]
  rw [hread]

/-! ### Writing -/

/-- The output of an earlier sketch stands in the way of a sketch. -/
def Obstructed (tree : FileTree) (current : Location) (output : Path) (before : List Path)
    (sketch : Path) : Prop :=
  ∃ other ∈ before, ∃ location, tree.locate true current (outputPath output other) = .ok location ∧
    tree.Obstructs current location sketch

/-- Every output of a batch can be written. -/
def OutputsWritable (tree : FileTree) (current : Location) (output : Path) (sketches : List Path) :
    Prop :=
  ∀ sketch ∈ sketches, ∃ text tree',
    tree.write current (outputPath output sketch) (.text text) = .ok tree'

theorem outputsWritable_iff : OutputsWritable tree current output sketches ↔
    ∀ sketch ∈ sketches, tree.writable? current (outputPath output sketch) ≠ none := by
  refine forall₂_congr fun sketch _ => ⟨?_, fun h => ?_⟩
  · rintro ⟨text, tree', hwrite⟩
    obtain ⟨location, hlocation⟩ := FileTree.exists_writable?_of_write hwrite
    simp [hlocation]
  · obtain ⟨location, hlocation⟩ := Option.ne_none_iff_exists'.1 h
    exact ⟨[], _, FileTree.write_of_writable? hlocation _⟩

instance : Decidable (OutputsWritable tree current output sketches) :=
  decidable_of_iff _ outputsWritable_iff.symm

theorem planned?_ne_none (options : SketchOptions) (hwrite : OutputsWritable tree current output sketches)
    (hsketch : sketch ∈ sketches) (hread : ∃ source, tree.read current sketch = .ok source) :
    planned? options tree current output sketch ≠ none := by
  obtain ⟨source, hread⟩ := hread
  obtain ⟨location, hlocation⟩ :=
    Option.ne_none_iff_exists'.1 (outputsWritable_iff.1 hwrite sketch hsketch)
  simp [planned?, generated?, hread, hlocation]

/-- The files that stand in the way of a sketch are those of a plan. -/
theorem obstructed_iff (options : SketchOptions)
    (hwrite : OutputsWritable tree current output before)
    (hbefore : ∀ other ∈ before, ∃ source, tree.read current other = .ok source) :
    Obstructed tree current output before sketch ↔
      ∃ file ∈ plan options tree current output before, tree.Obstructs current file.1 sketch := by
  constructor
  · rintro ⟨other, hother, location, hlocate, hobstructs⟩
    obtain ⟨file, hfile⟩ := Option.ne_none_iff_exists'.1
      (planned?_ne_none options hwrite hother (hbefore other hother))
    have hplace := (FileTree.writable?_eq_some_iff.1 (planned?_eq_some_iff.1 hfile).1).1
    obtain rfl : file.1 = location := Except.ok.inj (hplace.symm.trans hlocate)
    exact ⟨file, List.mem_filterMap.2 ⟨other, hother, hfile⟩, hobstructs⟩
  · rintro ⟨file, hfile, hobstructs⟩
    obtain ⟨other, hother, hwritable, -⟩ := exists_of_mem_plan hfile
    exact ⟨other, hother, file.1, (FileTree.writable?_eq_some_iff.1 hwritable).1, hobstructs⟩

/-- A batch that meets a sketch which cannot be read has written the outputs of those before. It
reports the error that was there from the start, unless one of these outputs is in the way. -/
theorem run_generateFiles_unreadable {rest : List Path} (hground : w.tree.Grounded w.current)
    (houtput : w.HasDirectory output)
    (hsep : Separate w.tree w.current output (before ++ sketch :: rest))
    (hwrite : OutputsWritable w.tree w.current output before)
    (hbefore : ∀ other ∈ before, ∃ source, w.tree.read w.current other = .ok source)
    (hread : w.tree.read w.current sketch = .error cause) :
    ∃ cause' events,
      (generateFiles options output (before ++ sketch :: rest) : Action Session _).run.run w =
        (.error (.readSketch sketch cause'),
          w.withTexts (plan options w.tree w.current output before) events) ∧
      (Obstructed w.tree w.current output before sketch →
        cause = .noEntry ∧ cause' = .notDirectory) ∧
      (¬ Obstructed w.tree w.current output before sketch → cause' = cause) := by
  have hplanned : ∀ other ∈ before, planned? options w.tree w.current output other ≠ none :=
    fun other hother => planned?_ne_none options hwrite hother (hbefore other hother)
  obtain ⟨events, hstops⟩ := run_mapM_generateFile_append hground
    (hsep.sublist (List.sublist_append_left before (sketch :: rest))) hplanned
  have hrun : ∀ cause', (w.tree.putTexts (plan options w.tree w.current output before)).read
        w.current sketch = .error cause' →
      (generateFiles options output (before ++ sketch :: rest) : Action Session _).run.run w =
        (.error (.readSketch sketch cause'),
          w.withTexts (plan options w.tree w.current output before) events) := by
    intro cause' hread'
    rw [run_generateFiles, run_makeDirectories_of_hasDirectory houtput]
    refine hstops sketch rest _ _ ?_
    rw [run_generateFile]
    dsimp only [Workspace.withTexts]
    rw [hread']
  have hfree : ∀ file ∈ plan options w.tree w.current output before, w.tree.FreeAt file.1 :=
    fun _ hfile => freeAt_of_mem_plan hground hfile
  have hother : ∀ file ∈ plan options w.tree w.current output before,
      w.tree.locate true w.current sketch ≠ .ok file.1 := fun _ hfile =>
    hsep.locate_ne (List.subset_append_left before (sketch :: rest)) (by simp) hfile
  rw [obstructed_iff options hwrite hbefore]
  rcases FileTree.read_putTexts_error hground hfree hother hread with
    ⟨hread', hclear⟩ | ⟨rfl, hread', hobstructs⟩
  · refine ⟨cause, events, hrun cause hread', ?_, fun _ => rfl⟩
    rintro ⟨file, hfile, hobstructs⟩
    exact absurd hobstructs (hclear file hfile)
  · exact ⟨.notDirectory, events, hrun .notDirectory hread', fun _ => ⟨rfl, rfl⟩,
      fun hnot => absurd hobstructs hnot⟩

/-! ### Both ways -/

/-- What has been written for some sketches is what has been printed for them. Nothing else has been
written, and printing has changed no file. -/
structure Agree (options : SketchOptions) (output : Path) (sketches : List Path)
    (w files printed : Workspace) : Prop where
  written : Generated options w.tree w.current output sketches files.tree
  contents : ∃ text, files.tree.readAll w.current (sketches.map (outputPath output)) = .ok text ∧
    printed.printed = w.printed ++ text
  unchanged : printed.tree = w.tree

theorem agree_of_readable (hground : w.tree.Grounded w.current)
    (hsep : Separate w.tree w.current output sketches)
    (hwrite : OutputsWritable w.tree w.current output sketches)
    (hall : ∀ sketch ∈ sketches, ∃ source, w.tree.read w.current sketch = .ok source)
    (events events' : List Event) :
    Agree options output sketches w
      (w.withTexts (plan options w.tree w.current output sketches) events)
      (w.withPrinted (generatedTexts options w.tree w.current sketches) events') := by
  have hwritten : Generated options w.tree w.current output sketches _ :=
    generated_plan hground hsep fun sketch hsketch =>
      planned?_ne_none options hwrite hsketch (hall sketch hsketch)
  exact ⟨hwritten, ⟨_, readAll_of_content hwritten.content, rfl⟩, rfl⟩

theorem both_of_readable (options : SketchOptions) (hground : w.tree.Grounded w.current)
    (houtput : w.HasDirectory output) (hsep : Separate w.tree w.current output sketches)
    (hwrite : OutputsWritable w.tree w.current output sketches)
    (hall : ∀ sketch ∈ sketches, ∃ source, w.tree.read w.current sketch = .ok source) :
    ∃ files printed : Workspace,
      (generateFiles options output sketches : Action Session _).run.run w =
        (.ok (sketches.map (outputPath output)), files) ∧
      (printGenerated options sketches : Action Session Unit).run.run w = (.ok (), printed) ∧
      Agree options output sketches w files printed := by
  obtain ⟨events, hfiles⟩ := run_generateFiles_of_planned
    (run_makeDirectories_of_hasDirectory houtput) hground hsep fun sketch hsketch =>
      planned?_ne_none options hwrite hsketch (hall sketch hsketch)
  obtain ⟨events', hprinted⟩ := run_printGenerated_readable hall
  exact ⟨_, _, hfiles, hprinted, agree_of_readable hground hsep hwrite hall events events'⟩

theorem both_of_unreadable (options : SketchOptions) {rest : List Path}
    (hground : w.tree.Grounded w.current) (houtput : w.HasDirectory output)
    (hsep : Separate w.tree w.current output (before ++ sketch :: rest))
    (hwrite : OutputsWritable w.tree w.current output (before ++ sketch :: rest))
    (hbefore : ∀ other ∈ before, ∃ source, w.tree.read w.current other = .ok source)
    (hread : w.tree.read w.current sketch = .error cause) :
    ∃ cause', ∃ files printed : Workspace,
      (generateFiles options output (before ++ sketch :: rest) : Action Session _).run.run w =
        (.error (.readSketch sketch cause'), files) ∧
      (printGenerated options (before ++ sketch :: rest) : Action Session Unit).run.run w =
        (.error (.readSketch sketch cause), printed) ∧
      Agree options output before w files printed ∧
      (¬ Obstructed w.tree w.current output before sketch → cause' = cause) ∧
      (Obstructed w.tree w.current output before sketch →
        cause = .noEntry ∧ cause' = .notDirectory) := by
  have hsepBefore := hsep.sublist (List.sublist_append_left before (sketch :: rest))
  have hwriteBefore : OutputsWritable w.tree w.current output before := fun other hother =>
    hwrite other (List.mem_append_left _ hother)
  obtain ⟨cause', events, hfiles, hblocked, hclear⟩ :=
    run_generateFiles_unreadable hground houtput hsep hwriteBefore hbefore hread
  obtain ⟨events', hprinted⟩ := run_printGenerated_unreadable hbefore hread rest
  exact ⟨cause', _, _, hfiles, hprinted,
    agree_of_readable hground hsepBefore hwriteBefore hbefore events events', hclear, hblocked⟩

theorem readable_or_exists_first (tree : FileTree) (current : Location) (sketches : List Path) :
    (∀ sketch ∈ sketches, ∃ source, tree.read current sketch = .ok source) ∨
      ∃ before sketch rest cause, sketches = before ++ sketch :: rest ∧
        (∀ other ∈ before, ∃ source, tree.read current other = .ok source) ∧
        tree.read current sketch = .error cause := by
  have hok : ∀ p, (tree.read current p).toOption ≠ none ↔
      ∃ source, tree.read current p = .ok source := by
    intro p
    cases tree.read current p with
    | error cause => simp [Except.toOption]
    | ok source => simp [Except.toOption]
  rcases exists_first_eq_none (fun p => (tree.read current p).toOption) sketches with
    hall | ⟨before, sketch, rest, hsplit, hbefore, hnone⟩
  · exact .inl fun sketch hsketch => (hok sketch).1 (hall sketch hsketch)
  · cases hread : tree.read current sketch with
    | error cause =>
      exact .inr ⟨before, sketch, rest, cause, hsplit,
        fun other hother => (hok other).1 (hbefore other hother), hread⟩
    | ok source => exact absurd hnone ((hok sketch).2 ⟨source, hread⟩)

/-- **Printing and writing agree.** Let the outputs be different files, none of them a sketch, that
can be written in a directory which is there.

* Both ways succeed if all sketches can be read. Then what is printed is what the files hold, one
  after the other.
* Otherwise both ways fail at the first sketch that cannot be read, after the same texts. They give
  the same error, unless a file that has been written for an earlier sketch stands where the path of
  the sketch would need a directory. Then the printer finds that there is no such entry, and the
  writer that there is no such directory. -/
theorem printGenerated_agrees (options : SketchOptions) (output : Path) (sketches : List Path)
    (w : Workspace) (hground : w.tree.Grounded w.current) (houtput : w.HasDirectory output)
    (hsep : Separate w.tree w.current output sketches)
    (hwrite : OutputsWritable w.tree w.current output sketches) :
    let files := (generateFiles options output sketches : Action Session (List Path)).run.run w
    let printed := (printGenerated options sketches : Action Session Unit).run.run w
    ((∃ paths, files.1 = .ok paths) ↔
        ∀ sketch ∈ sketches, ∃ source, w.tree.read w.current sketch = .ok source) ∧
      (∀ paths, files.1 = .ok paths → paths = sketches.map (outputPath output) ∧
        printed.1 = .ok () ∧ Agree options output sketches w files.2 printed.2) ∧
      ∀ before sketch rest cause, sketches = before ++ sketch :: rest →
        (∀ other ∈ before, ∃ source, w.tree.read w.current other = .ok source) →
        w.tree.read w.current sketch = .error cause →
        printed.1 = .error (.readSketch sketch cause) ∧
          Agree options output before w files.2 printed.2 ∧
          (¬ Obstructed w.tree w.current output before sketch →
            files.1 = .error (.readSketch sketch cause)) ∧
          (Obstructed w.tree w.current output before sketch →
            cause = .noEntry ∧ files.1 = .error (.readSketch sketch .notDirectory)) := by
  intro files printed
  have hreadable : ∀ paths, files.1 = .ok paths →
      ∀ sketch ∈ sketches, ∃ source, w.tree.read w.current sketch = .ok source := by
    intro paths hpaths
    refine (readable_or_exists_first w.tree w.current sketches).resolve_right ?_
    rintro ⟨before, sketch, rest, cause, rfl, hbefore, hread⟩
    obtain ⟨cause', _, _, hfiles, -⟩ :=
      both_of_unreadable options hground houtput hsep hwrite hbefore hread
    rw [show files = _ from hfiles] at hpaths
    cases hpaths
  refine ⟨⟨fun ⟨paths, hpaths⟩ => hreadable paths hpaths, fun hall => ?_⟩, fun paths hpaths => ?_, ?_⟩
  · obtain ⟨_, _, hfiles, -⟩ := both_of_readable options hground houtput hsep hwrite hall
    exact ⟨_, congrArg Prod.fst hfiles⟩
  · obtain ⟨_, _, hfiles, hprinted, hagree⟩ :=
      both_of_readable options hground houtput hsep hwrite (hreadable paths hpaths)
    rw [show files = _ from hfiles] at hpaths ⊢
    rw [show printed = _ from hprinted]
    exact ⟨(Except.ok.inj hpaths).symm, rfl, hagree⟩
  · rintro before sketch rest cause rfl hbefore hread
    obtain ⟨cause', _, _, hfiles, hprinted, hagree, hclear, hblocked⟩ :=
      both_of_unreadable options hground houtput hsep hwrite hbefore hread
    rw [show files = _ from hfiles, show printed = _ from hprinted]
    refine ⟨rfl, hagree, fun hnot => ?_, fun hobstructed => ?_⟩
    · rw [hclear hnot]
    · obtain ⟨hcause, rfl⟩ := hblocked hobstructed
      exact ⟨hcause, rfl⟩

/-- A sketch and a missing one, with an old output: both ways stop after the first text. -/
theorem printGenerated_agrees_missing :
    let w : Workspace :=
      { tree := (FileTree.empty.putTexts [(["a.ino".toList], "void f() {}\n".toList),
          (["o".toList, "a.cpp".toList], "old".toList)]).put ["o".toList] .directory
        current := [] }
    let output := Path.ofString "o"
    let sketches := [Path.ofString "a.ino", Path.ofString "b.ino"]
    let files := (generateFiles {} output sketches : Action Session _).run.run w
    let printed := (printGenerated {} sketches : Action Session Unit).run.run w
    (w.tree.Grounded w.current ∧ w.HasDirectory output ∧
        Separate w.tree w.current output sketches ∧
        OutputsWritable w.tree w.current output sketches) ∧
      files.1 = .error (.readSketch (.ofString "b.ino") .noEntry) ∧
      printed.1 = .error (.readSketch (.ofString "b.ino") .noEntry) ∧
      Agree {} output [.ofString "a.ino"] w files.2 printed.2 := by
  intro w output sketches files printed
  have hground : w.tree.Grounded w.current := w.tree.grounded_nil
  have houtput : w.HasDirectory output := .inr (by decide +kernel)
  have hsep : Separate w.tree w.current output sketches := by decide +kernel
  have hwrite : OutputsWritable w.tree w.current output sketches := by decide +kernel
  have hfiles : files.1 = .error (.readSketch (.ofString "b.ino") .noEntry) := by decide +kernel
  have hread : ∀ other ∈ [Path.ofString "a.ino"], ∃ source,
      w.tree.read w.current other = .ok source := by
    intro other hother
    rw [List.mem_singleton.1 hother]
    exact ⟨"void f() {}\n".toList, by decide +kernel⟩
  obtain ⟨hprinted, hagree, -⟩ := (printGenerated_agrees {} output sketches w hground houtput hsep
    hwrite).2.2 [.ofString "a.ino"] (.ofString "b.ino") [] .noEntry rfl hread (by decide +kernel)
  exact ⟨⟨hground, houtput, hsep, hwrite⟩, hfiles, hprinted, hagree⟩

/-- Where a file for an earlier sketch comes to stand in the way, the messages differ: the first
sketch is written to `o/a.cpp`, and the second one would be in a directory of that name. -/
theorem output_in_the_way :
    let w : Workspace :=
      { tree := (FileTree.empty.putTexts [(["a.ino".toList], "void f() {}\n".toList)]).put
          ["o".toList] .directory
        current := [] }
    let output := Path.ofString "o"
    let sketches := [Path.ofString "a.ino", Path.ofString "o/a.cpp/b.ino"]
    let files := (generateFiles {} output sketches : Action Session _).run.run w
    let printed := (printGenerated {} sketches : Action Session Unit).run.run w
    (w.tree.Grounded w.current ∧ w.HasDirectory output ∧
        Separate w.tree w.current output sketches ∧
        OutputsWritable w.tree w.current output sketches) ∧
      w.tree.read w.current (.ofString "a.ino") = .ok "void f() {}\n".toList ∧
      w.tree.read w.current (.ofString "o/a.cpp/b.ino") = .error .noEntry ∧
      ∃ failure failure', files.1 = .error failure ∧ printed.1 = .error failure' ∧
        failure.message ≠ failure'.message := by
  intro w output sketches files printed
  refine ⟨⟨w.tree.grounded_nil, .inr (by decide +kernel), by decide +kernel, by decide +kernel⟩,
    by decide +kernel, by decide +kernel, .readSketch (.ofString "o/a.cpp/b.ino") .notDirectory,
    .readSketch (.ofString "o/a.cpp/b.ino") .noEntry, by decide +kernel, by decide +kernel,
    by decide +kernel⟩

end SketchBuild
