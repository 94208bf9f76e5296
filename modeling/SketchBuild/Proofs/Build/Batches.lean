import SketchBuild.Proofs.Build.Plans
import SketchBuild.Proofs.Path.Moves

/-!
# Batches of sketches

What a batch leaves behind, whether it succeeds or fails.

* `components_outputPath`: every output is directly inside the output directory.
* `StopsAt`: why a batch stops at a sketch, told by the files as they were at the start.
* `run_generateFiles_of_planned`, `run_generateFiles_again`, `run_generateFiles_stops`: a batch that
  succeeds, one that is run a second time and one that stops.

`generateFiles_loses_nothing` puts all of it together. Links may lead to the sketches and to the
outputs, and the outputs may or may not exist before.
-/

namespace SketchBuild

variable {options : SketchOptions} {output sketch : Path} {sketches : List Path}
  {w made : Workspace} {tree : FileTree} {current : Location} {files : List (Location × Text)}

/-! ### Names of outputs -/

theorem mem_of_mem_stem {name : Text} {c : Char} (h : c ∈ stem name) : c ∈ name := by
  rw [stem, Text.splitLast?] at h
  cases hdrop : name.reverse.dropWhile (· != '.') with
  | nil => simpa [hdrop] using h
  | cons dot before =>
    simp only [hdrop] at h
    split at h
    · have hmem : c ∈ name.reverse := (List.dropWhile_sublist _).subset
        (hdrop ▸ List.mem_cons_of_mem dot (List.mem_reverse.1 h))
      exact List.mem_reverse.1 hmem
    · exact h

theorem slash_not_mem_outputName (sketch : Path) : '/' ∉ outputName sketch := by
  rw [outputName, List.mem_append, not_or]
  refine ⟨fun hslash => ?_, by decide⟩
  have hname := mem_of_mem_stem hslash
  rw [Path.fileName?] at hname
  split at hname
  · next n hlast =>
    exact Path.slash_not_mem_of_mem_components (List.mem_of_getLast? hlast) hname
  · cases hname

/-- An output is directly inside the output directory. -/
theorem components_outputPath (output sketch : Path) :
    (outputPath output sketch).components = output.components ++ [.name (outputName sketch)] := by
  refine Path.components_join_name output (slash_not_mem_outputName sketch) ?_
  have hlength : 4 ≤ (outputName sketch).length := by
    rw [outputName, List.length_append]
    exact Nat.le_add_left 4 _
  rw [Component.ofPiece?, if_neg, if_neg]
  · intro h
    rw [h] at hlength
    simp at hlength
  · rintro (h | h)
    · rw [h] at hlength
      simp at hlength
    · rw [h] at hlength
      simp at hlength

/-! ### Failures -/

/-- Why a batch stops at a sketch: it is no text that can be read, or its output cannot be
written. -/
inductive StopsAt (tree : FileTree) (current : Location) (output sketch : Path) : Failure → Prop
  | unreadable (cause : OsError) (h : ∀ source, tree.read current sketch ≠ .ok source) :
      StopsAt tree current output sketch (.readSketch sketch cause)
  | unwritable (cause : OsError)
      (h : ∀ text, ∃ e, tree.write current (outputPath output sketch) (.text text) = .error e) :
      StopsAt tree current output sketch (.writeOutput (outputPath output sketch) cause)

/-- Files that are put elsewhere are no reason to stop. -/
theorem StopsAt.of_putTexts {failure : Failure} (hfree : ∀ file ∈ files, tree.FreeAt file.1)
    (hother : ∀ file ∈ files, tree.locate true current sketch ≠ .ok file.1)
    (h : StopsAt (tree.putTexts files) current output sketch failure) :
    StopsAt tree current output sketch failure := by
  have hshape := FileTree.sameShape_putTexts hfree
  cases h with
  | unreadable cause h =>
    exact .unreadable cause fun source =>
      mt (FileTree.read_putTexts hfree hother source).2 (h source)
  | unwritable cause h =>
    refine .unwritable cause fun text => ?_
    rw [← FileTree.writable?_eq_none_iff, FileTree.writable?_congr hshape,
      FileTree.writable?_eq_none_iff (.text text)]
    exact h text

theorem run_generateFile_of_planned?_eq_none
    (h : planned? options w.tree w.current output sketch = none) :
    ∃ failure events, (generateFile options output sketch : Action Session Path).run.run w =
        (.error failure, w.withTexts [] events) ∧
      StopsAt w.tree w.current output sketch failure := by
  rw [run_generateFile]
  cases hread : w.tree.read w.current sketch with
  | error cause =>
    refine ⟨.readSketch sketch cause, [], ?_, .unreadable cause (by simp [hread])⟩
    simp [Workspace.withTexts]
  | ok source =>
    dsimp only
    cases hwrite : w.tree.write w.current (outputPath output sketch)
      (.text (generate options sketch.text source)) with
    | error cause =>
      have hnone := (FileTree.writable?_eq_none_iff _).2 ⟨cause, hwrite⟩
      refine ⟨.writeOutput (outputPath output sketch) cause, _, rfl, .unwritable cause ?_⟩
      exact fun text => (FileTree.writable?_eq_none_iff _).1 hnone
    | ok tree =>
      obtain ⟨location, hlocation⟩ := FileTree.exists_writable?_of_write hwrite
      simp [planned?, generated?, hread, hlocation] at h

/-! ### Runs of a batch -/

theorem grounded_made (hmake : (makeDirectories output : Session _).run w = (.ok (), made))
    (hground : w.tree.Grounded w.current) : made.tree.Grounded made.current := by
  obtain ⟨tree, hmade, hkeeps⟩ := adds_makeDirectories output w
  rw [hmake] at hmade
  obtain rfl := hmade
  exact hground.of_carries hkeeps.carries

section

variable (hmake : (makeDirectories output : Session _).run w = (.ok (), made))
  (hground : made.tree.Grounded made.current)
include hmake hground

theorem run_generateFiles_of_planned (hsep : Separate made.tree made.current output sketches)
    (hall : ∀ sketch ∈ sketches, planned? options made.tree made.current output sketch ≠ none) :
    ∃ events, (generateFiles options output sketches : Action Session _).run.run w =
      (.ok (sketches.map (outputPath output)),
        made.withTexts (plan options made.tree made.current output sketches) events) := by
  rw [run_generateFiles, hmake]
  exact run_mapM_generateFile hground hsep hall

/-- A batch that runs a second time finds its outputs as it is going to write them. -/
theorem run_generateFiles_again (hsep : Separate made.tree made.current output sketches)
    (hall : ∀ sketch ∈ sketches, planned? options made.tree made.current output sketch ≠ none)
    (events : List Event) :
    ∃ events', (generateFiles options output sketches : Action Session _).run.run
        (made.withTexts (plan options made.tree made.current output sketches) events) =
      (.ok (sketches.map (outputPath output)),
        made.withTexts (plan options made.tree made.current output sketches) events') := by
  have hshape := sameShape_plan options output sketches hground
  have hself : sketches ⊆ sketches := List.Subset.refl sketches
  have hdirectory : (made.withTexts (plan options made.tree made.current output sketches)
      events).HasDirectory output :=
    (hasDirectory_of_makeDirectories hmake).imp_right
      (FileTree.isDirectory_of_carries (hshape.carries false))
  have hagain : (made.tree.putTexts (plan options made.tree made.current output sketches)).putTexts
      (plan options made.tree made.current output sketches) =
        made.tree.putTexts (plan options made.tree made.current output sketches) :=
    FileTree.putTexts_of_get? fun file hfile => ⟨ne_nil_of_mem_plan hfile,
      FileTree.get?_putTexts (fun _ => ne_nil_of_mem_plan) hsep.nodup_plan hfile⟩
  obtain ⟨events', hrun⟩ := run_mapM_generateFile
    (w := made.withTexts (plan options made.tree made.current output sketches) events)
    (hground.of_carries (hshape.carries true)) (hsep.congr hshape)
    (fun sketch hsketch => (hsep.planned?_putTexts hground hself hsketch).symm ▸ hall sketch hsketch)
  refine ⟨events ++ events', ?_⟩
  rw [run_generateFiles, run_makeDirectories_of_hasDirectory hdirectory]
  refine hrun.trans ?_
  rw [Workspace.withTexts, Workspace.withTexts]
  dsimp only
  rw [hsep.plan_putTexts hground hself hself, hagain, List.append_assoc]
  rfl

theorem run_generateFiles_stops {before rest : List Path}
    (hsep : Separate made.tree made.current output (before ++ sketch :: rest))
    (hall : ∀ other ∈ before, planned? options made.tree made.current output other ≠ none)
    (hnone : planned? options made.tree made.current output sketch = none) :
    ∃ failure events, StopsAt made.tree made.current output sketch failure ∧
      (generateFiles options output (before ++ sketch :: rest) : Action Session _).run.run w =
        (.error failure,
          made.withTexts (plan options made.tree made.current output before) events) := by
  have hsub : before ⊆ before ++ sketch :: rest := List.subset_append_left _ _
  have hsketch : sketch ∈ before ++ sketch :: rest := by simp
  obtain ⟨events, hstops⟩ := run_mapM_generateFile_append hground
    (hsep.sublist (List.sublist_append_left before (sketch :: rest))) hall
  obtain ⟨failure, events', hfails, hwhy⟩ := run_generateFile_of_planned?_eq_none
    (w := made.withTexts (plan options made.tree made.current output before) events)
    ((hsep.planned?_putTexts hground hsub hsketch).trans hnone)
  refine ⟨failure, events ++ events', ?_, ?_⟩
  · exact hwhy.of_putTexts (fun _ hfile => freeAt_of_mem_plan hground hfile)
      fun _ hfile => hsep.locate_ne hsub hsketch hfile
  · rw [run_generateFiles, hmake]
    refine (hstops sketch rest _ _ hfails).trans ?_
    rw [Workspace.withTexts_withTexts, List.append_nil]

end

theorem exists_first_eq_none {α β : Type} (f : α → Option β) (as : List α) :
    (∀ a ∈ as, f a ≠ none) ∨
      ∃ before a after, as = before ++ a :: after ∧ (∀ b ∈ before, f b ≠ none) ∧ f a = none := by
  cases hfind : as.find? fun a => (f a).isNone with
  | none =>
    refine .inl fun a ha hnone => ?_
    simpa [hnone] using List.find?_eq_none.1 hfind a ha
  | some a =>
    obtain ⟨hnone, before, after, has, hbefore⟩ := List.find?_eq_some_iff_append.1 hfind
    refine .inr ⟨before, a, after, has, fun b hb hb' => ?_, Option.isNone_iff_eq_none.1 hnone⟩
    simpa [hb'] using hbefore b hb

/-- **A batch loses nothing and stops cleanly.** Once the output directory is there, and if the
outputs are different files and none of them is a sketch:

* A batch that succeeds returns one path for each sketch, directly inside the output directory, and
  under each of them is the text generated from that sketch as it was. Nothing else has changed. To
  run it again changes nothing, and in another order it leaves the same files.
* A batch that fails does so at the first sketch that could not be read or whose output could not be
  written when it started, and it leaves the outputs of the sketches before, and nothing else. -/
theorem generateFiles_loses_nothing (options : SketchOptions) (output : Path)
    (sketches : List Path) (w : Workspace) (hground : w.tree.Grounded w.current) :
    let run (sketches : List Path) (w : Workspace) :=
      (generateFiles options output sketches : Action Session (List Path)).run.run w
    match (makeDirectories output : Session _).run w with
    | (.error cause, made) => run sketches w = (.error (.createDirectory output cause), made)
    | (.ok (), made) =>
      Separate made.tree made.current output sketches →
        (run sketches w).2.current = made.current ∧ (run sketches w).2.printed = made.printed ∧
        match run sketches w with
        | (.ok paths, after) =>
          paths = sketches.map (outputPath output) ∧
          (∀ sketch ∈ sketches, (outputPath output sketch).components =
            output.components ++ [.name (outputName sketch)]) ∧
          Generated options made.tree made.current output sketches after.tree ∧
          ((run sketches after).1 = .ok paths ∧ (run sketches after).2.tree = after.tree) ∧
          ∀ sketches', sketches'.Perm sketches →
            (run sketches' w).1 = .ok (sketches'.map (outputPath output)) ∧
              (run sketches' w).2.tree = after.tree
        | (.error failure, after) =>
          ∃ before sketch rest, sketches = before ++ sketch :: rest ∧
            StopsAt made.tree made.current output sketch failure ∧
            Generated options made.tree made.current output before after.tree := by
  intro run
  rcases hmake : (makeDirectories output : Session _).run w with ⟨_ | _, made⟩
  · exact (run_generateFiles options output sketches w).trans (by rw [hmake])
  · intro hsep
    have hground' := grounded_made hmake hground
    rcases exists_first_eq_none (planned? options made.tree made.current output) sketches with
      hall | ⟨before, sketch, rest, rfl, hbefore, hnone⟩
    · obtain ⟨events, hrun⟩ := run_generateFiles_of_planned hmake hground' hsep hall
      obtain ⟨events', hagain⟩ := run_generateFiles_again hmake hground' hsep hall events
      rw [show run sketches w = _ from hrun]
      refine ⟨rfl, rfl, rfl, fun sketch _ => components_outputPath output sketch,
        generated_plan hground' hsep hall, ?_, fun sketches' hperm => ?_⟩
      · rw [show run sketches _ = _ from hagain]
        exact ⟨rfl, rfl⟩
      · have hsep' := hsep.perm hperm
        obtain ⟨events'', hrun'⟩ := run_generateFiles_of_planned hmake hground' hsep'
          fun sketch hsketch => hall sketch (hperm.subset hsketch)
        rw [show run sketches' w = _ from hrun']
        exact ⟨rfl, FileTree.putTexts_perm (hperm.filterMap _) hsep'.nodup_plan⟩
    · have hsepBefore := hsep.sublist (List.sublist_append_left before (sketch :: rest))
      obtain ⟨failure, events, hwhy, hrun⟩ :=
        run_generateFiles_stops hmake hground' hsep hbefore hnone
      rw [show run (before ++ sketch :: rest) w = _ from hrun]
      exact ⟨rfl, rfl, before, sketch, rest, rfl, hwhy,
        generated_plan hground' hsepBefore hbefore⟩

/-- A batch of two sketches, with a link to the second one and an old output of the first. -/
theorem generateFiles_loses_nothing_linked :
    let tree := FileTree.empty.putTexts [(["a.ino".toList], "void f() {}\n".toList),
      (["b.pde".toList], []), (["o".toList, "a.cpp".toList], "old".toList)]
    let w : Workspace :=
      { tree := (tree.put ["o".toList] .directory).put ["l".toList] (.link (.ofString "b.pde"))
        current := [] }
    let output := Path.ofString "o"
    let sketches := [Path.ofString "a.ino", Path.ofString "l"]
    let run := (generateFiles {} output sketches : Action Session _).run.run w
    w.tree.Grounded w.current ∧ Separate w.tree w.current output sketches ∧
      run.1 = .ok [.ofString "o/a.cpp", .ofString "o/l.cpp"] ∧
      Generated {} w.tree w.current output sketches run.2.tree := by
  intro tree w output sketches run
  have hground : w.tree.Grounded w.current := w.tree.grounded_nil
  have hmake : (makeDirectories output : Session _).run w = (.ok (), w) :=
    run_makeDirectories_of_hasDirectory (.inr (by decide +kernel))
  have hsep : Separate w.tree w.current output sketches := by decide +kernel
  have hrun : run.1 = .ok [.ofString "o/a.cpp", .ofString "o/l.cpp"] := by decide +kernel
  have h := generateFiles_loses_nothing {} output sketches w hground
  rw [hmake] at h
  have hclean := (h hsep).2.2
  simp only [show (generateFiles {} output sketches : Action Session _).run.run w = (_, run.2) from
    Prod.ext hrun rfl] at hclean
  exact ⟨hground, hsep, hrun, hclean.2.2.1⟩

end SketchBuild
