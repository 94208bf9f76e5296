import SketchBuild.Proofs.Depfile.Rules
import SketchBuild.Proofs.FileTree.Writing
import SketchBuild.Proofs.Host.Actions

/-!
# Converting dependency files

What conversion does to the files of a workspace: all or nothing.

* `WritesOnly`: one text is written under a path and nothing else changes.
* `ConversionFails`: the causes of a failure, all of which are found before anything has changed.

`convert_all_or_nothing` puts both together, for every workspace, whatever links lead to the
dependency file and to the output, and also if the output is the dependency file itself.
-/

namespace SketchBuild.Depfile

/-- A tree differs from another in one file only: the one that the path leads to. It has the text,
and it is found under the path. -/
structure WritesOnly (before : FileTree) (current : Location) (p : Path) (t : Text)
    (after : FileTree) : Prop where
  frame : ∃ location, before.locate true current p = .ok location ∧
    ∀ other, after.get? other =
      if other = location then some (.file (.text t)) else before.get? other
  read : after.read current p = .ok t

/-- Why a dependency file is not converted: it is no text, its headers are in conflict, or the
output cannot be written. -/
inductive ConversionFails (registry : Registry) (w : Workspace) (path output : Path) :
    Failure → Prop
  | unreadable {cause : OsError} (hread : w.tree.read w.current path = .error cause) :
      ConversionFails registry w path output (.file path cause)
  | conflict {content : Text} {conflict : VersionConflict}
      (hread : w.tree.read w.current path = .ok content)
      (haugment : augment registry (usedIn (directoryIn w) content) content = .error conflict) :
      ConversionFails registry w path output (.versionConflict conflict)
  | unwritable {content augmented : Text} {cause : OsError}
      (hread : w.tree.read w.current path = .ok content)
      (haugment : augment registry (usedIn (directoryIn w) content) content = .ok augmented)
      (hwrite : w.tree.write w.current output (.text augmented) = .error cause) :
      ConversionFails registry w path output (.file output cause)

/-- The workspace after a content has been augmented. -/
def noted (w : Workspace) (content : Text) : Workspace :=
  if (read content).target? = none ∧ usedIn (directoryIn w) content ≠ [] then
    { w with events := w.events ++ [.targetMissing] }
  else w

@[simp] theorem tree_noted (w : Workspace) (content : Text) :
    (noted w content).tree = w.tree := by
  unfold noted
  split <;> rfl

@[simp] theorem current_noted (w : Workspace) (content : Text) :
    (noted w content).current = w.current := by
  unfold noted
  split <;> rfl

@[simp] theorem printed_noted (w : Workspace) (content : Text) :
    (noted w content).printed = w.printed := by
  unfold noted
  split <;> rfl

/-- The output has another name than the dependency file, unless told otherwise. -/
theorem outputPath_ne (path : Path) : (outputPath path).text ≠ path.text := by
  intro h
  have hlength := congrArg List.length h
  cases hsuffix : ".d".toList.isSuffixOf? path.text with
  | none =>
    rw [outputPath, hsuffix, Option.getD_none, List.length_append] at hlength
    exact absurd hlength (by simp)
  | some stem =>
    rw [outputPath, hsuffix, ← List.append_eq_of_isSuffixOf?_eq_some hsuffix, Option.getD_some,
      List.length_append, List.length_append] at hlength
    exact absurd hlength (by simp)

theorem run_convert_of_isFile {w : Workspace} {path : Path}
    (h : w.tree.isFile w.current path = true) (registry : Registry) (output? : Option Path) :
    (convert registry path output? : Action Session (Option Path)).run.run w =
      match w.tree.read w.current path with
      | .error cause => (.error (.file path cause), w)
      | .ok content =>
        match augment registry (usedIn (directoryIn w) content) content with
        | .error conflict => (.error (.versionConflict conflict), noted w content)
        | .ok augmented =>
          match w.tree.write w.current (output?.getD (outputPath path)) (.text augmented) with
          | .error cause => (.error (.file (output?.getD (outputPath path)) cause), noted w content)
          | .ok tree => (.ok (some (output?.getD (outputPath path))),
            { noted w content with
              tree
              events := (noted w content).events ++
                [.depfileWritten path (output?.getD (outputPath path))] }) := by
  refine (Action.run_lift_bind (Host.isFile path) _ w).trans ?_
  rw [Session.run_isFile, h, if_pos rfl, Action.run_bind, Action.run_orFail_read]
  cases w.tree.read w.current path with
  | error cause => rfl
  | ok content =>
    dsimp only [Except.mapError]
    rw [Action.run_bind, run_augmentHere, ← noted]
    cases augment registry (usedIn (directoryIn w) content) content with
    | error conflict => rfl
    | ok augmented =>
      dsimp only [Except.mapError]
      rw [Action.run_bind, Action.run_orFail_write, tree_noted, current_noted]
      cases w.tree.write w.current (output?.getD (outputPath path)) (.text augmented) with
      | error cause => rfl
      | ok tree => rfl

theorem run_convert_of_not_isFile {w : Workspace} {path : Path}
    (h : w.tree.isFile w.current path = false) (registry : Registry) (output? : Option Path) :
    (convert registry path output? : Action Session (Option Path)).run.run w =
      (.ok none, { w with events := w.events ++ [.depfileMissing path] }) := by
  refine (Action.run_lift_bind (Host.isFile path) _ w).trans ?_
  rw [Session.run_isFile, h]
  rfl

theorem writesOnly_of_write {tree tree' : FileTree} {current : Location} {p : Path} {t : Text}
    (h : tree.write current p (.text t) = .ok tree') : WritesOnly tree current p t tree' :=
  ⟨FileTree.get?_of_write h, FileTree.read_of_write h⟩

/-- **Conversion does all or nothing.** If it fails, or if there is no dependency file, every file
is as before. If it succeeds, one file is written: the one that the output path leads to, with the
augmented form of what the dependency file held before. Without an output path the one that is
taken is never that of the dependency file. -/
theorem convert_all_or_nothing (registry : Registry) (path : Path) (output? : Option Path)
    (w : Workspace) :
    let output := output?.getD (outputPath path)
    let run := (convert registry path output? : Action Session (Option Path)).run.run w
    (outputPath path).text ≠ path.text ∧ run.2.current = w.current ∧ run.2.printed = w.printed ∧
      match run.1 with
      | .error failure => ConversionFails registry w path output failure ∧ run.2.tree = w.tree
      | .ok none => w.tree.isFile w.current path = false ∧ run.2.tree = w.tree
      | .ok (some written) => written = output ∧
          ∃ content augmented, w.tree.read w.current path = .ok content ∧
            augment registry (usedIn (directoryIn w) content) content = .ok augmented ∧
            WritesOnly w.tree w.current output augmented run.2.tree := by
  intro output run
  refine ⟨outputPath_ne path, ?_⟩
  rcases Bool.eq_false_or_eq_true (w.tree.isFile w.current path) with hfile | hfile
  · rw [show run = _ from run_convert_of_isFile hfile registry output?]
    cases hread : w.tree.read w.current path with
    | error cause => exact ⟨rfl, rfl, .unreadable hread, rfl⟩
    | ok content =>
      dsimp only
      cases haugment : augment registry (usedIn (directoryIn w) content) content with
      | error conflict => exact ⟨by simp, by simp, .conflict hread haugment, by simp⟩
      | ok augmented =>
        dsimp only
        cases hwrite : w.tree.write w.current output (.text augmented) with
        | error cause =>
          exact ⟨by simp, by simp, .unwritable hread haugment hwrite, by simp⟩
        | ok tree =>
          exact ⟨by simp, by simp, rfl, content, augmented, rfl, haugment,
            writesOnly_of_write hwrite⟩
  · rw [show run = _ from run_convert_of_not_isFile hfile registry output?]
    exact ⟨rfl, rfl, hfile, rfl⟩

end SketchBuild.Depfile
