import SketchBuild.Build.Directory
import SketchBuild.Host.Workspace
import SketchBuild.Proofs.FileTree.Directories

/-!
# Making directories in a workspace

Making a directory together with those above it loses nothing (`adds_makeDirectories`), leaves the
directory in place (`hasDirectory_of_makeDirectories`), and does nothing if it is there already
(`run_makeDirectories_of_hasDirectory`).
-/

namespace SketchBuild

variable {w : Workspace} {p : Path} {above : List Path}

theorem run_acceptDirectory (p : Path) (result : Except OsError Unit) (w : Workspace) :
    (acceptDirectory p result : Session _).run w =
      (match result with
        | .ok () => .ok ()
        | .error e => if w.tree.isDirectory w.current p = true then .ok () else .error e, w) := by
  cases result with
  | ok => rfl
  | error e =>
    refine (StateT.run_bind ..).trans ?_
    rw [Session.run_isDirectory]
    change (ite _ _ _ : Session _).run w = _
    split
    · rfl
    · rfl

theorem run_makeFirstDirectory_cons (h : p.text ≠ []) (above : List Path) (w : Workspace) :
    (makeFirstDirectory (p :: above) : Session _).run w =
      match w.tree.makeDirectory w.current p with
      | .error .noEntry =>
        match (makeFirstDirectory above : Session _).run w with
        | (.error e, w') => (.error e, w')
        | (.ok (), w') =>
          match w'.tree.makeDirectory w'.current p with
          | .ok tree => (.ok (), { w' with tree })
          | .error e => (acceptDirectory p (.error e) : Session _).run w'
      | .error e => (acceptDirectory p (.error e) : Session _).run w
      | .ok tree => (.ok (), { w with tree }) := by
  rw [makeFirstDirectory, if_neg h]
  refine (StateT.run_bind ..).trans ?_
  rw [Session.run_makeDirectory]
  cases w.tree.makeDirectory w.current p with
  | ok tree => rfl
  | error e =>
    cases e with
    | noEntry =>
      dsimp only
      refine (StateT.run_bind ..).trans ?_
      rcases (makeFirstDirectory above : Session _).run w with ⟨_ | _, w'⟩
      · rfl
      · refine (StateT.run_bind ..).trans ?_
        rw [Session.run_makeDirectory]
        dsimp only
        cases w'.tree.makeDirectory w'.current p with
        | ok tree => rfl
        | error e => rfl
    | _ => rfl

/-- Only the tree changes, and nothing in it is lost. -/
def Adds (w w' : Workspace) : Prop :=
  ∃ tree, w' = { w with tree } ∧ w.tree.Keeps tree

theorem Adds.refl (w : Workspace) : Adds w w :=
  ⟨w.tree, rfl, fun _ _ => id⟩

theorem Adds.trans {w₁ w₂ w₃ : Workspace} (h : Adds w₁ w₂) (h' : Adds w₂ w₃) : Adds w₁ w₃ := by
  obtain ⟨tree, rfl, hkeeps⟩ := h
  obtain ⟨tree', rfl, hkeeps'⟩ := h'
  exact ⟨tree', rfl, fun location entry hget => hkeeps' _ _ (hkeeps location entry hget)⟩

theorem adds_of_makeDirectory {tree : FileTree} (h : w.tree.makeDirectory w.current p = .ok tree) :
    Adds w { w with tree } :=
  ⟨tree, rfl, FileTree.keeps_of_makeDirectory h⟩

theorem adds_makeFirstDirectory (paths : List Path) (w : Workspace) :
    Adds w ((makeFirstDirectory paths : Session _).run w).2 := by
  induction paths generalizing w with
  | nil => exact .refl w
  | cons p above ih =>
    by_cases hp : p.text = []
    · rw [makeFirstDirectory, if_pos hp]
      exact .refl w
    · rw [run_makeFirstDirectory_cons hp]
      split
      · have habove := ih w
        split
        · next hrun =>
          rw [hrun] at habove
          exact habove
        · next w' hrun =>
          rw [hrun] at habove
          split
          · next hmade => exact habove.trans (adds_of_makeDirectory hmade)
          · rw [run_acceptDirectory]
            exact habove
      · rw [run_acceptDirectory]
        exact .refl w
      · next hmade => exact adds_of_makeDirectory hmade

/-- Making a directory together with those above it loses nothing. -/
theorem adds_makeDirectories (p : Path) (w : Workspace) :
    Adds w ((makeDirectories p : Session _).run w).2 :=
  adds_makeFirstDirectory p.ancestors w

theorem isDirectory_of_acceptDirectory {e : OsError} {w' : Workspace}
    (h : (acceptDirectory p (.error e) : Session _).run w = (.ok (), w')) :
    w'.tree.isDirectory w'.current p = true := by
  rw [run_acceptDirectory] at h
  obtain ⟨hresult, rfl⟩ := Prod.mk.inj h
  by_contra hnot
  simp [hnot] at hresult

theorem isDirectory_of_makeFirstDirectory {w' : Workspace} (hp : p.text ≠ [])
    (h : (makeFirstDirectory (p :: above) : Session _).run w = (.ok (), w')) :
    w'.tree.isDirectory w'.current p = true := by
  rw [run_makeFirstDirectory_cons hp] at h
  split at h
  · split at h
    · cases h
    · split at h
      · next hmade =>
        obtain rfl := (Prod.mk.inj h).2
        exact FileTree.isDirectory_of_makeDirectory hmade
      · exact isDirectory_of_acceptDirectory h
  · exact isDirectory_of_acceptDirectory h
  · next hmade =>
    obtain rfl := (Prod.mk.inj h).2
    exact FileTree.isDirectory_of_makeDirectory hmade

theorem exists_ancestors_eq (p : Path) : ∃ above, p.ancestors = p :: above := by
  rw [Path.ancestors]
  cases p.components.length with
  | zero => exact ⟨[], rfl⟩
  | succ steps => exact ⟨_, rfl⟩

/-- The path names a directory, the empty path the current one. -/
def Workspace.HasDirectory (w : Workspace) (p : Path) : Prop :=
  p.text = [] ∨ w.tree.isDirectory w.current p = true

/-- A directory that has been made is there. -/
theorem hasDirectory_of_makeDirectories {w' : Workspace}
    (h : (makeDirectories p : Session _).run w = (.ok (), w')) : w'.HasDirectory p := by
  obtain ⟨above, habove⟩ := exists_ancestors_eq p
  rw [makeDirectories, habove] at h
  by_cases hp : p.text = []
  · exact .inl hp
  · exact .inr (isDirectory_of_makeFirstDirectory hp h)

/-- Nothing is done about a directory that is there. -/
theorem run_makeDirectories_of_hasDirectory (h : w.HasDirectory p) :
    (makeDirectories p : Session _).run w = (.ok (), w) := by
  obtain ⟨above, habove⟩ := exists_ancestors_eq p
  rw [makeDirectories, habove]
  by_cases hp : p.text = []
  · rw [makeFirstDirectory, if_pos hp]
    rfl
  · have hdirectory := h.resolve_left hp
    rw [run_makeFirstDirectory_cons hp, FileTree.makeDirectory_of_isDirectory hdirectory]
    dsimp only
    rw [run_acceptDirectory]
    simp [hdirectory]

end SketchBuild
