import SketchBuild.Build.Action
import SketchBuild.Host.Workspace

/-!
# Actions in a workspace

What the steps of an action do to a workspace. An action stops at its first failure, and a request
that fails leaves the workspace as it was.
-/

namespace SketchBuild.Action

variable {α β : Type} (w : Workspace)

/-- The rest of an action is for the workspace that its first part leaves, unless that failed. -/
theorem run_bind (action : Action Session α) (next : α → Action Session β) :
    (action >>= next).run.run w =
      match action.run.run w with
      | (.ok a, w') => (next a).run.run w'
      | (.error failure, w') => (.error failure, w') := by
  change (match action.run.run w with
    | (result, w') => (ExceptT.bindCont next result : Session _).run w') = _
  rcases action.run.run w with ⟨_ | _, w'⟩
  · rfl
  · rfl

/-- A request of the host gives its answer or a failure, and leaves the workspace that it leaves. -/
theorem run_orFail (failure : OsError → Failure) (request : Session (Except OsError α)) :
    (orFail failure request : Action Session α).run.run w =
      ((request.run w).1.mapError failure, (request.run w).2) := by
  rw [orFail, ExceptT.run_mk, StateT.run_bind]
  rcases request.run w with ⟨_ | _, w'⟩
  · rfl
  · rfl

theorem run_orFail_read (failure : OsError → Failure) (p : Path) :
    (orFail failure (Host.read p) : Action Session Text).run.run w =
      ((w.tree.read w.current p).mapError failure, w) := by
  rw [run_orFail, Session.run_read]

theorem run_orFail_write (failure : OsError → Failure) (p : Path) (t : Text) :
    (orFail failure (Host.write p t) : Action Session Unit).run.run w =
      match w.tree.write w.current p (.text t) with
      | .ok tree => (.ok (), { w with tree })
      | .error e => (.error (failure e), w) := by
  rw [run_orFail, Session.run_write]
  cases w.tree.write w.current p (.text t) with
  | ok tree => rfl
  | error e => rfl

/-! ### Actions for every member of a list -/

theorem run_forM_cons (f : α → Action Session Unit) (a : α) (as : List α) :
    ((a :: as).forM f).run.run w =
      match (f a).run.run w with
      | (.ok _, w') => (as.forM f).run.run w'
      | (.error failure, w') => (.error failure, w') := by
  change (f a >>= fun _ => as.forM f).run.run w = _
  rw [run_bind]
  rcases (f a).run.run w with ⟨_ | _, w'⟩
  · rfl
  · rfl

theorem run_mapM_cons (f : α → Action Session β) (a : α) (as : List α) :
    ((a :: as).mapM f).run.run w =
      match (f a).run.run w with
      | (.ok b, w') =>
        match (as.mapM f).run.run w' with
        | (.ok bs, w'') => (.ok (b :: bs), w'')
        | (.error failure, w'') => (.error failure, w'')
      | (.error failure, w') => (.error failure, w') := by
  rw [List.mapM_cons, run_bind]
  rcases (f a).run.run w with ⟨_ | b, w'⟩
  · rfl
  · dsimp only
    rw [run_bind]
    rcases (as.mapM f).run.run w' with ⟨_ | bs, w''⟩
    · rfl
    · rfl

/-- Events are recorded one after the other. -/
theorem run_forM_record (events : List Event) :
    (events.forM record : Action Session Unit).run.run w =
      (.ok (), { w with events := w.events ++ events }) := by
  induction events generalizing w with
  | nil =>
    rw [List.append_nil]
    rfl
  | cons event events ih =>
    have hrecord : (record event : Action Session Unit).run.run w =
        (.ok (), { w with events := w.events ++ [event] }) := rfl
    rw [run_forM_cons, hrecord]
    dsimp only
    rw [ih, List.append_assoc, List.singleton_append]

end SketchBuild.Action
