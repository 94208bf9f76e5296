import SketchBuild.Path.Basic

/-!
# Relative paths

The way from one path to another, worked out on the components alone, without looking at any
file: up once for every component of the base that is not shared, then down to the goal.

In the settled form of a path the dots are gone and every `..` that follows a name has taken it
away; a `..` at the front, or right under the root, stays.
-/

namespace SketchBuild.Path

/-- One more component on a settled stack, the last component on top. -/
def settle (stack : List Component) : Component → List Component
  | .current => stack
  | .parent =>
    match stack with
    | .name _ :: below => below
    | _ => .parent :: stack
  | c => c :: stack

/-- The components of a path in settled form. -/
def settled (p : Path) : List Component :=
  (p.components.foldl settle []).reverse

/-- Two lists without their longest common front part. -/
def dropCommon : List Component → List Component → List Component × List Component
  | a :: as, b :: bs => if a = b then dropCommon as bs else (a :: as, b :: bs)
  | as, bs => (as, bs)

/-- The components that lead from the base to the goal. -/
def route (base goal : Path) : List Component :=
  let (ahead, behind) := dropCommon goal.settled base.settled
  behind.map (fun _ => .parent) ++ ahead

/-- A route as a path; to stay is written as a dot. -/
def ofRoute (route : List Component) : Path :=
  if route = [] then ⟨['.']⟩ else ⟨Text.join '/' (route.map Component.text)⟩

/-- The path that leads from the base to the goal. When only one of the two is absolute there is
no telling, and the goal is left as it is. -/
def relativeTo (goal base : Path) : Path :=
  if goal.isAbsolute = base.isAbsolute then ofRoute (route base goal) else goal

end SketchBuild.Path
