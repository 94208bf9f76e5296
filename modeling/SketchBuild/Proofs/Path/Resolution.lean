import Mathlib.Data.List.DropRight
import SketchBuild.Proofs.Path.Moves

/-!
# Where a path leads

A path can be followed by its components alone, without looking at any file: a name goes down, `..`
takes the name before it back, and above the root there is nothing but the root.

* `resolved`: the names that are left at the end of a path.
* `climb`: how many times `..` finds no name to take back.

The settled form says both (`settled_eq_resolved`), and for a joined path both are known from its
two parts (`resolved_join`, `climb_join`).
-/

namespace SketchBuild.Path

variable {base current header p q : Path}

/-- One component further, with the names so far on a stack. -/
def follow (stack : List Text) : Component → List Text
  | .root => []
  | .current => stack
  | .parent => stack.tail
  | .name n => n :: stack

/-- The names that a path leads to, from the root or from where it starts. -/
def resolved (p : Path) : List Text :=
  (p.components.foldl follow []).reverse

/-- How many times `..` is met with no name left, when there are `depth` names to begin with. -/
def climbFrom : Nat → List Component → Nat
  | _, [] => 0
  | _, .root :: rest => climbFrom 0 rest
  | depth, .current :: rest => climbFrom depth rest
  | 0, .parent :: rest => climbFrom 0 rest + 1
  | depth + 1, .parent :: rest => climbFrom depth rest
  | depth, .name _ :: rest => climbFrom (depth + 1) rest

/-- How far a path climbs above the root, or above where it starts. -/
def climb (p : Path) : Nat :=
  climbFrom 0 p.components

/-! ### Steps -/

/-- A name that can stand between two slashes and means itself. -/
structure IsOrdinary (n : Text) : Prop where
  ne_nil : n ≠ []
  ne_dot : n ≠ ['.']
  ne_dots : n ≠ ['.', '.']
  slash_not_mem : '/' ∉ n

theorem IsOrdinary.ofPiece? {n : Text} (h : IsOrdinary n) :
    Component.ofPiece? n = some (.name n) := by
  rw [Component.ofPiece?, if_neg (not_or.2 ⟨h.ne_nil, h.ne_dot⟩), if_neg h.ne_dots]

/-- A component that goes up or down. -/
inductive IsStep : Component → Prop
  | parent : IsStep .parent
  | name {n : Text} (h : IsOrdinary n) : IsStep (.name n)

/-- The components behind the root, dots left out. -/
def steps (p : Path) : List Component :=
  (Text.split '/' p.text).filterMap Component.ofPiece?

theorem isStep_of_mem_steps {c : Component} (h : c ∈ p.steps) : IsStep c := by
  obtain ⟨piece, hpiece, hc⟩ := List.mem_filterMap.1 h
  rw [Component.ofPiece?] at hc
  split_ifs at hc with hidle hparent
  · cases hc
    exact .parent
  · cases hc
    obtain ⟨hnil, hdot⟩ := not_or.1 hidle
    exact .name ⟨hnil, hdot, hparent, Text.not_mem_of_mem_split hpiece⟩

theorem steps_join (base : Path) (h : q.isAbsolute = false) :
    (base.join q).steps = base.steps ++ q.steps :=
  filterMap_split_join base h

/-- Neither a dot in front of a path nor its root leaves a name behind. -/
theorem foldl_follow_components (p : Path) :
    p.components.foldl follow [] = p.steps.foldl follow [] := by
  have hdot : p.dotOf.foldl follow [] = [] := by
    unfold dotOf
    split <;> rfl
  have hroot : p.rootOf.foldl follow [] = [] := by
    unfold rootOf
    split <;> rfl
  rw [components_eq, List.foldl_append, List.foldl_append, hdot, hroot, steps]

theorem resolved_eq (p : Path) : p.resolved = (p.steps.foldl follow []).reverse := by
  rw [resolved, foldl_follow_components]

theorem climb_eq (p : Path) : p.climb = climbFrom 0 p.steps := by
  rw [climb, components_eq, dotOf, rootOf, steps]
  split_ifs <;> rfl

theorem forall_mem_foldl_follow {route : List Component} (hroute : ∀ c ∈ route, IsStep c)
    {stack : List Text} (hstack : ∀ n ∈ stack, IsOrdinary n) :
    ∀ n ∈ route.foldl follow stack, IsOrdinary n := by
  induction route generalizing stack with
  | nil => exact hstack
  | cons c route ih =>
    obtain ⟨hc, hrest⟩ := List.forall_mem_cons.1 hroute
    apply ih hrest
    cases hc with
    | parent => exact fun n hn => hstack n (List.mem_of_mem_tail hn)
    | name h => exact List.forall_mem_cons.2 ⟨h, hstack⟩

/-- A path leads to ordinary names. -/
theorem isOrdinary_of_mem_resolved {n : Text} (h : n ∈ p.resolved) : IsOrdinary n := by
  rw [resolved_eq, List.mem_reverse] at h
  exact forall_mem_foldl_follow (fun _ => isStep_of_mem_steps) (List.forall_mem_nil _) n h

/-! ### The settled form -/

/-- A settled stack: names above `..` above the root. -/
def stackOf (p : Path) (ups : Nat) (names : List Text) : List Component :=
  names.map .name ++ (List.replicate ups .parent ++ p.rootOf)

theorem settle_stackOf_name (p : Path) (ups : Nat) (names : List Text) (n : Text) :
    settle (stackOf p ups names) (.name n) = stackOf p ups (n :: names) := rfl

theorem settle_stackOf_parent_cons (p : Path) (ups : Nat) (names : List Text) (n : Text) :
    settle (stackOf p ups (n :: names)) .parent = stackOf p ups names := rfl

theorem settle_stackOf_parent_nil (p : Path) (ups : Nat) :
    settle (stackOf p ups []) .parent = stackOf p (ups + 1) [] := by
  unfold stackOf
  cases ups with
  | zero =>
    unfold rootOf
    split <;> rfl
  | succ ups => rfl

/-- Settling keeps the names that following leaves, and every `..` that finds none. -/
theorem foldl_settle_stackOf {route : List Component} (hroute : ∀ c ∈ route, IsStep c) (p : Path)
    (ups : Nat) (names : List Text) :
    route.foldl settle (stackOf p ups names) =
      stackOf p (ups + climbFrom names.length route) (route.foldl follow names) := by
  induction route generalizing ups names with
  | nil => rfl
  | cons c route ih =>
    obtain ⟨hc, hrest⟩ := List.forall_mem_cons.1 hroute
    rw [List.foldl_cons, List.foldl_cons]
    cases hc with
    | parent =>
      cases names with
      | nil =>
        rw [settle_stackOf_parent_nil, ih hrest, Nat.add_assoc, Nat.add_comm 1]
        rfl
      | cons n names =>
        rw [settle_stackOf_parent_cons, ih hrest]
        rfl
    | name h =>
      rw [settle_stackOf_name, ih hrest]
      rfl

/-- **The settled form** of a path: its root, the `..` that are left, and the names it leads to. -/
theorem settled_eq_resolved (p : Path) :
    p.settled = p.rootOf ++ (List.replicate p.climb .parent ++ p.resolved.map .name) := by
  have hroot : p.rootOf.foldl settle [] = stackOf p 0 [] ∧ p.rootOf.reverse = p.rootOf := by
    simp only [stackOf, rootOf]
    split <;> exact ⟨rfl, rfl⟩
  rw [settled_eq, moves_eq, List.foldl_append, hroot.1, ← steps,
    foldl_settle_stackOf (fun _ => isStep_of_mem_steps), stackOf, List.length_nil, ← climb_eq,
    Nat.zero_add, List.reverse_append, List.reverse_append, List.reverse_replicate, hroot.2,
    ← List.map_reverse, ← resolved_eq, List.append_assoc]

/-! ### Joined paths -/

/-- What lies below on the stack is only touched by climbing. -/
theorem foldl_follow_append {route : List Component} (hroute : ∀ c ∈ route, IsStep c)
    (names below : List Text) :
    route.foldl follow (names ++ below) =
      route.foldl follow names ++ below.drop (climbFrom names.length route) := by
  induction route generalizing names below with
  | nil => rfl
  | cons c route ih =>
    obtain ⟨hc, hrest⟩ := List.forall_mem_cons.1 hroute
    rw [List.foldl_cons, List.foldl_cons]
    cases hc with
    | parent =>
      cases names with
      | nil =>
        show route.foldl follow below.tail = route.foldl follow [] ++
          below.drop (climbFrom 0 route + 1)
        rw [← List.drop_tail]
        exact ih hrest [] below.tail
      | cons n names => exact ih hrest names below
    | name h => exact ih hrest (_ :: names) below

/-- Every name to begin with saves one climb. -/
theorem climbFrom_add {route : List Component} (hroute : ∀ c ∈ route, IsStep c)
    (depth more : Nat) : climbFrom (depth + more) route = climbFrom depth route - more := by
  induction route generalizing depth more with
  | nil => simp [climbFrom]
  | cons c route ih =>
    obtain ⟨hc, hrest⟩ := List.forall_mem_cons.1 hroute
    cases hc with
    | parent =>
      cases depth with
      | zero =>
        cases more with
        | zero => rfl
        | succ more =>
          have hmore := ih hrest 0 more
          rw [Nat.zero_add] at hmore ⊢
          show climbFrom more route = climbFrom 0 route + 1 - (more + 1)
          omega
      | succ depth =>
        rw [Nat.succ_add]
        exact ih hrest depth more
    | name h =>
      have hmore := ih hrest (depth + 1) more
      rw [Nat.add_right_comm] at hmore
      exact hmore

theorem climbFrom_append {route : List Component} (hroute : ∀ c ∈ route, IsStep c)
    (names : List Text) (rest : List Component) :
    climbFrom names.length (route ++ rest) =
      climbFrom names.length route + climbFrom (route.foldl follow names).length rest := by
  induction route generalizing names with
  | nil => simp [climbFrom]
  | cons c route ih =>
    obtain ⟨hc, hrest⟩ := List.forall_mem_cons.1 hroute
    cases hc with
    | parent =>
      cases names with
      | nil =>
        have hnil := ih hrest []
        simp only [List.cons_append, List.foldl_cons, follow, List.tail_nil, List.length_nil,
          climbFrom] at hnil ⊢
        omega
      | cons n names => exact ih hrest names
    | name h => exact ih hrest (_ :: names)

/-- To go on from a path is to take names back and to add others. -/
theorem resolved_join (base : Path) (h : q.isAbsolute = false) :
    (base.join q).resolved = base.resolved.rdrop q.climb ++ q.resolved := by
  have hfollow := foldl_follow_append (fun _ => isStep_of_mem_steps (p := q)) []
    (base.steps.foldl follow [])
  rw [List.nil_append, List.length_nil, ← climb_eq] at hfollow
  rw [resolved_eq, steps_join base h, List.foldl_append, hfollow, List.reverse_append, resolved_eq q,
    resolved_eq base, List.rdrop_eq_reverse_drop_reverse, List.reverse_reverse]

theorem climb_join (base : Path) (h : q.isAbsolute = false) :
    (base.join q).climb = base.climb + (q.climb - base.resolved.length) := by
  have happend := climbFrom_append (fun _ => isStep_of_mem_steps (p := base)) [] q.steps
  have hadd := climbFrom_add (fun _ => isStep_of_mem_steps (p := q)) 0
    (base.steps.foldl follow []).length
  rw [Nat.zero_add] at hadd
  rw [climb_eq, steps_join base h, climb_eq base, climb_eq q, resolved_eq, List.length_reverse]
  exact happend.trans (congrArg _ hadd)

/-! ### Directories -/

/-- What is taken from an absolute path is absolute. -/
theorem isAbsolute_join_of_isAbsolute (hcurrent : current.isAbsolute = true) (p : Path) :
    (current.join p).isAbsolute = true := by
  cases hp : p.isAbsolute with
  | true => rwa [join_of_isAbsolute current hp]
  | false => rwa [isAbsolute_join current hp]

theorem isAbsolute_join_eq (hcurrent : current.isAbsolute = true) (p q : Path) :
    (current.join p).isAbsolute = (current.join q).isAbsolute := by
  rw [isAbsolute_join_of_isAbsolute hcurrent, isAbsolute_join_of_isAbsolute hcurrent]

/-- The parent has all steps of a path but the last. -/
theorem steps_of_parent? (h : p.parent? = some q) : q.steps = p.steps.dropLast := by
  obtain ⟨hmoves, hsame⟩ := moves_of_parent? h
  rw [moves_eq, moves_eq, rootOf, rootOf, hsame, ← steps, ← steps] at hmoves
  by_cases hsteps : p.steps = []
  · rw [hsteps, List.append_nil] at hmoves
    have hnil : q.steps = [] := by
      split_ifs at hmoves
      · cases hmoves
      · exact hmoves
    rw [hnil, hsteps]
    rfl
  · rw [List.dropLast_append_of_ne_nil hsteps] at hmoves
    exact List.append_cancel_left hmoves

theorem climb_le_of_parent? (h : p.parent? = some q) : q.climb ≤ p.climb := by
  obtain ⟨rest, hrest⟩ := List.dropLast_prefix p.steps
  have happend := climbFrom_append (fun _ => isStep_of_mem_steps (p := q)) [] rest
  rw [steps_of_parent? h, hrest] at happend
  rw [climb_eq, climb_eq, steps_of_parent? h]
  exact happend ▸ Nat.le_add_right _ _

theorem climb_join_le_of_parent? (current : Path) (h : p.parent? = some q) :
    (current.join q).climb ≤ (current.join p).climb := by
  have hle := climb_le_of_parent? h
  have hsame := (moves_of_parent? h).2
  cases hp : p.isAbsolute with
  | true =>
    rwa [join_of_isAbsolute current hp, join_of_isAbsolute current (hsame.trans hp)]
  | false =>
    rw [climb_join current hp, climb_join current (hsame.trans hp)]
    omega

/-- The directory that holds a header: its parent, or else the current directory. -/
def holder (current header : Path) : Path :=
  match header.parent? with
  | some parent => current.join parent
  | none => current

theorem resolved_join_directory (current header : Path) :
    (current.join header.directory).resolved = (holder current header).resolved := by
  rw [directory, holder]
  cases header.parent? with
  | some parent => rfl
  | none =>
    show (current.join ⟨[]⟩).resolved = current.resolved
    rw [resolved_join current rfl, show (⟨[]⟩ : Path).climb = 0 from rfl, List.rdrop_zero]
    exact List.append_nil _

/-- A header that does not climb is held by a directory that does not. -/
theorem climb_join_directory (hheader : (current.join header).climb = 0)
    (hcurrent : header.parent? = none → current.climb = 0) :
    (current.join header.directory).climb = 0 := by
  rw [directory]
  cases hparent : header.parent? with
  | some parent => exact Nat.le_zero.1 (hheader ▸ climb_join_le_of_parent? current hparent)
  | none =>
    show (current.join ⟨[]⟩).climb = 0
    rw [climb_join current rfl, hcurrent hparent, show (⟨[]⟩ : Path).climb = 0 from rfl]
    omega

end SketchBuild.Path
