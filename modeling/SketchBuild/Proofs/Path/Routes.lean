import SketchBuild.Proofs.Path.Resolution

/-!
# Routes between paths

A route goes up from where the base leads, past every name that the goal does not share, and down
again to the goal (`exists_relativeTo`). One more `..` stands in it for every `..` by which one of
the two climbs higher than the other, whichever it is (`climbGap`).

* Above the root there is only the root, so between absolute paths these do no harm:
  `relativeTo_leads_to_goal`.
* Between relative paths they lead astray if it is the base that climbs higher, and only then:
  `relativeTo_of_relative_iff`.
-/

namespace SketchBuild.Path

variable {base goal : Path} {route : List Component}

/-! ### The common front part -/

theorem dropCommon_append (common as bs : List Component) :
    dropCommon (common ++ as) (common ++ bs) = dropCommon as bs := by
  induction common with
  | nil => rfl
  | cons c common ih => rw [List.cons_append, List.cons_append, dropCommon, if_pos rfl, ih]

theorem dropCommon_of_head?_ne {as bs : List Component} (h : ∀ c ∈ as.head?, c ∉ bs.head?) :
    dropCommon as bs = (as, bs) := by
  cases as with
  | nil => simp [dropCommon]
  | cons a as =>
    cases bs with
    | nil => simp [dropCommon]
    | cons b bs =>
      have hab : a ≠ b := fun hab => h a rfl (congrArg some hab.symm)
      rw [dropCommon, if_neg hab]

theorem exists_dropCommon_names (ns ms : List Text) :
    ∃ common right left, ns = common ++ right ∧ ms = common ++ left ∧
      dropCommon (ns.map .name) (ms.map .name) = (right.map .name, left.map .name) := by
  induction ns generalizing ms with
  | nil => exact ⟨[], [], ms, rfl, rfl, dropCommon_of_head?_ne (by simp)⟩
  | cons n ns ih =>
    by_cases hhead : ms.head? = some n
    · obtain ⟨ms, rfl⟩ := List.head?_eq_some_iff.1 hhead
      obtain ⟨common, right, left, rfl, rfl, hdrop⟩ := ih ms
      refine ⟨n :: common, right, left, rfl, rfl, ?_⟩
      rw [List.map_cons, List.map_cons, dropCommon, if_pos rfl, hdrop]
    · refine ⟨[], n :: ns, ms, rfl, rfl, dropCommon_of_head?_ne ?_⟩
      rintro c ⟨⟩ hc
      rw [List.head?_map] at hc
      obtain ⟨m, hm, hname⟩ := Option.map_eq_some_iff.1 hc
      cases hname
      exact hhead hm

theorem dropCommon_swap (as bs : List Component) :
    dropCommon bs as = (dropCommon as bs).swap := by
  induction as generalizing bs with
  | nil => cases bs <;> simp [dropCommon]
  | cons a as ih =>
    cases bs with
    | nil => simp [dropCommon]
    | cons b bs =>
      rw [dropCommon, dropCommon]
      by_cases hab : a = b
      · rw [if_pos hab.symm, if_pos hab, ih]
      · rw [if_neg (Ne.symm hab), if_neg hab, Prod.swap_prod_mk]

/-- Behind the `..` that are shared a name stands against a `..`, and there is nothing more in
common. -/
theorem dropCommon_of_climb_lt {a b : Nat} (hab : a < b) (ns ms : List Text) :
    dropCommon (List.replicate a .parent ++ ns.map .name)
        (List.replicate b .parent ++ ms.map .name) =
      (ns.map .name, List.replicate (b - a) .parent ++ ms.map .name) := by
  obtain ⟨d, rfl⟩ := Nat.exists_eq_add_of_lt hab
  have hshared : List.replicate (a + d + 1) Component.parent ++ ms.map .name =
      List.replicate a .parent ++ (.parent :: (List.replicate d .parent ++ ms.map .name)) := by
    rw [Nat.add_assoc, List.replicate_add, List.append_assoc]
    rfl
  have hdiffer : ∀ c ∈ (ns.map Component.name).head?,
      c ∉ (Component.parent :: (List.replicate d .parent ++ ms.map .name)).head? := by
    cases ns <;> simp
  rw [hshared, dropCommon_append, dropCommon_of_head?_ne hdiffer,
    show a + d + 1 - a = d + 1 by omega]
  rfl

/-- Two settled forms have names in common only if they climb equally far. -/
theorem exists_dropCommon_settled (a b : Nat) (ns ms : List Text) :
    ∃ common right left, ns = common ++ right ∧ ms = common ++ left ∧ (b ≠ a → common = []) ∧
      dropCommon (List.replicate a .parent ++ ns.map .name)
          (List.replicate b .parent ++ ms.map .name) =
        (List.replicate (a - b) .parent ++ right.map .name,
          List.replicate (b - a) .parent ++ left.map .name) := by
  rcases lt_trichotomy a b with hab | rfl | hba
  · refine ⟨[], ns, ms, rfl, rfl, fun _ => rfl, ?_⟩
    rw [dropCommon_of_climb_lt hab, Nat.sub_eq_zero_of_le hab.le]
    rfl
  · obtain ⟨common, right, left, hns, hms, hdrop⟩ := exists_dropCommon_names ns ms
    refine ⟨common, right, left, hns, hms, fun h => absurd rfl h, ?_⟩
    rw [dropCommon_append, hdrop, Nat.sub_self]
    rfl
  · refine ⟨[], ns, ms, rfl, rfl, fun _ => rfl, ?_⟩
    rw [dropCommon_swap, dropCommon_of_climb_lt hba, Nat.sub_eq_zero_of_le hba.le]
    rfl

/-- How far apart the climbs of two paths are. -/
def climbGap (base goal : Path) : Nat :=
  base.climb - goal.climb + (goal.climb - base.climb)

theorem climbGap_of_eq (h : base.climb = goal.climb) : climbGap base goal = 0 := by
  unfold climbGap
  omega

/-- The route between two paths: up as often as names are not shared and as the climbs differ, then
down. -/
theorem exists_route_eq (h : goal.isAbsolute = base.isAbsolute) :
    ∃ common left right, base.resolved = common ++ left ∧ goal.resolved = common ++ right ∧
      (base.climb ≠ goal.climb → common = []) ∧ (∀ n ∈ right, IsOrdinary n) ∧
      Path.route base goal =
        List.replicate (left.length + climbGap base goal) .parent ++ right.map .name := by
  obtain ⟨common, right, left, hgoal, hbase, hcommon, hdrop⟩ :=
    exists_dropCommon_settled goal.climb base.climb goal.resolved base.resolved
  have hups : (List.replicate (base.climb - goal.climb) Component.parent
      ++ left.map Component.name).map (fun _ => Component.parent) =
        List.replicate (left.length + (base.climb - goal.climb)) .parent := by
    rw [List.map_const', List.length_append, List.length_replicate, List.length_map, Nat.add_comm]
  have hordinary : ∀ n ∈ right, IsOrdinary n := fun n hn =>
    isOrdinary_of_mem_resolved (hgoal ▸ List.mem_append_right common hn)
  refine ⟨common, left, right, hbase, hgoal, hcommon, hordinary, ?_⟩
  rw [Path.route, settled_eq_resolved goal, settled_eq_resolved base, rootOf, rootOf, h,
    dropCommon_append, hdrop]
  dsimp only
  rw [hups, ← List.append_assoc, List.replicate_append_replicate, Nat.add_assoc, climbGap]

/-- The route to a path is known from where the path leads and how far it climbs. -/
theorem route_congr {goal' : Path} (habsolute : goal.isAbsolute = goal'.isAbsolute)
    (hclimb : goal.climb = goal'.climb) (hresolved : goal.resolved = goal'.resolved) :
    Path.route base goal = Path.route base goal' := by
  rw [Path.route, Path.route, settled_eq_resolved goal, settled_eq_resolved goal', rootOf, rootOf,
    habsolute, hclimb, hresolved]

/-! ### Routes as paths -/

theorem IsStep.ofPiece? {c : Component} (h : IsStep c) : Component.ofPiece? c.text = some c := by
  cases h with
  | parent => rfl
  | name h => exact h.ofPiece?

theorem IsStep.slash_not_mem {c : Component} (h : IsStep c) : '/' ∉ c.text := by
  cases h with
  | parent => decide
  | name h => exact h.slash_not_mem

theorem split_ofRoute (hne : route ≠ []) (hroute : ∀ c ∈ route, IsStep c) :
    Text.split '/' (ofRoute route).text = route.map Component.text := by
  rw [ofRoute, if_neg hne]
  refine Text.split_join (by simpa using hne) fun piece hpiece => ?_
  obtain ⟨c, hc, rfl⟩ := List.mem_map.1 hpiece
  exact (hroute c hc).slash_not_mem

theorem steps_ofRoute (hroute : ∀ c ∈ route, IsStep c) : (ofRoute route).steps = route := by
  by_cases hne : route = []
  · rw [hne]
    rfl
  · have hpiece : ∀ c ∈ route, (Component.ofPiece? ∘ Component.text) c = some c :=
      fun c hc => (hroute c hc).ofPiece?
    rw [steps, split_ofRoute hne hroute, List.filterMap_map, List.filterMap_congr hpiece,
      List.filterMap_some]

theorem isAbsolute_ofRoute (hroute : ∀ c ∈ route, IsStep c) :
    (ofRoute route).isAbsolute = false := by
  cases route with
  | nil => rfl
  | cons c route =>
    have hne : c.text ≠ [] := by
      intro hnil
      have hpiece := (hroute c List.mem_cons_self).ofPiece?
      rw [hnil] at hpiece
      cases hpiece
    rw [← Bool.not_eq_true, isAbsolute_iff (split_ofRoute (List.cons_ne_nil c route) hroute)]
    exact fun h => hne h.1

theorem components_ofRoute (hne : route ≠ []) (hroute : ∀ c ∈ route, IsStep c) :
    (ofRoute route).components = route := by
  have hdot : (ofRoute route).dotOf = [] := by
    rw [dotOf, split_ofRoute hne hroute, if_neg]
    intro hhead
    obtain ⟨c, hc, htext⟩ := List.mem_map.1 (List.mem_of_mem_head? hhead)
    have hpiece := (hroute c hc).ofPiece?
    rw [htext] at hpiece
    cases hpiece
  rw [components_eq, hdot, rootOf, isAbsolute_ofRoute hroute, ← steps, steps_ofRoute hroute]
  rfl

theorem isStep_of_mem_route (ups : Nat) {names : List Text} (hnames : ∀ n ∈ names, IsOrdinary n) :
    ∀ c ∈ List.replicate ups Component.parent ++ names.map .name, IsStep c := by
  intro c hc
  rcases List.mem_append.1 hc with hup | hname
  · rw [List.eq_of_mem_replicate hup]
    exact .parent
  · obtain ⟨n, hn, rfl⟩ := List.mem_map.1 hname
    exact .name (hnames n hn)

theorem climbFrom_names (depth : Nat) (names : List Text) :
    climbFrom depth (names.map .name) = 0 := by
  induction names generalizing depth with
  | nil => rfl
  | cons n names ih => exact ih (depth + 1)

theorem climbFrom_replicate_append (ups : Nat) (names : List Text) :
    climbFrom 0 (List.replicate ups .parent ++ names.map .name) = ups := by
  induction ups with
  | zero => exact climbFrom_names 0 names
  | succ ups ih => exact congrArg (· + 1) ih

theorem foldl_follow_names (names stack : List Text) :
    (names.map Component.name).foldl follow stack = names.reverse ++ stack := by
  induction names generalizing stack with
  | nil => rfl
  | cons n names ih =>
    rw [List.map_cons, List.foldl_cons, follow, ih, List.reverse_cons, List.append_assoc]
    rfl

theorem foldl_follow_replicate (ups : Nat) :
    (List.replicate ups Component.parent).foldl follow [] = [] := by
  induction ups with
  | zero => rfl
  | succ ups ih => exact ih

/-- A route that goes up and then down, as it is written. -/
theorem ofRoute_eq (ups : Nat) (names : List Text) :
    ofRoute (List.replicate ups .parent ++ names.map .name) =
      if ups = 0 ∧ names = [] then ⟨['.']⟩
      else ⟨Text.join '/' (List.replicate ups ['.', '.'] ++ names)⟩ := by
  have htexts : (List.replicate ups Component.parent ++ names.map Component.name).map
      Component.text = List.replicate ups ['.', '.'] ++ names := by
    rw [List.map_append, List.map_replicate, List.map_map]
    exact congrArg _ (List.map_id names)
  rw [ofRoute, htexts]
  simp only [List.append_eq_nil_iff, List.replicate_eq_nil_iff, List.map_eq_nil_iff]

/-- What a relative path does: it goes up past the names that only the base has, and further by the
difference of the climbs, and then down along the names that only the goal has. -/
theorem exists_relativeTo (h : goal.isAbsolute = base.isAbsolute) :
    ∃ common left right, base.resolved = common ++ left ∧ goal.resolved = common ++ right ∧
      (base.climb ≠ goal.climb → common = []) ∧
      (goal.relativeTo base).isAbsolute = false ∧ (goal.relativeTo base).resolved = right ∧
      (goal.relativeTo base).climb = left.length + climbGap base goal := by
  obtain ⟨common, left, right, hbase, hgoal, hcommon, hordinary, hroute⟩ := exists_route_eq h
  refine ⟨common, left, right, hbase, hgoal, hcommon, ?_⟩
  rw [relativeTo, if_pos h, hroute]
  have hstep := isStep_of_mem_route (left.length + climbGap base goal) hordinary
  refine ⟨isAbsolute_ofRoute hstep, ?_, ?_⟩
  · rw [resolved_eq, steps_ofRoute hstep, List.foldl_append, foldl_follow_replicate,
      foldl_follow_names, List.append_nil, List.reverse_reverse]
  · rw [climb_eq, steps_ofRoute hstep, climbFrom_replicate_append]

/-! ### Where a relative path leads -/

/-- Between absolute paths the relative path leads from the base to the goal. -/
theorem resolved_join_relativeTo (hgoal : goal.isAbsolute = true) (hbase : base.isAbsolute = true) :
    (base.join (goal.relativeTo base)).resolved = goal.resolved := by
  obtain ⟨common, left, right, hleft, hright, hcommon, hrelative, hnames, hclimb⟩ :=
    exists_relativeTo (hgoal.trans hbase.symm)
  rw [resolved_join base hrelative, hnames, hclimb, hleft, List.rdrop_append_length_add, hright]
  by_cases hclimbs : base.climb = goal.climb
  · rw [climbGap_of_eq hclimbs, List.rdrop_zero]
  · -- No name is shared, so that one is back at the root before any `..` is too many.
    rw [hcommon hclimbs, List.rdrop_nil]

/-- **A relative path leads from its base to its goal**, if both are absolute: the base with the
relative path behind it leads to the same names. And it is a dot, or a number of `..` and ordinary
names behind them. -/
theorem relativeTo_leads_to_goal (goal base : Path) (hgoal : goal.isAbsolute = true)
    (hbase : base.isAbsolute = true) :
    (base.join (goal.relativeTo base)).resolved = goal.resolved ∧
      (goal.relativeTo base = ⟨['.']⟩ ∨
        ∃ ups names, (∀ n ∈ names, IsOrdinary n) ∧ (0 < ups ∨ names ≠ []) ∧
          goal.relativeTo base =
            ⟨Text.join '/' (List.replicate ups ['.', '.'] ++ names)⟩) := by
  refine ⟨resolved_join_relativeTo hgoal hbase, ?_⟩
  have hsame : goal.isAbsolute = base.isAbsolute := hgoal.trans hbase.symm
  obtain ⟨common, left, right, -, -, -, hordinary, hroute⟩ := exists_route_eq hsame
  rw [relativeTo, if_pos hsame, hroute, ofRoute_eq]
  split_ifs with hstay
  · exact .inl rfl
  · refine .inr ⟨_, right, hordinary, ?_, rfl⟩
    rcases Nat.eq_zero_or_pos _ with hzero | hpos
    · exact .inr fun hnil => hstay ⟨hzero, hnil⟩
    · exact .inl hpos

/-- The goal climbs above the root, and both paths have detours. -/
theorem relativeTo_leads_to_goal_above_root :
    let goal := ofString "/../p/./a//x/../b"
    let base := ofString "/p/../p/lib"
    (goal.isAbsolute = true ∧ base.isAbsolute = true) ∧
      goal.relativeTo base = ofString "../../../p/a/b" ∧
      (base.join (goal.relativeTo base)).resolved = goal.resolved :=
  ⟨⟨rfl, rfl⟩, by decide, (relativeTo_leads_to_goal _ _ rfl rfl).1⟩

/-- **Between relative paths** that are taken from one directory, with enough names above it for
the base, the relative path leads to the goal exactly if the base does not climb higher than the
goal does. -/
theorem relativeTo_of_relative_iff (goal base directory : Path) (hgoal : goal.isAbsolute = false)
    (hbase : base.isAbsolute = false) (hdeep : (directory.join base).climb = 0) :
    ((directory.join base).join (goal.relativeTo base)).resolved = (directory.join goal).resolved ↔
      base.climb ≤ goal.climb := by
  obtain ⟨common, left, right, hleft, hright, hcommon, hrelative, hnames, hclimb⟩ :=
    exists_relativeTo (hgoal.trans hbase.symm)
  have hdepth : base.climb ≤ directory.resolved.length := by
    rw [climb_join directory hbase] at hdeep
    omega
  have hfrom : ((directory.join base).join (goal.relativeTo base)).resolved =
      (directory.resolved.rdrop base.climb ++ common).rdrop (climbGap base goal) ++ right := by
    rw [resolved_join _ hrelative, hnames, hclimb, resolved_join directory hbase, hleft,
      ← List.append_assoc, List.rdrop_append_length_add]
  have hto : (directory.join goal).resolved =
      directory.resolved.rdrop goal.climb ++ (common ++ right) := by
    rw [resolved_join directory hgoal, hright]
  rw [hfrom, hto]
  constructor
  · -- If the base climbs higher, the difference is climbed twice, and names get lost.
    intro heq
    by_contra hhigher
    have hlength := congrArg List.length heq
    rw [hcommon (by omega)] at hlength
    simp only [List.rdrop, List.append_nil, List.nil_append, List.length_append,
      List.length_take, climbGap] at hlength
    omega
  · intro hle
    by_cases hclimbs : base.climb = goal.climb
    · rw [climbGap_of_eq hclimbs, List.rdrop_zero, hclimbs, List.append_assoc]
    · have hgap : base.climb + climbGap base goal = goal.climb := by
        unfold climbGap
        omega
      rw [hcommon hclimbs, List.append_nil, List.rdrop_add, hgap, List.nil_append]

/-- A base that climbs once, and a goal that climbs twice. -/
theorem relativeTo_of_relative_iff_beside :
    let goal := ofString "x/../../../a"
    let base := ofString "../b"
    let directory := ofString "/d/e/f"
    (goal.isAbsolute = false ∧ base.isAbsolute = false ∧ (directory.join base).climb = 0) ∧
      goal.relativeTo base = ofString "../../a" ∧
      ((directory.join base).join (goal.relativeTo base)).resolved =
        (directory.join goal).resolved :=
  ⟨⟨rfl, rfl, rfl⟩, by decide, (relativeTo_of_relative_iff _ _ _ rfl rfl rfl).2 (by decide)⟩

/-- From `..` the way to `a` is said to be `../a`. In `/d/e` that leads from `/d` to `/a`, and not
to `/d/e/a`, although nothing climbs above the root. -/
theorem base_climbs_higher :
    ¬ ∀ goal base directory : Path, goal.isAbsolute = false → base.isAbsolute = false →
      directory.isAbsolute = true → (directory.join base).climb = 0 →
      (directory.join goal).climb = 0 →
      ((directory.join base).join (goal.relativeTo base)).climb = 0 →
      ((directory.join base).join (goal.relativeTo base)).resolved =
        (directory.join goal).resolved := by
  intro h
  have hsame := h (ofString "a") (ofString "..") (ofString "/d/e") rfl rfl rfl rfl rfl (by decide)
  revert hsame
  decide

end SketchBuild.Path
