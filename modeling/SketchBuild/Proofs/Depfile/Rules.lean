import SketchBuild.Build.Dependencies
import SketchBuild.Host.Workspace
import SketchBuild.Proofs.Depfile.Reading

/-!
# The rules in an augmented dependency file

What augmentation adds to a dependency file, as a relation between the content and the result.

* `Stamps`: the stamp rules of a target, library by library.
* `Lists`: the registry as a list in ascending order of names.
* `IsAugmented`: the whole result.

Augmentation gives a result exactly if there is one by these rules, and gives that one
(`augment_eq_ok_iff`). In a workspace, the directory of a header is the one that really holds it
(`run_augmentHere`).
-/

namespace SketchBuild

/-- What the host is asked for is at hand for the rest of an action. -/
theorem Action.run_lift_bind {α β : Type} (request : Session α) (next : α → Action Session β)
    (w : Workspace) :
    (ExceptT.lift request >>= next : Action Session β).run.run w =
      (next (request.run w).1).run.run (request.run w).2 := rfl

namespace Depfile

/-! ### Versions in use -/

theorem nodup_eraseDups (texts : List Text) : texts.eraseDups.Nodup := by
  -- What is left for the rest of the list is filtered, so the induction is on the length.
  induction hlength : texts.length using Nat.strongRecOn generalizing texts with
  | ind length ih =>
    cases texts with
    | nil => exact List.Pairwise.nil
    | cons text texts =>
      rw [List.eraseDups_cons, List.nodup_cons, List.mem_eraseDups]
      refine ⟨by simp, ih _ ?_ _ rfl⟩
      rw [← hlength]
      exact Nat.lt_succ_of_le (List.length_filter_le _ _)

variable {used : List LibraryId} {name version : Text} {library : Library}

theorem nodup_versions : (versions used name library).Nodup :=
  nodup_eraseDups _

theorem mem_versions : version ∈ versions used name library ↔
    ∃ given, ⟨name, given⟩ ∈ used ∧ effectiveVersion library ⟨name, given⟩ = version := by
  rw [versions, List.mem_eraseDups, List.mem_map]
  constructor
  · rintro ⟨⟨_, given⟩, hmem, rfl⟩
    obtain ⟨hused, hname⟩ := List.mem_filter.1 hmem
    obtain rfl := of_decide_eq_true hname
    exact ⟨given, hused, rfl⟩
  · rintro ⟨given, hmem, rfl⟩
    exact ⟨⟨name, given⟩, List.mem_filter.2 ⟨hmem, by simp⟩, rfl⟩

theorem versions_eq_nil_iff :
    versions used name library = [] ↔ ∀ given, ⟨name, given⟩ ∉ used := by
  rw [List.eq_nil_iff_forall_not_mem]
  constructor
  · intro h given hgiven
    exact h _ (mem_versions.2 ⟨given, hgiven, rfl⟩)
  · intro h version hversion
    obtain ⟨given, hgiven, -⟩ := mem_versions.1 hversion
    exact h given hgiven

/-- There is one version in use if all directories of the library stand for the same. -/
theorem versions_eq_singleton_iff :
    versions used name library = [version] ↔ (∃ given, ⟨name, given⟩ ∈ used) ∧
      ∀ given, ⟨name, given⟩ ∈ used → effectiveVersion library ⟨name, given⟩ = version := by
  constructor
  · intro h
    have hmem : ∀ other, other ∈ versions used name library ↔ other = version := by simp [h]
    obtain ⟨given, hgiven, -⟩ := mem_versions.1 ((hmem version).2 rfl)
    exact ⟨⟨given, hgiven⟩, fun _ hother => (hmem _).1 (mem_versions.2 ⟨_, hother, rfl⟩)⟩
  · rintro ⟨⟨given, hgiven⟩, hall⟩
    have hperm : (versions used name library).Perm [version] := by
      refine (List.perm_ext_iff_of_nodup nodup_versions (by simp)).2 fun other => ?_
      rw [mem_versions, List.mem_singleton]
      constructor
      · rintro ⟨given, hgiven, rfl⟩
        exact hall given hgiven
      · rintro rfl
        exact ⟨given, hgiven, hall given hgiven⟩
    exact List.perm_singleton.1 hperm

/-! ### Stamp rules -/

/-- The stamp rules of a target that uses certain libraries, given the configured ones: one for
each that is used, in the version that all of its directories stand for. -/
inductive Stamps (target : Text) (uses : LibraryId → Prop) :
    List (Text × Library) → List Text → Prop
  | nil : Stamps target uses [] []
  | unused {name : Text} {library : Library} {libraries : List (Text × Library)}
      {rules : List Text} (h : ∀ given, ¬ uses ⟨name, given⟩)
      (others : Stamps target uses libraries rules) :
      Stamps target uses ((name, library) :: libraries) rules
  | used {name version : Text} {library : Library} {libraries : List (Text × Library)}
      {rules : List Text} (h : ∃ given, uses ⟨name, given⟩)
      (hversion : ∀ given, uses ⟨name, given⟩ →
        version = if given = [] then library.version else given)
      (others : Stamps target uses libraries rules) :
      Stamps target uses ((name, library) :: libraries)
        ((target ++ " : ".toList ++ name ++ (if version = [] then [] else '-' :: version)
          ++ ".alib\n".toList) :: rules)

theorem stampRule_eq (target name version : Text) :
    stampRule target name version =
      target ++ " : ".toList ++ name ++ (if version = [] then [] else '-' :: version)
        ++ ".alib\n".toList := by
  rw [stampRule, stamp]
  split <;> simp

theorem stampRules_of_stamps {target : Text} {libraries : List (Text × Library)}
    {rules : List Text} (h : Stamps target (· ∈ used) libraries rules) :
    stampRules target used libraries = .ok rules := by
  induction h with
  | nil => rfl
  | unused h _ ih => rw [stampRules, versions_eq_nil_iff.2 h, ih]
  | @used _ version library _ _ h hversion _ ih =>
    have hone := versions_eq_singleton_iff.2 ⟨h, fun given hgiven => (hversion given hgiven).symm⟩
    rw [stampRules, hone, ih, ← stampRule_eq]
    rfl

theorem stamps_of_stampRules {target : Text} {libraries : List (Text × Library)}
    {rules : List Text} (h : stampRules target used libraries = .ok rules) :
    Stamps target (· ∈ used) libraries rules := by
  induction libraries generalizing rules with
  | nil =>
    cases h
    exact .nil
  | cons entry libraries ih =>
    obtain ⟨name, library⟩ := entry
    rw [stampRules] at h
    split at h
    · next hversions => exact .unused (versions_eq_nil_iff.1 hversions) (ih h)
    · next version hversions =>
      obtain ⟨hused, hversion⟩ := versions_eq_singleton_iff.1 hversions
      cases hrules : stampRules target used libraries with
      | error conflict =>
        rw [hrules] at h
        cases h
      | ok others =>
        rw [hrules] at h
        cases h
        rw [stampRule_eq]
        exact .used hused (fun given hgiven => (hversion given hgiven).symm) (ih hrules)
    · -- Several versions are a conflict.
      cases h

/-- The list has the libraries of the registry, in ascending order of names. -/
def Lists (registry : Registry) (libraries : List (Text × Library)) : Prop :=
  libraries.Pairwise (·.1 < ·.1) ∧
    ∀ name library, (name, library) ∈ libraries ↔ registry[name]? = some library

theorem lists_toList (registry : Registry) : Lists registry registry.toList :=
  ⟨Std.ExtTreeMap.ordered_keys_toList.imp Text.compare_eq_lt_iff.1,
    fun _ _ => Std.ExtTreeMap.mem_toList_iff_getElem?_eq_some⟩

theorem Lists.eq_toList {registry : Registry} {libraries : List (Text × Library)}
    (h : Lists registry libraries) : libraries = registry.toList := by
  -- Two lists with the same entries in strictly ascending order are the same list.
  have hnodup : ∀ {list : List (Text × Library)}, list.Pairwise (·.1 < ·.1) → list.Nodup :=
    fun hlist => hlist.imp fun hlt heq => absurd (heq ▸ hlt) (List.lt_irrefl _)
  have hasymm : ∀ a b : Text × Library, a.1 < b.1 → b.1 < a.1 → a = b :=
    fun _ _ hab hba => absurd hba (List.lt_asymm hab)
  have hregistry := lists_toList registry
  have hperm := (List.perm_ext_iff_of_nodup (hnodup h.1) (hnodup hregistry.1)).2
    fun entry => (h.2 entry.1 entry.2).trans (hregistry.2 entry.1 entry.2).symm
  exact hperm.eq_of_pairwise (fun a b _ _ => hasymm a b) h.1 hregistry.1

/-! ### The whole result -/

/-- A header among the items lies in a directory of the given library. -/
def Uses (directoryOf : Text → Text) (items : List Text) (id : LibraryId) : Prop :=
  ∃ item ∈ items, ".h".toList <:+ item ∧ LibraryId.ofDirectoryName (directoryOf item) = id

/-- The stamp rules of a dependency file: without a target there are none. -/
inductive HasStamps (registry : Registry) (uses : LibraryId → Prop) :
    Option Text → List Text → Prop
  | absent : HasStamps registry uses none []
  | found {target : Text} {libraries : List (Text × Library)} {rules : List Text}
      (hlibraries : Lists registry libraries) (h : Stamps target uses libraries rules) :
      HasStamps registry uses (some target) rules

/-- A text consists of the content of a dependency file, an empty rule for every item and the stamp
rules of the target. -/
structure IsAugmented (registry : Registry) (directoryOf : Text → Text) (content : Text)
    (target? : Option Text) (items rules : List Text) (augmented : Text) : Prop where
  reads : Reads content target? items
  /-- The rule of an item is one line. -/
  item_one_line : ∀ item ∈ items, item ≠ [] ∧ '\n' ∉ item
  stamps : HasStamps registry (Uses directoryOf items) target? rules
  text : augmented = content ++ (if content = [] ∨ content.getLast? = some '\n' then [] else ['\n'])
    ++ items.flatMap (· ++ ":\n".toList) ++ rules.flatten

/-- The libraries that the headers of a dependency file belong to. -/
def usedIn (directoryOf : Text → Text) (content : Text) : List LibraryId :=
  (read content).headers.map fun header => .ofDirectoryName (directoryOf header)

theorem mem_usedIn {directoryOf : Text → Text} {content : Text} {id : LibraryId} :
    id ∈ usedIn directoryOf content ↔ Uses directoryOf (read content).items id := by
  simp only [usedIn, headers, Uses, List.mem_map, List.mem_filter, List.isSuffixOf_iff_suffix,
    and_assoc]

theorem closed_eq (content : Text) : closed content =
    content ++ (if content = [] ∨ content.getLast? = some '\n' then [] else ['\n']) := by
  rw [closed]
  split <;> simp

theorem augment_eq_ok {registry : Registry} {content augmented : Text} :
    augment registry used content = .ok augmented ↔
      ∃ rules, HasStamps registry (· ∈ used) (read content).target? rules ∧
        augmented = closed content ++ (read content).items.flatMap phonyRule ++ rules.flatten := by
  rw [augment]
  cases (read content).target? with
  | none =>
    constructor
    · intro h
      exact ⟨[], .absent, (Except.ok.inj h).symm⟩
    · rintro ⟨_, ⟨⟩, rfl⟩
      rfl
  | some target =>
    dsimp only
    constructor
    · intro h
      cases hrules : stampRules target used registry.toList with
      | error conflict =>
        rw [hrules] at h
        cases h
      | ok rules =>
        rw [hrules] at h
        exact ⟨rules, .found (lists_toList registry) (stamps_of_stampRules hrules),
          (Except.ok.inj h).symm⟩
    · rintro ⟨rules, hstamps, rfl⟩
      cases hstamps with
      | found hlibraries hstamps =>
        rw [hlibraries.eq_toList] at hstamps
        rw [stampRules_of_stamps hstamps]
        rfl

/-- Augmentation gives a result exactly if the rules give one, and then it is that one. -/
theorem augment_eq_ok_iff {registry : Registry} {directoryOf : Text → Text}
    {content augmented : Text} :
    augment registry (usedIn directoryOf content) content = .ok augmented ↔
      ∃ target? items rules,
        IsAugmented registry directoryOf content target? items rules augmented := by
  have huses : (· ∈ usedIn directoryOf content) = Uses directoryOf (read content).items :=
    funext fun _ => propext mem_usedIn
  rw [augment_eq_ok, huses, closed_eq]
  constructor
  · rintro ⟨rules, hstamps, htext⟩
    have hreads : Reads content (read content).target? (read content).items := reads_iff.2 rfl
    exact ⟨_, _, rules, hreads, fun _ => hreads.item, hstamps, htext⟩
  · rintro ⟨target?, items, rules, hreads, -, hstamps, htext⟩
    rw [reads_iff.1 hreads]
    exact ⟨rules, hstamps, htext⟩

/-! ### In a workspace -/

/-- The name of the directory that really holds a header, links followed. -/
def directoryIn (w : Workspace) (header : Text) : Text :=
  directoryName ((w.tree.canonical? w.current ⟨header⟩).getD ⟨header⟩)

theorem run_mapM_libraryOf (headers : List Text) (w : Workspace) :
    (headers.mapM libraryOf : Session _).run w =
      (headers.map fun header => .ofDirectoryName (directoryIn w header), w) := by
  induction headers with
  | nil => rfl
  | cons header headers ih =>
    calc ((header :: headers).mapM libraryOf : Session _).run w
        = (((headers.mapM libraryOf : Session _).run w).1.cons
            (.ofDirectoryName (directoryIn w header)),
            ((headers.mapM libraryOf : Session _).run w).2) := by
          rw [List.mapM_cons]
          rfl
      _ = _ := by
          rw [ih]
          rfl

/-- In a workspace nothing changes but the events. -/
theorem run_augmentHere (registry : Registry) (content : Text) (w : Workspace) :
    (augmentHere registry content : Action Session Text).run.run w =
      ((augment registry (usedIn (directoryIn w) content) content).mapError .versionConflict,
        if (read content).target? = none ∧ usedIn (directoryIn w) content ≠ [] then
          { w with events := w.events ++ [.targetMissing] }
        else w) := by
  rw [augmentHere, Action.run_lift_bind, run_mapM_libraryOf, ← usedIn]
  dsimp only
  cases augment registry (usedIn (directoryIn w) content) content with
  | ok augmented =>
    split_ifs
    · rfl
    · rfl
  | error conflict =>
    split_ifs
    · rfl
    · rfl

/-- **Augmentation follows its rules and nothing else.** The result is the content, one line for
every item and the stamp rules of the libraries in use, whatever directories the headers lie in and
so in every workspace. Where the rules give no result, because headers of one configured library
lie in directories that stand for different versions, there is none. -/
theorem augment_follows_rules (registry : Registry) (content : Text) :
    (∀ (directoryOf : Text → Text) (augmented : Text),
      augment registry (usedIn directoryOf content) content = .ok augmented ↔
        ∃ target? items rules,
          IsAugmented registry directoryOf content target? items rules augmented) ∧
    ∀ (w : Workspace) (augmented : Text),
      ((augmentHere registry content : Action Session Text).run.run w).1 = .ok augmented ↔
        ∃ target? items rules,
          IsAugmented registry (directoryIn w) content target? items rules augmented := by
  refine ⟨fun _ _ => augment_eq_ok_iff, fun w augmented => ?_⟩
  rw [run_augmentHere, ← augment_eq_ok_iff]
  cases augment registry (usedIn (directoryIn w) content) content <;> simp [Except.mapError]

example :
    augment (Std.ExtTreeMap.ofList [("Servo".toList, ({ version := "1.2".toList } : Library))])
        [⟨"Servo".toList, []⟩] "a.o: a.c \\\n Servo/Servo.h".toList =
      .ok "a.o: a.c \\\n Servo/Servo.h\na.c:\nServo/Servo.h:\na.o : Servo-1.2.alib\n".toList := by
  decide +kernel

end Depfile

end SketchBuild
