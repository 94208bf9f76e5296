import SketchBuild.Proofs.Depfile.Rules

/-!
# Library directories and their names

The name of a directory is taken apart into the name and the version of a library, and the stamp of
the library puts the two together again.

* `IsVersion`: what can stand behind the last dash as a version.
* `splitVersion?_append`, `eq_of_splitVersion?`: there is one way to take a text apart.
* `stemOf`: what a stamp is called after.

Nothing is lost, so that different directories hold different libraries (`ofDirectoryName_exact`).
-/

namespace SketchBuild.LibraryId

variable {directory name version t : Text}

/-- Somewhere in the text a dash stands before one of the digits `0` to `9`. -/
def MarksVersion (t : Text) : Prop :=
  ∃ before digit after, t = before ++ '-' :: digit :: after ∧ digit.isDigit = true

theorem startsWithDigit_iff :
    startsWithDigit t = true ↔ ∃ digit rest, t = digit :: rest ∧ digit.isDigit = true := by
  cases t with
  | nil => simp [startsWithDigit]
  | cons c t => simp [startsWithDigit]

theorem marksVersion_append (before : Text) (h : startsWithDigit t = true) :
    MarksVersion (before ++ '-' :: t) := by
  obtain ⟨digit, rest, rfl, hdigit⟩ := startsWithDigit_iff.1 h
  exact ⟨before, digit, rest, rfl, hdigit⟩

theorem marksVersion_cons {c : Char} :
    MarksVersion (c :: t) ↔ (c = '-' ∧ startsWithDigit t = true) ∨ MarksVersion t := by
  constructor
  · rintro ⟨before, digit, after, heq, hdigit⟩
    cases before with
    | nil =>
      obtain ⟨rfl, rfl⟩ := List.cons.inj heq
      exact .inl ⟨rfl, hdigit⟩
    | cons d before => exact .inr ⟨before, digit, after, (List.cons.inj heq).2, hdigit⟩
  · rintro (⟨rfl, hdigit⟩ | ⟨before, digit, after, rfl, hdigit⟩)
    · exact marksVersion_append [] hdigit
    · exact ⟨c :: before, digit, after, rfl, hdigit⟩

/-- The text starts with a digit, and no dash in it stands before another one. -/
structure IsVersion (version : Text) : Prop where
  digit : startsWithDigit version = true
  last : ¬ MarksVersion version

theorem IsVersion.ne_nil (h : IsVersion version) : version ≠ [] := by
  rintro rfl
  exact Bool.false_ne_true h.digit

/-! ### Taking apart -/

theorem splitVersion?_eq_none_iff : splitVersion? t = none ↔ ¬ MarksVersion t := by
  induction t with
  | nil =>
    refine iff_of_true rfl ?_
    rintro ⟨before, digit, after, heq, -⟩
    simp at heq
  | cons c t ih =>
    rw [splitVersion?, marksVersion_cons, not_or]
    cases hsplit : splitVersion? t with
    | none =>
      rw [hsplit] at ih
      simpa using fun _ => ih.1 rfl
    | some parts =>
      rw [hsplit] at ih
      simpa using fun _ => ih

theorem splitVersion?_append (name : Text) (h : IsVersion version) :
    splitVersion? (name ++ '-' :: version) = some (name, version) := by
  induction name with
  | nil =>
    rw [List.nil_append, splitVersion?, splitVersion?_eq_none_iff.2 h.last]
    exact if_pos ⟨rfl, h.digit⟩
  | cons c name ih => rw [List.cons_append, splitVersion?, ih]

theorem eq_of_splitVersion? (h : splitVersion? t = some (name, version)) :
    t = name ++ '-' :: version ∧ IsVersion version := by
  induction t generalizing name with
  | nil => cases h
  | cons c t ih =>
    rw [splitVersion?] at h
    split at h
    · next front back hsplit =>
      cases h
      obtain ⟨rfl, hversion⟩ := ih hsplit
      exact ⟨rfl, hversion⟩
    · next hsplit =>
      split_ifs at h with hmark
      cases h
      obtain ⟨rfl, hdigit⟩ := hmark
      exact ⟨rfl, hdigit, splitVersion?_eq_none_iff.1 hsplit⟩

/-- The name of a directory has a version at its end, or none at all. -/
theorem cases_ofDirectoryName (h : ofDirectoryName directory = ⟨name, version⟩) :
    (name ≠ [] ∧ directory = name ++ '-' :: version ∧ IsVersion version) ∨
      (version = [] ∧ name = directory ∧ ¬ MarksVersion directory.tail) := by
  unfold ofDirectoryName at h
  split at h
  · next c front back hsplit =>
    cases h
    exact .inl ⟨List.cons_ne_nil c front, eq_of_splitVersion? hsplit⟩
  · next hsplit =>
    cases h
    refine .inr ⟨rfl, rfl, fun hmarks => ?_⟩
    -- A mark behind the first character would have something before it for a name.
    cases directory with
    | nil => exact splitVersion?_eq_none_iff.1 rfl hmarks
    | cons c rest =>
      cases htail : splitVersion? rest with
      | none => exact splitVersion?_eq_none_iff.1 htail hmarks
      | some parts => exact hsplit c parts.1 parts.2 (by rw [splitVersion?, htail])

theorem ofDirectoryName_append (hname : name ≠ []) (h : IsVersion version) :
    ofDirectoryName (name ++ '-' :: version) = ⟨name, version⟩ := by
  obtain ⟨c, rest, rfl⟩ := List.exists_cons_of_ne_nil hname
  rw [ofDirectoryName, splitVersion?_append _ h]

/-- The name of the directory can be put together again. -/
theorem eq_of_ofDirectoryName (h : ofDirectoryName directory = ⟨name, version⟩) :
    directory = name ++ if version = [] then [] else '-' :: version := by
  rcases cases_ofDirectoryName h with ⟨-, rfl, hversion⟩ | ⟨rfl, rfl, -⟩
  · rw [if_neg hversion.ne_nil]
  · rw [if_pos rfl, List.append_nil]

theorem ofDirectoryName_injective : Function.Injective ofDirectoryName := by
  intro d e h
  cases hid : ofDirectoryName e with
  | mk name version =>
    rw [hid] at h
    rw [eq_of_ofDirectoryName h, eq_of_ofDirectoryName hid]

end SketchBuild.LibraryId

namespace SketchBuild.Depfile

/-! ### Stamps -/

/-- What the stamp of the library in a directory is called after: the directory, and the configured
version where the directory has none. -/
def stemOf (library : Library) (directory : Text) : Text :=
  if (LibraryId.ofDirectoryName directory).version = [] ∧ library.version ≠ [] then
    directory ++ '-' :: library.version
  else directory

theorem stemOf_eq (library : Library) {directory name given : Text}
    (h : LibraryId.ofDirectoryName directory = ⟨name, given⟩) :
    stemOf library directory = name ++
      if effectiveVersion library ⟨name, given⟩ = [] then []
      else '-' :: effectiveVersion library ⟨name, given⟩ := by
  rw [stemOf, h, effectiveVersion, LibraryId.eq_of_ofDirectoryName h]
  by_cases hgiven : given = []
  · by_cases hversion : library.version = []
    · simp [hgiven, hversion]
    · simp [hgiven, hversion]
  · simp [hgiven]

/-- The stamp rule of a library names the directory that it is in. -/
theorem stampRule_ofDirectoryName (target : Text) (library : Library) {directory : Text}
    {id : LibraryId} (h : LibraryId.ofDirectoryName directory = id) :
    stampRule target id.name (effectiveVersion library id) =
      target ++ " : ".toList ++ stemOf library directory ++ ".alib\n".toList := by
  rw [stampRule_eq, stemOf_eq library h]
  simp only [List.append_assoc]

variable {target : Text} {libraries : List (Text × Library)} {rules : List Text}

/-- Every configured library in use has its stamp rule, and there are no others. -/
theorem mem_rules_of_stamps {uses : LibraryId → Prop} (h : Stamps target uses libraries rules)
    {rule : Text} :
    rule ∈ rules ↔ ∃ name given library, (name, library) ∈ libraries ∧ uses ⟨name, given⟩ ∧
      rule = stampRule target name (effectiveVersion library ⟨name, given⟩) := by
  induction h with
  | nil => simp
  | unused hunused _ ih =>
    rw [ih]
    constructor
    · rintro ⟨name, given, library, hlibrary, hrule⟩
      exact ⟨name, given, library, List.mem_cons_of_mem _ hlibrary, hrule⟩
    · rintro ⟨name, given, library, hlibrary, huses, hrule⟩
      rcases List.mem_cons.1 hlibrary with heq | hlibrary
      · cases heq
        exact absurd huses (hunused given)
      · exact ⟨name, given, library, hlibrary, huses, hrule⟩
  | @used name version library _ _ hused hversion _ ih =>
    have heffective : ∀ given, uses ⟨name, given⟩ →
        effectiveVersion library ⟨name, given⟩ = version :=
      fun given huses => (hversion given huses).symm
    rw [List.mem_cons, ih, ← stampRule_eq]
    constructor
    · rintro (rfl | ⟨name', given, library', hlibrary, hrule⟩)
      · obtain ⟨given, huses⟩ := hused
        exact ⟨name, given, library, List.mem_cons_self, huses, by rw [heffective given huses]⟩
      · exact ⟨name', given, library', List.mem_cons_of_mem _ hlibrary, hrule⟩
    · rintro ⟨name', given, library', hlibrary, huses, hrule⟩
      rcases List.mem_cons.1 hlibrary with heq | hlibrary
      · cases heq
        exact .inl (by rw [hrule, heffective given huses])
      · exact .inr ⟨name', given, library', hlibrary, huses, hrule⟩

/-- A stamp is called after a directory in use. -/
theorem mem_stampRules {directories : List Text}
    (h : stampRules target (directories.map .ofDirectoryName) libraries = .ok rules)
    (rule : Text) :
    rule ∈ rules ↔ ∃ directory ∈ directories, ∃ library,
      ((LibraryId.ofDirectoryName directory).name, library) ∈ libraries ∧
        rule = target ++ " : ".toList ++ stemOf library directory ++ ".alib\n".toList := by
  rw [mem_rules_of_stamps (stamps_of_stampRules h)]
  constructor
  · rintro ⟨name, given, library, hlibrary, huses, rfl⟩
    obtain ⟨directory, hdirectory, hid⟩ := List.mem_map.1 huses
    exact ⟨directory, hdirectory, library, by rwa [hid],
      stampRule_ofDirectoryName target library hid⟩
  · rintro ⟨directory, hdirectory, library, hlibrary, rfl⟩
    exact ⟨_, _, library, hlibrary, List.mem_map_of_mem hdirectory,
      (stampRule_ofDirectoryName target library rfl).symm⟩

end SketchBuild.Depfile

namespace SketchBuild.LibraryId

/-- **The name of a library directory and the library in it determine each other.**

* Where there is a version, the directory is called by name and version with a dash between them.
  The version is what follows the last dash before a digit. Without a version the directory is
  called by the name alone, and there is no such dash but possibly as its first character.
* Every name that is not empty and every version are found again.
* Different directories hold different libraries.
* A stamp is called after a directory in use. Only where the directory has no version and the
  library is configured with one, that version is added. -/
theorem ofDirectoryName_exact :
    (∀ directory name version, ofDirectoryName directory = ⟨name, version⟩ →
      (version ≠ [] → name ≠ [] ∧ directory = name ++ '-' :: version ∧
        startsWithDigit version = true ∧ ¬ MarksVersion version) ∧
      (version = [] → name = directory ∧ ¬ MarksVersion directory.tail)) ∧
    (∀ name version, name ≠ [] → startsWithDigit version = true → ¬ MarksVersion version →
      ofDirectoryName (name ++ '-' :: version) = ⟨name, version⟩) ∧
    Function.Injective ofDirectoryName ∧
    ∀ (target : Text) (directories : List Text) (libraries : List (Text × Library))
      (rules : List Text),
      Depfile.stampRules target (directories.map ofDirectoryName) libraries = .ok rules →
      ∀ rule, rule ∈ rules ↔ ∃ directory ∈ directories, ∃ library,
        ((ofDirectoryName directory).name, library) ∈ libraries ∧
          rule = target ++ " : ".toList ++ Depfile.stemOf library directory
            ++ ".alib\n".toList := by
  refine ⟨fun directory name version h => ?_,
    fun name version hname hdigit hlast => ofDirectoryName_append hname ⟨hdigit, hlast⟩,
    ofDirectoryName_injective, fun _ _ _ _ h => Depfile.mem_stampRules h⟩
  rcases cases_ofDirectoryName h with ⟨hname, hdirectory, hversion⟩ | ⟨hversion, hname, hmarks⟩
  · exact ⟨fun _ => ⟨hname, hdirectory, hversion.digit, hversion.last⟩,
      fun hnil => absurd hnil hversion.ne_nil⟩
  · exact ⟨fun hne => absurd hversion hne, fun _ => ⟨hname, hmarks⟩⟩

/-- A name and a version with dashes and digits in both, next to a directory without a version. -/
theorem ofDirectoryName_exact_dashes :
    let name := "A-1--b".toList
    let version := "2.0-rc1".toList
    let directories := [name ++ '-' :: version, "B-x".toList]
    let libraries : List (Text × Library) :=
      [(name, { version := "3".toList }), ("B-x".toList, { version := "4".toList })]
    let rules := ["a.o : A-1--b-2.0-rc1.alib\n".toList, "a.o : B-x-4.alib\n".toList]
    (name ≠ [] ∧ startsWithDigit version = true ∧ ¬ MarksVersion version ∧
        Depfile.stampRules "a.o".toList (directories.map ofDirectoryName) libraries = .ok rules) ∧
      ofDirectoryName (name ++ '-' :: version) = ⟨name, version⟩ ∧
      ∃ directory ∈ directories, ∃ library,
        ((ofDirectoryName directory).name, library) ∈ libraries ∧
          "a.o : B-x-4.alib\n".toList = "a.o".toList ++ " : ".toList
            ++ Depfile.stemOf library directory ++ ".alib\n".toList := by
  intro name version directories libraries rules
  have hlast : ¬ MarksVersion version := splitVersion?_eq_none_iff.1 (by decide)
  have hrules : Depfile.stampRules "a.o".toList (directories.map ofDirectoryName) libraries =
      .ok rules := by decide +kernel
  obtain ⟨-, hfound, -, hstamps⟩ := ofDirectoryName_exact
  exact ⟨⟨by decide, by decide, hlast, hrules⟩, hfound name version (by decide) (by decide) hlast,
    (hstamps _ _ _ _ hrules _).1 (by decide)⟩

end SketchBuild.LibraryId
