import SketchBuild.Proofs.FileTree.Writing

/-!
# Trees of one shape

The directories and links of a tree are its shape; files hang on it. Paths lead through directories
and links only, so files that come or change do not move the places that paths lead to:

* `walk_of_carries`: a walk that gets somewhere in one tree gets there in the other.
* `locate_congr`: in trees of one shape a path names the same file.
* `read_eq_ok_iff`: what is read under a path is the file where a write would go.
-/

namespace SketchBuild.FileTree

variable {s t tree : FileTree} {location here : Location} {mayCreate : Bool} {piece : Text}
  {rest : List Text} {follow follow' : Location → List Text → Except OsError Location}

/-! ### One name of a walk -/

/-- The walk comes to look up a name in a directory. -/
structure LooksUp (tree : FileTree) (mayCreate : Bool) (here : Location) (piece : Text)
    (rest : List Text) : Prop where
  directory : tree.isDirectoryAt here = true
  not_idle : ¬ Path.isIdle piece = true
  not_parent : piece ≠ ['.', '.']
  not_slash : ¬ (mayCreate = true ∧ rest ≠ [] ∧ rest.all (· = []) = true)
  short : ¬ Text.utf8Length piece > maxNameLength

/-- Only a directory leads on. -/
theorem walkWith_of_not_directory (h : tree.isDirectoryAt here = false) (pieces : List Text) :
    tree.walkWith mayCreate follow here pieces =
      if pieces = [] then .ok here else .error .notDirectory := by
  cases pieces with
  | nil => rfl
  | cons piece rest => simp [walkWith, h]

namespace LooksUp

theorem of_lookup {found : Option FileEntry} (hhere : ¬ (!tree.isDirectoryAt here) = true)
    (hidle : ¬ Path.isIdle piece = true) (hparent : ¬ piece = ['.', '.'])
    (hslash : ¬ (mayCreate = true ∧ rest ≠ [] ∧ rest.all (· = []) = true))
    (hlookup : tree.lookup here piece = .ok found) : LooksUp tree mayCreate here piece rest :=
  ⟨by simpa using hhere, hidle, hparent, hslash, (lookup_eq_ok_iff.1 hlookup).1⟩

theorem walkWith_of_none (h : LooksUp tree mayCreate here piece rest)
    (hget : tree.get? (here ++ [piece]) = none) :
    tree.walkWith mayCreate follow here (piece :: rest) =
      if mayCreate = true ∧ rest = [] then .ok (here ++ [piece]) else .error .noEntry := by
  have hlookup := lookup_eq_ok_iff.2 ⟨h.short, hget⟩
  rw [walkWith, h.directory, if_neg (by simp), if_neg h.not_idle, if_neg h.not_parent,
    if_neg h.not_slash, hlookup]

theorem walkWith_of_link (h : LooksUp tree mayCreate here piece rest) {target : Path}
    (hget : tree.get? (here ++ [piece]) = some (.link target)) :
    tree.walkWith mayCreate follow here (piece :: rest) =
      follow (start here target) (pieces target ++ rest) := by
  have hlookup := lookup_eq_ok_iff.2 ⟨h.short, hget⟩
  rw [walkWith, h.directory, if_neg (by simp), if_neg h.not_idle, if_neg h.not_parent,
    if_neg h.not_slash, hlookup]

theorem walkWith_of_directory (h : LooksUp tree mayCreate here piece rest)
    (hget : tree.get? (here ++ [piece]) = some .directory) :
    tree.walkWith mayCreate follow here (piece :: rest) =
      tree.walkWith mayCreate follow (here ++ [piece]) rest := by
  have hlookup := lookup_eq_ok_iff.2 ⟨h.short, hget⟩
  rw [walkWith, h.directory, if_neg (by simp), if_neg h.not_idle, if_neg h.not_parent,
    if_neg h.not_slash, hlookup]

/-- A file has to be where the walk ends. -/
theorem walkWith_of_file (h : LooksUp tree mayCreate here piece rest) {content : FileContent}
    (hget : tree.get? (here ++ [piece]) = some (.file content)) :
    tree.walkWith mayCreate follow here (piece :: rest) =
      if rest = [] then .ok (here ++ [piece]) else .error .notDirectory := by
  have hlookup := lookup_eq_ok_iff.2 ⟨h.short, hget⟩
  have hfile : tree.isDirectoryAt (here ++ [piece]) = false := by simp [isDirectoryAt, hget]
  rw [walkWith, h.directory, if_neg (by simp), if_neg h.not_idle, if_neg h.not_parent,
    if_neg h.not_slash, hlookup]
  exact walkWith_of_not_directory hfile rest

end LooksUp

/-! ### Free places -/

/-- There is a file at the location, or nothing. -/
def FreeAt (tree : FileTree) (location : Location) : Prop :=
  tree.get? location = none ∨ ∃ content, tree.get? location = some (.file content)

theorem FreeAt.isDirectoryAt (h : tree.FreeAt location) : tree.isDirectoryAt location = false := by
  rcases h with h | ⟨content, h⟩
  · simp [FileTree.isDirectoryAt, h]
  · simp [FileTree.isDirectoryAt, h]

theorem FreeAt.ne_link (h : tree.FreeAt location) (target : Path) :
    tree.get? location ≠ some (.link target) := by
  rcases h with h | ⟨content, h⟩
  · simp [h]
  · simp [h]

theorem freeAt_of_ne_link (hdirectory : tree.isDirectoryAt location = false)
    (hlink : ∀ target, tree.get? location ≠ some (.link target)) : tree.FreeAt location := by
  cases hget : tree.get? location with
  | none => exact .inl hget
  | some entry =>
    cases entry with
    | directory => simp [isDirectoryAt, hget] at hdirectory
    | file content => exact .inr ⟨content, hget⟩
    | link target => exact absurd hget (hlink target)

/-- A walk ends at a free place if it may create a file there, or if there is one already. -/
theorem LooksUp.walkWith_of_freeAt (h : LooksUp tree mayCreate here piece [])
    (hfree : tree.FreeAt (here ++ [piece]))
    (hend : mayCreate = true ∨ tree.get? (here ++ [piece]) ≠ none) :
    tree.walkWith mayCreate follow here [piece] = .ok (here ++ [piece]) := by
  rcases hfree with hnone | ⟨content, hfile⟩
  · have hcreate : mayCreate = true := hend.resolve_right (by simp [hnone])
    rw [h.walkWith_of_none hnone, if_pos ⟨hcreate, rfl⟩]
  · rw [h.walkWith_of_file hfile, if_pos rfl]

/-! ### Walks in two trees -/

/-- What the walks in the first tree go through is in the second tree as well: the directories and
the links. In places that are free there are none in the second tree either; only walks that create
nothing may disregard what has come to be where nothing was. -/
structure Carries (mayCreate : Bool) (s t : FileTree) : Prop where
  shape : ∀ location, s.FreeAt location ∨ t.get? location = s.get? location
  free : ∀ location, s.FreeAt location →
    t.FreeAt location ∨ mayCreate = false ∧ s.get? location = none

namespace Carries

theorem get? (h : Carries mayCreate s t) (hfree : ¬ s.FreeAt location) :
    t.get? location = s.get? location :=
  (h.shape location).resolve_left hfree

theorem isDirectoryAt (h : Carries mayCreate s t) (hdirectory : s.isDirectoryAt location = true) :
    t.isDirectoryAt location = true := by
  have hfree : ¬ s.FreeAt location := fun hfree => by
    rw [hfree.isDirectoryAt] at hdirectory
    cases hdirectory
  rw [FileTree.isDirectoryAt, h.get? hfree]
  exact hdirectory

theorem looksUp (h : Carries mayCreate s t) (hlooks : LooksUp s mayCreate here piece rest) :
    LooksUp t mayCreate here piece rest :=
  { hlooks with directory := h.isDirectoryAt hlooks.directory }

end Carries

theorem walkWith_of_carries (h : Carries mayCreate s t)
    (hend : mayCreate = true ∨ t.get? location ≠ none)
    (hfollow : ∀ here pieces, follow here pieces = .ok location →
      follow' here pieces = .ok location) {pieces : List Text}
    (hwalk : s.walkWith mayCreate follow here pieces = .ok location) :
    t.walkWith mayCreate follow' here pieces = .ok location := by
  fun_induction walkWith s mayCreate follow here pieces with
  | case1 here => exact hwalk
  | case3 here piece rest hhere hidle ih =>
    rw [walkWith, h.isDirectoryAt (by simpa using hhere), hidle]
    exact ih hwalk
  | case4 here rest hhere hidle ih =>
    rw [walkWith, h.isDirectoryAt (by simpa using hhere)]
    exact ih hwalk
  | case7 here piece rest hhere hidle hparent hslash hlookup hcreate =>
    have hlooks := LooksUp.of_lookup hhere hidle hparent hslash hlookup
    have hnone := (lookup_eq_ok_iff.1 hlookup).2
    obtain rfl := Except.ok.inj hwalk
    obtain ⟨hmay, rfl⟩ := hcreate
    have hfree : t.FreeAt (here ++ [piece]) := by
      refine (h.free _ (.inl hnone)).resolve_right ?_
      rintro ⟨hnot, -⟩
      rw [hmay] at hnot
      cases hnot
    exact (h.looksUp hlooks).walkWith_of_freeAt hfree hend
  | case9 here piece rest hhere hidle hparent hslash target hlookup =>
    have hlooks := LooksUp.of_lookup hhere hidle hparent hslash hlookup
    have hlink := (lookup_eq_ok_iff.1 hlookup).2
    have hlink' : t.get? (here ++ [piece]) = some (.link target) := by
      rw [h.get? fun hfree => hfree.ne_link target hlink, hlink]
    rw [(h.looksUp hlooks).walkWith_of_link hlink']
    exact hfollow _ _ hwalk
  | case10 here piece rest hhere hidle hparent hslash entry hentry hlookup ih =>
    have hlooks := LooksUp.of_lookup hhere hidle hparent hslash hlookup
    have hget := (lookup_eq_ok_iff.1 hlookup).2
    cases entry with
    | directory =>
      have hfree : ¬ s.FreeAt (here ++ [piece]) := fun hfree => by
        have hdirectory := hfree.isDirectoryAt
        simp [FileTree.isDirectoryAt, hget] at hdirectory
      rw [(h.looksUp hlooks).walkWith_of_directory ((h.get? hfree).trans hget)]
      exact ih hwalk
    | file content =>
      have hfree : s.FreeAt (here ++ [piece]) := .inr ⟨content, hget⟩
      rw [walkWith_of_not_directory hfree.isDirectoryAt] at hwalk
      split at hwalk
      · next hrest =>
        subst hrest
        obtain rfl := Except.ok.inj hwalk
        have hfree' : t.FreeAt (here ++ [piece]) := by
          refine (h.free _ hfree).resolve_right ?_
          rintro ⟨-, hnone⟩
          rw [hget] at hnone
          cases hnone
        exact (h.looksUp hlooks).walkWith_of_freeAt hfree' hend
      · cases hwalk
    | link target => exact absurd rfl (hentry target)
  | case2 | case5 | case6 | case8 => cases hwalk

theorem walk_of_carries (h : Carries mayCreate s t)
    (hend : mayCreate = true ∨ t.get? location ≠ none) (links : Nat) {pieces : List Text}
    (hwalk : s.walk mayCreate links here pieces = .ok location) :
    t.walk mayCreate links here pieces = .ok location := by
  induction links generalizing here pieces with
  | zero => exact walkWith_of_carries h hend (by simp) hwalk
  | succ links ih => exact walkWith_of_carries h hend (fun _ _ => ih) hwalk

/-! ### Trees of one shape -/

/-- Two trees have the same directories and links. -/
def SameShape (s t : FileTree) : Prop :=
  ∀ location, s.get? location = t.get? location ∨ s.FreeAt location ∧ t.FreeAt location

namespace SameShape

theorem refl (tree : FileTree) : SameShape tree tree := fun _ => .inl rfl

theorem symm (h : SameShape s t) : SameShape t s := fun location =>
  (h location).imp Eq.symm And.symm

theorem trans {u : FileTree} (h : SameShape s t) (h' : SameShape t u) : SameShape s u := by
  intro location
  rcases h location with heq | hfree
  · rw [FreeAt, heq]
    exact h' location
  · rcases h' location with heq' | hfree'
    · rw [FreeAt, FreeAt, ← heq']
      exact .inr hfree
    · exact .inr ⟨hfree.1, hfree'.2⟩

theorem freeAt (h : SameShape s t) (hfree : s.FreeAt location) : t.FreeAt location := by
  rcases h location with heq | hfree'
  · rw [FreeAt, ← heq]
    exact hfree
  · exact hfree'.2

theorem carries (h : SameShape s t) (mayCreate : Bool) : Carries mayCreate s t where
  shape location := (h location).symm.imp And.left Eq.symm
  free _ hfree := .inl (h.freeAt hfree)

theorem isDirectoryAt (h : SameShape s t) (location : Location) :
    s.isDirectoryAt location = t.isDirectoryAt location :=
  Bool.eq_iff_iff.2 ⟨(h.carries false).isDirectoryAt, (h.symm.carries false).isDirectoryAt⟩

/-- A file may be put in a free place. -/
theorem put (hfree : tree.FreeAt location) (content : FileContent) :
    SameShape tree (tree.put location (.file content)) := by
  intro other
  have hput := get?_put tree (ne_nil_of_isDirectoryAt hfree.isDirectoryAt) (.file content) other
  by_cases hother : other = location
  · rw [if_pos hother] at hput
    subst hother
    exact .inr ⟨hfree, .inr ⟨content, hput⟩⟩
  · rw [if_neg hother] at hput
    exact .inl hput.symm

end SameShape

variable {current : Location} {p : Path}

theorem locate_eq_ok_iff :
    tree.locate mayCreate current p = .ok location ↔
      check p = .ok () ∧
        tree.walk mayCreate maxLinks (start current p) (pieces p) = .ok location := by
  rw [locate]
  cases check p with
  | error e =>
    constructor
    · intro hlocate
      cases hlocate
    · rintro ⟨hcheck, -⟩
      cases hcheck
  | ok => exact ⟨fun h => ⟨rfl, h⟩, And.right⟩

theorem locate_of_carries (h : Carries mayCreate s t)
    (hend : mayCreate = true ∨ t.get? location ≠ none)
    (hlocate : s.locate mayCreate current p = .ok location) :
    t.locate mayCreate current p = .ok location := by
  rw [locate_eq_ok_iff] at hlocate ⊢
  exact ⟨hlocate.1, walk_of_carries h hend maxLinks hlocate.2⟩

/-- A path names the same file in trees of one shape. -/
theorem locate_congr (h : SameShape s t) (current : Location) (p : Path) (location : Location) :
    s.locate true current p = .ok location ↔ t.locate true current p = .ok location :=
  ⟨locate_of_carries (h.carries true) (.inl rfl), locate_of_carries (h.symm.carries true) (.inl rfl)⟩

theorem isDirectory_iff :
    tree.isDirectory current p = true ↔
      ∃ location, tree.locate false current p = .ok location ∧
        tree.isDirectoryAt location = true := by
  rw [isDirectory, stat?]
  cases tree.locate false current p with
  | error e => simp
  | ok location => simp [isDirectoryAt]

theorem isDirectory_of_carries (h : Carries false s t) (hdirectory : s.isDirectory current p = true) :
    t.isDirectory current p = true := by
  obtain ⟨location, hlocate, hthere⟩ := isDirectory_iff.1 hdirectory
  have hthere' := h.isDirectoryAt hthere
  refine isDirectory_iff.2 ⟨location, locate_of_carries h (.inr fun hnone => ?_) hlocate, hthere'⟩
  simp [FileTree.isDirectoryAt, hnone] at hthere'

/-! ### Where a text is read -/

/-- The last piece is an empty one or a dot. -/
def EndsIdle (pieces : List Text) : Prop :=
  ∃ piece, pieces.getLast? = some piece ∧ Path.isIdle piece = true

theorem EndsIdle.append (h : EndsIdle rest) (pieces : List Text) : EndsIdle (pieces ++ rest) := by
  obtain ⟨last, hlast, hidle⟩ := h
  exact ⟨last, by rw [List.getLast?_append, hlast]; rfl, hidle⟩

theorem endsIdle_of_all (hne : rest ≠ []) (h : rest.all (· = []) = true) : EndsIdle rest := by
  obtain ⟨last, hlast⟩ := Option.ne_none_iff_exists'.1 (mt List.getLast?_eq_none_iff.1 hne)
  have hempty := List.all_eq_true.1 h last (List.mem_of_getLast? hlast)
  exact ⟨last, hlast, by simpa [Path.isIdle] using .inl (of_decide_eq_true hempty)⟩

theorem EndsIdle.tail (h : EndsIdle (piece :: rest)) :
    rest = [] ∧ Path.isIdle piece = true ∨ EndsIdle rest := by
  obtain ⟨last, hlast, hidle⟩ := h
  cases rest with
  | nil =>
    obtain rfl := Option.some.inj hlast
    exact .inl ⟨rfl, hidle⟩
  | cons next rest => exact .inr ⟨last, by rwa [List.getLast?_cons_cons] at hlast, hidle⟩

theorem EndsIdle.tail_of_not_idle (h : EndsIdle (piece :: rest))
    (hidle : ¬ Path.isIdle piece = true) : EndsIdle rest :=
  h.tail.resolve_left fun hlast => hidle hlast.2

/-- A path that ends with a slash or a dot leads to a directory. -/
theorem walkWith_of_endsIdle
    (hfollow : ∀ here pieces, EndsIdle pieces → follow here pieces = .ok location →
      tree.isDirectoryAt location = true) {pieces : List Text} (hends : EndsIdle pieces)
    (hwalk : tree.walkWith mayCreate follow here pieces = .ok location) :
    tree.isDirectoryAt location = true := by
  fun_induction walkWith tree mayCreate follow here pieces with
  | case1 here =>
    obtain ⟨_, hlast, -⟩ := hends
    cases hlast
  | case3 here first rest hhere hfirst ih =>
    rcases hends.tail with ⟨rfl, -⟩ | hends
    · obtain rfl := Except.ok.inj hwalk
      simpa using hhere
    · exact ih hends hwalk
  | case4 here rest hhere hfirst ih => exact ih (hends.tail_of_not_idle hfirst) hwalk
  | case7 here first rest hhere hfirst hparent hslash hlookup hcreate =>
    obtain ⟨_, hlast, -⟩ := hends.tail_of_not_idle hfirst
    rw [hcreate.2] at hlast
    cases hlast
  | case9 here first rest hhere hfirst hparent hslash target hlookup =>
    exact hfollow _ _ ((hends.tail_of_not_idle hfirst).append _) hwalk
  | case10 here first rest hhere hfirst hparent hslash entry hentry hlookup ih =>
    exact ih (hends.tail_of_not_idle hfirst) hwalk
  | case2 | case5 | case6 | case8 => cases hwalk

theorem walk_of_endsIdle (links : Nat) {pieces : List Text} (hends : EndsIdle pieces)
    (hwalk : tree.walk mayCreate links here pieces = .ok location) :
    tree.isDirectoryAt location = true := by
  induction links generalizing here pieces with
  | zero => exact walkWith_of_endsIdle (by simp) hends hwalk
  | succ links ih => exact walkWith_of_endsIdle (fun _ _ hends => ih hends) hends hwalk

/-- A walk that may create a file leads to a file that is there if any walk does. -/
theorem walkWith_iff_of_file (hfile : tree.isDirectoryAt location = false)
    (hsome : tree.get? location ≠ none)
    (hfollow : ∀ here pieces, follow here pieces = .ok location ↔
      follow' here pieces = .ok location)
    (hends : ∀ here pieces, EndsIdle pieces → follow here pieces = .ok location →
      tree.isDirectoryAt location = true)
    (here : Location) (pieces : List Text) :
    tree.walkWith false follow here pieces = .ok location ↔
      tree.walkWith true follow' here pieces = .ok location := by
  fun_induction walkWith tree true follow' here pieces with
  | case1 here => rfl
  | case2 here piece rest hhere => simp [walkWith, hhere]
  | case3 here piece rest hhere hpiece ih => simpa [walkWith, hhere, hpiece] using ih
  | case4 here rest hhere hpiece ih => simpa [walkWith, hhere, hpiece] using ih
  | case5 here piece rest hhere hpiece hparent hslash =>
    refine ⟨fun hwalk => ?_, by simp⟩
    have hlast := (endsIdle_of_all hslash.2.1 hslash.2.2).append [piece]
    rw [walkWith_of_endsIdle hends hlast hwalk] at hfile
    cases hfile
  | case6 here piece rest hhere hpiece hparent hslash e hlookup =>
    simp [walkWith, hhere, hpiece, hparent, hlookup]
  | case7 here piece rest hhere hpiece hparent hslash hlookup hcreate =>
    have hother : here ++ [piece] ≠ location := by
      rintro rfl
      exact hsome (lookup_eq_ok_iff.1 hlookup).2
    simp [walkWith, hhere, hpiece, hparent, hlookup, hother]
  | case8 here piece rest hhere hpiece hparent hslash hlookup hcreate =>
    simp [walkWith, hhere, hpiece, hparent, hlookup]
  | case9 here piece rest hhere hpiece hparent hslash target hlookup =>
    simpa [walkWith, hhere, hpiece, hparent, hlookup] using hfollow _ _
  | case10 here piece rest hhere hpiece hparent hslash entry hentry hlookup ih =>
    rw [walkWith_cons_of_lookup (by simpa using hhere) hpiece hparent hlookup
      fun target htarget => hentry target htarget]
    exact ih

theorem walk_iff_of_file (hfile : tree.isDirectoryAt location = false)
    (hsome : tree.get? location ≠ none) (links : Nat) (here : Location) (pieces : List Text) :
    tree.walk false links here pieces = .ok location ↔
      tree.walk true links here pieces = .ok location := by
  induction links generalizing here pieces with
  | zero => exact walkWith_iff_of_file hfile hsome (by simp) (by simp) here pieces
  | succ links ih =>
    exact walkWith_iff_of_file hfile hsome ih (fun _ _ hends => walk_of_endsIdle links hends)
      here pieces

theorem read_eq_ok_iff_locate {text : Text} :
    tree.read current p = .ok text ↔
      ∃ location, tree.locate false current p = .ok location ∧
        tree.get? location = some (.file (.text text)) := by
  rw [read]
  cases tree.locate false current p with
  | error e =>
    constructor
    · intro hread
      cases hread
    · rintro ⟨location, hlocate, -⟩
      cases hlocate
  | ok location =>
    simp only [bind, Except.bind]
    constructor
    · intro h
      refine ⟨location, rfl, ?_⟩
      split at h
      · next hget => rw [hget, Except.ok.inj h]
      · cases h
      · cases h
      · cases h
    · rintro ⟨_, ⟨⟩, hget⟩
      rw [hget]

/-- A text is read where it would be written. -/
theorem read_eq_ok_iff {text : Text} :
    tree.read current p = .ok text ↔
      ∃ location, tree.locate true current p = .ok location ∧
        tree.get? location = some (.file (.text text)) := by
  rw [read_eq_ok_iff_locate]
  refine exists_congr fun location => and_congr_left fun hget => ?_
  rw [locate_eq_ok_iff, locate_eq_ok_iff]
  exact and_congr_right fun _ =>
    walk_iff_of_file (by simp [isDirectoryAt, hget]) (by simp [hget]) maxLinks _ _

end SketchBuild.FileTree
