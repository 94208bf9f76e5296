import SketchBuild.FileTree.Access

/-!
# Writing files

What a successful write does to a tree, for every path: links may lead to the place, and nothing
need be there.

* `write_eq_ok_iff`: the file goes to the location that the path leads to, which is no directory.
* `get?_of_write`: nothing else changes.
* `read_of_write`: what has been written is read back under the same path.

The last one needs that the path leads to the same place as before (`walk_put`). A walk can meet the
file only at its end, for it goes on from directories and links, and a link is never where it
ends once it has been followed (`walk_ne_link`).
-/

namespace SketchBuild.FileTree

variable {tree : FileTree} {location : Location} {mayCreate : Bool}
  {follow : Location → List Text → Except OsError Location}

/-! ### Looking up names -/

theorem lookup_eq_ok_iff {directory : Location} {name : Text} {found : Option FileEntry} :
    tree.lookup directory name = .ok found ↔
      ¬ Text.utf8Length name > maxNameLength ∧ tree.get? (directory ++ [name]) = found := by
  rw [lookup]
  split
  · next hlong => simp [hlong]
  · next hlong => simp [hlong]

theorem ne_nil_of_isDirectoryAt (h : tree.isDirectoryAt location = false) : location ≠ [] := by
  rintro rfl
  cases h

theorem isDirectoryAt_put (h : tree.isDirectoryAt location = false) (entry : FileEntry)
    {other : Location} (hother : tree.isDirectoryAt other = true) :
    (tree.put location entry).isDirectoryAt other = true := by
  have hne : other ≠ location := by
    rintro rfl
    rw [h] at hother
    cases hother
  rw [isDirectoryAt, get?_put tree (ne_nil_of_isDirectoryAt h), if_neg hne]
  exact hother

/-! ### Walks and links -/

theorem not_prefix_start {here : Location} (hne : location ≠ []) (h : ¬ location <+: here)
    (target : Path) : ¬ location <+: start here target := by
  rw [start]
  split
  · simpa using hne
  · exact h

/-- A walk that creates nothing goes on to what it finds under a name, if that is no link. -/
theorem walkWith_cons_of_lookup {here : Location} {piece : Text} {rest : List Text}
    {entry : FileEntry} (hhere : tree.isDirectoryAt here = true)
    (hidle : ¬ Path.isIdle piece = true) (hparent : ¬ piece = ['.', '.'])
    (hlookup : tree.lookup here piece = .ok (some entry))
    (hentry : ∀ target, entry ≠ .link target) :
    tree.walkWith false follow here (piece :: rest) =
      tree.walkWith false follow (here ++ [piece]) rest := by
  cases entry with
  | directory => simp [walkWith, hhere, hidle, hparent, hlookup]
  | file content => simp [walkWith, hhere, hidle, hparent, hlookup]
  | link target => exact absurd rfl (hentry target)

/-- A walk that does not start below a link does not end at it. -/
theorem walkWith_ne_link {target : Path} (hlink : tree.get? location = some (.link target))
    (hfollow : ∀ here pieces, ¬ location <+: here → follow here pieces ≠ .ok location)
    {here : Location} (hhere : ¬ location <+: here) (pieces : List Text) :
    tree.walkWith mayCreate follow here pieces ≠ .ok location := by
  have hne : location ≠ [] := by
    rintro rfl
    cases hlink
  fun_induction walkWith tree mayCreate follow here pieces with
  | case1 here =>
    rintro h
    cases h
    exact hhere List.prefix_rfl
  | case3 here piece rest _ _ ih => exact ih hhere
  | case4 here rest _ _ ih =>
    have hdrop := List.dropLast_prefix here
    exact ih fun h => hhere (h.trans hdrop)
  | case7 here piece rest _ _ _ _ hlookup =>
    -- There is nothing at a name that can be created.
    rintro h
    cases h
    rw [(lookup_eq_ok_iff.1 hlookup).2] at hlink
    cases hlink
  | case9 here piece rest _ _ _ _ other _ => exact hfollow _ _ (not_prefix_start hne hhere other)
  | case10 here piece rest _ _ _ _ entry hentry hlookup ih =>
    refine ih fun h => ?_
    rcases List.prefix_concat_iff.1 h with rfl | h
    · rw [(lookup_eq_ok_iff.1 hlookup).2] at hlink
      exact hentry target (Option.some.inj hlink)
    · exact hhere h
  | case2 | case5 | case6 | case8 => simp

theorem walk_ne_link {target : Path} (hlink : tree.get? location = some (.link target))
    (links : Nat) {here : Location} (hhere : ¬ location <+: here) (pieces : List Text) :
    tree.walk mayCreate links here pieces ≠ .ok location := by
  induction links generalizing here pieces with
  | zero => exact walkWith_ne_link hlink (by simp) hhere pieces
  | succ links ih =>
    exact walkWith_ne_link hlink (fun here pieces hhere => ih hhere pieces) hhere pieces

/-- A walk that found a place for a file finds the file there. -/
theorem walkWith_put {follow' : Location → List Text → Except OsError Location}
    (hfile : tree.isDirectoryAt location = false) (content : FileContent)
    (hlinks : ∀ target, tree.get? location = some (.link target) →
      ∀ here pieces, ¬ location <+: here → follow here pieces ≠ .ok location)
    (hfollow : ∀ here pieces, follow here pieces = .ok location →
      follow' here pieces = .ok location)
    {here : Location} {pieces : List Text}
    (h : tree.walkWith true follow here pieces = .ok location) :
    (tree.put location (.file content)).walkWith false follow' here pieces = .ok location := by
  have hne := ne_nil_of_isDirectoryAt hfile
  have hdirectory : ∀ {other}, ¬ (!tree.isDirectoryAt other) = true →
      (tree.put location (.file content)).isDirectoryAt other = true := by
    intro other hother
    exact isDirectoryAt_put hfile _ (by simpa using hother)
  fun_induction walkWith tree true follow here pieces with
  | case1 here => exact h
  | case3 here piece rest hhere hidle ih =>
    rw [walkWith, hdirectory hhere, hidle]
    exact ih h
  | case4 here rest hhere hidle ih =>
    rw [walkWith, hdirectory hhere]
    exact ih h
  | case7 here piece rest hhere hidle hparent _ hlookup hcreate =>
    cases h
    obtain ⟨-, rfl⟩ := hcreate
    have hfound : (tree.put (here ++ [piece]) (.file content)).lookup here piece =
        .ok (some (.file content)) := by
      refine lookup_eq_ok_iff.2 ⟨(lookup_eq_ok_iff.1 hlookup).1, ?_⟩
      rw [get?_put tree hne, if_pos rfl]
    simp [walkWith, hdirectory hhere, hidle, hparent, hfound]
  | case9 here piece rest hhere hidle hparent _ target hlookup =>
    obtain ⟨hlong, hlink⟩ := lookup_eq_ok_iff.1 hlookup
    -- A link is not where the walk ends after it has been followed.
    have hother : here ++ [piece] ≠ location := by
      rintro rfl
      have hhere : ¬ here ++ [piece] <+: here := fun hbelow => by
        have hlength := hbelow.length_le
        rw [List.length_append] at hlength
        exact Nat.not_succ_le_self _ hlength
      exact hlinks target hlink _ _ (not_prefix_start hne hhere target) h
    have hfound : (tree.put location (.file content)).lookup here piece =
        .ok (some (.link target)) := by
      refine lookup_eq_ok_iff.2 ⟨hlong, ?_⟩
      rw [get?_put tree hne, if_neg hother, hlink]
    simpa [walkWith, hdirectory hhere, hidle, hparent, hfound] using hfollow _ _ h
  | case10 here piece rest hhere hidle hparent _ entry hentry hlookup ih =>
    obtain ⟨hlong, hget⟩ := lookup_eq_ok_iff.1 hlookup
    have hentry' : ∃ entry', (∀ target, entry' ≠ FileEntry.link target) ∧
        (tree.put location (.file content)).lookup here piece = .ok (some entry') := by
      by_cases hother : here ++ [piece] = location
      · refine ⟨.file content, nofun, lookup_eq_ok_iff.2 ⟨hlong, ?_⟩⟩
        rw [get?_put tree hne, if_pos hother]
      · refine ⟨entry, hentry, lookup_eq_ok_iff.2 ⟨hlong, ?_⟩⟩
        rw [get?_put tree hne, if_neg hother, hget]
    obtain ⟨entry', hkind, hfound⟩ := hentry'
    rw [walkWith_cons_of_lookup (hdirectory hhere) hidle hparent hfound hkind]
    exact ih h
  | case2 | case5 | case6 | case8 => cases h

theorem walk_put (hfile : tree.isDirectoryAt location = false) (content : FileContent)
    (links : Nat) {here : Location} {pieces : List Text}
    (h : tree.walk true links here pieces = .ok location) :
    (tree.put location (.file content)).walk false links here pieces = .ok location := by
  induction links generalizing here pieces with
  | zero => exact walkWith_put hfile content (by simp) (by simp) h
  | succ links ih =>
    exact walkWith_put hfile content
      (fun _ hlink _ pieces hhere => walk_ne_link hlink links hhere pieces) (fun _ _ => ih) h

/-! ### Writing -/

variable {current : Location} {p : Path} {content : FileContent} {tree' : FileTree}

theorem write_eq_ok_iff :
    tree.write current p content = .ok tree' ↔
      ∃ location, tree.locate true current p = .ok location ∧
        tree.isDirectoryAt location = false ∧ tree' = tree.put location (.file content) := by
  rw [write]
  cases tree.locate true current p with
  | error e => exact ⟨nofun, nofun⟩
  | ok location =>
    change (if tree.isDirectoryAt location = true then Except.error OsError.isDirectory
      else Except.ok (tree.put location (.file content))) = .ok tree' ↔ _
    cases hdirectory : tree.isDirectoryAt location with
    | true =>
      refine ⟨nofun, ?_⟩
      rintro ⟨_, ⟨⟩, hfile, -⟩
      rw [hdirectory] at hfile
      cases hfile
    | false =>
      constructor
      · intro h
        exact ⟨location, rfl, hdirectory, (Except.ok.inj h).symm⟩
      · rintro ⟨_, ⟨⟩, -, rfl⟩
        rfl

/-- The only place that changes is the one that the path leads to. -/
theorem get?_of_write (h : tree.write current p content = .ok tree') :
    ∃ location, tree.locate true current p = .ok location ∧
      ∀ other, tree'.get? other =
        if other = location then some (.file content) else tree.get? other := by
  obtain ⟨location, hlocate, hfile, rfl⟩ := write_eq_ok_iff.1 h
  exact ⟨location, hlocate, get?_put tree (ne_nil_of_isDirectoryAt hfile) (.file content)⟩

/-- What has been written is read back. -/
theorem read_of_write {t : Text} (h : tree.write current p (.text t) = .ok tree') :
    tree'.read current p = .ok t := by
  obtain ⟨location, hlocate, hfile, rfl⟩ := write_eq_ok_iff.1 h
  have hfound : (tree.put location (.file (.text t))).locate false current p = .ok location := by
    rw [locate] at hlocate ⊢
    cases hcheck : check p with
    | error e =>
      rw [hcheck] at hlocate
      cases hlocate
    | ok =>
      rw [hcheck] at hlocate
      exact walk_put hfile (.text t) maxLinks hlocate
  have hget : (tree.put location (.file (.text t))).get? location = some (.file (.text t)) := by
    rw [get?_put tree (ne_nil_of_isDirectoryAt hfile), if_pos rfl]
  rw [read, hfound]
  simp [bind, Except.bind, hget]

end SketchBuild.FileTree
