import SketchBuild.Project.Format
import SketchBuild.Proofs.Json.Records

/-!
# JSON forms

What is written can be read back, and a field that is left out means its default.

For the records whose fields have defaults, `keep` is the value that is left when some fields are
omitted, and `IsPart` says that an object holds the other fields: in any order, with any other keys
in between, and with the records inside treated in the same way. Decoding such an object gives just
that value (`ofJson?_of_isPart`). That the form which is written is read back is the case in which
all fields are kept.
-/

namespace SketchBuild

open Json (Selection Contains Spells keysOf)

variable {kept : Selection} {json : Json}

/-! ### Plain fields -/

namespace Json

theorem text?_ofText (t : Text) : text? (ofText t) = some t :=
  JsonString.text?_ofText t

theorem bool?_bool (b : Bool) : bool? (.bool b) = some b := rfl

theorem nat64?_ofNat {n : Nat} (h : n ≤ maxNat64) : nat64? (ofNat n) = some n := by
  have hdigits : (Text.ofNat n).all Char.isDigit = true :=
    List.all_eq_true.2 fun c => Nat.isDigit_of_mem_toDigits (by decide) (by decide)
  have hvalue : Nat.ofDigitChars 10 (Text.ofNat n) 0 = n :=
    Nat.ofDigitChars_toDigits (by decide) (by decide)
  simp only [ofNat, nat64?, hdigits, hvalue, h, and_self, if_true]

end Json

namespace Path

theorem ofJson?_toJson (p : Path) : ofJson? p.toJson = some p := by
  rw [ofJson?, toJson, Json.text?_ofText]
  rfl

theorem listOfJson?_listToJson (paths : List Path) :
    listOfJson? (listToJson paths) = some paths := by
  rw [listOfJson?, listToJson, Json.list?]
  induction paths with
  | nil => rfl
  | cons p paths ih =>
    rw [List.map_cons, List.mapM_cons, ofJson?_toJson, ih]
    rfl

theorem spells_listToJson (paths : List Path) :
    Spells (.value (listToJson paths)) (Json.write (listToJson paths)) := by
  refine Json.spells_array fun item hitem => ?_
  obtain ⟨p, -, rfl⟩ := List.mem_map.1 hitem
  exact Json.spells_ofText p.text

end Path

/-! ### Options of a sketch -/

namespace SketchOptions

/-- The fields of the JSON form. -/
def fields (options : SketchOptions) : List (String × Json) :=
  [("umbrella_header", .ofText options.umbrellaHeader),
    ("line_marker", .bool options.lineMarker),
    ("compat_brace_leak", .bool options.braceLeak)]

/-- The options of which only some fields are kept. -/
def keep (kept : Selection) (options : SketchOptions) : SketchOptions :=
  let default : SketchOptions := {}
  { umbrellaHeader := kept.pick "umbrella_header" options.umbrellaHeader default.umbrellaHeader
    lineMarker := kept.pick "line_marker" options.lineMarker default.lineMarker
    braceLeak := kept.pick "compat_brace_leak" options.braceLeak default.braceLeak }

/-- The object holds the fields that are kept. -/
def IsPart (kept : Selection) (options : SketchOptions) (json : Json) : Prop :=
  Contains kept options.fields json

theorem ofJson?_of_isPart {options : SketchOptions} (h : options.IsPart kept json) :
    ofJson? json = some (options.keep kept) := by
  have hkeys : keysOf options.fields = keys := rfl
  obtain ⟨given, hgiven, hlookup⟩ := Json.fields?_of_contains (hkeys ▸ by decide) h
  simp only [fields, List.forall_mem_cons] at hlookup
  obtain ⟨hheader, hmarker, hleak, -⟩ := hlookup
  rw [ofJson?, ← hkeys, hgiven]
  simp only [bind, Option.bind, Json.Fields.optional_of_lookup hheader (Json.text?_ofText _),
    Json.Fields.optional_of_lookup hmarker (Json.bool?_bool _),
    Json.Fields.optional_of_lookup hleak (Json.bool?_bool _)]
  rfl

theorem isPart_toJson (options : SketchOptions) : options.IsPart .all options.toJson :=
  Json.contains_ofMembers options.fields

theorem spells_toJson (options : SketchOptions) :
    Spells (.value options.toJson) (Json.write options.toJson) := by
  refine Json.spells_ofMembers ?_
  simp only [List.forall_mem_cons]
  exact ⟨Json.spells_ofText _, Json.spells_bool _, Json.spells_bool _, by simp⟩

end SketchOptions

/-! ### Boards and libraries -/

namespace Board

/-- The fields of the JSON form. -/
def fields (board : Board) : List (String × Json) :=
  [("core_headers", Path.listToJson board.coreHeaders),
    ("variant_headers", Path.listToJson board.variantHeaders)]

/-- The board of which only some fields are kept. -/
def keep (kept : Selection) (board : Board) : Board :=
  let default : Board := {}
  { coreHeaders := kept.pick "core_headers" board.coreHeaders default.coreHeaders
    variantHeaders := kept.pick "variant_headers" board.variantHeaders default.variantHeaders }

/-- The object holds the fields that are kept. -/
def IsPart (kept : Selection) (board : Board) (json : Json) : Prop :=
  Contains kept board.fields json

theorem ofJson?_of_isPart {board : Board} (h : board.IsPart kept json) :
    ofJson? json = some (board.keep kept) := by
  have hkeys : keysOf board.fields = ["core_headers".toList, "variant_headers".toList] := rfl
  obtain ⟨given, hgiven, hlookup⟩ := Json.fields?_of_contains (hkeys ▸ by decide) h
  simp only [fields, List.forall_mem_cons] at hlookup
  obtain ⟨hcore, hvariant, -⟩ := hlookup
  rw [ofJson?, ← hkeys, hgiven]
  simp only [bind, Option.bind,
    Json.Fields.optional_of_lookup hcore (Path.listOfJson?_listToJson _),
    Json.Fields.optional_of_lookup hvariant (Path.listOfJson?_listToJson _)]
  rfl

theorem isPart_toJson (board : Board) : board.IsPart .all board.toJson :=
  Json.contains_ofMembers board.fields

theorem spells_toJson (board : Board) :
    Spells (.value board.toJson) (Json.write board.toJson) := by
  refine Json.spells_ofMembers ?_
  simp only [List.forall_mem_cons]
  exact ⟨Path.spells_listToJson _, Path.spells_listToJson _, by simp⟩

end Board

namespace Library

/-- The fields of the JSON form. -/
def fields (library : Library) : List (String × Json) :=
  [("version", .ofText library.version), ("headers", Path.listToJson library.headers)]

/-- The library of which only some fields are kept. -/
def keep (kept : Selection) (library : Library) : Library :=
  let default : Library := {}
  { version := kept.pick "version" library.version default.version
    headers := kept.pick "headers" library.headers default.headers }

/-- The object holds the fields that are kept. -/
def IsPart (kept : Selection) (library : Library) (json : Json) : Prop :=
  Contains kept library.fields json

theorem ofJson?_of_isPart {library : Library} (h : library.IsPart kept json) :
    ofJson? json = some (library.keep kept) := by
  have hkeys : keysOf library.fields = ["version".toList, "headers".toList] := rfl
  obtain ⟨given, hgiven, hlookup⟩ := Json.fields?_of_contains (hkeys ▸ by decide) h
  simp only [fields, List.forall_mem_cons] at hlookup
  obtain ⟨hversion, hheaders, -⟩ := hlookup
  rw [ofJson?, ← hkeys, hgiven]
  simp only [bind, Option.bind,
    Json.Fields.optional_of_lookup hversion (Json.text?_ofText _),
    Json.Fields.optional_of_lookup hheaders (Path.listOfJson?_listToJson _)]
  rfl

theorem isPart_toJson (library : Library) : library.IsPart .all library.toJson :=
  Json.contains_ofMembers library.fields

theorem spells_toJson (library : Library) :
    Spells (.value library.toJson) (Json.write library.toJson) := by
  refine Json.spells_ofMembers ?_
  simp only [List.forall_mem_cons]
  exact ⟨Json.spells_ofText _, Path.spells_listToJson _, by simp⟩

end Library

/-! ### Registries -/

namespace Registry

variable {registry : Registry}

/-- The registry of whose libraries only some fields are kept. -/
def keep (kept : Selection) (registry : Registry) : Registry :=
  registry.map fun name library => library.keep (kept.under name)

/-- The object has every library of the registry under its name, in any order, each with the fields
that are kept. -/
inductive IsPart (kept : Selection) (registry : Registry) : Json → Prop
  | object {parts members : List (Text × Json)}
      (hparts : List.Forall₂ (fun entry part => part.1 = entry.1 ∧
        entry.2.IsPart (kept.under entry.1) part.2) registry.toList parts)
      (horder : members.Perm parts) : IsPart kept registry (Json.objectOf members)

/-- Entries with different names can be inserted in any order. -/
theorem getElem?_foldl_insert {entries : List (Text × Library)}
    (hnodup : (entries.map Prod.fst).Nodup) (registry : Registry) (name : Text)
    (library : Library) :
    (entries.foldl (fun registry (name, library) => registry.insert name library) registry)[name]? =
        some library ↔
      (name, library) ∈ entries ∨
        name ∉ entries.map Prod.fst ∧ registry[name]? = some library := by
  induction entries generalizing registry with
  | nil => simp
  | cons entry entries ih =>
    obtain ⟨hfresh, hnodup⟩ := List.nodup_cons.1 hnodup
    rw [List.foldl_cons, ih hnodup, Std.ExtTreeMap.getElem?_insert, List.map_cons, List.mem_cons,
      List.mem_cons, Prod.ext_iff]
    by_cases hname : name = entry.1
    · subst hname
      have hlater : (entry.1, library) ∉ entries := fun hmem =>
        hfresh (List.mem_map.2 ⟨_, hmem, rfl⟩)
      simp [hfresh, hlater, eq_comm]
    · simp [hname, Ne.symm hname]

theorem nodup_names (registry : Registry) : (registry.toList.map Prod.fst).Nodup := by
  rw [Std.ExtTreeMap.map_fst_toList_eq_keys]
  exact Std.ExtTreeMap.nodup_keys

theorem foldl_insert_eq {entries : List (Text × Library)} (h : entries.Perm registry.toList) :
    entries.foldl (fun registry (name, library) => registry.insert name library) ∅ = registry := by
  have hnodup : (entries.map Prod.fst).Nodup := (h.map Prod.fst).nodup_iff.2 registry.nodup_names
  refine Std.ExtTreeMap.ext_getElem? fun name => Option.ext fun library => ?_
  rw [getElem?_foldl_insert hnodup, h.mem_iff, Std.ExtTreeMap.mem_toList_iff_getElem?_eq_some]
  simp

theorem mapM_of_forall {α β : Type} {f : α → Option β} {as : List α}
    (h : ∀ a ∈ as, f a ≠ none) : as.mapM f = some (as.filterMap f) := by
  induction as with
  | nil => rfl
  | cons a as ih =>
    obtain ⟨b, hb⟩ := Option.ne_none_iff_exists'.1 (h a List.mem_cons_self)
    rw [List.mapM_cons, hb, ih fun other hother => h other (List.mem_cons_of_mem a hother),
      List.filterMap_cons_some hb]
    rfl

/-- A library with its name, as a member gives it. -/
def library? (member : Text × Json) : Option (Text × Library) :=
  (Library.ofJson? member.2).map (member.1, ·)

theorem library?_of_isPart {entries : List (Text × Library)} {parts : List (Text × Json)}
    (h : List.Forall₂ (fun entry part => part.1 = entry.1 ∧
      entry.2.IsPart (kept.under entry.1) part.2) entries parts) :
    (∀ part ∈ parts, library? part ≠ none) ∧
      parts.filterMap library? = entries.map fun (name, library) =>
        (name, library.keep (kept.under name)) := by
  induction h with
  | nil => simp
  | @cons entry part entries parts hpart _ ih =>
    obtain ⟨hname, hlibrary⟩ := hpart
    have hentry : library? part = some (entry.1, entry.2.keep (kept.under entry.1)) := by
      rw [library?, Library.ofJson?_of_isPart hlibrary, hname]
      rfl
    refine ⟨?_, ?_⟩
    · simpa [hentry] using ih.1
    · rw [List.filterMap_cons_some hentry, ih.2]
      rfl

theorem ofJson?_of_isPart (h : IsPart kept registry json) :
    ofJson? json = some (registry.keep kept) := by
  cases h with
  | @object parts members hparts horder =>
    obtain ⟨hsome, hentries⟩ := library?_of_isPart hparts
    have hmembers : members.mapM library? = some (members.filterMap library?) :=
      mapM_of_forall fun member hmember => hsome member (horder.subset hmember)
    have hperm : (members.filterMap library?).Perm (registry.keep kept).toList := by
      rw [keep, Std.ExtTreeMap.toList_map, ← hentries]
      exact horder.filterMap library?
    rw [ofJson?, Json.members?_objectOf]
    show (members.mapM library?).bind _ = _
    rw [hmembers, Option.bind_some]
    exact congrArg some (foldl_insert_eq hperm)

theorem toJson_eq (registry : Registry) :
    registry.toJson =
      Json.objectOf (registry.toList.map fun (name, library) => (name, library.toJson)) := by
  simp [toJson, Json.objectOf, Json.withTextKeys]

theorem isPart_toJson (registry : Registry) : IsPart .all registry registry.toJson := by
  rw [toJson_eq]
  refine .object ?_ .rfl
  rw [List.forall₂_map_right_iff]
  exact List.forall₂_same.2 fun entry _ => ⟨rfl, entry.2.isPart_toJson⟩

theorem spells_toJson (registry : Registry) :
    Spells (.value registry.toJson) (Json.write registry.toJson) := by
  rw [toJson_eq]
  refine Json.spells_objectOf fun member hmember => ?_
  obtain ⟨entry, -, rfl⟩ := List.mem_map.1 hmember
  exact entry.2.spells_toJson

theorem keep_all (registry : Registry) : registry.keep .all = registry := by
  refine Std.ExtTreeMap.ext_getElem? fun name => ?_
  rw [keep, Std.ExtTreeMap.getElem?_map]
  exact Option.map_id_apply

end Registry

/-! ### Projects -/

namespace Project

/-- The fields of the JSON form, with given values for the records inside. -/
def fields (project : Project) (board libraries sketch : Json) : List (String × Json) :=
  [("project_dir", project.directory.toJson),
    ("build_dir", project.buildDirectory.toJson),
    ("headers", Path.listToJson project.headers),
    ("sources", Path.listToJson project.sources),
    ("board", board),
    ("libraries", libraries),
    ("sketch", sketch)]

/-- The project of which only some fields are kept. -/
def keep (kept : Selection) (project : Project) : Project :=
  let default : Project := {}
  { directory := kept.pick "project_dir" project.directory default.directory
    buildDirectory := kept.pick "build_dir" project.buildDirectory default.buildDirectory
    headers := kept.pick "headers" project.headers default.headers
    sources := kept.pick "sources" project.sources default.sources
    board := kept.pick "board" (project.board.keep (kept.under "board".toList)) default.board
    libraries := kept.pick "libraries"
      (Registry.keep (kept.under "libraries".toList) project.libraries) default.libraries
    sketch := kept.pick "sketch" (project.sketch.keep (kept.under "sketch".toList)) default.sketch }

/-- The object holds the fields that are kept, the records inside included. -/
inductive IsPart (kept : Selection) (project : Project) : Json → Prop
  | object {board libraries sketch json : Json}
      (hboard : project.board.IsPart (kept.under "board".toList) board)
      (hlibraries : Registry.IsPart (kept.under "libraries".toList) project.libraries libraries)
      (hsketch : project.sketch.IsPart (kept.under "sketch".toList) sketch)
      (h : Contains kept (project.fields board libraries sketch) json) : IsPart kept project json

theorem ofJson?_of_isPart {project : Project} (h : project.IsPart kept json) :
    ofJson? json = some (project.keep kept) := by
  cases h with
  | @object board libraries sketch _ hboard hlibraries hsketch h =>
    have hkeys : keysOf (project.fields board libraries sketch) = keys := rfl
    obtain ⟨given, hgiven, hlookup⟩ := Json.fields?_of_contains (hkeys ▸ by decide) h
    simp only [fields, List.forall_mem_cons] at hlookup
    obtain ⟨hdirectory, hbuild, hheaders, hsources, hboard', hlibraries', hsketch', -⟩ := hlookup
    rw [ofJson?, ← hkeys, hgiven]
    simp only [bind, Option.bind,
      Json.Fields.optional_of_lookup hdirectory (Path.ofJson?_toJson _),
      Json.Fields.optional_of_lookup hbuild (Path.ofJson?_toJson _),
      Json.Fields.optional_of_lookup hheaders (Path.listOfJson?_listToJson _),
      Json.Fields.optional_of_lookup hsources (Path.listOfJson?_listToJson _),
      Json.Fields.optional_of_lookup hboard' (Board.ofJson?_of_isPart hboard),
      Json.Fields.optional_of_lookup hlibraries' (Registry.ofJson?_of_isPart hlibraries),
      Json.Fields.optional_of_lookup hsketch' (SketchOptions.ofJson?_of_isPart hsketch)]
    rfl

theorem isPart_toJson (project : Project) : project.IsPart .all project.toJson :=
  .object project.board.isPart_toJson (Registry.isPart_toJson project.libraries)
    project.sketch.isPart_toJson (Json.contains_ofMembers (project.fields _ _ _))

theorem spells_toJson (project : Project) :
    Spells (.value project.toJson) (Json.write project.toJson) := by
  refine Json.spells_ofMembers ?_
  simp only [List.forall_mem_cons]
  exact ⟨Json.spells_ofText _, Json.spells_ofText _, Path.spells_listToJson _,
    Path.spells_listToJson _, project.board.spells_toJson, Registry.spells_toJson _,
    project.sketch.spells_toJson, by simp⟩

theorem keep_all (project : Project) : project.keep .all = project := by
  have hlibraries : Registry.keep (Selection.all.under "libraries".toList) project.libraries =
      project.libraries := Registry.keep_all project.libraries
  rw [keep, hlibraries]
  rfl

end Project

/-! ### Parts of a sketch -/

namespace Prototype

theorem ofJson?_toJson (prototype : Prototype) : ofJson? prototype.toJson = some prototype := by
  obtain ⟨given, hgiven, hlookup⟩ := Json.fields?_ofMembers ["signature".toList]
    [("signature", .ofText prototype.signature)] rfl (by decide)
  simp only [List.forall_mem_cons] at hlookup
  rw [ofJson?, toJson, hgiven]
  simp only [bind, Option.bind,
    Json.Fields.required_of_lookup hlookup.1 (Json.text?_ofText _)]
  rfl

theorem spells_toJson (prototype : Prototype) :
    Spells (.value prototype.toJson) (Json.write prototype.toJson) := by
  refine Json.spells_ofMembers ?_
  simp only [List.forall_mem_cons]
  exact ⟨Json.spells_ofText _, by simp⟩

end Prototype

namespace Include

theorem Style.ofJson?_toJson (style : Style) : Style.ofJson? style.toJson = some style := by
  cases style with
  | angle => rfl
  | quote => rfl

theorem ofJson?_toJson {line : Include} (h : line.index ≤ Json.maxNat64) :
    ofJson? line.toJson = some line := by
  obtain ⟨given, hgiven, hlookup⟩ := Json.fields?_ofMembers keys
    [("text", .ofText line.text), ("index", .ofNat line.index), ("path", .ofText line.path),
      ("style", line.style.toJson)] rfl (by decide)
  simp only [List.forall_mem_cons] at hlookup
  obtain ⟨htext, hindex, hpath, hstyle, -⟩ := hlookup
  rw [ofJson?, toJson, hgiven]
  simp only [bind, Option.bind,
    Json.Fields.required_of_lookup htext (Json.text?_ofText _),
    Json.Fields.required_of_lookup hindex (Json.nat64?_ofNat h),
    Json.Fields.required_of_lookup hpath (Json.text?_ofText _),
    Json.Fields.required_of_lookup hstyle (Style.ofJson?_toJson _)]
  rfl

theorem spells_toJson (line : Include) :
    Spells (.value line.toJson) (Json.write line.toJson) := by
  refine Json.spells_ofMembers ?_
  simp only [List.forall_mem_cons]
  exact ⟨Json.spells_ofText _, Json.spells_ofNat _, Json.spells_ofText _, Json.spells_ofText _,
    by simp⟩

end Include

/-! ### Texts -/

/-- The value that a text stands for. -/
def Json.decodeText? {α : Type} (decode : Json → Option α) (text : Text) : Option α :=
  (read? text).bind decode

theorem Json.decodeText?_of_isText {α : Type} {decode : Json → Option α} {text : Text} {a : α}
    (htext : IsText json text) (h : decode json = some a) : decodeText? decode text = some a := by
  rw [decodeText?, read?_of_isText htext]
  exact h

theorem Json.decodeText?_write {α : Type} {decode : Json → Option α} {a : α}
    (hspells : Spells (.value json) (write json)) (h : decode json = some a) :
    decodeText? decode (write json) = some a := by
  rw [decodeText?, read?_write hspells]
  exact h

/-- **JSON forms are read back, and what is left out means its default.** Whatever is written is
read as it was, numbers up to the largest of 64 bits. A text that holds any selection of the fields
of a record with defaults, at every level, in any order and with other keys in between, is read as
the record in which the other fields have their defaults. -/
theorem json_forms_read_back :
    ((∀ options : SketchOptions,
        Json.decodeText? SketchOptions.ofJson? (Json.write options.toJson) = some options) ∧
      (∀ prototype : Prototype,
        Json.decodeText? Prototype.ofJson? (Json.write prototype.toJson) = some prototype) ∧
      (∀ style : Include.Style,
        Json.decodeText? Include.Style.ofJson? (Json.write style.toJson) = some style) ∧
      (∀ line : Include, line.index ≤ Json.maxNat64 →
        Json.decodeText? Include.ofJson? (Json.write line.toJson) = some line) ∧
      (∀ board : Board, Json.decodeText? Board.ofJson? (Json.write board.toJson) = some board) ∧
      (∀ library : Library,
        Json.decodeText? Library.ofJson? (Json.write library.toJson) = some library) ∧
      ∀ project : Project,
        Json.decodeText? Project.ofJson? (Json.write project.toJson) = some project) ∧
    ∀ (kept : Selection) (json : Json) (text : Text), Json.IsText json text →
      (∀ options : SketchOptions, options.IsPart kept json →
        Json.decodeText? SketchOptions.ofJson? text = some (options.keep kept)) ∧
      (∀ board : Board, board.IsPart kept json →
        Json.decodeText? Board.ofJson? text = some (board.keep kept)) ∧
      (∀ library : Library, library.IsPart kept json →
        Json.decodeText? Library.ofJson? text = some (library.keep kept)) ∧
      ∀ project : Project, project.IsPart kept json →
        Json.decodeText? Project.ofJson? text = some (project.keep kept) := by
  refine ⟨⟨?_, ?_, ?_, ?_, ?_, ?_, ?_⟩, fun kept json text htext => ⟨?_, ?_, ?_, ?_⟩⟩
  · exact fun options => Json.decodeText?_write options.spells_toJson
      (SketchOptions.ofJson?_of_isPart options.isPart_toJson)
  · exact fun prototype => Json.decodeText?_write prototype.spells_toJson
      prototype.ofJson?_toJson
  · exact fun style => Json.decodeText?_write (Json.spells_ofText style.word) style.ofJson?_toJson
  · exact fun line hindex => Json.decodeText?_write line.spells_toJson
      (Include.ofJson?_toJson hindex)
  · exact fun board => Json.decodeText?_write board.spells_toJson
      (Board.ofJson?_of_isPart board.isPart_toJson)
  · exact fun library => Json.decodeText?_write library.spells_toJson
      (Library.ofJson?_of_isPart library.isPart_toJson)
  · intro project
    rw [Json.decodeText?_write project.spells_toJson
      (Project.ofJson?_of_isPart project.isPart_toJson), project.keep_all]
  · exact fun options h => Json.decodeText?_of_isText htext (SketchOptions.ofJson?_of_isPart h)
  · exact fun board h => Json.decodeText?_of_isText htext (Board.ofJson?_of_isPart h)
  · exact fun library h => Json.decodeText?_of_isText htext (Library.ofJson?_of_isPart h)
  · exact fun project h => Json.decodeText?_of_isText htext (Project.ofJson?_of_isPart h)

/-- An object with one field of the board, in which a letter of the key is escaped, behind a key
that means nothing. -/
theorem json_forms_read_back_partial :
    let project : Project :=
      { sources := [.ofString "s"], board := { coreHeaders := [.ofString "c"], variantHeaders := [] } }
    let kept : Selection := fun path =>
      path ∈ [["board".toList], ["board".toList, "core_headers".toList]]
    let board := Json.objectOf [("core_headers".toList, Path.listToJson [.ofString "c"])]
    let json := Json.objectOf [("x".toList, .array [.number "-1.5e3".toList]), ("board".toList, board)]
    let text := " \x7b\"x\": [-1.5e3],\"b\\u006fard\":\x7b\"core_headers\":[\"c\"]\x7d\x7d\n".toList
    project.IsPart kept json ∧ Json.IsText json text ∧
      Json.decodeText? Project.ofJson? text = some { board := { coreHeaders := [.ofString "c"] } } := by
  intro project kept board json text
  have hboard : project.board.IsPart (kept.under "board".toList) board :=
    @Contains.object _ _ _ [] (.refl _) (by simp)
  have hlibraries : Registry.IsPart (kept.under "libraries".toList) project.libraries
      (Json.objectOf []) := @Registry.IsPart.object _ _ [] _ .nil .rfl
  have hsketch : project.sketch.IsPart (kept.under "sketch".toList) (Json.objectOf []) :=
    @Contains.object _ _ _ [] (.refl _) (by simp)
  have hpart : project.IsPart kept json := .object hboard hlibraries hsketch
    (@Contains.object _ _ _ [("x".toList, .array [.number "-1.5e3".toList])] (.swap _ _ []) (by decide))
  have hdigit : ∀ c : Char, c.isDigit = true → Json.IsDigits [c] := fun c hc =>
    ⟨by simp, by simpa using hc⟩
  have hnumber : Json.IsNumber "-1.5e3".toList :=
    .negative (.parts (.digits (hdigit '1' rfl) (by decide)) (.digits (hdigit '5' rfl))
      (.digits (e := 'e') (.inl rfl) (.inl rfl) (hdigit '3' rfl)))
  have hkey : Json.SpellsString (.ofText "board".toList) "\"b\\u006fard\"".toList :=
    .quoted (.cons (.plain (c := 'b') (by decide) (by decide) (by decide))
      (.cons (.code (x := 'o') (a := '0') (b := '0') (c := '6') (d := 'f') (by decide))
      (.cons (.plain (c := 'a') (by decide) (by decide) (by decide))
      (.cons (.plain (c := 'r') (by decide) (by decide) (by decide))
      (.cons (.plain (c := 'd') (by decide) (by decide) (by decide)) .nil)))))
  have hspace : Json.IsSpace [' '] := by decide
  have hx := Spells.member (Json.spellsString_ofText "x".toList) Json.isSpace_nil hspace
    (.array Json.isSpace_nil (.lastItem (.number hnumber) Json.isSpace_nil))
  have hvalue : Spells (.value board) (Json.write board) :=
    Json.spells_objectOf (by simpa using Path.spells_listToJson _)
  have hfield := Spells.member hkey Json.isSpace_nil Json.isSpace_nil hvalue
  have hobject := Spells.object Json.isSpace_nil (.members hx Json.isSpace_nil Json.isSpace_nil
    (.lastMember hfield Json.isSpace_nil))
  have hend : Json.IsSpace ['\n'] := by decide
  have htext : Json.IsText json text := .spaced hspace hobject hend
  have hread := (json_forms_read_back.2 kept json text htext).2.2.2 project hpart
  exact ⟨hpart, htext, hread⟩

end SketchBuild
