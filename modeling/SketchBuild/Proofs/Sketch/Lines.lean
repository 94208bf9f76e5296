import SketchBuild.Proofs.Text
import SketchBuild.Sketch.Analysis

/-!
# The lines of the generated text

A compiler reports the lines of the generated text, and the marker in front of the body makes it
report the lines of the sketch. That is right only if the body has the lines of the sketch, each in
its place, whatever stands in front of it.

* `split_generate`: the lines of the generated text are those of the header and those of the body.
* `mem_index_hoisted`: which lines of a sketch are include lines.
* `length_lines_lineMarker`: the marker takes the same number of lines in both of its forms.
* `line_of_generate`: the lines of the generated text, one by one.
-/

namespace SketchBuild

/-! ### Include lines -/

namespace Include

variable {lines : List Text}

theorem mem_hoisted {found : Include} : found ∈ hoisted lines ↔
    ∃ line index, lines[index]? = some line ∧ ofLine? line index = some found := by
  rw [hoisted, List.mem_filterMap]
  constructor
  · rintro ⟨⟨line, index⟩, hmem, hfound⟩
    exact ⟨line, index, List.mk_mem_zipIdx_iff_getElem?.1 hmem, hfound⟩
  · rintro ⟨line, index, hline, hfound⟩
    exact ⟨(line, index), List.mk_mem_zipIdx_iff_getElem?.2 hline, hfound⟩

/-- An include line is recorded with its own text and number. -/
theorem getElem?_of_mem_hoisted {found : Include} (h : found ∈ hoisted lines) :
    lines[found.index]? = some found.text := by
  obtain ⟨line, index, hline, hfound⟩ := mem_hoisted.1 h
  obtain ⟨⟨style, path⟩, -, rfl⟩ := Option.map_eq_some_iff.1 hfound
  exact hline

/-- The numbers of the include lines are those of the lines that can be read as an include. -/
theorem mem_index_hoisted {i : Nat} {line : Text} (h : lines[i]? = some line) :
    i ∈ (hoisted lines).map Include.index ↔ (parse? line).isSome = true := by
  rw [List.mem_map]
  constructor
  · rintro ⟨found, hmem, rfl⟩
    obtain ⟨line', index, hline, hfound⟩ := mem_hoisted.1 hmem
    obtain ⟨parsed, hparse, rfl⟩ := Option.map_eq_some_iff.1 hfound
    cases hline.symm.trans h
    exact Option.isSome_iff_exists.2 ⟨parsed, hparse⟩
  · intro hparse
    obtain ⟨parsed, hparse⟩ := Option.isSome_iff_exists.1 hparse
    refine ⟨⟨line, i, parsed.2, parsed.1⟩, mem_hoisted.2 ⟨line, i, h, ?_⟩, rfl⟩
    rw [ofLine?, hparse, Option.map_some]

/-- The first character of an include line that is not blank is a hash sign. -/
theorem exists_hash_of_parse? {line : Text} (hnewline : '\n' ∉ line)
    (h : (parse? line).isSome = true) :
    (∀ c ∈ line.takeWhile Text.isBlank, Region.isInnerBlank c = true) ∧
      ∃ rest, line = line.takeWhile Text.isBlank ++ '#' :: rest := by
  constructor
  · intro c hc
    have hne : c ≠ '\n' := by
      rintro rfl
      exact hnewline ((List.takeWhile_sublist _).mem hc)
    simp [Region.isInnerBlank, hne, List.mem_takeWhile_imp hc]
  · unfold parse? at h
    split at h
    · cases h
    · next rest hrest =>
      have hline := List.takeWhile_append_dropWhile (p := Text.isBlank) (l := line)
      have hhash := List.append_eq_of_isPrefixOf?_eq_some hrest
      refine ⟨"include".toList ++ rest, ?_⟩
      conv_lhs => rw [← hline]
      exact congrArg _ hhash.symm

theorem not_mem_bodyLine {c : Char} (hc : c ≠ '/') {line : Text} (h : c ∉ line) :
    c ∉ bodyLine line := by
  unfold bodyLine
  split
  · simp [hc, h]
  · exact h

/-- The body of a sketch is read back line by line. -/
theorem split_join_body (source : Text) :
    Text.split '\n' (Text.join '\n' (body (Text.split '\n' source))) =
      body (Text.split '\n' source) := by
  apply Text.split_join
  · intro hnil
    exact Text.split_ne_nil '\n' source (List.map_eq_nil_iff.1 hnil)
  · intro piece hpiece
    obtain ⟨line, hline, rfl⟩ := List.mem_map.1 hpiece
    exact not_mem_bodyLine (by decide) (Text.not_mem_of_mem_split hline)

end Include

/-! ### The marker -/

theorem count_newline_escapeLiteral (t : Text) :
    (escapeLiteral t).count '\n' = t.count '\n' := by
  induction t with
  | nil => rfl
  | cons c cs ih =>
    unfold escapeLiteral at ih ⊢
    rw [List.flatMap_cons, List.count_append, ih, List.count_cons]
    split
    · next hc => rcases hc with rfl | rfl <;> simp
    · simp [List.count_cons]; omega

/-- The marker takes as many lines as the name of the sketch, in both of its forms. -/
theorem length_lines_lineMarker (options : SketchOptions) (name : Text) :
    (Text.split '\n' (lineMarker options name)).length = (Text.split '\n' name).length := by
  rw [Text.length_split, Text.length_split, lineMarker]
  split
  · rw [List.count_append, List.count_append, count_newline_escapeLiteral]
    simp
  · rw [List.count_append]
    simp

/-! ### Header and body -/

/-- The lines in front of the body: the master include, the include lines, the lines of the
prototypes, and last the marker. -/
def headerLines (options : SketchOptions) (name source : Text) : List Text :=
  Text.split '\n' (masterInclude options) ++
    (Analysis.ofSource options source).includes.map Include.text ++
    (Analysis.ofSource options source).prototypes.flatMap (Text.split '\n' ·.text) ++
    Text.split '\n' (lineMarker options name)

/-- The generated text has the lines of the header and then those of the body. -/
theorem split_generate (options : SketchOptions) (name source : Text) :
    Text.split '\n' (generate options name source) =
      headerLines options name source ++ Include.body (Text.split '\n' source) := by
  have hincludes : ∀ t ∈ (Analysis.ofSource options source).includes.map Include.text,
      '\n' ∉ t := by
    intro t ht
    obtain ⟨found, hfound, rfl⟩ := List.mem_map.1 ht
    exact Text.not_mem_of_mem_split
      (List.mem_of_getElem? (Include.getElem?_of_mem_hoisted hfound))
  have hbody := Include.split_join_body source
  rw [generate, Analysis.render, Text.split_flatMap_append]
  change _ ++ Text.split '\n' (Text.join '\n' (Include.body (Text.split '\n' source))) = _
  rw [hbody, Analysis.prologue, headerLines, List.flatMap_append, List.flatMap_append,
    List.flatMap_cons, Text.flatMap_split hincludes, List.flatMap_map, List.flatMap_singleton]

/-- Turning the marker into its other form changes no more than the text of the marker. -/
theorem length_headerLines_marker (options : SketchOptions) (marker : Bool) (name source : Text) :
    (headerLines { options with lineMarker := marker } name source).length =
      (headerLines options name source).length := by
  simp only [headerLines, List.length_append, length_lines_lineMarker]
  rfl

/-- **Line fidelity.** Behind the header the generated text has exactly the lines of the sketch,
line `i` of the sketch at line `i` behind the header, commented out if it is an include line. The
header lists the include lines as they stand in the sketch. Its length and the lines behind it are
the same for both forms of the marker, whatever the name. -/
theorem line_of_generate (options : SketchOptions) (name source : Text) :
    let lines := Text.split '\n' source
    let out := Text.split '\n' (generate options name source)
    let header := headerLines options name source
    let includes := (Analysis.ofSource options source).includes
    out.length = header.length + lines.length ∧
      out.take header.length = header ∧
      (∀ found ∈ includes, lines[found.index]? = some found.text) ∧
      (∀ i line, lines[i]? = some line →
        out[header.length + i]? =
          some (if i ∈ includes.map Include.index then '/' :: '/' :: line else line)) ∧
      (∀ marker,
        (headerLines { options with lineMarker := marker } name source).length = header.length ∧
          (Text.split '\n' (generate { options with lineMarker := marker } name source)).drop
            header.length = out.drop header.length) := by
  intro lines out header includes
  have hout : out = header ++ Include.body lines := split_generate options name source
  refine ⟨?_, ?_, ?_, ?_, ?_⟩
  · rw [hout, List.length_append, Include.length_body]
  · rw [hout, List.take_left]
  · intro found hfound
    exact Include.getElem?_of_mem_hoisted hfound
  · intro i line hline
    rw [hout, List.getElem?_append_right (Nat.le_add_right _ _), Nat.add_sub_cancel_left,
      Include.body, List.getElem?_map, hline, Option.map_some]
    change some (if (Include.parse? line).isSome = true then '/' :: '/' :: line else line) = _
    simp only [← Include.mem_index_hoisted hline]
    rfl
  · intro marker
    have hlength := length_headerLines_marker options marker name source
    refine ⟨hlength, ?_⟩
    rw [split_generate, hout, List.drop_left' hlength, List.drop_left]

end SketchBuild
