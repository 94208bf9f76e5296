import SketchBuild.Proofs.Sketch.CommentedOut
import SketchBuild.Proofs.Sketch.Concatenation

/-!
# Generating again

The generated text is itself a sketch. Its header is made of lines that declare nothing: directives,
prototypes and the marker. Its body is the sketch with some directives commented out. So the
analysis of the generated text finds the prototypes of the sketch again, and of the includes those
that the header lists.

* `prototypesOf_silent`: lines that declare nothing can stand in front of any sketch.
* `redact_body`: the body has the redacted text of the sketch.
* `ofSource_body`: the analysis of the body.
* `ofSource_generate`: the analysis of the generated text.
-/

namespace SketchBuild

open Text (isBrace isBlank trimEnd)

/-! ### Lines that declare nothing -/

namespace Region

/-- A token that is a line. -/
theorem scan_token_line {kind : Kind} {line : Text} (h : IsToken kind line ['\n']) :
    scan (line ++ ['\n']) = [⟨kind, line⟩, ⟨.code, ['\n']⟩] := by
  have hfirst : first? true (line ++ ['\n']) = some (⟨kind, line⟩, ['\n']) :=
    first?_eq_some_iff.2 ⟨rfl, h, fun _ => rfl⟩
  have hnewline : scanFrom false ['\n'] = [⟨.code, ['\n']⟩] := by decide +kernel
  rw [scan, scanFrom_of_first? hfirst, hnewline]

/-- A character that opens a token wherever it stands, or may open one. -/
def isOpening (c : Char) : Bool :=
  c == '\'' || c == '"' || c == '/' || c == '#'

/-- Without such a character all is code. -/
theorem scanFrom_plain (b : Bool) {t : Text} (hne : t ≠ [])
    (h : ∀ c ∈ t, isOpening c = false) : scanFrom b t = [⟨.code, t⟩] := by
  induction t generalizing b with
  | nil => exact absurd rfl hne
  | cons c cs ih =>
    have hc : c ≠ '\'' := by
      rintro rfl
      exact absurd (h '\'' List.mem_cons_self) (by decide)
    have hnone : first? b (c :: cs) = none := by
      rw [first?_eq_none_iff hc]
      rintro (⟨u, hu⟩ | ⟨u, hu⟩ | ⟨u, hu⟩ | ⟨-, blanks, u, -, hu⟩)
      · exact absurd (h '"' (by simp [hu])) (by decide)
      · exact absurd (h '/' (by simp [hu])) (by decide)
      · exact absurd (h '/' (by simp [hu])) (by decide)
      · exact absurd (h '#' (by simp [hu])) (by decide)
    rw [scanFrom_cons_of_first?_eq_none hnone]
    cases cs with
    | nil =>
      rw [scanFrom_nil]
      rfl
    | cons d ds =>
      rw [ih _ (List.cons_ne_nil d ds) fun e he => h e (List.mem_cons_of_mem c he)]
      rfl

end Region

namespace Analysis

open Region Signature

/-- The line is code or a token by itself, and no definition has a part in it. -/
structure IsSilent (line : Text) : Prop where
  code : (scan (line ++ ['\n'])).getLast?.map Region.kind = some .code
  braces : ∀ c ∈ redact (line ++ ['\n']), isBrace c = false
  rest : AtRest (redact (line ++ ['\n']))

theorem IsSilent.isComplete {line : Text} (h : IsSilent line) (leak : Bool) :
    IsComplete leak (line ++ ['\n']) where
  newline := List.getLast?_concat
  code := h.code
  depth := depthFrom_of_not_isBrace h.braces leak 0
  rest := h.rest

theorem IsSilent.prototypesOf {line : Text} (h : IsSilent line) (options : SketchOptions) :
    prototypesOf options (line ++ ['\n']) = [] := by
  have hnone : outermostOpeners options.braceLeak (redact (line ++ ['\n'])) = [] := by
    rw [List.eq_nil_iff_forall_not_mem]
    intro k hk
    obtain ⟨hbrace, -⟩ := mem_outermostOpeners.1 hk
    exact absurd (h.braces '{' (List.mem_of_getElem? hbrace)) (by decide)
  rw [Analysis.prototypesOf, Prototype.extract, definitions_collapse, hnone]
  rfl

theorem prototypesOf_silent (options : SketchOptions) {lines : List Text}
    (h : ∀ line ∈ lines, IsSilent line) (source : Text) :
    prototypesOf options (lines.flatMap (· ++ ['\n']) ++ source) = prototypesOf options source := by
  induction lines with
  | nil => rfl
  | cons line lines ih =>
    have hline := h line List.mem_cons_self
    rw [List.flatMap_cons, List.append_assoc, prototypesOf_append options (hline.isComplete _),
      hline.prototypesOf, List.nil_append, ih fun l hl => h l (List.mem_cons_of_mem line hl)]

theorem IsSilent.of_token {kind : Kind} {line : Text} (h : IsToken kind line ['\n']) :
    IsSilent line := by
  have hscan := scan_token_line h
  have hredact : redact (line ++ ['\n']) = [' ', '\n'] := by
    rw [redact, hscan]
    simp [redacted, h.ne_code]
  refine ⟨?_, ?_, ?_⟩
  · rw [hscan]
    rfl
  · rw [hredact]
    simp only [List.forall_mem_cons, List.not_mem_nil, false_implies, implies_true, and_true]
    decide
  · rw [hredact]
    exact Or.inl (by decide)

theorem IsSilent.of_accepts {signature : Text} (h : accepts signature = true) :
    IsSilent (signature ++ [';']) := by
  have hchars : ∀ c ∈ signature ++ [';'] ++ ['\n'],
      isOpening c = false ∧ isBrace c = false := by
    intro c hc
    simp only [List.mem_append, List.mem_singleton] at hc
    rcases hc with (hc | rfl) | rfl
    · refine ⟨?_, isBrace_eq_false_of_accepts h c hc⟩
      by_contra hopening
      simp only [isOpening, Bool.not_eq_false, Bool.or_eq_true, beq_iff_eq] at hopening
      rcases isParameterChar_of_accepts h c hc with hc | rfl | rfl
      · rcases hopening with ((rfl | rfl) | rfl) | rfl <;> exact absurd hc (by decide)
      · exact absurd hopening (by decide)
      · exact absurd hopening (by decide)
    · decide
    · decide
  have hscan : scan (signature ++ [';'] ++ ['\n']) = [⟨.code, signature ++ [';'] ++ ['\n']⟩] :=
    scanFrom_plain true (by simp) fun c hc => (hchars c hc).1
  have hredact : redact (signature ++ [';'] ++ ['\n']) = signature ++ [';'] ++ ['\n'] := by
    rw [redact, hscan]
    simp [redacted]
  refine ⟨by rw [hscan]; rfl, fun c hc => (hchars c (hredact ▸ hc)).2, ?_⟩
  have htrim : trimEnd (signature ++ [';'] ++ ['\n']) = signature ++ [';'] := by
    have hnewline : ∀ c ∈ ['\n'], isBlank c = true := by
      simp only [List.mem_singleton, forall_eq]
      decide
    rw [Text.trimEnd_append_blanks _ hnewline, Text.trimEnd_append]
    rfl
  rw [hredact, AtRest, htrim]
  exact Or.inr (Or.inl List.getLast?_concat)

theorem accepts_of_mem_prototypesOf {options : SketchOptions} {source : Text}
    {prototype : Prototype} (h : prototype ∈ prototypesOf options source) :
    accepts prototype.signature = true := by
  obtain ⟨signature, hmem, rfl⟩ := List.mem_map.1 h
  rw [definitions_collapse] at hmem
  obtain ⟨k, -, hdeclared⟩ := List.mem_filterMap.1 hmem
  exact (longestSignature?_eq_some_iff.1 hdeclared).2.1

end Analysis

/-! ### Include lines and their places -/

namespace Include

open Region

/-- An include line that the next line is not part of. -/
def isWhole (line : Text) : Bool :=
  (parse? line).isSome && !decide (Continues line)

theorem isDirectiveLine_of_isWhole {line : Text} (hnewline : '\n' ∉ line)
    (h : isWhole line = true) : IsDirectiveLine line := by
  rw [isWhole, Bool.and_eq_true, Bool.not_eq_true', decide_eq_false_iff_not] at h
  obtain ⟨hblanks, rest, hrest⟩ := exists_hash_of_parse? hnewline h.1
  exact ⟨⟨_, rest, hblanks, hrest⟩, h.2⟩

theorem parse?_of_mem_hoisted {lines : List Text} {found : Include} (h : found ∈ hoisted lines) :
    parse? found.text = some (found.style, found.path) := by
  obtain ⟨line, index, -, hread⟩ := mem_hoisted.1 h
  obtain ⟨⟨style, path⟩, hparse, rfl⟩ := Option.map_eq_some_iff.1 hread
  exact hparse

/-- A line of the body, where all include lines are whole. -/
theorem bodyLine_eq {lines : List Text} (h : ∀ found ∈ hoisted lines, ¬ Continues found.text)
    {line : Text} (hline : line ∈ lines) :
    bodyLine line = (if isWhole line then ['/', '/'] else []) ++ line := by
  obtain ⟨index, hindex⟩ := List.mem_iff_getElem?.1 hline
  unfold bodyLine isWhole
  cases hparse : parse? line with
  | none => rfl
  | some parsed =>
    have hmem : (⟨line, index, parsed.2, parsed.1⟩ : Include) ∈ hoisted lines :=
      mem_hoisted.2 ⟨line, index, hindex, by rw [ofLine?, hparse]; rfl⟩
    have hends : ¬ Continues line := h _ hmem
    simp [hends]

theorem parse?_slashes (line : Text) : parse? ('/' :: '/' :: line) = none := rfl

theorem parse?_bodyLine (line : Text) : parse? (bodyLine line) = none := by
  unfold bodyLine
  split
  · exact parse?_slashes line
  · next h => simpa using h

/-- What has been commented out is not commented out once more. -/
theorem body_body (lines : List Text) : body (body lines) = body lines := by
  have hline : ∀ line, bodyLine (bodyLine line) = bodyLine line := by
    intro line
    rw [bodyLine, parse?_bodyLine]
    rfl
  rw [body, body, List.map_map]
  exact List.map_congr_left fun line _ => hline line

theorem hoisted_eq_nil {lines : List Text} (h : ∀ line ∈ lines, parse? line = none) :
    hoisted lines = [] := by
  rw [List.eq_nil_iff_forall_not_mem]
  intro found hfound
  obtain ⟨line, index, hline, hread⟩ := mem_hoisted.1 hfound
  rw [ofLine?, h line (List.mem_of_getElem? hline)] at hread
  cases hread

/-- The body has no include lines. -/
theorem hoisted_body (lines : List Text) : hoisted (body lines) = [] := by
  apply hoisted_eq_nil
  intro line hline
  obtain ⟨line, -, rfl⟩ := List.mem_map.1 hline
  exact parse?_bodyLine line

/-- Include lines that are listed one after the other are found again in their new places. -/
theorem hoisted_map_text {includes : List Include}
    (h : ∀ found ∈ includes, parse? found.text = some (found.style, found.path)) :
    hoisted (includes.map text) = includes.mapIdx fun i found => { found with index := i } := by
  rw [hoisted, List.zipIdx_map, List.filterMap_map, List.mapIdx_eq_zipIdx_map,
    ← List.filterMap_eq_map]
  apply List.filterMap_congr
  rintro ⟨found, i⟩ hmem
  have hread := h found (List.fst_mem_of_mem_zipIdx hmem)
  simp [ofLine?, hread]

theorem path?_concat {path : Text} (hne : path ≠ []) (h : ∀ c ∈ path, isBlank c = false) :
    path? (path ++ ['>']) = some path := by
  have hrun : (path ++ ['>']).takeWhile (!isBlank ·) = path ++ ['>'] := by
    rw [List.takeWhile_eq_self_iff]
    intro c hc
    rcases List.mem_append.1 hc with hc | hc
    · simp [h c hc]
    · rw [List.mem_singleton.1 hc]
      decide
  have hcloses : closes '>' = true := by decide
  obtain ⟨init, last, rfl⟩ := (List.eq_nil_or_concat path).resolve_left hne
  simp only [path?, hrun]
  simp [hcloses]

end Include

/-! ### The header -/

section Header

variable {options : SketchOptions} (hne : options.umbrellaHeader ≠ [])
  (hblank : ∀ c ∈ options.umbrellaHeader, isBlank c = false)

include hne hblank in
theorem parse?_masterInclude :
    Include.parse? (masterInclude options) = some (.angle, options.umbrellaHeader) := by
  have hread : Include.parse? (masterInclude options) =
      (Include.path? (options.umbrellaHeader ++ ['>'])).map (.angle, ·) := rfl
  rw [hread, Include.path?_concat hne hblank, Option.map_some]

include hblank in
theorem newline_not_mem_masterInclude : '\n' ∉ masterInclude options := by
  have hopening : '\n' ∉ "#include <".toList := by decide +kernel
  intro hmem
  rcases List.mem_append.1 hmem with hmem | hmem
  · rcases List.mem_append.1 hmem with hmem | hmem
    · exact hopening hmem
    · exact absurd (hblank _ hmem) (by decide)
  · exact absurd hmem (by decide)

theorem parse?_lineMarker (name : Text) : Include.parse? (lineMarker options name) = none := by
  unfold lineMarker
  split
  · rfl
  · rfl

theorem newline_not_mem_lineMarker {name : Text} (hname : '\n' ∉ name) :
    '\n' ∉ lineMarker options name := by
  have hlength := length_lines_lineMarker options name
  rw [Text.length_split, Text.length_split, List.count_eq_zero.2 hname] at hlength
  exact List.count_eq_zero.1 (by omega)

theorem isSilent_lineMarker {name : Text} (hname : '\n' ∉ name) :
    Analysis.IsSilent (lineMarker options name) := by
  have hline : '\n' ∉ lineMarker options name := newline_not_mem_lineMarker hname
  have hend : Region.AtLineEnd ['\n'] := Or.inr ⟨[], rfl⟩
  by_cases hmarker : options.lineMarker = true
  · have hdirective : Region.IsDirectiveLine (lineMarker options name) := by
      rw [lineMarker, if_pos hmarker]
      exact ⟨⟨[], _, by simp, rfl⟩, Region.not_continues_concat (by decide) (by decide)⟩
    exact .of_token (hdirective.isToken hline hend)
  · rw [lineMarker, if_neg hmarker]
    have hbody : '\n' ∉ " line 1 ".toList ++ name :=
      List.not_mem_append (by decide +kernel) hname
    have hcomment : Region.IsToken .lineComment ("// line 1 ".toList ++ name) ['\n'] :=
      ⟨⟨_, hbody, rfl⟩, hend⟩
    exact .of_token hcomment

end Header

/-! ### The body -/

namespace Analysis

/-- The body has the redacted text of the sketch, unless an include line goes on in the next one. -/
theorem redact_body {source : Text}
    (h : ∀ found ∈ Include.hoisted (Text.split '\n' source), ¬ Region.Continues found.text) :
    Region.redact (Text.join '\n' (Include.body (Text.split '\n' source))) =
      Region.redact source := by
  have hlines : Text.join '\n' (Include.body (Text.split '\n' source)) =
      Region.commentOut Include.isWhole true source := by
    have hbody : Include.body (Text.split '\n' source) = (Text.split '\n' source).map fun line =>
        (if Include.isWhole line then ['/', '/'] else []) ++ line :=
      List.map_congr_left fun line hline => Include.bodyLine_eq h hline
    have hnewline : ∀ line ∈ Text.split '\n' source, '\n' ∉ line := fun line hline =>
      Text.not_mem_of_mem_split hline
    have hsource := Text.join_split '\n' source
    cases hsplit : Text.split '\n' source with
    | nil => exact absurd hsplit (Text.split_ne_nil '\n' source)
    | cons first lines =>
      rw [hsplit] at hbody hnewline hsource
      rw [hbody, ← Region.commentOut_join rfl hnewline, hsource]
  rw [hlines]
  exact Region.redact_commentOut (fun line => Include.isDirectiveLine_of_isWhole) source

/-- **The body is a sketch of its own.** With its include lines commented out a sketch keeps its
redacted text, wherever these lines stand, and its analysis stays the same, except that no include
is found any more. It is required that no include line goes on in the next one. -/
theorem ofSource_body (options : SketchOptions) (source : Text)
    (hends : ∀ found ∈ (ofSource options source).includes, ¬ Region.Continues found.text) :
    let body := Text.join '\n' (ofSource options source).body
    Region.redact body = Region.redact source ∧
      ofSource options body = { ofSource options source with includes := [] } := by
  intro body
  have hredact : Region.redact body = Region.redact source := redact_body hends
  have hlines : Text.split '\n' body = Include.body (Text.split '\n' source) :=
    Include.split_join_body source
  refine ⟨hredact, ?_⟩
  simp only [ofSource, prototypesOf, hredact, hlines, Include.hoisted_body, Include.body_body]

/-- One line is commented out in a string literal, behind a backslash, and another one in a
directive that was begun in the line before. -/
theorem ofSource_body_inside :
    (∀ found ∈ (ofSource {} "\"\\\n#include <a> \"\n#d \\\n#include <b>".toList).includes,
        ¬ Region.Continues found.text) ∧
      (ofSource {} "\"\\\n#include <a> \"\n#d \\\n#include <b>".toList).includes.map
        Include.index = [1, 3] ∧
      Region.redact "\"\\\n//#include <a> \"\n#d \\\n//#include <b>".toList =
        Region.redact "\"\\\n#include <a> \"\n#d \\\n#include <b>".toList ∧
      ofSource {} "\"\\\n//#include <a> \"\n#d \\\n//#include <b>".toList =
        { ofSource {} "\"\\\n#include <a> \"\n#d \\\n#include <b>".toList with
          includes := [] } := by
  have hends : ∀ found ∈ (ofSource {} "\"\\\n#include <a> \"\n#d \\\n#include <b>".toList).includes,
      ¬ Region.Continues found.text := by
    decide +kernel
  have hbody : Text.join '\n'
      (ofSource {} "\"\\\n#include <a> \"\n#d \\\n#include <b>".toList).body =
      "\"\\\n//#include <a> \"\n#d \\\n//#include <b>".toList := by
    decide +kernel
  have hsame := ofSource_body {} _ hends
  rw [hbody] at hsame
  exact ⟨hends, by decide +kernel, hsame⟩

section Generated

variable {options : SketchOptions} {name source : Text} (hname : '\n' ∉ name)
  (hblank : ∀ c ∈ options.umbrellaHeader, isBlank c = false)
include hname hblank

/-- No line of the header declares anything. -/
theorem isSilent_prologue (hheader : options.umbrellaHeader ≠ [])
    (hends : ∀ found ∈ (ofSource options source).includes, ¬ Region.Continues found.text) :
    ∀ line ∈ (ofSource options source).prologue options name, IsSilent line := by
  have hinclude : ∀ line : Text, '\n' ∉ line → (Include.parse? line).isSome = true →
      ¬ Region.Continues line → IsSilent line := by
    intro line hnewline hparse hcontinues
    have hwhole : Include.isWhole line = true := by simp [Include.isWhole, hparse, hcontinues]
    exact .of_token ((Include.isDirectiveLine_of_isWhole hnewline hwhole).isToken hnewline
      (Or.inr ⟨[], rfl⟩))
  intro line hline
  simp only [prologue, List.mem_append, List.mem_cons, List.mem_map, List.not_mem_nil,
    or_false] at hline
  rcases hline with ((rfl | ⟨found, hfound, rfl⟩) | ⟨prototype, hprototype, rfl⟩) | rfl
  · refine hinclude _ (newline_not_mem_masterInclude hblank) ?_
      (Region.not_continues_concat (by decide) (by decide))
    rw [parse?_masterInclude hheader hblank]
    rfl
  · have hline := List.mem_of_getElem? (Include.getElem?_of_mem_hoisted hfound)
    refine hinclude _ (Text.not_mem_of_mem_split hline) ?_ (hends found hfound)
    rw [Include.parse?_of_mem_hoisted hfound]
    rfl
  · exact .of_accepts (accepts_of_mem_prototypesOf hprototype)
  · exact isSilent_lineMarker hname

/-- Of the lines of the generated text only those at its top are include lines. -/
theorem hoisted_generate :
    Include.hoisted (Text.split '\n' (generate options name source)) =
      Include.hoisted
        (masterInclude options :: (ofSource options source).includes.map Include.text) := by
  have hprototypes : ∀ line ∈
      (ofSource options source).prototypes.flatMap (Text.split '\n' ·.text),
      Include.parse? line = none := by
    intro line hline
    obtain ⟨prototype, hprototype, hline⟩ := List.mem_flatMap.1 hline
    by_contra hparse
    obtain ⟨-, rest, hrest⟩ := Include.exists_hash_of_parse? (Text.not_mem_of_mem_split hline)
      (Option.isSome_iff_ne_none.2 hparse)
    -- A prototype has no hash sign.
    have hhash : '#' ∈ prototype.text :=
      (Text.infix_of_mem_split hline).subset (by rw [hrest]; simp)
    rcases List.mem_append.1 hhash with hhash | hhash
    · have haccepts := accepts_of_mem_prototypesOf hprototype
      exact absurd (Signature.isParameterChar_of_accepts haccepts _ hhash) (by decide)
    · exact absurd hhash (by decide)
  have hmarker : ∀ line ∈ Text.split '\n' (lineMarker options name),
      Include.parse? line = none := by
    rw [Text.split_eq_singleton (newline_not_mem_lineMarker hname)]
    intro line hline
    rw [List.mem_singleton.1 hline]
    exact parse?_lineMarker name
  rw [split_generate, headerLines, Text.split_eq_singleton (newline_not_mem_masterInclude hblank),
    Include.hoisted_append, Include.hoisted_append, Include.hoisted_append,
    Include.hoisted_eq_nil hprototypes, Include.hoisted_eq_nil hmarker, Include.hoisted_body]
  simp

end Generated

/-- **Generating again.** The analysis of a generated text finds the prototypes of the sketch, and
exactly the includes of the header: that of the umbrella header and those of the sketch, in order
and each in its line. It is required that the name is one line, that the umbrella header can be
included and that no include line goes on in the next one. -/
theorem ofSource_generate (options : SketchOptions) (name source : Text) (hname : '\n' ∉ name)
    (hheader : options.umbrellaHeader ≠ [])
    (hblank : ∀ c ∈ options.umbrellaHeader, isBlank c = false)
    (hends : ∀ found ∈ (ofSource options source).includes, ¬ Region.Continues found.text) :
    (ofSource options (generate options name source)).prototypes =
        (ofSource options source).prototypes ∧
      (ofSource options (generate options name source)).includes =
        ⟨masterInclude options, 0, options.umbrellaHeader, .angle⟩ ::
          (ofSource options source).includes.mapIdx fun i found =>
            { found with index := i + 1 } := by
  constructor
  · have hsilent := isSilent_prologue hname hblank hheader hends
    change prototypesOf options (generate options name source) = prototypesOf options source
    rw [generate, render, prototypesOf_silent options hsilent]
    change prototypesOf options (Text.join '\n' (Include.body (Text.split '\n' source))) = _
    rw [prototypesOf, redact_body hends, prototypesOf]
  · change Include.hoisted (Text.split '\n' (generate options name source)) = _
    rw [hoisted_generate hname hblank]
    -- The umbrella header is the first of the includes that the header lists.
    have hread : ∀ found ∈ (⟨masterInclude options, 0, options.umbrellaHeader, .angle⟩ : Include) ::
        (ofSource options source).includes,
        Include.parse? found.text = some (found.style, found.path) := by
      intro found hfound
      rcases List.mem_cons.1 hfound with rfl | hfound
      · exact parse?_masterInclude hheader hblank
      · exact Include.parse?_of_mem_hoisted hfound
    have hlisted := Include.hoisted_map_text hread
    rw [List.mapIdx_cons] at hlisted
    exact hlisted

/-- With an include inside a comment, a definition over two lines and a quote in the name, the
definition is found once more and the include in its place in the header. -/
theorem ofSource_generate_comment :
    '\n' ∉ "a\"b".toList ∧
      (∀ found ∈ (ofSource {} "/*\n#include <a>\n*/int\nf() \x7b\x7d".toList).includes,
        ¬ Region.Continues found.text) ∧
      (ofSource {} (generate {} "a\"b".toList
        "/*\n#include <a>\n*/int\nf() \x7b\x7d".toList)).prototypes = [⟨"int\nf()".toList⟩] ∧
      (ofSource {} (generate {} "a\"b".toList
        "/*\n#include <a>\n*/int\nf() \x7b\x7d".toList)).includes =
          [⟨"#include <Arduino.h>".toList, 0, "Arduino.h".toList, .angle⟩,
            ⟨"#include <a>".toList, 1, ['a'], .angle⟩] := by
  have hname : '\n' ∉ "a\"b".toList := by decide +kernel
  have hends : ∀ found ∈ (ofSource {} "/*\n#include <a>\n*/int\nf() \x7b\x7d".toList).includes,
      ¬ Region.Continues found.text := by
    decide +kernel
  have hblank : "Arduino.h".toList.all (isBlank · = false) = true := by decide +kernel
  have hstable := ofSource_generate {} "a\"b".toList
    "/*\n#include <a>\n*/int\nf() \x7b\x7d".toList hname (by decide +kernel)
    (fun c hc => of_decide_eq_true (List.all_eq_true.1 hblank c hc)) hends
  refine ⟨hname, hends, ?_, ?_⟩
  · rw [hstable.1]
    decide +kernel
  · rw [hstable.2]
    decide +kernel

end Analysis

end SketchBuild
