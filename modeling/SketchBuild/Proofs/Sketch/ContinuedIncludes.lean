import SketchBuild.Proofs.Sketch.Regeneration

/-!
# Include lines that are continued

A backslash at the end of a line continues it over the next one. Include lines are read without a
look at their end: behind the closing delimiter anything may stand, and so may a backslash. Such a
line is hoisted together with its backslash, and in the generated text both of its copies take in
the line after them.

* `parse?_append_backslash`: a backslash at the end neither makes an include line nor hides one.
* `splices_iff`: a line takes in the next one if there is one and the line ends with a continuation.
* `Analysis.hoisted_continued`: which continued lines are hoisted, and what becomes of the lines
  after their copies.
-/

namespace SketchBuild

/-! ### What is read of a line -/

namespace Include

variable {tail : Text}

theorem path?_append_backslash (htail : ∀ c ∈ tail, closes c = false) (t : Text) :
    path? (t ++ '\\' :: tail) = path? t := by
  -- The unbroken run grows at most by characters that do not close it.
  obtain ⟨more, hmore, hrun⟩ : ∃ more : Text, (∀ c ∈ more.reverse, (!closes c) = true) ∧
      (t ++ '\\' :: tail).takeWhile (!Text.isBlank ·) = t.takeWhile (!Text.isBlank ·) ++ more := by
    rw [List.takeWhile_append]
    split
    · next hlength =>
      refine ⟨('\\' :: tail).takeWhile (!Text.isBlank ·), ?_, ?_⟩
      · intro c hc
        have hmem : c ∈ '\\' :: tail := (List.takeWhile_sublist _).mem (List.mem_reverse.1 hc)
        rcases List.mem_cons.1 hmem with rfl | hmem
        · decide
        · simp [htail c hmem]
      · rw [(List.takeWhile_prefix (!Text.isBlank ·)).eq_of_length hlength]
    · exact ⟨[], by simp, by simp⟩
  simp only [path?, hrun, List.reverse_append, List.dropWhile_append_of_pos hmore]

theorem trimStart_append_backslash (t tail : Text) :
    Text.trimStart (t ++ '\\' :: tail) = Text.trimStart t ++ '\\' :: tail := by
  have hbackslash : Text.isBlank '\\' = false := by decide
  rw [Text.trimStart, List.dropWhile_append]
  split
  · next hnil =>
    rw [List.isEmpty_iff] at hnil
    rw [Text.trimStart, hnil, List.dropWhile_cons_of_neg (by simp [hbackslash]), List.nil_append]
  · rfl

theorem isPrefixOf?_append_cons {p : Text} {c : Char} (hc : c ∉ p) (t tail : Text) :
    p.isPrefixOf? (t ++ c :: tail) = (p.isPrefixOf? t).map (· ++ c :: tail) := by
  induction p generalizing t with
  | nil => rfl
  | cons d p ih =>
    rw [List.mem_cons, not_or] at hc
    cases t with
    | nil =>
      have hne : (d == c) = false := beq_false_of_ne (Ne.symm hc.1)
      simp [List.isPrefixOf?, hne]
    | cons e t =>
      simp only [List.cons_append, List.isPrefixOf?]
      split
      · exact ih hc.2 t
      · rfl

/-- **The end of a line is not looked at.** A backslash, and behind it whatever closes no path,
neither makes an include line nor hides one. -/
theorem parse?_append_backslash (htail : ∀ c ∈ tail, closes c = false) (line : Text) :
    parse? (line ++ '\\' :: tail) = parse? line := by
  have hword : '\\' ∉ "#include".toList := by decide +kernel
  unfold parse?
  rw [trimStart_append_backslash, isPrefixOf?_append_cons hword]
  cases "#include".toList.isPrefixOf? (Text.trimStart line) with
  | none => rfl
  | some rest =>
    simp only [Option.map_some, trimStart_append_backslash]
    cases Text.trimStart rest with
    | nil => simp
    | cons c cs =>
      rw [List.cons_append]
      by_cases hangle : c = '<'
      · simp only [hangle, path?_append_backslash htail]
      · by_cases hquote : c = '"'
        · simp only [hquote, path?_append_backslash htail]
        · simp [hangle, hquote]

theorem mem_hoisted_iff {lines : List Text} {found : Include} : found ∈ hoisted lines ↔
    lines[found.index]? = some found.text ∧
      parse? found.text = some (found.style, found.path) := by
  constructor
  · intro h
    exact ⟨getElem?_of_mem_hoisted h, parse?_of_mem_hoisted h⟩
  · rintro ⟨hline, hparse⟩
    exact mem_hoisted.2 ⟨_, _, hline, by rw [ofLine?, hparse]; rfl⟩

end Include

/-! ### Lines that are read as one -/

namespace Region

/-- The logical line that starts with the given line of the text goes on over the next one. -/
def Splices (t : Text) (index : Nat) : Prop :=
  ∃ line rest, (Text.split '\n' t).drop index = line :: rest ∧
    line ++ ['\n'] <+: (logicalLine (Text.join '\n' (line :: rest))).1

/-- A logical line goes beyond the end of a line exactly if the line ends with a continuation. -/
theorem IsLogicalLine.prefix_iff {t rest line after : Text} (h : IsLogicalLine t rest)
    (hwhole : t ++ rest = line ++ '\n' :: after) (hline : '\n' ∉ line) :
    line ++ ['\n'] <+: t ↔ Continues line := by
  constructor
  · rintro ⟨more, rfl⟩
    exact h.newlines line more (by simp)
  · intro hcontinues
    have hreach : line ++ ['\n'] <+: t ++ rest := ⟨after, by rw [hwhole]; simp⟩
    rcases List.prefix_or_prefix_of_prefix hreach (List.prefix_append t rest) with hlong | hshort
    · exact hlong
    · rcases List.prefix_concat_iff.1 hshort with rfl | ⟨more, rfl⟩
      · exact List.prefix_rfl
      · -- Inside the line there is no newline to stop at, and at its end the line is continued.
        rw [List.append_assoc] at hwhole
        have hrest := List.append_cancel_left hwhole
        rcases h.stops with hnil | ⟨⟨next, hnext⟩, hstops⟩
        · simp [hnil] at hrest
        · cases more with
          | nil =>
            rw [List.append_nil] at hcontinues
            exact absurd hcontinues hstops
          | cons c more =>
            rw [hnext] at hrest
            obtain ⟨rfl, -⟩ := List.cons.inj hrest
            exact absurd (by simp) hline

/-- A line takes in the next one exactly if there is one and the line ends with a continuation. -/
theorem splices_iff {t line : Text} {index : Nat}
    (hline : (Text.split '\n' t)[index]? = some line) :
    Splices t index ↔ Continues line ∧ index + 1 < (Text.split '\n' t).length := by
  have hnewline := Text.not_mem_of_mem_split (List.mem_of_getElem? hline)
  obtain ⟨hindex, hget⟩ := List.getElem?_eq_some_iff.1 hline
  have hlength := List.length_drop (i := index + 1) (l := Text.split '\n' t)
  have hdrop : (Text.split '\n' t).drop index = line :: (Text.split '\n' t).drop (index + 1) := by
    rw [List.drop_eq_getElem_cons hindex, hget]
  generalize (Text.split '\n' t).drop (index + 1) = rest at hlength hdrop
  have hsplices : Splices t index ↔
      line ++ ['\n'] <+: (logicalLine (Text.join '\n' (line :: rest))).1 := by
    constructor
    · rintro ⟨line', rest', hdrop', hreach⟩
      obtain ⟨rfl, rfl⟩ := List.cons.inj (hdrop.symm.trans hdrop')
      exact hreach
    · exact fun hreach => ⟨line, rest, hdrop, hreach⟩
  have hwhole := logicalLine_append (Text.join '\n' (line :: rest))
  rw [hsplices]
  cases rest with
  | nil =>
    -- The last line of the text has no newline behind it.
    rw [Text.join_singleton] at hwhole ⊢
    constructor
    · intro hreach
      exact absurd (hwhole ▸ List.mem_append_left _ (hreach.subset (by simp))) hnewline
    · rintro ⟨-, hlt⟩
      rw [List.length_nil] at hlength
      omega
  | cons next rest =>
    rw [List.length_cons] at hlength
    rw [and_iff_left (by omega)]
    conv_rhs at hwhole => rw [Text.join_cons_cons]
    exact (isLogicalLine_logicalLine _).prefix_iff hwhole hnewline

end Region

/-! ### The copies of a continued include line -/

namespace Analysis

open Region (Continues Splices splices_iff)

variable {options : SketchOptions} {name source : Text} {found : Include}

/-- The include lines stand in the header behind the master include. -/
theorem getElem?_header {k : Nat} (h : (ofSource options source).includes[k]? = some found) :
    (Text.split '\n' (generate options name source))[
      (Text.split '\n' (masterInclude options)).length + k]? = some found.text := by
  have hk : k < ((ofSource options source).includes.map Include.text).length := by
    rw [List.length_map]
    exact (List.getElem?_eq_some_iff.1 h).1
  rw [split_generate, headerLines, List.append_assoc, List.append_assoc, List.append_assoc,
    List.getElem?_append_right (Nat.le_add_right _ _), Nat.add_sub_cancel_left,
    List.getElem?_append_left hk, List.getElem?_map, h, Option.map_some]

/-- An include line stands in the body in its place, commented out. -/
theorem getElem?_commentedOut (h : found ∈ (ofSource options source).includes) :
    (Text.split '\n' (generate options name source))[
      (headerLines options name source).length + found.index]? =
        some ('/' :: '/' :: found.text) := by
  obtain ⟨hline, hparse⟩ := Include.mem_hoisted_iff.1 h
  rw [split_generate, List.getElem?_append_right (Nat.le_add_right _ _), Nat.add_sub_cancel_left,
    Include.body, List.getElem?_map, hline, Option.map_some, Include.bodyLine, hparse]
  rfl

/-- **Continued include lines.** A line that ends with a continuation is hoisted exactly if it is an
include line without it; otherwise it is left where it is. A hoisted line takes its continuation
along: its copy in the header then takes in the next line of the header, and its copy in the body
the next line of the body, if there is one. -/
theorem hoisted_continued (options : SketchOptions) (name source : Text) :
    (∀ (lines : List Text) (index : Nat) (front mark : Text),
        mark = ['\\'] ∨ mark = ['\\', '\r'] → lines[index]? = some (front ++ mark) →
          (∀ style path, (⟨front ++ mark, index, path, style⟩ : Include) ∈ Include.hoisted lines ↔
            Include.parse? front = some (style, path)) ∧
          (Include.body lines)[index]? = some (if (Include.parse? front).isSome then
            '/' :: '/' :: (front ++ mark) else front ++ mark)) ∧
      (∀ k found, (ofSource options source).includes[k]? = some found →
        (Splices (generate options name source)
            ((Text.split '\n' (masterInclude options)).length + k) ↔ Continues found.text) ∧
          (Splices (generate options name source)
              ((headerLines options name source).length + found.index) ↔
            Continues found.text ∧ found.index + 1 < (Text.split '\n' source).length)) := by
  constructor
  · intro lines index front mark hmark hline
    have hparse : Include.parse? (front ++ mark) = Include.parse? front := by
      rcases hmark with rfl | rfl
      · exact Include.parse?_append_backslash (by simp) front
      · exact Include.parse?_append_backslash (by simp [Include.closes]) front
    constructor
    · intro style path
      rw [Include.mem_hoisted_iff, hparse]
      exact and_iff_right hline
    · rw [Include.body, List.getElem?_map, hline, Option.map_some, Include.bodyLine, hparse]
  · intro k found hfound
    have hmem := List.mem_of_getElem? hfound
    have hk := (List.getElem?_eq_some_iff.1 hfound).1
    have hmarker := List.length_pos_iff.2 (Text.split_ne_nil '\n' (lineMarker options name))
    constructor
    · rw [splices_iff (getElem?_header hfound), and_iff_left]
      rw [split_generate, headerLines]
      simp only [List.length_append, List.length_map]
      omega
    · have hslashes : Continues ('/' :: '/' :: found.text) ↔ Continues found.text :=
        Region.continues_append_cons (s := ['/']) (by decide) (by decide)
      rw [splices_iff (getElem?_commentedOut hmem), hslashes, split_generate, List.length_append,
        Include.length_body, Nat.add_assoc, Nat.add_lt_add_iff_left]

/-- Two lines of a sketch, the first of them continued: its copy in the header takes in the marker,
and its copy in the body, a comment, takes in the declaration. -/
theorem hoisted_continued_declaration :
    (⟨"#include <a.h> ".toList ++ ['\\'], 0, "a.h".toList, .angle⟩ : Include) ∈
        (ofSource {} "#include <a.h> \\\nint x;".toList).includes ∧
      Text.split '\n' (generate {} ['s'] "#include <a.h> \\\nint x;".toList) =
        ["#include <Arduino.h>".toList, "#include <a.h> \\".toList, "#line 1 \"s\"".toList,
          "//#include <a.h> \\".toList, "int x;".toList] ∧
      Splices (generate {} ['s'] "#include <a.h> \\\nint x;".toList) 1 ∧
      Splices (generate {} ['s'] "#include <a.h> \\\nint x;".toList) 3 := by
  obtain ⟨hhoisted, hcopies⟩ :=
    hoisted_continued {} ['s'] "#include <a.h> \\\nint x;".toList
  have hfound : (ofSource {} "#include <a.h> \\\nint x;".toList).includes[0]? =
      some ⟨"#include <a.h> \\".toList, 0, "a.h".toList, .angle⟩ := by decide +kernel
  have hmaster : (Text.split '\n' (masterInclude {})).length = 1 := by decide +kernel
  have hlength : (headerLines {} ['s'] "#include <a.h> \\\nint x;".toList).length = 3 := by
    decide +kernel
  obtain ⟨hheader, hbody⟩ := hcopies 0 _ hfound
  rw [hmaster] at hheader
  rw [hlength] at hbody
  refine ⟨?_, by decide +kernel, hheader.2 (by decide +kernel), hbody.2 (by decide +kernel)⟩
  exact ((hhoisted _ 0 "#include <a.h> ".toList ['\\'] (Or.inl rfl) (by decide +kernel)).1 _ _).2
    (by decide +kernel)

/-- Not every continued line is left where it is. -/
theorem continued_line_hoisted :
    Include.hoisted ["#include <a.h> \\".toList, "int x;".toList] =
        [⟨"#include <a.h> \\".toList, 0, "a.h".toList, .angle⟩] ∧
      ¬ ∀ lines : List Text, ∀ found ∈ Include.hoisted lines, ¬ Continues found.text := by
  have hhoisted : Include.hoisted ["#include <a.h> \\".toList, "int x;".toList] =
      [⟨"#include <a.h> \\".toList, 0, "a.h".toList, .angle⟩] := by decide +kernel
  refine ⟨hhoisted, fun h => ?_⟩
  exact h _ _ (hhoisted ▸ List.mem_singleton_self _) (by decide +kernel)

end Analysis

end SketchBuild
