import SketchBuild.Proofs.Sketch.Lines
import SketchBuild.Proofs.Sketch.Outermost
import SketchBuild.Proofs.Sketch.Seams

/-!
# Sketches one after the other

A sketch that is complete can be followed by another one, and the two are analysed as if each stood
alone. Every stage of the analysis looks back and ahead only so far, and a complete sketch ends
where none of them looks across.

* `definitions_collapse_append`: no definition reaches across a semicolon or closing brace at depth
  zero.
* `Include.hoisted_append`: include lines are found line by line.
* `Analysis.ofSource_append`: the analysis of two sketches, the first of them complete.
-/

namespace SketchBuild

/-! ### Definitions -/

namespace Signature

open Text (isBrace isBlank trimEnd)

variable {leak : Bool} {front t : Text}

theorem isTypeChar_of_accepts_cons {c : Char} (h : accepts (c :: t) = true) :
    isTypeChar c = true := by
  obtain ⟨head, parameters, hhead, -, heq⟩ := accepts_iff.1 h
  cases head with
  | nil => cases hhead
  | cons d ds =>
    obtain ⟨rfl, -⟩ := List.cons.inj heq
    by_contra hc
    simp [isHead, hc] at hhead

theorem semicolon_not_mem_of_accepts (h : accepts t = true) : ';' ∉ t := by
  intro hmem
  rcases isParameterChar_of_accepts h _ hmem with hc | hc | hc
  · exact absurd hc (by decide)
  · cases hc
  · cases hc

theorem longestSignature?_blanks_append {blanks : Text} (h : ∀ c ∈ blanks, isBlank c = true)
    (t : Text) : longestSignature? (blanks ++ t) = longestSignature? t := by
  induction blanks with
  | nil => rfl
  | cons c cs ih =>
    have hc := isTypeChar_of_isBlank (h c List.mem_cons_self)
    rw [List.cons_append, longestSignature?_cons_of_not_accepts, ih]
    · exact fun d hd => h d (List.mem_cons_of_mem c hd)
    · intro haccepts
      rw [isTypeChar_of_accepts_cons haccepts] at hc
      cases hc

theorem longestSignature?_semicolon_append (s t : Text) :
    longestSignature? (s ++ ';' :: t) = longestSignature? t := by
  have hmem : ∀ u : Text, ';' ∈ u → ¬ accepts u = true := fun u hu haccepts =>
    semicolon_not_mem_of_accepts haccepts hu
  induction s with
  | nil => exact longestSignature?_cons_of_not_accepts (hmem _ (by simp))
  | cons c cs ih =>
    rw [List.cons_append, longestSignature?_cons_of_not_accepts (hmem _ (by simp)), ih]

/-- Nothing in the text can be the beginning of a signature that goes on after it: it is blank, or
blank behind a semicolon. -/
def IsIdle (front : Text) : Prop :=
  trimEnd front = [] ∨ (trimEnd front).getLast? = some ';'

theorem longestSignature?_idle_append (h : IsIdle front) (t : Text) :
    longestSignature? (front ++ t) = longestSignature? t := by
  obtain ⟨blanks, hblanks, hfront⟩ := Text.exists_blanks_of_trimEnd front
  rw [hfront, List.append_assoc]
  rcases h with hnil | hlast
  · rw [hnil]
    exact longestSignature?_blanks_append hblanks t
  · obtain ⟨init, hinit⟩ := List.getLast?_eq_some_iff.1 hlast
    rw [hinit, List.append_assoc, List.singleton_append, longestSignature?_semicolon_append,
      longestSignature?_blanks_append hblanks]

/-- An idle text in front of a heading does not change what is declared. -/
theorem longestSignature?_trimEnd_idle_append (h : IsIdle front) (t : Text) :
    longestSignature? (trimEnd (front ++ t)) = longestSignature? (trimEnd t) := by
  rw [Text.trimEnd_append]
  split
  · next hblank =>
    rw [hblank]
    rcases h with hnil | hlast
    · rw [hnil]
    · obtain ⟨init, hinit⟩ := List.getLast?_eq_some_iff.1 hlast
      rw [hinit, longestSignature?_semicolon_append]
  · exact longestSignature?_idle_append h (trimEnd t)

/-- One pass over two texts is a pass over the first and then one over the second, which is entered
at the depth and with the pending text that the first leaves behind. -/
theorem headingsFrom_append {depth : Int} {since : Text} (hsince : ∀ c ∈ since, isBrace c = false)
    (s t : Text) :
    headingsFrom leak depth since (s ++ t) = headingsFrom leak depth since s ++
      headingsFrom leak (Block.depthFrom leak depth s) ((since ++ s).rtakeWhile (!isBrace ·))
        t := by
  induction s generalizing depth since with
  | nil =>
    have hall : since.rtakeWhile (!isBrace ·) = since :=
      List.rtakeWhile_eq_self_iff.2 (by simpa using hsince)
    rw [List.append_nil, hall]
    rfl
  | cons c cs ih =>
    rw [List.cons_append, headingsFrom, headingsFrom]
    by_cases hc : isBrace c = true
    · have hpending : (since ++ c :: cs).rtakeWhile (!isBrace ·) = cs.rtakeWhile (!isBrace ·) := by
        simp only [List.rtakeWhile, List.reverse_append, List.reverse_cons, List.append_assoc,
          List.singleton_append, List.takeWhile_append, List.takeWhile_cons, hc]
        split
        · next hlength =>
          have hall := (List.takeWhile_prefix (!isBrace ·)).eq_of_length hlength
          simp [hall]
        · rfl
      rw [if_pos hc, if_pos hc, ih (by simp), hpending, List.append_assoc]
      rfl
    · rw [if_neg hc, if_neg hc, ih (by simpa [or_imp, forall_and, hc] using hsince),
        List.append_assoc, List.singleton_append]
      rw [Bool.not_eq_true] at hc
      have hdepth : Block.depthFrom leak depth (c :: cs) = Block.depthFrom leak depth cs := by
        rw [Block.depthFrom, List.foldl_cons, depthAfter_of_not_isBrace hc]
        rfl
      rw [hdepth]

theorem declared_headingsFrom_idle (h : IsIdle front) (leak : Bool) (depth : Int)
    (since t : Text) :
    (headingsFrom leak depth (front ++ since) t).filterMap (longestSignature? <| trimEnd ·) =
      (headingsFrom leak depth since t).filterMap (longestSignature? <| trimEnd ·) := by
  induction t generalizing depth since with
  | nil => rfl
  | cons c cs ih =>
    rw [headingsFrom, headingsFrom]
    split
    · rw [List.filterMap_append, List.filterMap_append]
      congr 1
      split
      · rw [List.filterMap_cons, List.filterMap_cons, longestSignature?_trimEnd_idle_append h]
      · rfl
    · rw [List.append_assoc, ih]

/-- The text has come to rest: it is blank, or its last character that is not blank is a semicolon
or a closing brace. -/
def AtRest (t : Text) : Prop :=
  trimEnd t = [] ∨ (trimEnd t).getLast? = some ';' ∨ (trimEnd t).getLast? = some '}'

theorem AtRest.isIdle_rtakeWhile (h : AtRest t) : IsIdle (t.rtakeWhile (!isBrace ·)) := by
  obtain ⟨blanks, hblanks, ht⟩ := Text.exists_blanks_of_trimEnd t
  have hfree : ∀ c ∈ blanks.reverse, (!isBrace c) = true := by
    intro c hc
    simp [Text.isBrace_eq_false (by decide) (by decide) (hblanks c (List.mem_reverse.1 hc))]
  have hpending : t.rtakeWhile (!isBrace ·) = (trimEnd t).rtakeWhile (!isBrace ·) ++ blanks := by
    conv_lhs => rw [ht]
    rw [List.rtakeWhile, List.reverse_append, List.takeWhile_append_of_pos hfree,
      List.reverse_append, List.reverse_reverse, List.rtakeWhile]
  rw [IsIdle, hpending, Text.trimEnd_append_blanks _ hblanks]
  rcases h with hnil | hlast | hlast
  · rw [hnil]
    exact Or.inl rfl
  · obtain ⟨init, hinit⟩ := List.getLast?_eq_some_iff.1 hlast
    rw [hinit, List.rtakeWhile_concat_pos _ _ _ (by decide)]
    have hend : trimEnd [';'] = [';'] := by decide
    rw [Text.trimEnd_append, hend]
    simp
  · obtain ⟨init, hinit⟩ := List.getLast?_eq_some_iff.1 hlast
    rw [hinit, List.rtakeWhile_concat_neg _ _ _ (by decide)]
    exact Or.inl rfl

/-- Where a text has come to rest at depth zero, the definitions after it are found as if nothing
stood before them. -/
theorem definitions_collapse_append {r : Text} (hdepth : Block.depthFrom leak 0 r = 0)
    (hrest : AtRest r) (r' : Text) :
    definitions (Block.collapse leak (r ++ r')) =
      definitions (Block.collapse leak r) ++ definitions (Block.collapse leak r') := by
  have hpass : ∀ t, definitions (Block.collapse leak t) =
      (headingsFrom leak 0 [] t).filterMap (longestSignature? <| trimEnd ·) := by
    intro t
    have h := definitions_collapseFrom leak 0 [] t (by simp)
    rwa [ite_self, List.nil_append] at h
  rw [hpass, hpass, hpass, headingsFrom_append (by simp), List.filterMap_append, hdepth,
    List.nil_append]
  have hidle := declared_headingsFrom_idle hrest.isIdle_rtakeWhile leak 0 [] r'
  rw [List.append_nil] at hidle
  rw [hidle]

end Signature

/-! ### Lines and includes -/

namespace Include

/-- The include as it is found that many lines further down. -/
def shift (lines : Nat) (found : Include) : Include :=
  { found with index := found.index + lines }

theorem ofLine?_add (line : Text) (lines index : Nat) :
    ofLine? line (lines + index) = (ofLine? line index).map (shift lines) := by
  rw [ofLine?, ofLine?, Option.map_map, Nat.add_comm]
  rfl

/-- Include lines are found line by line, whatever lines stand before them. -/
theorem hoisted_append (lines lines' : List Text) :
    hoisted (lines ++ lines') = hoisted lines ++ (hoisted lines').map (shift lines.length) := by
  have hlater : lines'.zipIdx (0 + lines.length) =
      lines'.zipIdx.map fun p => (p.1, lines.length + p.2) := by
    rw [Nat.zero_add]
    exact List.zipIdx_eq_map_add
  unfold hoisted
  rw [List.zipIdx_append, List.filterMap_append, hlater, List.filterMap_map, List.map_filterMap]
  congr 2
  funext ⟨line, index⟩
  exact ofLine?_add line lines.length index

theorem body_append (lines lines' : List Text) :
    body (lines ++ lines') = body lines ++ body lines' :=
  List.map_append

end Include

/-! ### Analysis -/

namespace Analysis

/-- A sketch that another one can follow: it ends with a newline in its code, with all its blocks
closed, and its last character that is not blank, if there is one, ends a statement or a block. -/
structure IsComplete (leak : Bool) (source : Text) : Prop where
  newline : source.getLast? = some '\n'
  code : (Region.scan source).getLast?.map Region.kind = some .code
  depth : Block.depthFrom leak 0 (Region.redact source) = 0
  rest : Signature.AtRest (Region.redact source)

variable (options : SketchOptions) {source : Text}

theorem prototypesOf_append (h : IsComplete options.braceLeak source) (more : Text) :
    prototypesOf options (source ++ more) =
      prototypesOf options source ++ prototypesOf options more := by
  have hredact : Region.redact (source ++ more) = Region.redact source ++ Region.redact more :=
    Region.redact_append ⟨h.newline, h.code⟩ more
  simp only [prototypesOf, Prototype.extract]
  rw [hredact, Signature.definitions_collapse_append h.depth h.rest, List.map_append]

/-- **Sketches one after the other.** The analysis of a complete sketch and another one behind it is
put together from the analyses of the two: the prototypes and includes of the first come before
those of the second, whose includes are found as many lines further down as the first has, and the
lines of the second take the place of the empty line at the end of the first. -/
theorem ofSource_append (h : IsComplete options.braceLeak source) (more : Text) :
    (ofSource options source).body.getLast? = some [] ∧
      ofSource options (source ++ more) =
        { includes := (ofSource options source).includes ++
            (ofSource options more).includes.map (Include.shift (source.count '\n'))
          prototypes := (ofSource options source).prototypes ++ (ofSource options more).prototypes
          body := (ofSource options source).body.dropLast ++ (ofSource options more).body } := by
  obtain ⟨init, rfl⟩ := List.getLast?_eq_some_iff.1 h.newline
  -- The last line of the first sketch is the empty one behind its last newline.
  have hlines : Text.split '\n' (init ++ ['\n']) = Text.split '\n' init ++ [[]] :=
    Text.split_append_cons '\n' init []
  have hlines' : Text.split '\n' (init ++ ['\n'] ++ more) =
      Text.split '\n' init ++ Text.split '\n' more := by
    rw [List.append_assoc, List.singleton_append, Text.split_append_cons]
  have hlength : (Text.split '\n' init).length = (init ++ ['\n']).count '\n' := by
    rw [Text.length_split, List.count_append]
    rfl
  have hbody : Include.body (Text.split '\n' init ++ [[]]) =
      Include.body (Text.split '\n' init) ++ [[]] := Include.body_append _ _
  have hincludes : Include.hoisted (Text.split '\n' init ++ [[]]) =
      Include.hoisted (Text.split '\n' init) := by
    rw [Include.hoisted_append]
    exact List.append_nil _
  constructor
  · simp only [ofSource, hlines, hbody, List.getLast?_concat]
  · simp only [ofSource, hlines, hlines', hbody, hincludes, prototypesOf_append options h,
      Include.hoisted_append, Include.body_append, hlength, List.dropLast_concat]

/-- After a statement the next sketch starts afresh: its include is counted from the three lines
before it, and the word before the semicolon does not become part of its definition. -/
theorem ofSource_append_statement :
    IsComplete false "#include <a>\nint f() \x7b\x7d\nlong;\n".toList ∧
      ofSource {} ("#include <a>\nint f() \x7b\x7d\nlong;\n".toList ++
          "#include <b>\nbool g() \x7b".toList) =
        { includes := [⟨"#include <a>".toList, 0, ['a'], .angle⟩,
            ⟨"#include <b>".toList, 3, ['b'], .angle⟩]
          prototypes := [⟨"int f()".toList⟩, ⟨"bool g()".toList⟩]
          body := ["//#include <a>".toList, "int f() \x7b\x7d".toList, "long;".toList,
            "//#include <b>".toList, "bool g() \x7b".toList] } := by
  have hcomplete : IsComplete false "#include <a>\nint f() \x7b\x7d\nlong;\n".toList :=
    ⟨by decide +kernel, by decide +kernel, by decide +kernel, Or.inr (Or.inl (by decide +kernel))⟩
  refine ⟨hcomplete, ?_⟩
  rw [(ofSource_append {} hcomplete _).2]
  decide +kernel

end Analysis

end SketchBuild
