import SketchBuild.Proofs.Sketch.Lines
import SketchBuild.Proofs.Sketch.Lookahead
import SketchBuild.Proofs.Sketch.Tokenisation

/-!
# Where include lines stand

Include lines are found line by line, without a look at what comes before them, whereas the scanner
carries strings and comments across lines. This module says where the two agree: a hash sign that
comes first in its line belongs to a directive unless a string literal or a block comment that was
opened on an earlier line is still open.

* `exists_span_of_hash`: the region of a hash sign that comes first in its line.
* `Analysis.span_of_include`: the region of an include line.
* `Analysis.include_inside_comment`: an include line need not be a directive.
-/

namespace SketchBuild

/-! ### Lines by offset -/

/-- The offset at which a line of the text starts. -/
def Text.lineOffset (t : Text) (index : Nat) : Nat :=
  (((split '\n' t).take index).flatMap (· ++ ['\n'])).length

/-- A line stands in its text at its offset, where a line starts. -/
theorem Text.exists_of_getElem?_split {t line : Text} {index : Nat}
    (h : (split '\n' t)[index]? = some line) :
    ∃ before rest, t = before ++ (line ++ rest) ∧ before.length = lineOffset t index ∧
      Region.AtLineStart t before.length := by
  obtain ⟨rest, hrest⟩ := join_of_getElem? h
  rw [join_split] at hrest
  refine ⟨_, rest, hrest, rfl, ?_⟩
  rcases List.eq_nil_or_concat ((split '\n' t).take index) with hnil | ⟨lines, last, hlast⟩
  · exact Or.inl (by rw [hnil]; rfl)
  · conv => arg 1; rw [hrest]
    rw [hlast, List.concat_eq_append, List.flatMap_append, List.flatMap_singleton]
    exact (Region.atLineStart_append_iff (by simp)).2 List.getLast?_concat

namespace Region

variable {source before blanks rest : Text}

theorem IsToken.newline_not_mem {kind : Kind} {t : Text} (h : IsToken kind t rest)
    (hkind : kind = .charLiteral ∨ kind = .lineComment) : '\n' ∉ t := by
  rcases hkind with rfl | rfl
  · obtain ⟨items, hitems, rfl⟩ := h
    simp [hitems.newline_not_mem]
  · obtain ⟨⟨body, hbody, rfl⟩, -⟩ := h
    simp [hbody]

/-- A directive can be read wherever a line starts with a hash sign, blanks aside. -/
theorem exists_directiveAt (hblanks : ∀ c ∈ blanks, isInnerBlank c = true)
    (hsource : source = before ++ (blanks ++ '#' :: rest))
    (hline : AtLineStart source before.length) :
    ∃ stop, TokenAt source ⟨.directive, before.length, stop⟩ := by
  obtain ⟨split, hsplit⟩ := Option.ne_none_iff_exists'.1 (directive?_ne_none (u := rest) hblanks)
  have htoken := isToken_of_directive? hsplit
  have hne : split.1 ≠ [] := by
    obtain ⟨⟨blanks, body, -, htext⟩, -⟩ := htoken
    simp [htext]
  rw [hsource, ← directive?_append hsplit, ← List.append_assoc] at hline ⊢
  exact ⟨_, tokenAt_append hne htoken fun _ => hline⟩

/-- A token that reaches into the blanks in front of a hash sign reaches beyond the sign. -/
theorem TokenAt.hash_lt_stop {span : Span} (h : TokenAt source span)
    (hblanks : ∀ c ∈ blanks, isInnerBlank c = true)
    (hsource : source = before ++ (blanks ++ '#' :: rest)) (hstop : before.length < span.stop) :
    (before ++ blanks).length < span.stop := by
  by_contra hle
  rw [not_lt, List.length_append] at hle
  obtain ⟨j, hj⟩ := Nat.exists_eq_add_of_lt hstop
  have htake : source.take span.stop = before ++ blanks.take (j + 1) := by
    rw [hsource, hj, Nat.add_assoc, List.take_length_add_append,
      List.take_append_of_le_length (by omega)]
  have hdrop : source.drop span.stop = blanks.drop (j + 1) ++ '#' :: rest := by
    rw [hsource, hj, Nat.add_assoc, List.drop_length_add_append,
      List.drop_append_of_le_length (by omega)]
  have hstart := h.start_lt
  -- Such a token would end with a blank and in front of a blank or the hash sign.
  rcases h.token.ends with hend | ⟨c, hc, hquote⟩
  · rw [hdrop] at hend
    cases hinner : blanks.drop (j + 1) with
    | nil =>
      rw [hinner] at hend
      rcases hend with hend | ⟨after, hend⟩
      · cases hend
      · cases hend
    | cons c inner =>
      rw [hinner] at hend
      rcases hend with hend | ⟨after, hend⟩
      · cases hend
      · obtain ⟨rfl, -⟩ := List.cons.inj hend
        have hnewline : '\n' ∈ blanks.drop (j + 1) := by rw [hinner]; exact List.mem_cons_self
        exact absurd (hblanks _ (List.mem_of_mem_drop hnewline)) (by decide)
  · have hne : blanks.take (j + 1) ≠ [] := by
      rw [← List.length_pos_iff, List.length_take]
      omega
    have hlength : ¬ (source.take span.stop).length ≤ span.start := by
      rw [htake, List.length_append, List.length_take]
      omega
    rw [List.getLast?_drop, if_neg hlength, htake, List.getLast?_append_of_ne_nil _ hne] at hc
    have hblank := hblanks c (List.mem_of_mem_take (List.mem_of_getLast? hc))
    rcases hquote with rfl | rfl | rfl
    · exact absurd hblank (by decide)
    · exact absurd hblank (by decide)
    · exact absurd hblank (by decide)

/-- **Where a hash sign stands that comes first in its line.** It belongs to a directive, or else to
a string literal or block comment that was opened on an earlier line. -/
theorem exists_span_of_hash (hblanks : ∀ c ∈ blanks, isInnerBlank c = true)
    (hsource : source = before ++ (blanks ++ '#' :: rest))
    (hline : AtLineStart source before.length) :
    ∃ span ∈ spans source, span.start ≤ before.length ∧ (before ++ blanks).length < span.stop ∧
      (span.kind = .directive ∨
        (span.kind = .stringLiteral ∨ span.kind = .blockComment) ∧ span.start < before.length) := by
  have htokens := isTokenisation_spans source
  have hlt : before.length < source.length := by
    rw [hsource, List.length_append, List.length_append, List.length_cons]
    omega
  obtain ⟨span, hmem, hstart, hstop⟩ := htokens.covers.exists_mem (Nat.zero_le _) hlt
  obtain ⟨stop, hdirective⟩ := exists_directiveAt hblanks hsource hline
  -- A directive can start here, so that this is not code.
  have hcode : span.kind ≠ .code := fun hkind =>
    htokens.code span hmem hkind before.length hstart hstop _ _ hdirective
  have htoken := htokens.tokens span hmem hcode
  refine ⟨span, hmem, hstart, htoken.hash_lt_stop hblanks hsource hstop, ?_⟩
  -- No other token starts here; one that started before has a newline in it.
  have hother : span.kind ≠ .directive → span.start < before.length := by
    intro hkind
    refine lt_of_le_of_ne hstart fun heq => hkind ?_
    obtain ⟨kind, start, stop'⟩ := span
    obtain rfl : start = before.length := heq
    exact (htoken.unique hdirective).1
  have hnewline : span.kind ≠ .directive →
      '\n' ∈ (source.take span.stop).drop span.start := by
    intro hkind
    have hbefore := hother hkind
    rcases hline with hzero | hline
    · omega
    · apply List.mem_of_getElem? (i := before.length - 1 - span.start)
      rw [List.getElem?_drop, show span.start + (before.length - 1 - span.start) =
        before.length - 1 by omega, List.getElem?_take_of_lt (by omega)]
      exact hline
  cases hkind : span.kind with
  | code => exact absurd hkind hcode
  | directive => exact Or.inl rfl
  | stringLiteral => exact Or.inr ⟨Or.inl rfl, hother (by simp [hkind])⟩
  | blockComment => exact Or.inr ⟨Or.inr rfl, hother (by simp [hkind])⟩
  | charLiteral =>
    exact absurd (hnewline (by simp [hkind])) (htoken.token.newline_not_mem (Or.inl hkind))
  | lineComment =>
    exact absurd (hnewline (by simp [hkind])) (htoken.token.newline_not_mem (Or.inr hkind))

end Region

/-! ### Include lines -/

/-- The offset of the hash sign of an include line. -/
def Include.hashOffset (source : Text) (found : Include) : Nat :=
  Text.lineOffset source found.index + (found.text.takeWhile Text.isBlank).length

namespace Analysis

/-- **Where an include line stands.** Its hash sign belongs to a directive, or else to a string
literal or block comment that was opened on an earlier line. -/
theorem span_of_include (options : SketchOptions) (source : Text) (found : Include)
    (h : found ∈ (ofSource options source).includes) :
    source[found.hashOffset source]? = some '#' ∧
      ∃ span ∈ Region.spans source, span.start ≤ Text.lineOffset source found.index ∧
        found.hashOffset source < span.stop ∧
        (span.kind = .directive ∨
          (span.kind = .stringLiteral ∨ span.kind = .blockComment) ∧
            span.start < Text.lineOffset source found.index) := by
  have hline := Include.getElem?_of_mem_hoisted h
  have hparse := (Include.mem_index_hoisted hline).1 (List.mem_map_of_mem h)
  have hnewline := Text.not_mem_of_mem_split (List.mem_of_getElem? hline)
  obtain ⟨hblanks, rest, hrest⟩ := Include.exists_hash_of_parse? hnewline hparse
  obtain ⟨before, after, hsource, hoffset, hstart⟩ := Text.exists_of_getElem?_split hline
  rw [hrest, List.append_assoc, List.cons_append] at hsource
  have hspan := Region.exists_span_of_hash hblanks hsource hstart
  rw [List.length_append, hoffset] at hspan
  refine ⟨?_, hspan⟩
  rw [Include.hashOffset, ← hoffset, ← List.length_append]
  conv_lhs => rw [hsource, ← List.append_assoc]
  simp

/-- The second line of a string literal is an include line like any other. -/
theorem span_of_include_in_string :
    (⟨" #include <a> \";".toList, 1, ['a'], .angle⟩ : Include) ∈
        (ofSource {} "s = \"\n #include <a> \";".toList).includes ∧
      ∃ span ∈ Region.spans "s = \"\n #include <a> \";".toList, span.start ≤ 6 ∧ 7 < span.stop ∧
        (span.kind = .directive ∨
          (span.kind = .stringLiteral ∨ span.kind = .blockComment) ∧ span.start < 6) := by
  have hmem : (⟨" #include <a> \";".toList, 1, ['a'], .angle⟩ : Include) ∈
      (ofSource {} "s = \"\n #include <a> \";".toList).includes := by decide +kernel
  exact ⟨hmem, (span_of_include {} _ _ hmem).2⟩

/-- An include line need not stand in a directive: one that is inside a block comment is hoisted
too. -/
theorem include_inside_comment :
    (ofSource {} "/*\n#include <a.h>\n*/".toList).includes =
        [⟨"#include <a.h>".toList, 1, "a.h".toList, .angle⟩] ∧
      Region.spans "/*\n#include <a.h>\n*/".toList = [⟨.blockComment, 0, 20⟩] ∧
      ¬ ∀ (options : SketchOptions) (source : Text),
        ∀ found ∈ (ofSource options source).includes, ∃ span ∈ Region.spans source,
          span.kind = .directive ∧ span.start ≤ found.hashOffset source ∧
            found.hashOffset source < span.stop := by
  have hincludes : (ofSource {} "/*\n#include <a.h>\n*/".toList).includes =
      [⟨"#include <a.h>".toList, 1, "a.h".toList, .angle⟩] := by decide +kernel
  have hspans : Region.spans "/*\n#include <a.h>\n*/".toList = [⟨.blockComment, 0, 20⟩] := by
    decide +kernel
  refine ⟨hincludes, hspans, fun h => ?_⟩
  obtain ⟨span, hspan, hkind, -⟩ := h {} _ _ (hincludes ▸ List.mem_singleton_self _)
  rw [hspans, List.mem_singleton] at hspan
  rw [hspan] at hkind
  cases hkind

end Analysis

end SketchBuild
