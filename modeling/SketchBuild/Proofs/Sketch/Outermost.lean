import SketchBuild.Proofs.Sketch.Redaction
import SketchBuild.Proofs.Sketch.Signature
import SketchBuild.Sketch.Analysis

/-!
# Definitions at depth zero

Prototypes are found in three stages: the sketch is redacted, its blocks are collapsed, and the
definitions of what is left are read off from left to right. This module describes the outcome on
the redacted text alone, without collapsing it. Every opening brace that is met at depth zero is
looked at by itself: the text since the nearest brace before it is its *heading*, and the longest
signature at the end of the heading, blanks aside, is what the brace declares.

* `definitions_collapseFrom`: collapsing a text and reading off the definitions is one pass over
  the headings.
* `headingsFrom_eq`: the headings of the one pass, by offset.
* `prototypes_eq_declared`: the prototypes of a sketch are what its outermost opening braces
  declare, and each of them stands in the code of the sketch at depth zero.
-/

namespace SketchBuild.Signature

open Text (isBrace isBlank trimEnd)

/-! ### The headings of a text -/

/-- The offsets of the opening braces that are met at depth zero, in ascending order. -/
def outermostOpeners (leak : Bool) (t : Text) : List Nat :=
  (List.range t.length).filter fun k => t[k]? = some '{' ∧ Block.depthFrom leak 0 (t.take k) = 0

/-- The text from the nearest brace before an offset, or the start of the text, to the offset. -/
def heading (t : Text) (k : Nat) : Text :=
  (t.take k).rtakeWhile (!isBrace ·)

/-- The signature that an opening brace at the offset declares: the longest one that ends the
heading, blanks aside. -/
def declared? (t : Text) (k : Nat) : Option Text :=
  longestSignature? (trimEnd (heading t k))

/-- The headings of the outermost opening braces in one pass. `since` is what has been read after
the last brace. -/
def headingsFrom (leak : Bool) : Int → Text → Text → List Text
  | _, _, [] => []
  | depth, since, c :: cs =>
    if isBrace c then
      (if c = '{' ∧ depth = 0 then [since] else [])
        ++ headingsFrom leak (Block.depthAfter leak depth c) [] cs
    else headingsFrom leak depth (since ++ [c]) cs

variable {leak : Bool} {t : Text}

theorem depthAfter_of_not_isBrace {c : Char} (h : isBrace c = false) (depth : Int) :
    Block.depthAfter leak depth c = depth := by
  simp only [isBrace, Bool.or_eq_false_iff, beq_eq_false_iff_ne] at h
  simp [Block.depthAfter, h.1, h.2]

theorem kept_of_not_isBrace {c : Char} (h : isBrace c = false) (depth : Int) :
    Block.kept leak depth c = if depth = 0 then [c] else [] := by
  simp only [isBrace, Bool.or_eq_false_iff, beq_eq_false_iff_ne] at h
  simp [Block.kept, h.2]

theorem kept_opening (leak : Bool) (depth : Int) :
    Block.kept leak depth '{' = if depth = 0 then ['{'] else [] := by
  simp [Block.kept]

/-- Of a closing brace nothing is kept, which happens only inside a block, or some copies of it. -/
theorem kept_closing (leak : Bool) (depth : Int) :
    depth ≠ 0 ∧ Block.kept leak depth '}' = [] ∨ Block.kept leak depth '}' = ['}'] ∨
      Block.kept leak depth '}' = ['}', '}'] := by
  unfold Block.kept
  cases leak <;> by_cases h0 : depth = 0 <;> by_cases h1 : depth = 1 <;> simp [h0, h1]

/-- Whatever is kept of a closing brace, no definition reaches across it. -/
theorem definitions_closing {since : Text} (hsince : ∀ c ∈ since, isBrace c = false) (leak : Bool)
    (depth : Int) (rest : Text) :
    definitions ((if depth = 0 then since else []) ++ (Block.kept leak depth '}' ++ rest)) =
      definitions rest := by
  have hpiece : ∀ c ∈ if depth = 0 then since else [], isBrace c = false := by
    split
    · exact hsince
    · simp
  rcases kept_closing leak depth with ⟨hdepth, hkept⟩ | hkept | hkept
  · simp [hkept, hdepth]
  · rw [hkept]
    exact definitions_append_closing hpiece rest
  · rw [hkept]
    exact (definitions_append_closing hpiece ('}' :: rest)).trans
      (definitions_append_closing (List.forall_mem_nil _) rest)

/-- Collapsing a text and reading off the definitions is one pass over the headings. What has been
read since the last brace is part of the collapsed text only at depth zero. -/
theorem definitions_collapseFrom (leak : Bool) (depth : Int) (since t : Text)
    (hsince : ∀ c ∈ since, isBrace c = false) :
    definitions ((if depth = 0 then since else []) ++ Block.collapseFrom leak depth t) =
      (headingsFrom leak depth since t).filterMap fun h => longestSignature? (trimEnd h) := by
  induction t generalizing depth since with
  | nil =>
    rw [Block.collapseFrom_nil, List.append_nil]
    split
    · exact definitions_eq_nil hsince
    · exact definitions_eq_nil (by simp)
  | cons c cs ih =>
    rw [Block.collapseFrom_cons, headingsFrom]
    -- After a brace nothing is pending, whatever the depth has become.
    have fresh := ih (Block.depthAfter leak depth c) [] (by simp)
    rw [ite_self, List.nil_append] at fresh
    by_cases hc : isBrace c = true
    · rw [if_pos hc, List.filterMap_append, ← fresh]
      rw [isBrace, Bool.or_eq_true, beq_iff_eq, beq_iff_eq] at hc
      rcases hc with rfl | rfl
      · rw [kept_opening]
        by_cases hdepth : depth = 0
        · simp only [hdepth, if_true, List.singleton_append, and_self]
          rw [definitions_append_opening hsince]
          cases hlongest : longestSignature? (trimEnd since) <;> simp [hlongest]
        · simp [hdepth]
      · rw [definitions_closing hsince]
        simp
    · rw [if_neg hc]
      rw [Bool.not_eq_true] at hc
      rw [kept_of_not_isBrace hc, depthAfter_of_not_isBrace hc,
        ← ih depth (since ++ [c]) (by simpa [or_imp, forall_and, hc] using hsince)]
      split <;> simp

/-! ### Headings by offset -/

theorem depthFrom_concat (leak : Bool) (depth : Int) (t : Text) (c : Char) :
    Block.depthFrom leak depth (t ++ [c]) =
      Block.depthAfter leak (Block.depthFrom leak depth t) c := by
  simp [Block.depthFrom]

/-- The one pass meets the outermost opening braces one after the other, each with its heading. -/
theorem headingsFrom_eq (leak : Bool) (pre t : Text) :
    headingsFrom leak (Block.depthFrom leak 0 pre) (pre.rtakeWhile (!isBrace ·)) t =
      ((List.range' pre.length t.length).filter fun k => (pre ++ t)[k]? = some '{' ∧
        Block.depthFrom leak 0 ((pre ++ t).take k) = 0).map (heading (pre ++ t)) := by
  induction t generalizing pre with
  | nil => rfl
  | cons c cs ih =>
    -- The character moves to the text that has been read, and depth and heading move with it.
    have next := ih (pre ++ [c])
    rw [depthFrom_concat, List.rtakeWhile_concat, List.length_append, List.length_singleton,
      List.append_assoc, List.singleton_append] at next
    have hhere : (pre ++ c :: cs)[pre.length]? = some c := by simp
    have htake : (pre ++ c :: cs).take pre.length = pre := by simp
    rw [headingsFrom, List.length_cons, List.range'_succ, List.filter_cons, hhere, htake]
    by_cases hc : isBrace c = true
    · rw [if_neg (by simp [hc])] at next
      rw [if_pos hc, next]
      by_cases hopens : c = '{' ∧ Block.depthFrom leak 0 pre = 0
      · simp [hopens, heading]
      · simp [hopens]
    · have hopens : c ≠ '{' := by
        rintro rfl
        exact hc rfl
      rw [if_pos (by simp [hc]), depthAfter_of_not_isBrace (by simpa using hc)] at next
      rw [if_neg hc, next]
      simp [hopens]

theorem headingsFrom_start (leak : Bool) (t : Text) :
    headingsFrom leak 0 [] t = (outermostOpeners leak t).map (heading t) := by
  have h := headingsFrom_eq leak [] t
  rwa [List.nil_append, List.length_nil, ← List.range_eq_range'] at h

/-- The definitions of a collapsed text are what the outermost opening braces declare. -/
theorem definitions_collapse (leak : Bool) (t : Text) :
    definitions (Block.collapse leak t) = (outermostOpeners leak t).filterMap (declared? t) := by
  have h := definitions_collapseFrom leak 0 [] t (by simp)
  rw [ite_self, List.nil_append, headingsFrom_start, List.filterMap_map] at h
  exact h

/-! ### What an opening brace declares -/

/-- The signature from offset `start` on and the opening brace at offset `k` make up a definition:
nothing but blanks stands between them. -/
structure DefinesAt (t : Text) (start k : Nat) (signature : Text) : Prop where
  brace : t[k]? = some '{'
  accepted : accepts signature = true
  start_le : start ≤ k
  piece : ∃ blanks, (∀ c ∈ blanks, isBlank c = true) ∧ (t.take k).drop start = signature ++ blanks

theorem mem_outermostOpeners {k : Nat} : k ∈ outermostOpeners leak t ↔
    t[k]? = some '{' ∧ Block.depthFrom leak 0 (t.take k) = 0 := by
  rw [outermostOpeners, List.mem_filter, decide_eq_true_eq, List.mem_range, and_iff_right_iff_imp]
  rintro ⟨h, -⟩
  exact (List.getElem?_eq_some_iff.1 h).1

theorem depthFrom_of_not_isBrace {piece : Text} (h : ∀ c ∈ piece, isBrace c = false) (leak : Bool)
    (depth : Int) : Block.depthFrom leak depth piece = depth := by
  induction piece with
  | nil => rfl
  | cons c cs ih =>
    rw [Block.depthFrom, List.foldl_cons, depthAfter_of_not_isBrace (h c List.mem_cons_self)]
    exact ih fun d hd => h d (List.mem_cons_of_mem c hd)

namespace DefinesAt

variable {start k : Nat} {signature : Text} (h : DefinesAt t start k signature)
include h

theorem isBrace_eq_false : ∀ c ∈ (t.take k).drop start, isBrace c = false := by
  obtain ⟨blanks, hblanks, hpiece⟩ := h.piece
  rw [hpiece]
  exact isBrace_eq_false_of_accepts_append h.accepted hblanks

/-- Inside a definition there is no brace, so all of it lies at the depth of its opening brace. -/
theorem depthFrom_take {n : Nat} (hstart : start ≤ n) (hn : n ≤ k) (leak : Bool) :
    Block.depthFrom leak 0 (t.take n) = Block.depthFrom leak 0 (t.take k) := by
  have hsplit : t.take k = t.take n ++ (t.take k).drop n := by
    have hwhole := (List.take_append_drop n (t.take k)).symm
    rwa [List.take_take, Nat.min_eq_left hn] at hwhole
  have hfree : ∀ c ∈ (t.take k).drop n, isBrace c = false := by
    intro c hc
    rw [show n = start + (n - start) by omega, ← List.drop_drop] at hc
    exact h.isBrace_eq_false c (List.mem_of_mem_drop hc)
  have hsame := depthFrom_of_not_isBrace hfree leak (Block.depthFrom leak 0 (t.take n))
  rw [Block.depthFrom, Block.depthFrom, ← List.foldl_append, ← hsplit] at hsame
  exact hsame.symm

/-- Every definition that ends at an opening brace is part of what the brace declares. -/
theorem suffix_declared? : ∃ longest, declared? t k = some longest ∧ signature <:+ longest := by
  obtain ⟨blanks, hblanks, hpiece⟩ := h.piece
  have hfree : ∀ c ∈ ((t.take k).drop start).reverse, (!isBrace c) = true := by
    simpa using h.isBrace_eq_false
  -- The heading reaches back at least to the start of the definition.
  have hheading : heading t k =
      ((t.take k).take start).rtakeWhile (!isBrace ·) ++ (t.take k).drop start := by
    conv_lhs => rw [heading, ← List.take_append_drop start (t.take k)]
    rw [List.rtakeWhile, List.reverse_append, List.takeWhile_append_of_pos hfree,
      List.reverse_append, List.reverse_reverse, List.rtakeWhile]
  refine suffix_longestSignature? ?_ h.accepted
  rw [hheading, hpiece, ← List.append_assoc, Text.trimEnd_append_blanks _ hblanks,
    trimEnd_append_of_accepts _ h.accepted]
  exact List.suffix_append _ _

end DefinesAt

/-- What an opening brace declares is a definition that ends there. -/
theorem exists_definesAt {k : Nat} {signature : Text} (hbrace : t[k]? = some '{')
    (h : declared? t k = some signature) : ∃ start, DefinesAt t start k signature := by
  obtain ⟨⟨inner, hinner⟩, haccepts, -⟩ := longestSignature?_eq_some_iff.1 h
  obtain ⟨blanks, hblanks, hend⟩ := Text.exists_blanks_of_trimEnd (heading t k)
  obtain ⟨outer, houter⟩ : heading t k <:+ t.take k := List.rtakeWhile_suffix _ _
  have hpiece : t.take k = outer ++ inner ++ (signature ++ blanks) := by
    rw [← houter, hend, ← hinner]
    simp
  refine ⟨(outer ++ inner).length, hbrace, haccepts, ?_, blanks, hblanks, ?_⟩
  · have hlength := congrArg List.length hpiece
    rw [List.length_take, List.length_append] at hlength
    omega
  · rw [hpiece, List.drop_left]

end SketchBuild.Signature

namespace SketchBuild.Analysis

open Signature

/-- **Prototypes by outermost braces.** The prototypes of a sketch are, in order, what the
outermost opening braces of its redacted text declare. Each stands there as one piece with its
brace, all of it at depth zero and, spaces aside, all of it code; and no definition whose opening
brace is met at depth zero is left out. -/
theorem prototypes_eq_declared (options : SketchOptions) (source : Text) :
    let r := Region.redact source
    let leak := options.braceLeak
    (ofSource options source).prototypes =
        (outermostOpeners leak r).filterMap (fun k => (declared? r k).map Prototype.mk) ∧
      (outermostOpeners leak r).Pairwise (· < ·) ∧
      (∀ k ∈ outermostOpeners leak r, ∀ signature, declared? r k = some signature →
        ∃ start, DefinesAt r start k signature ∧
          ∀ n, start ≤ n → n ≤ k → Block.depthFrom leak 0 (r.take n) = 0 ∧
            (r[n]? ≠ some ' ' → Region.StandsInCode source n)) ∧
      (∀ start k signature, DefinesAt r start k signature →
        Block.depthFrom leak 0 (r.take k) = 0 →
          k ∈ outermostOpeners leak r ∧
            ∃ longest, declared? r k = some longest ∧ signature <:+ longest) := by
  intro r leak
  refine ⟨?_, List.pairwise_lt_range.filter _, ?_, ?_⟩
  · change (definitions (Block.collapse leak r)).map Prototype.mk = _
    rw [definitions_collapse, List.map_filterMap]
  · intro k hk signature hdeclared
    obtain ⟨hbrace, hdepth⟩ := mem_outermostOpeners.1 hk
    obtain ⟨start, hdefines⟩ := exists_definesAt hbrace hdeclared
    refine ⟨start, hdefines, fun n hstart hn => ⟨?_, fun hspace => ?_⟩⟩
    · rw [hdefines.depthFrom_take hstart hn leak, hdepth]
    · obtain ⟨hlt, -⟩ := List.getElem?_eq_some_iff.1 hbrace
      have hn' : r[n]? = some (r[n]) := List.getElem?_eq_getElem (by omega)
      refine Region.standsInCode_of_redact hn' fun h => hspace (by rw [hn', h])
  · intro start k signature hdefines hdepth
    exact ⟨mem_outermostOpeners.2 ⟨hdefines.brace, hdepth⟩, hdefines.suffix_declared?⟩

end SketchBuild.Analysis
