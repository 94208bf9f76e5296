import SketchBuild.Proofs.Sketch.Outermost

/-!
# The two modes of collapsing

The leaking mode keeps the closing braces of inner blocks, so that the collapsed texts of the two
modes differ as soon as one block stands inside another. The prototypes do not: they depend on the
depth at which opening braces are met, and only a stray closing brace, one that closes no block,
makes the depths of the two modes part.

* `depthAfter_congr`: the modes part only at a closing brace outside all blocks.
* `depthFrom_of_noStray`: without stray closing braces the depth counts opening against closing
  braces in both modes.
* `Analysis.ofSource_braceLeak`: so the mode has no effect on the analysis of such a sketch.
-/

namespace SketchBuild

namespace Block

/-- No closing brace is stray: no front of the text closes more blocks than it opens. -/
def NoStray (t : Text) : Prop :=
  ∀ front, front <+: t → front.count '}' ≤ front.count '{'

/-- Opening braces counted against closing ones. -/
def balance (t : Text) : Int :=
  t.count '{' - t.count '}'

variable {t : Text}

theorem NoStray.of_front {front : Text} (h : NoStray t) (hfront : front <+: t) : NoStray front :=
  fun inner hinner => h inner (hinner.trans hfront)

theorem NoStray.balance_nonneg (h : NoStray t) : 0 ≤ balance t := by
  have hcount := h t List.prefix_rfl
  unfold balance
  omega

theorem balance_concat (t : Text) (c : Char) :
    balance (t ++ [c]) = depthAfter true (balance t) c := by
  have hcount (d : Char) : (t ++ [c]).count d = t.count d + if c = d then 1 else 0 := by
    simp [List.count_singleton]
  unfold balance depthAfter
  rw [hcount, hcount]
  by_cases hopening : c = '{'
  · subst hopening
    rw [if_pos rfl, if_neg (by decide), if_pos rfl]
    omega
  · rw [if_neg hopening, if_neg hopening, if_pos rfl]
    split <;> omega

/-- The modes part only at a closing brace that is met outside all blocks. -/
theorem depthAfter_congr {depth : Int} {c : Char} (h : c = '}' → 0 < depth) (leak : Bool) :
    depthAfter leak depth c = depthAfter true depth c := by
  unfold depthAfter
  by_cases hclosing : c = '}'
  · simp [hclosing, h hclosing]
  · simp [hclosing]

/-- Without stray closing braces the depth counts opening against closing braces in both modes. -/
theorem depthFrom_of_noStray (h : NoStray t) (leak : Bool) : depthFrom leak 0 t = balance t := by
  induction t using List.reverseRecOn with
  | nil => rfl
  | append_singleton t c ih =>
    rw [Signature.depthFrom_concat, ih (h.of_front (List.prefix_append t [c])), balance_concat]
    -- A closing brace takes the count down, and it may not fall below zero.
    apply depthAfter_congr
    rintro rfl
    have hdown : balance (t ++ ['}']) = balance t - 1 := by
      rw [balance_concat]
      simp [depthAfter]
    have hnonneg := h.balance_nonneg
    omega

end Block

namespace Signature

/-- The same opening braces are outermost in both modes. -/
theorem outermostOpeners_of_noStray {t : Text} (h : Block.NoStray t) (leak leak' : Bool) :
    outermostOpeners leak t = outermostOpeners leak' t := by
  apply List.filter_congr
  intro k _
  have hfront := h.of_front (List.take_prefix k t)
  rw [Block.depthFrom_of_noStray hfront leak, Block.depthFrom_of_noStray hfront leak']

end Signature

namespace Analysis

theorem prototypesOf_of_noStray {options options' : SketchOptions} {source : Text}
    (h : Block.NoStray (Region.redact source)) :
    prototypesOf options source = prototypesOf options' source := by
  rw [prototypesOf, prototypesOf, Prototype.extract, Prototype.extract,
    Signature.definitions_collapse, Signature.definitions_collapse,
    Signature.outermostOpeners_of_noStray h options.braceLeak options'.braceLeak]

/-- **The mode matters only for stray closing braces.** Where no front of the redacted text has more
closing than opening braces, the analysis of a sketch is the same in both modes, however deep its
blocks are nested and even if some are never closed. -/
theorem ofSource_braceLeak (options : SketchOptions) (source : Text)
    (h : Block.NoStray (Region.redact source)) :
    ofSource { options with braceLeak := true } source =
      ofSource { options with braceLeak := false } source := by
  simp only [ofSource, mk.injEq, true_and, and_true]
  exact prototypesOf_of_noStray h

/-- A block inside a block, and one that is never closed: the collapsed texts differ, the analysis
does not. -/
theorem ofSource_braceLeak_nested :
    Block.NoStray (Region.redact "int f() \x7b if (x) \x7b \x7d \x7d int g() \x7b".toList) ∧
      Block.collapse true (Region.redact "int f() \x7b if (x) \x7b \x7d \x7d int g() \x7b".toList) ≠
        Block.collapse false
          (Region.redact "int f() \x7b if (x) \x7b \x7d \x7d int g() \x7b".toList) ∧
      (ofSource { braceLeak := false }
        "int f() \x7b if (x) \x7b \x7d \x7d int g() \x7b".toList).prototypes =
          [⟨"int f()".toList⟩, ⟨"int g()".toList⟩] ∧
      ofSource { braceLeak := true } "int f() \x7b if (x) \x7b \x7d \x7d int g() \x7b".toList =
        ofSource { braceLeak := false }
          "int f() \x7b if (x) \x7b \x7d \x7d int g() \x7b".toList := by
  have hstray : Block.NoStray
      (Region.redact "int f() \x7b if (x) \x7b \x7d \x7d int g() \x7b".toList) := by
    have hfronts : ∀ front ∈
        (Region.redact "int f() \x7b if (x) \x7b \x7d \x7d int g() \x7b".toList).inits,
        front.count '}' ≤ front.count '{' := by decide +kernel
    exact fun front hfront => hfronts front ((List.mem_inits front _).2 hfront)
  exact ⟨hstray, by decide +kernel, by decide +kernel, ofSource_braceLeak {} _ hstray⟩

-- Behind a stray closing brace the leaking mode does not see the definition.
example : prototypesOf { braceLeak := true } "\x7d int f() \x7b".toList = [] ∧
    prototypesOf { braceLeak := false } "\x7d int f() \x7b".toList = [⟨"int f()".toList⟩] := by
  decide +kernel

end Analysis

end SketchBuild
