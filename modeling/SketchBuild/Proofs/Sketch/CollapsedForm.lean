import Mathlib.Data.Set.Card
import SketchBuild.Proofs.Sketch.BraceModes

/-!
# Collapsed texts

Nothing is left inside the blocks of a collapsed text. This module says what such a text looks like
and which of its braces are left.

* `collapse_eq_self_iff`: a text is left as it is exactly if nothing stands inside its blocks.
* `isCollapsed_collapse`: collapsing makes such a text of any text, so that a second time changes
  nothing.
* `count_opening_collapse`, `balance_collapse`: of a balanced text one pair of braces is kept for
  each outermost block.
* `mergeClosers_collapseFrom`: the closing braces that the leaking mode keeps besides stand directly
  before one that is kept in both modes.
-/

namespace SketchBuild

/-! ### Outermost opening braces -/

/-- A further character adds itself to the outermost opening braces, or nothing. -/
theorem Signature.outermostOpeners_concat (leak : Bool) (t : Text) (c : Char) :
    outermostOpeners leak (t ++ [c]) = outermostOpeners leak t ++
      if c = '{' ∧ Block.depthFrom leak 0 t = 0 then [t.length] else [] := by
  rw [outermostOpeners, List.length_append, List.length_singleton, List.range_succ,
    List.filter_append]
  congr 1
  · apply List.filter_congr
    intro k hk
    rw [List.mem_range] at hk
    rw [List.getElem?_append_left hk, List.take_append_of_le_length hk.le]
  · simp [List.filter_cons]

namespace Block

open Signature (outermostOpeners mem_outermostOpeners kept_opening)

/-- Nothing stands inside a block: an opening brace comes last, or its closing brace follows. -/
def IsCollapsed (t : Text) : Prop :=
  ∀ k, t[k]? = some '{' → k + 1 = t.length ∨ t[k + 1]? = some '}'

/-- Every brace has its partner. -/
structure IsBalanced (t : Text) : Prop where
  noStray : NoStray t
  count_eq : t.count '{' = t.count '}'

/-- The braces at two offsets belong together, and no block is open around them. -/
structure IsOutermostPair (t : Text) (i j : Nat) : Prop where
  lt : i < j
  opening : t[i]? = some '{'
  closing : t[j]? = some '}'
  before : balance (t.take i) = 0
  after : balance (t.take (j + 1)) = 0
  inside : ∀ k, i < k → k ≤ j → 0 < balance (t.take k)

/-- The outermost pairs of braces of a text. -/
def outermostPairs (t : Text) : Set (Nat × Nat) :=
  {pair | IsOutermostPair t pair.1 pair.2}

/-- The text with a single closing brace in place of every run of them. -/
def mergeClosers : Text → Text
  | [] => []
  | c :: cs => if c = '}' ∧ cs.head? = some '}' then mergeClosers cs else c :: mergeClosers cs

variable {t : Text}

/-! ### What is kept, character by character -/

theorem kept_plain_zero (c : Char) : kept false 0 c = [c] := by
  simp [kept]

/-- Inside a block the plain mode keeps the last closing brace only. -/
theorem kept_plain_of_pos {depth : Int} (h : 0 < depth) (c : Char) :
    kept false depth c = if c = '}' ∧ depth = 1 then ['}'] else [] := by
  have hne : depth ≠ 0 := h.ne'
  by_cases hc : c = '}' <;> simp [kept, hne, hc]

/-- Inside a block the leaking mode keeps all closing braces. -/
theorem kept_leaking_of_pos {depth : Int} (h : 0 < depth) (c : Char) :
    kept true depth c = if c = '}' then ['}'] else [] := by
  have hne : depth ≠ 0 := h.ne'
  by_cases hc : c = '}' <;> simp [kept, hne, hc]

theorem kept_of_ne_closing {c : Char} (hc : c ≠ '}') (leak : Bool) (depth : Int) :
    kept leak depth c = if depth = 0 then [c] else [] := by
  simp [kept, hc]

theorem eq_of_mem_kept {leak : Bool} {depth : Int} {c d : Char} (h : d ∈ kept leak depth c) :
    d = c := by
  unfold kept at h
  grind

theorem depthAfter_plain_zero (c : Char) : depthAfter false 0 c = if c = '{' then 1 else 0 := by
  simp [depthAfter]

/-- Only the last closing brace ends a block. -/
theorem depthAfter_pos {depth : Int} (h : 0 < depth) {c : Char} (hc : ¬ (c = '}' ∧ depth = 1)) :
    0 < depthAfter false depth c := by
  unfold depthAfter
  grind

theorem collapse_concat (leak : Bool) (t : Text) (c : Char) :
    collapse leak (t ++ [c]) = collapse leak t ++ kept leak (depthFrom leak 0 t) c := by
  rw [collapse, collapseFrom_append, collapseFrom_cons, collapseFrom_nil, List.append_nil, collapse]

/-! ### The normal form -/

theorem isCollapsed_nil : IsCollapsed [] := by
  intro k hk
  simp at hk

theorem isCollapsed_cons {c : Char} : IsCollapsed (c :: t) ↔
    (c = '{' → t = [] ∨ t.head? = some '}') ∧ IsCollapsed t := by
  constructor
  · intro h
    refine ⟨fun hc => ?_, fun k hk => ?_⟩
    · simpa [eq_comm, List.head?_eq_getElem?] using h 0 (by simp [hc])
    · simpa using h (k + 1) (by simpa using hk)
  · rintro ⟨hfirst, hrest⟩ k hk
    cases k with
    | zero => simpa [eq_comm, List.head?_eq_getElem?] using hfirst (by simpa using hk)
    | succ k => simpa using hrest k (by simpa using hk)

/-- What is kept of a text is collapsed, and inside a block it is empty or starts with the closing
brace of the block. -/
theorem isCollapsed_collapseFrom {depth : Int} (h : 0 ≤ depth) (t : Text) :
    IsCollapsed (collapseFrom false depth t) ∧
      (0 < depth → collapseFrom false depth t = [] ∨
        (collapseFrom false depth t).head? = some '}') := by
  induction t generalizing depth with
  | nil => exact ⟨isCollapsed_nil, fun _ => Or.inl rfl⟩
  | cons c cs ih =>
    rw [collapseFrom_cons]
    obtain ⟨hrest, hblock⟩ := ih (depthAfter_nonneg c h)
    rcases h.eq_or_lt with rfl | hpos
    · rw [kept_plain_zero, List.singleton_append, isCollapsed_cons]
      refine ⟨⟨fun hc => hblock ?_, hrest⟩, fun hzero => absurd hzero (lt_irrefl 0)⟩
      rw [depthAfter_plain_zero, if_pos hc]
      exact Int.one_pos
    · rw [kept_plain_of_pos hpos]
      split
      · exact ⟨isCollapsed_cons.2 ⟨by simp, hrest⟩, fun _ => Or.inr rfl⟩
      · next hc => exact ⟨hrest, fun _ => hblock (depthAfter_pos hpos hc)⟩

theorem isCollapsed_collapse (t : Text) : IsCollapsed (collapse false t) :=
  (isCollapsed_collapseFrom le_rfl t).1

/-- A collapsed text is kept as it is, from its start and also behind an opening brace. -/
theorem collapseFrom_of_isCollapsed (h : IsCollapsed t) :
    collapseFrom false 0 t = t ∧
      (t = [] ∨ t.head? = some '}' → collapseFrom false 1 t = t) := by
  induction t with
  | nil => exact ⟨rfl, fun _ => rfl⟩
  | cons c cs ih =>
    obtain ⟨hfirst, hrest⟩ := isCollapsed_cons.1 h
    obtain ⟨houtside, hinside⟩ := ih hrest
    simp only [collapseFrom_cons]
    constructor
    · rw [kept_plain_zero, depthAfter_plain_zero, List.singleton_append]
      split
      · next hc => rw [hinside (hfirst hc)]
      · rw [houtside]
    · intro hclosing
      obtain rfl : c = '}' := by simpa using hclosing
      rw [kept_plain_of_pos Int.one_pos, if_pos ⟨rfl, rfl⟩]
      exact congrArg _ houtside

/-- The texts that collapsing leaves as they are. -/
theorem collapse_eq_self_iff : collapse false t = t ↔ IsCollapsed t :=
  ⟨fun h => h ▸ isCollapsed_collapse t, fun h => (collapseFrom_of_isCollapsed h).1⟩

/-! ### Braces of a balanced text -/

theorem balance_nil : balance [] = 0 := rfl

theorem balance_append (s t : Text) : balance (s ++ t) = balance s + balance t := by
  simp only [balance, List.count_append]
  omega

theorem balance_singleton (c : Char) :
    balance [c] = if c = '{' then 1 else if c = '}' then -1 else 0 := by
  have hstep := balance_concat [] c
  rw [List.nil_append] at hstep
  rw [hstep]
  simp [depthAfter, balance]

theorem IsBalanced.balance_eq_zero (h : IsBalanced t) : balance t = 0 := by
  have hcount := h.count_eq
  unfold balance
  omega

/-- The depth at a closing brace is not zero. -/
theorem NoStray.balance_pos {c : Char} (h : NoStray (t ++ [c])) (hc : c = '}') : 0 < balance t := by
  have hnonneg := h.balance_nonneg
  rw [balance_append, balance_singleton, hc, if_neg (by decide), if_pos rfl] at hnonneg
  omega

/-- Of all the blocks that are open only the outermost one is open in the collapsed text. -/
theorem balance_collapse (h : NoStray t) :
    balance (collapse false t) = if balance t = 0 then 0 else 1 := by
  induction t using List.reverseRecOn with
  | nil => rfl
  | append_singleton t c ih =>
    have hfront := h.of_front (List.prefix_append t [c])
    have hnonneg := hfront.balance_nonneg
    have hclosing : c = '}' → 0 < balance t := h.balance_pos
    rw [collapse_concat, balance_append, ih hfront, depthFrom_of_noStray hfront, balance_append,
      balance_singleton]
    rcases hnonneg.eq_or_lt with hzero | hpos
    · rw [← hzero, kept_plain_zero, balance_singleton]
      grind
    · rw [kept_plain_of_pos hpos, apply_ite balance, balance_singleton, balance_nil]
      grind

/-- The leaking mode loses no closing brace. -/
theorem count_closing_collapse (h : NoStray t) : (collapse true t).count '}' = t.count '}' := by
  induction t using List.reverseRecOn with
  | nil => rfl
  | append_singleton t c ih =>
    have hfront := h.of_front (List.prefix_append t [c])
    rw [collapse_concat, List.count_append, List.count_append, ih hfront,
      depthFrom_of_noStray hfront]
    by_cases hc : c = '}'
    · rw [kept_leaking_of_pos (h.balance_pos hc), if_pos hc, hc]
    · rw [kept_of_ne_closing hc]
      split <;> simp [hc]

/-- Of the opening braces those are kept that are met at depth zero. -/
theorem count_opening_collapse (leak : Bool) (t : Text) :
    (collapse leak t).count '{' = (outermostOpeners leak t).length := by
  induction t using List.reverseRecOn with
  | nil => rfl
  | append_singleton t c ih =>
    rw [collapse_concat, List.count_append, ih, Signature.outermostOpeners_concat,
      List.length_append]
    by_cases hc : c = '{'
    · rw [hc, kept_opening]
      split_ifs <;> simp_all
    · have hnone : '{' ∉ kept leak (depthFrom leak 0 t) c := fun hmem =>
        hc (eq_of_mem_kept hmem).symm
      rw [List.count_eq_zero.2 hnone, if_neg fun h => hc h.1, List.length_nil]

/-! ### Outermost pairs -/

theorem balance_take_succ {k : Nat} {c : Char} (h : t[k]? = some c) :
    balance (t.take (k + 1)) = balance (t.take k) + balance [c] := by
  rw [List.take_add_one, h, balance_append]
  rfl

/-- An opening brace has one partner. -/
theorem IsOutermostPair.unique {i j j' : Nat} (h : IsOutermostPair t i j)
    (h' : IsOutermostPair t i j') : j = j' := by
  have hle : ∀ {j j' : Nat}, IsOutermostPair t i j → IsOutermostPair t i j' → j' ≤ j := by
    intro j j' h h'
    by_contra hlt
    have hpos := h'.inside (j + 1) (h.lt.trans (Nat.lt_succ_self j)) (by omega)
    rw [h.after] at hpos
    exact absurd hpos (lt_irrefl 0)
  exact le_antisymm (hle h' h) (hle h h')

/-- In a balanced text every outermost opening brace has its partner, where the depth first comes
back to zero. -/
theorem IsBalanced.exists_closing (h : IsBalanced t) {i : Nat} (hopening : t[i]? = some '{')
    (hbefore : balance (t.take i) = 0) : ∃ j, IsOutermostPair t i j := by
  have hlength := (List.getElem?_eq_some_iff.1 hopening).1
  have hreturn : ∃ k, i < k ∧ balance (t.take k) = 0 :=
    ⟨t.length, hlength, by rw [List.take_length, h.balance_eq_zero]⟩
  obtain ⟨hlt, hafter⟩ := Nat.find_spec hreturn
  have hfirst : ∀ k, i < k → k < Nat.find hreturn → 0 < balance (t.take k) := by
    intro k hik hk
    have hnonneg := (h.noStray.of_front (List.take_prefix k t)).balance_nonneg
    exact lt_of_le_of_ne hnonneg fun hzero => Nat.find_min hreturn hk ⟨hik, hzero.symm⟩
  have hle : Nat.find hreturn ≤ t.length :=
    Nat.find_min' hreturn ⟨hlength, by rw [List.take_length, h.balance_eq_zero]⟩
  obtain ⟨j, hj⟩ := Nat.exists_eq_succ_of_ne_zero (Nat.ne_zero_of_lt hlt)
  rw [hj] at hlt hafter hfirst hle
  have hstart : balance (t.take (i + 1)) = 1 := by
    rw [balance_take_succ hopening, hbefore, balance_singleton, if_pos rfl]
    rfl
  have hij : i < j := by
    rcases Nat.lt_succ_iff_lt_or_eq.1 hlt with hij | rfl
    · exact hij
    · rw [hstart] at hafter
      cases hafter
  -- Only a closing brace brings the depth back to zero.
  obtain ⟨c, hc⟩ : ∃ c, t[j]? = some c := ⟨t[j], List.getElem?_eq_getElem hle⟩
  have hstep := balance_take_succ hc
  have hinside := hfirst j hij (Nat.lt_succ_self j)
  have hclosing : c = '}' := by
    rw [hafter, balance_singleton] at hstep
    grind
  exact ⟨j, hij, hopening, hclosing ▸ hc, hbefore, hafter,
    fun k hik hk => hfirst k hik (Nat.lt_succ_of_le hk)⟩

/-- There are as many outermost pairs as outermost opening braces. -/
theorem IsBalanced.ncard_outermostPairs (h : IsBalanced t) (leak : Bool) :
    (outermostPairs t).ncard = (outermostOpeners leak t).length := by
  have hdepth : ∀ k, depthFrom leak 0 (t.take k) = balance (t.take k) := fun k =>
    depthFrom_of_noStray (h.noStray.of_front (List.take_prefix k t)) leak
  have himage : Prod.fst '' outermostPairs t = ↑(outermostOpeners leak t).toFinset := by
    ext i
    rw [List.coe_toFinset, Set.mem_ofPred_eq, mem_outermostOpeners, hdepth, Set.mem_image]
    constructor
    · rintro ⟨⟨i, j⟩, hpair, rfl⟩
      exact ⟨hpair.opening, hpair.before⟩
    · rintro ⟨hopening, hbefore⟩
      obtain ⟨j, hpair⟩ := h.exists_closing hopening hbefore
      exact ⟨(i, j), hpair, rfl⟩
  have hinj : Set.InjOn Prod.fst (outermostPairs t) := by
    rintro ⟨i, j⟩ hpair ⟨_, j'⟩ hpair' rfl
    exact Prod.ext rfl (hpair.unique hpair')
  have hnodup : (outermostOpeners leak t).Nodup := List.nodup_range.filter _
  rw [← hinj.ncard_image, himage, Set.ncard_coe_finset,
    List.toFinset_card_of_nodup hnodup]

/-! ### The two modes -/

/-- Entered at this depth, the text closes all the blocks that are open and no more. -/
structure ClosesFrom (depth : Int) (t : Text) : Prop where
  nonneg : ∀ front, front <+: t → 0 ≤ depth + balance front
  ends : depth + balance t = 0

theorem IsBalanced.closesFrom (h : IsBalanced t) : ClosesFrom 0 t where
  nonneg front hfront := by
    have hnonneg := (h.noStray.of_front hfront).balance_nonneg
    omega
  ends := by
    rw [h.balance_eq_zero]
    rfl

namespace ClosesFrom

variable {depth : Int} {c : Char} {cs : Text}

theorem depth_nonneg (h : ClosesFrom depth t) : 0 ≤ depth := by
  have hnil := h.nonneg [] List.nil_prefix
  rwa [balance_nil, Int.add_zero] at hnil

theorem depth_pos (h : ClosesFrom depth (c :: cs)) (hc : c = '}') : 0 < depth := by
  have hfirst := h.nonneg [c] (List.prefix_append [c] cs)
  rw [balance_singleton, hc, if_neg (by decide), if_pos rfl] at hfirst
  omega

theorem tail (h : ClosesFrom depth (c :: cs)) (leak : Bool) :
    ClosesFrom (depthAfter leak depth c) cs := by
  have hdepth : depthAfter leak depth c = depth + balance [c] := by
    rw [depthAfter_congr h.depth_pos, balance_singleton]
    unfold depthAfter
    grind
  have hcons : ∀ s, depth + balance (c :: s) = depth + balance [c] + balance s := fun s => by
    rw [← List.singleton_append, balance_append, Int.add_assoc]
  constructor
  · intro front hfront
    rw [hdepth, ← hcons]
    exact h.nonneg _ (List.cons_prefix_cons.2 ⟨rfl, hfront⟩)
  · rw [hdepth, ← hcons, h.ends]

/-- In the leaking mode a closing brace comes first exactly inside a block. -/
theorem head?_collapseFrom (h : ClosesFrom depth t) :
    (collapseFrom true depth t).head? = some '}' ↔ 0 < depth := by
  induction t generalizing depth with
  | nil =>
    have hends := h.ends
    rw [balance_nil] at hends
    simp only [collapseFrom_nil, List.head?_nil, reduceCtorEq, false_iff]
    omega
  | cons c cs ih =>
    rw [collapseFrom_cons]
    rcases h.depth_nonneg.eq_or_lt with rfl | hpos
    · have hc : c ≠ '}' := fun hc => absurd (h.depth_pos hc) (lt_irrefl 0)
      simp [kept_of_ne_closing hc, hc]
    · rw [kept_leaking_of_pos hpos]
      split
      · simp [hpos]
      · next hc =>
        rw [List.nil_append, ih (h.tail true)]
        have hdepth : depth ≤ depthAfter true depth c := by
          unfold depthAfter
          grind
        omega

/-- **The closing braces that are kept in the leaking mode only** stand directly before one that is
kept in both. -/
theorem mergeClosers_collapseFrom (h : ClosesFrom depth t) :
    mergeClosers (collapseFrom true depth t) = collapseFrom false depth t := by
  induction t generalizing depth with
  | nil => rfl
  | cons c cs ih =>
    have hrest := ih (h.tail true)
    have hhead := (h.tail true).head?_collapseFrom
    rw [collapseFrom_cons, collapseFrom_cons, depthAfter_congr h.depth_pos false, ← hrest]
    rcases h.depth_nonneg.eq_or_lt with rfl | hpos
    · have hc : c ≠ '}' := fun hc => absurd (h.depth_pos hc) (lt_irrefl 0)
      rw [kept_of_ne_closing hc, kept_plain_zero, if_pos rfl, List.singleton_append, mergeClosers,
        if_neg fun h => hc h.1, List.singleton_append]
    · rw [kept_leaking_of_pos hpos, kept_plain_of_pos hpos]
      by_cases hc : c = '}'
      · -- One more follows as long as blocks are open.
        have hdepth : depthAfter true depth c = depth - 1 := by simp [depthAfter, hc]
        rw [if_pos hc, List.singleton_append, mergeClosers]
        by_cases hone : depth = 1
        · have hnone : ¬ (collapseFrom true (depthAfter true depth c) cs).head? = some '}' := by
            rw [hhead]
            omega
          rw [if_neg fun h => hnone h.2, if_pos ⟨hc, hone⟩, List.singleton_append]
        · rw [if_pos ⟨rfl, hhead.2 (by omega)⟩, if_neg fun h => hone h.2, List.nil_append]
      · rw [if_neg hc, if_neg fun h => hc h.1, List.nil_append, List.nil_append]

end ClosesFrom

/-- **Collapsing gives a normal form and keeps braces balanced.** In a collapsed text every opening
brace comes last or has its closing brace right behind it; collapsing leaves exactly these texts as
they are, so that a second time changes nothing. Of a balanced text one pair of braces is kept for
each outermost pair. The leaking mode keeps the same opening braces and all closing braces, and
differs only by runs of closing braces in place of single ones. -/
theorem collapse_normal_form (t : Text) :
    IsCollapsed (collapse false t) ∧
      collapse false (collapse false t) = collapse false t ∧
      (collapse false t = t ↔ IsCollapsed t) ∧
      (IsBalanced t →
        (collapse false t).count '{' = (outermostPairs t).ncard ∧
          (collapse false t).count '}' = (outermostPairs t).ncard ∧
          (collapse true t).count '{' = (outermostPairs t).ncard ∧
          (collapse true t).count '}' = t.count '}' ∧
          mergeClosers (collapse true t) = collapse false t) := by
  have hnormal := isCollapsed_collapse t
  refine ⟨hnormal, collapse_eq_self_iff.2 hnormal, collapse_eq_self_iff, fun h => ?_⟩
  have hopening : ∀ leak, (collapse leak t).count '{' = (outermostPairs t).ncard := fun leak => by
    rw [count_opening_collapse, h.ncard_outermostPairs leak]
  refine ⟨hopening false, ?_, hopening true, count_closing_collapse h.noStray,
    h.closesFrom.mergeClosers_collapseFrom⟩
  have hbalance := balance_collapse h.noStray
  rw [if_pos h.balance_eq_zero, balance] at hbalance
  have hplain := hopening false
  omega

/-- Two blocks, the first of them with blocks inside. -/
theorem collapse_normal_form_nested :
    IsBalanced "a\x7bb\x7bc\x7d\x7bd\x7d\x7de\x7bf\x7d".toList ∧
      (outermostPairs "a\x7bb\x7bc\x7d\x7bd\x7d\x7de\x7bf\x7d".toList).ncard = 2 ∧
      collapse false "a\x7bb\x7bc\x7d\x7bd\x7d\x7de\x7bf\x7d".toList =
        "a\x7b\x7de\x7b\x7d".toList ∧
      collapse true "a\x7bb\x7bc\x7d\x7bd\x7d\x7de\x7bf\x7d".toList =
        "a\x7b\x7d\x7d\x7de\x7b\x7d".toList ∧
      mergeClosers (collapse true "a\x7bb\x7bc\x7d\x7bd\x7d\x7de\x7bf\x7d".toList) =
        collapse false "a\x7bb\x7bc\x7d\x7bd\x7d\x7de\x7bf\x7d".toList := by
  have hbalanced : IsBalanced "a\x7bb\x7bc\x7d\x7bd\x7d\x7de\x7bf\x7d".toList := by
    have hfronts : ∀ front ∈ "a\x7bb\x7bc\x7d\x7bd\x7d\x7de\x7bf\x7d".toList.inits,
        front.count '}' ≤ front.count '{' := by decide +kernel
    exact ⟨fun front hfront => hfronts front ((List.mem_inits front _).2 hfront),
      by decide +kernel⟩
  obtain ⟨hpairs, -, -, -, hmerged⟩ := (collapse_normal_form _).2.2.2 hbalanced
  refine ⟨hbalanced, ?_, by decide +kernel, by decide +kernel, hmerged⟩
  rw [← hpairs]
  decide +kernel

end Block

end SketchBuild
