import SketchBuild.Proofs.Sketch.ContinuedIncludes
import SketchBuild.Proofs.Text.Pattern

/-!
# Include lines and their pattern

The path of an include line may hold the characters that close it, so that there may be many ways to
read such a line. All of them have the same opening delimiter, and the one with the longest path is
taken.

* `Form`: a way to read a line as an include line.
* `parse?_eq_some_iff`: the way that is taken goes up to the last closing character of the run.
* `parse?_eq_first?`: it is the way that is tried first when the pattern of include lines is read.
* `mem_hoisted_iff_first?`: so the include lines are those at whose front the pattern can be read.
* `restored_hoisted`: the lines can be put together again from the include lines and the body.
* `hoisting_lossless`: hoisting as a whole.
-/

namespace SketchBuild.Include

open Text (isBlank)

/-- The delimiter in front of the path. -/
def Style.opening : Style → Char
  | .angle => '<'
  | .quote => '"'

/-- A way to read a line as an include line. -/
structure Form where
  indent : Text
  gap : Text
  style : Style
  path : Text
  closing : Char
  rest : Text
  blank_indent : ∀ c ∈ indent, isBlank c = true
  blank_gap : ∀ c ∈ gap, isBlank c = true
  path_ne_nil : path ≠ []
  path_unbroken : ∀ c ∈ path, isBlank c = false
  closes_closing : closes closing = true

namespace Form

/-- The line that is read. -/
def text (form : Form) : Text :=
  form.indent ++ ("#include".toList ++ (form.gap ++ form.style.opening ::
    (form.path ++ form.closing :: form.rest)))

/-- The path is closed by the last character of the unbroken run that can close it. -/
def ClosesLast (form : Form) : Prop :=
  ∀ c ∈ form.rest.takeWhile (!isBlank ·), closes c = false

end Form

variable {t path line : Text} {style : Style}

theorem isBlank_opening (style : Style) : isBlank style.opening = false := by
  cases style <;> decide

theorem isBlank_of_closes {c : Char} (h : closes c = true) : isBlank c = false := by
  rw [closes, Bool.or_eq_true, beq_iff_eq, beq_iff_eq] at h
  rcases h with rfl | rfl <;> decide

theorem opening_injective : Function.Injective Style.opening := by
  intro style style' h
  cases style <;> cases style' <;> first | rfl | exact absurd h (by decide)

/-! ### The path -/

/-- The unbroken run is the path, the closing character and what closes no path. -/
theorem path?_eq_some_iff_run : path? t = some path ↔
    path ≠ [] ∧ ∃ closing tail, closes closing = true ∧ (∀ c ∈ tail, closes c = false) ∧
      t.takeWhile (!isBlank ·) = path ++ closing :: tail := by
  simp only [path?]
  generalize t.takeWhile (!isBlank ·) = run
  constructor
  · intro h
    split at h
    · next closing c cs hdrop =>
      obtain rfl := Option.some.inj h
      have hhead := List.head?_dropWhile_not (!closes ·) run.reverse
      have hrun := List.takeWhile_append_dropWhile (p := (!closes ·)) (l := run.reverse)
      rw [hdrop] at hhead hrun
      refine ⟨by simp, closing, (run.reverse.takeWhile (!closes ·)).reverse, by simpa using hhead,
        fun d hd => ?_, ?_⟩
      · simpa using List.mem_takeWhile_imp (List.mem_reverse.1 hd)
      · rw [← List.reverse_reverse run, List.reverse_reverse run.reverse]
        simpa using congrArg List.reverse hrun.symm
    · cases h
  · rintro ⟨hne, closing, tail, hclosing, htail, rfl⟩
    obtain ⟨init, last, rfl⟩ := (List.eq_nil_or_concat' path).resolve_left hne
    have hdrop : (init ++ [last] ++ closing :: tail).reverse.dropWhile (!closes ·) =
        closing :: last :: init.reverse := by
      rw [List.reverse_append, List.reverse_cons, List.append_assoc,
        List.dropWhile_append_of_pos (by simpa using htail), List.singleton_append,
        List.dropWhile_cons_of_neg (by simp [hclosing]), List.reverse_concat]
    rw [hdrop]
    simp

theorem takeWhile_append_closing {closing : Char} {rest : Text}
    (hpath : ∀ c ∈ path, isBlank c = false) (hclosing : closes closing = true) :
    (path ++ closing :: rest).takeWhile (!isBlank ·) =
      path ++ closing :: rest.takeWhile (!isBlank ·) := by
  rw [List.takeWhile_append_of_pos (by simpa using hpath),
    List.takeWhile_cons_of_pos (by simp [isBlank_of_closes hclosing])]

theorem path?_eq_some_iff : path? t = some path ↔
    path ≠ [] ∧ (∀ c ∈ path, isBlank c = false) ∧ ∃ closing rest, closes closing = true ∧
      (∀ c ∈ rest.takeWhile (!isBlank ·), closes c = false) ∧ t = path ++ closing :: rest := by
  rw [path?_eq_some_iff_run]
  constructor
  · rintro ⟨hne, closing, tail, hclosing, htail, hrun⟩
    have hwhole := List.takeWhile_append_dropWhile (p := (!isBlank ·)) (l := t)
    have hpath : ∀ c ∈ path, isBlank c = false := fun c hc => by
      have hmem : c ∈ t.takeWhile (!isBlank ·) := hrun ▸ List.mem_append_left _ hc
      simpa using List.mem_takeWhile_imp hmem
    rw [hrun, List.append_assoc, List.cons_append] at hwhole
    refine ⟨hne, hpath, closing, _, hclosing, ?_, hwhole.symm⟩
    rw [← hwhole, takeWhile_append_closing hpath hclosing, List.append_cancel_left_eq,
      List.cons_inj_right] at hrun
    rwa [hrun]
  · rintro ⟨hne, hpath, closing, rest, hclosing, hrest, rfl⟩
    exact ⟨hne, closing, _, hclosing, hrest, takeWhile_append_closing hpath hclosing⟩

theorem exists_last_closing (h : ∃ c ∈ t, closes c = true) :
    ∃ front closing tail, closes closing = true ∧ (∀ c ∈ tail, closes c = false) ∧
      t = front ++ closing :: tail := by
  induction t with
  | nil => simp at h
  | cons d t ih =>
    by_cases hmore : ∃ c ∈ t, closes c = true
    · obtain ⟨front, closing, tail, hclosing, htail, rfl⟩ := ih hmore
      exact ⟨d :: front, closing, tail, hclosing, htail, rfl⟩
    · have hd : closes d = true := by simpa [hmore] using h
      exact ⟨[], d, t, hd, by simpa using hmore, rfl⟩

/-- Where there is a path that can be closed, one is found. -/
theorem isSome_path? {closing : Char} {rest : Text} (hne : path ≠ [])
    (hpath : ∀ c ∈ path, isBlank c = false) (hclosing : closes closing = true) :
    (path? (path ++ closing :: rest)).isSome = true := by
  obtain ⟨front, last, tail, hlast, htail, hsplit⟩ :=
    exists_last_closing (t := closing :: rest.takeWhile (!isBlank ·))
      ⟨closing, List.mem_cons_self, hclosing⟩
  refine Option.isSome_iff_exists.2 ⟨path ++ front, path?_eq_some_iff_run.2
    ⟨by simp [hne], last, tail, hlast, htail, ?_⟩⟩
  rw [takeWhile_append_closing hpath hclosing, hsplit, List.append_assoc]

/-! ### The line -/

theorem trimStart_blanks {blanks : Text} {c : Char} (hblanks : ∀ d ∈ blanks, isBlank d = true)
    (hc : isBlank c = false) (t : Text) : Text.trimStart (blanks ++ c :: t) = c :: t := by
  rw [Text.trimStart, List.dropWhile_append_of_pos hblanks,
    List.dropWhile_cons_of_neg (by simp [hc])]

/-- White space ends where something else stands. -/
theorem blanks_unique {blanks blanks' t' : Text} {c c' : Char}
    (hblanks : ∀ d ∈ blanks, isBlank d = true) (hblanks' : ∀ d ∈ blanks', isBlank d = true)
    (hc : isBlank c = false) (hc' : isBlank c' = false)
    (h : blanks ++ c :: t = blanks' ++ c' :: t') : blanks = blanks' ∧ c :: t = c' :: t' := by
  have hrest := congrArg Text.trimStart h
  rw [trimStart_blanks hblanks hc, trimStart_blanks hblanks' hc'] at hrest
  rw [hrest] at h
  exact ⟨List.append_cancel_right h, hrest⟩

theorem toList_include : "#include".toList = '#' :: "include".toList := by
  decide +kernel

theorem parse?_opening {indent gap : Text} (hindent : ∀ c ∈ indent, isBlank c = true)
    (hgap : ∀ c ∈ gap, isBlank c = true) (style : Style) (t : Text) :
    parse? (indent ++ ("#include".toList ++ (gap ++ style.opening :: t))) =
      (path? t).map (style, ·) := by
  have hprefix : "#include".toList.isPrefixOf? ('#' :: ("include".toList ++
      (gap ++ style.opening :: t))) = some (gap ++ style.opening :: t) := by
    rw [List.isPrefixOf?_eq_some_iff_append_eq, toList_include, List.cons_append]
  unfold parse?
  rw [toList_include, List.cons_append, trimStart_blanks hindent (by decide), ← toList_include,
    hprefix]
  simp only [trimStart_blanks hgap (isBlank_opening style)]
  cases style <;> rfl

theorem exists_opening (h : (parse? line).isSome = true) :
    ∃ indent gap style t, (∀ c ∈ indent, isBlank c = true) ∧ (∀ c ∈ gap, isBlank c = true) ∧
      line = indent ++ ("#include".toList ++ (gap ++ Style.opening style :: t)) := by
  have hline := List.takeWhile_append_dropWhile (p := isBlank) (l := line)
  unfold parse? at h
  split at h
  · cases h
  · next rest hrest =>
    have hgap := List.takeWhile_append_dropWhile (p := isBlank) (l := rest)
    rw [List.isPrefixOf?_eq_some_iff_append_eq] at hrest
    have hopening : ∃ style t, Text.trimStart rest = Style.opening style :: t := by
      split at h
      · next t ht => exact ⟨.angle, t, ht⟩
      · next t ht => exact ⟨.quote, t, ht⟩
      · cases h
    obtain ⟨style, t, ht⟩ := hopening
    refine ⟨line.takeWhile isBlank, rest.takeWhile isBlank, style, t,
      fun c hc => List.mem_takeWhile_imp hc, fun c hc => List.mem_takeWhile_imp hc, ?_⟩
    rw [← ht, Text.trimStart, hgap, hrest, Text.trimStart, hline]

namespace Form

/-- What is read of the line, by where its path ends. -/
theorem parse?_text (form : Form) :
    parse? form.text = (path? (form.path ++ form.closing :: form.rest)).map (form.style, ·) :=
  parse?_opening form.blank_indent form.blank_gap form.style _

theorem isSome_parse? (form : Form) : (parse? form.text).isSome = true := by
  rw [parse?_text, Option.isSome_map]
  exact isSome_path? form.path_ne_nil form.path_unbroken form.closes_closing

end Form

/-- **How an include line is read**: as far as its path can go. -/
theorem parse?_eq_some_iff : parse? line = some (style, path) ↔
    ∃ form : Form, form.text = line ∧ form.style = style ∧ form.path = path ∧ form.ClosesLast := by
  constructor
  · intro h
    obtain ⟨indent, gap, style', t, hindent, hgap, rfl⟩ :=
      exists_opening (Option.isSome_of_eq_some h)
    rw [parse?_opening hindent hgap, Option.map_eq_some_iff] at h
    obtain ⟨path', hpath, heq⟩ := h
    obtain ⟨rfl, rfl⟩ := Prod.mk.inj heq
    obtain ⟨hne, hunbroken, closing, rest, hclosing, hrest, rfl⟩ := path?_eq_some_iff.1 hpath
    exact ⟨⟨indent, gap, style', path', closing, rest, hindent, hgap, hne, hunbroken, hclosing⟩,
      rfl, rfl, rfl, hrest⟩
  · rintro ⟨form, rfl, rfl, rfl, hlast⟩
    rw [form.parse?_text, path?_eq_some_iff.2 ⟨form.path_ne_nil, form.path_unbroken, form.closing,
      form.rest, form.closes_closing, hlast, rfl⟩]
    rfl

theorem isSome_parse?_iff : (parse? line).isSome = true ↔ ∃ form : Form, form.text = line := by
  constructor
  · intro h
    obtain ⟨⟨style, path⟩, hparse⟩ := Option.isSome_iff_exists.1 h
    obtain ⟨form, htext, -⟩ := parse?_eq_some_iff.1 hparse
    exact ⟨form, htext⟩
  · rintro ⟨form, rfl⟩
    exact form.isSome_parse?

/-! ### All ways to read a line -/

namespace Form

variable {form form' : Form}

/-- The ways to read a line differ at most in where the path ends. -/
theorem eq_of_text_eq (h : form.text = form'.text) :
    form.indent = form'.indent ∧ form.gap = form'.gap ∧ form.style = form'.style ∧
      form.path ++ form.closing :: form.rest = form'.path ++ form'.closing :: form'.rest := by
  have hhash : isBlank '#' = false := by decide
  unfold text at h
  rw [toList_include, List.cons_append, List.cons_append] at h
  obtain ⟨hindent, h⟩ := blanks_unique form.blank_indent form'.blank_indent hhash hhash h
  rw [List.cons_inj_right, List.append_cancel_left_eq] at h
  obtain ⟨hgap, h⟩ := blanks_unique form.blank_gap form'.blank_gap (isBlank_opening form.style)
    (isBlank_opening form'.style) h
  obtain ⟨hopening, hafter⟩ := List.cons.inj h
  exact ⟨hindent, hgap, opening_injective hopening, hafter⟩

/-- No path is longer than one that is closed by the last character that can close it. -/
theorem ClosesLast.path_prefix (hlast : form.ClosesLast) (h : form'.text = form.text) :
    form'.path <+: form.path := by
  obtain ⟨-, -, -, hafter⟩ := eq_of_text_eq h
  rcases List.append_eq_append_iff.1 hafter with ⟨more, hpath, -⟩ | ⟨more, hpath, hmore⟩
  · exact ⟨more, hpath.symm⟩
  · cases more with
    | nil => rw [hpath, List.append_nil]
    | cons c more =>
      -- The closing character of the longer path would stand in the rest of the run.
      rw [List.cons_append, List.cons.injEq] at hmore
      obtain ⟨rfl, hrest⟩ := hmore
      have hmem : form'.closing ∈ form.rest.takeWhile (!isBlank ·) := by
        rw [hrest, takeWhile_append_closing (fun d hd => form'.path_unbroken d ?_)
          form'.closes_closing]
        · simp
        · rw [hpath]
          exact List.mem_append_right _ (List.mem_cons_of_mem _ hd)
      have hcloses := form'.closes_closing
      rw [hlast _ hmem] at hcloses
      cases hcloses

/-- The texts of the parts of the line, in the order of `linePattern`. -/
def parts (form : Form) : List Text :=
  form.indent :: ("#include".toList.map ([·]) ++
    [form.gap, [form.style.opening], form.path, [form.closing]])

end Form

/-- The pattern of an include line: white space, `#include`, white space, an opening delimiter, a
path and a closing delimiter. -/
def linePattern : Pattern :=
  .star isBlank :: (Pattern.literal "#include".toList ++
    [.star isBlank, .one (fun c => c == '<' || c == '"'), .plus (!isBlank ·), .one closes])

theorem opens_iff {c : Char} :
    (c == '<' || c == '"') = true ↔ ∃ style, c = Style.opening style := by
  rw [Bool.or_eq_true, beq_iff_eq, beq_iff_eq]
  constructor
  · rintro (rfl | rfl)
    · exact ⟨.angle, rfl⟩
    · exact ⟨.quote, rfl⟩
  · rintro ⟨style, rfl⟩
    cases style <;> simp [Style.opening]

theorem mem_splits_linePattern {texts : List Text} {rest : Text} :
    (texts, rest) ∈ Pattern.splits linePattern line ↔
      ∃ form : Form, form.parts = texts ∧ form.rest = rest ∧ form.text = line := by
  rw [Pattern.mem_splits, linePattern, List.forall₂_cons_left_iff]
  simp only [Pattern.forall₂_append, Pattern.forall₂_literal]
  constructor
  · rintro ⟨⟨indent, _, hindent, ⟨_, _, rfl, hdelimited, rfl⟩, rfl⟩, rfl⟩
    rcases hdelimited with _ | ⟨hgap, _ | ⟨⟨c, hc, rfl⟩, _ | ⟨⟨hne, hpath⟩,
      _ | ⟨⟨closing, hclosing, rfl⟩, ⟨⟩⟩⟩⟩⟩
    obtain ⟨style, rfl⟩ := opens_iff.1 hc
    exact ⟨⟨indent, _, style, _, closing, rest, hindent, hgap, hne, by simpa using hpath, hclosing⟩,
      rfl, rfl, by simp [Form.text]⟩
  · rintro ⟨form, rfl, rfl, rfl⟩
    have hpath : ∀ c ∈ form.path, (!isBlank c) = true := by simpa using form.path_unbroken
    refine ⟨⟨form.indent, _, form.blank_indent, ⟨_, _, rfl, ?_, rfl⟩, rfl⟩,
      by simp [Form.parts, Form.text]⟩
    exact .cons form.blank_gap (.cons ⟨_, opens_iff.2 ⟨form.style, rfl⟩, rfl⟩
      (.cons ⟨form.path_ne_nil, hpath⟩ (.cons ⟨_, form.closes_closing, rfl⟩ .nil)))

/-- The delimiter and the path among the texts of the parts: white space and the eight letters of the
word stand before them, then white space again. -/
def captured (texts : List Text) : Style × Text :=
  (if texts[10]? = some ['<'] then .angle else .quote, texts[11]?.getD [])

theorem captured_parts (form : Form) : captured form.parts = (form.style, form.path) := by
  have hword : "#include".toList.map ([·]) = [['#'], ['i'], ['n'], ['c'], ['l'], ['u'], ['d'],
      ['e']] := by decide +kernel
  rw [captured, Form.parts, hword]
  cases form.style <;> rfl

/-- Where two ways to read a line have the same white space, the longer path is tried first. -/
theorem Form.length_path_le {form form' : Form} (hindent : form.indent = form'.indent)
    (hgap : form.gap = form'.gap)
    (h : form.parts.map List.length ≤ form'.parts.map List.length) :
    form.path.length ≤ form'.path.length := by
  by_contra hlt
  refine absurd h (not_le.2 ?_)
  rw [parts, parts, hindent, hgap]
  simp only [List.map_cons, List.map_append]
  refine List.cons_lt_cons_iff.2 (Or.inr ⟨rfl, List.append_left_lt ?_⟩)
  exact List.cons_lt_cons_iff.2 (Or.inr ⟨rfl, List.cons_lt_cons_iff.2 (Or.inr ⟨rfl,
    List.cons_lt_cons_iff.2 (Or.inl (not_le.1 hlt))⟩)⟩)

/-- **The pattern of include lines.** A line is read in the way that is tried first. -/
theorem parse?_eq_first? (line : Text) :
    parse? line = (Pattern.first? linePattern line).map fun split => captured split.1 := by
  cases hfirst : Pattern.first? linePattern line with
  | none =>
    rw [Option.map_none, ← Option.not_isSome_iff_eq_none, isSome_parse?_iff]
    rintro ⟨form, htext⟩
    have hmem := mem_splits_linePattern.2 ⟨form, rfl, rfl, htext⟩
    rw [List.head?_eq_none_iff.1 hfirst] at hmem
    cases hmem
  | some split =>
    obtain ⟨hmem, hlongest⟩ := Pattern.first?_eq_some_iff.1 hfirst
    obtain ⟨form, hparts, -, htext⟩ := mem_splits_linePattern.1 hmem
    obtain ⟨⟨style, path⟩, hparse⟩ :=
      Option.isSome_iff_exists.1 (isSome_parse?_iff.2 ⟨form, htext⟩)
    obtain ⟨last, hlastText, rfl, rfl, hlast⟩ := parse?_eq_some_iff.1 hparse
    obtain ⟨hindent, hgap, hstyle, -⟩ := Form.eq_of_text_eq (hlastText.trans htext.symm)
    have hlength : last.path.length ≤ form.path.length := by
      apply Form.length_path_le hindent hgap
      rw [hparts]
      exact hlongest _ (mem_splits_linePattern.2 ⟨last, rfl, rfl, hlastText⟩)
    have hpath : form.path = last.path :=
      (hlast.path_prefix (htext.trans hlastText.symm)).eq_of_length_le hlength
    rw [hparse, Option.map_some, ← hparts, captured_parts, hstyle, hpath]

/-! ### All lines -/

/-- The lines of a text, from its include lines and its body: every include line is put back in its
place. -/
def restored (includes : List Include) (body : List Text) : List Text :=
  body.mapIdx fun i line => ((includes.find? (·.index == i)).map text).getD line

variable {lines : List Text}

theorem pairwise_index_hoisted (lines : List Text) :
    (hoisted lines).Pairwise fun found other => found.index < other.index := by
  have hnumbers : lines.zipIdx.Pairwise fun numbered other => numbered.2 < other.2 := by
    rw [← List.pairwise_map (f := Prod.snd) (R := (· < ·)), List.zipIdx_map_snd]
    exact List.pairwise_lt_range'
  have hindex : ∀ {line : Text} {i : Nat} {found : Include}, ofLine? line i = some found →
      found.index = i := by
    intro line i found h
    obtain ⟨parsed, -, rfl⟩ := Option.map_eq_some_iff.1 h
    rfl
  refine List.Pairwise.filterMap _ ?_ hnumbers
  intro numbered numbered' hlt found hfound found' hfound'
  rwa [hindex hfound, hindex hfound']

theorem mem_hoisted_iff_first? {found : Include} : found ∈ hoisted lines ↔
    lines[found.index]? = some found.text ∧
      ∃ split, Pattern.first? linePattern found.text = some split ∧
        captured split.1 = (found.style, found.path) := by
  rw [mem_hoisted_iff, parse?_eq_first?, Option.map_eq_some_iff]

theorem mem_index_hoisted_iff {i : Nat} :
    i ∈ (hoisted lines).map index ↔ ∃ form : Form, lines[i]? = some form.text := by
  cases hline : lines[i]? with
  | none =>
    simp only [reduceCtorEq, exists_false, iff_false, List.mem_map]
    rintro ⟨found, hmem, rfl⟩
    rw [getElem?_of_mem_hoisted hmem] at hline
    cases hline
  | some line =>
    rw [mem_index_hoisted hline, isSome_parse?_iff]
    simp only [Option.some.injEq, eq_comm]

theorem getElem?_body_of_mem {found : Include} (h : found ∈ hoisted lines) :
    (body lines)[found.index]? = some ("//".toList ++ found.text) := by
  obtain ⟨hline, hparse⟩ := mem_hoisted_iff.1 h
  rw [body, List.getElem?_map, hline, Option.map_some, bodyLine, hparse]
  rfl

theorem getElem?_body_of_not_mem {i : Nat} (h : i ∉ (hoisted lines).map index) :
    (body lines)[i]? = lines[i]? := by
  rw [body, List.getElem?_map]
  cases hline : lines[i]? with
  | none => rfl
  | some line =>
    rw [mem_index_hoisted hline] at h
    rw [Option.map_some, bodyLine, if_neg h]

theorem restored_hoisted (lines : List Text) : restored (hoisted lines) (body lines) = lines := by
  apply List.ext_getElem?
  intro i
  rw [restored, List.getElem?_mapIdx]
  cases hfind : (hoisted lines).find? (·.index == i) with
  | none =>
    have hnone : i ∉ (hoisted lines).map index := by
      rw [List.mem_map]
      rintro ⟨found, hmem, rfl⟩
      simpa using List.find?_eq_none.1 hfind found hmem
    rw [getElem?_body_of_not_mem hnone]
    simp
  | some found =>
    have hmem := List.mem_of_find?_eq_some hfind
    have hindex : found.index = i := by simpa using List.find?_some hfind
    subst hindex
    rw [getElem?_body_of_mem hmem, getElem?_of_mem_hoisted hmem]
    rfl

/-- **Hoisting loses nothing.** The body has as many lines as the text. The include lines are listed
in the order of their numbers, and a line is among them exactly if it can be read as an include
line. Each is listed as it stands, with its delimiter and its longest possible path, which goes up
to the last closing character of the unbroken run, and stands in the body behind two slashes. All
other lines are left as they are. So the lines can be put together again, and hoisting the body
again finds nothing and changes nothing. What is listed is also what the pattern of include lines
captures in the way to read it that is tried first, at the front of one line after the other. -/
theorem hoisting_lossless (lines : List Text) :
    (body lines).length = lines.length ∧
      ((hoisted lines).Pairwise fun found other => found.index < other.index) ∧
      (∀ i, i ∈ (hoisted lines).map index ↔ ∃ form : Form, lines[i]? = some form.text) ∧
      (∀ found ∈ hoisted lines,
        lines[found.index]? = some found.text ∧
          (body lines)[found.index]? = some ("//".toList ++ found.text) ∧
          (∃ form : Form, form.text = found.text ∧ form.style = found.style ∧
            form.path = found.path ∧ form.ClosesLast) ∧
          ∀ form : Form, form.text = found.text →
            form.style = found.style ∧ form.path <+: found.path) ∧
      (∀ i, i ∉ (hoisted lines).map index → (body lines)[i]? = lines[i]?) ∧
      restored (hoisted lines) (body lines) = lines ∧
      hoisted (body lines) = [] ∧ body (body lines) = body lines ∧
      ∀ found, found ∈ hoisted lines ↔ lines[found.index]? = some found.text ∧
        ∃ split, Pattern.first? linePattern found.text = some split ∧
          captured split.1 = (found.style, found.path) := by
  refine ⟨length_body lines, pairwise_index_hoisted lines, fun i => mem_index_hoisted_iff,
    fun found hfound => ?_, fun i => getElem?_body_of_not_mem, restored_hoisted lines,
    hoisted_body lines, body_body lines, fun found => mem_hoisted_iff_first?⟩
  obtain ⟨hline, hparse⟩ := mem_hoisted_iff.1 hfound
  obtain ⟨form, htext, hstyle, hpath, hlast⟩ := parse?_eq_some_iff.1 hparse
  refine ⟨hline, getElem?_body_of_mem hfound, ⟨form, htext, hstyle, hpath, hlast⟩,
    fun other hother => ?_⟩
  have hsame := hother.trans htext.symm
  exact ⟨(Form.eq_of_text_eq hsame).2.2.1.trans hstyle, hpath ▸ hlast.path_prefix hsame⟩

/-- Mixed delimiters, and a path that holds some of them. -/
example : hoisted ["int x;".toList, "\t#include<a\"b>c\" d>".toList] =
    [⟨"\t#include<a\"b>c\" d>".toList, 1, "a\"b>c".toList, .angle⟩] := by
  decide +kernel

end SketchBuild.Include
