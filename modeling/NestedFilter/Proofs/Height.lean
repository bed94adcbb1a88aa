import NestedFilter.Proofs.Canonical

/-!
# Levels and parentheses

How many levels the tree of a text has, and how many parentheses its text and its canonical
text nest. Three numbers are compared:

| number | of what |
|---|---|
| `NestedFilter.nesting` | the parentheses open at once in the text that is read |
| `NestedFilter.Filter.depth` | the levels of the tree |
| `NestedFilter.Filter.parenDepth` | the parentheses open at once in the canonical text |

The levels are counted from a list of subtrees still to be visited, which yields the height
by recursion (`NestedFilter.Filter.depth_eq_height`). The invariant is about the whole list: it
says when the count is at most a given number, so that no maximum over the list is written
down (`NestedFilter.Filter.deepestLevel_le_iff`).

A pair of parentheses may hold a chain of both connectives, which is two groups, one in the
other; so `k` nested pairs give `2 * k + 1` levels at most
(`NestedFilter.Filter.depth_le_of_parse`). The induction is over the derivation, and it needs
more than the bound for the chain: a filter *in* a chain is a leaf, or has stood in parentheses
and has two levels less than the chain may have. For every `k` some text gets there
(`NestedFilter.steepText`), the same two groups over and over.

The canonical text has parentheses for every group. Hence it may need twice as many as the text
that was read, and where these are too many it is not read again
(`NestedFilter.Filter.parse_toText_of_parse_iff`). Texts that nest half as many as are allowed
are safe; from there on, for every number of parentheses, there is a text that is not
(`NestedFilter.Filter.parse_toText_steep_ne`).
-/

namespace NestedFilter

namespace Filter

/-! ### The number of levels -/

theorem height_eq (f : Filter) : f.height = 1 + heightMax f.operands := by
  cases f <;> rfl

theorem heightMax_le_iff {fs : List Filter} {n : Nat} :
    heightMax fs ≤ n ↔ ∀ f ∈ fs, f.height ≤ n := by
  induction fs with
  | nil => simp [heightMax]
  | cons f fs ih => rw [heightMax, Nat.max_le, ih, List.forall_mem_cons]

/-- **What the visit of the levels finds**: the deepest level seen so far, or one that the
pending trees reach down to. A tree that is pending on some level reaches down by its height, less
one for its own level. -/
theorem deepestLevel_le_iff {pending : List (Filter × Nat)} {deepest n : Nat} :
    deepestLevel pending deepest ≤ n ↔
      deepest ≤ n ∧ ∀ p ∈ pending, p.1.height + p.2 ≤ n + 1 := by
  induction pending, deepest using deepestLevel.induct with
  | case1 deepest => simp [deepestLevel]
  | case2 deepest f level rest ih =>
    have hbelow : (∀ p ∈ f.operands.map (·, level + 1), p.1.height + p.2 ≤ n + 1) ↔
        ∀ g ∈ f.operands, g.height + (level + 1) ≤ n + 1 := by
      simp
    have hmax : level ≤ n → ((∀ g ∈ f.operands, g.height + (level + 1) ≤ n + 1) ↔
        heightMax f.operands ≤ n - level) := by
      intro hlevel
      rw [heightMax_le_iff]
      exact forall₂_congr fun g _ => by omega
    rw [deepestLevel, ih, List.forall_mem_append, hbelow, List.forall_mem_cons, height_eq f]
    constructor
    · rintro ⟨hdeepest, hoperands, hrest⟩
      have := (hmax (by omega)).1 hoperands
      exact ⟨by omega, by omega, hrest⟩
    · rintro ⟨hdeepest, hf, hrest⟩
      exact ⟨by omega, (hmax (by omega)).2 (by omega), hrest⟩

/-- **The levels are counted right**: the visit finds the height of the tree. A bound for the one is
a bound for the other, which makes them equal. -/
theorem depth_eq_height (f : Filter) : f.depth = f.height := by
  refine eq_of_forall_ge_iff fun n => ?_
  rw [depth, deepestLevel_le_iff]
  simp

/-! ### The canonical text -/

theorem heightMax_eq_parenDepthMax {fs : List Filter} (hne : fs ≠ [])
    (h : ∀ f ∈ fs, f.height = f.parenDepth + 1) : heightMax fs = parenDepthMax fs + 1 := by
  induction fs with
  | nil => exact absurd rfl hne
  | cons f fs ih =>
    obtain ⟨hf, hfs⟩ := List.forall_mem_cons.1 h
    rw [heightMax, parenDepthMax, hf]
    cases fs with
    | nil => simp [heightMax, parenDepthMax]
    | cons g gs => rw [ih (List.cons_ne_nil g gs) hfs, Nat.add_max_add_right]

/-- The canonical text has parentheses around everything but the root. For a group without operands
this would be wrong, as its height is that of a leaf. -/
theorem IsCanonical.height_eq_parenDepth {f : Filter} (hf : f.IsCanonical) :
    f.height = f.parenDepth + 1 := by
  induction hf with
  | leaf => rfl
  | group hmany _ ih =>
    have hne := List.ne_nil_of_length_pos (Nat.lt_of_lt_of_le Nat.zero_lt_two hmany)
    rw [height, parenDepth, heightMax_eq_parenDepthMax hne ih, Nat.add_assoc]

/-! ### The text that is read -/

theorem height_collapse_le {c : Connective} {fs : List Filter} {n : Nat}
    (h : ∀ f ∈ fs, f.height ≤ n) : (collapse c fs).height ≤ n + 1 := by
  have hgroup : (Filter.group c fs).height ≤ n + 1 := by
    rw [height, Nat.add_comm]
    exact Nat.succ_le_succ (heightMax_le_iff.2 h)
  match fs with
  | [] => exact hgroup
  | [f] => exact Nat.le_succ_of_le (h f (List.mem_singleton_self f))
  | _ :: _ :: _ => exact hgroup

/-- A chain adds two levels to those of its filters, one for each connective, and fewer if one of
the connectives does not occur. -/
theorem height_ofChain_le {runs : List (List Filter)} {n : Nat}
    (h : ∀ run ∈ runs, ∀ f ∈ run, f.height ≤ n) : (ofChain runs).height ≤ n + 2 := by
  refine height_collapse_le fun f hf => ?_
  obtain ⟨run, hrun, rfl⟩ := List.mem_map.1 hf
  exact height_collapse_le (h run hrun)

end Filter

/-- With at most `n` parentheses open at once, every filter of a chain is a leaf, or has
stood in parentheses and is the filter of a chain itself. -/
theorem Derives.height_le_of_mem {n : Nat} {ls : List Lexeme} {runs : List (List Filter)}
    (h : Derives n ls runs) :
    (∀ run ∈ runs, ∀ f ∈ run, f.height ≤ max 1 (2 * n - 1)) ∧
      (Filter.ofChain runs).height ≤ 2 * n + 1 := by
  -- Where parentheses are used, the second part follows from the first.
  have hchain : ∀ {m : Nat} {runs : List (List Filter)},
      (∀ run ∈ runs, ∀ f ∈ run, f.height ≤ max 1 (2 * (m + 1) - 1)) →
        (Filter.ofChain runs).height ≤ 2 * (m + 1) + 1 := fun hmem =>
    Nat.le_trans (Filter.height_ofChain_le hmem) (by omega)
  induction h with
  | @condition n ls l h =>
    have hleaf : (Filter.leaf l).height ≤ max 1 (2 * n - 1) := Nat.le_max_left 1 _
    exact ⟨by simpa using hleaf, Nat.le_add_left 1 (2 * n)⟩
  | @group n ls runs _ ih =>
    have hmem : ∀ run ∈ [[Filter.ofChain runs]], ∀ f ∈ run, f.height ≤ max 1 (2 * (n + 1) - 1) := by
      simp only [List.forall_mem_singleton]
      omega
    exact ⟨hmem, hchain hmem⟩
  | @and n ls ms runs more run _ _ ih ihmore =>
    obtain ⟨hrun, hmore⟩ := List.forall_mem_cons.1 ihmore.1
    have hmem : ∀ r ∈ (Filter.ofChain runs :: run) :: more,
        ∀ f ∈ r, f.height ≤ max 1 (2 * (n + 1) - 1) :=
      List.forall_mem_cons.2 ⟨List.forall_mem_cons.2 ⟨by omega, hrun⟩, hmore⟩
    exact ⟨hmem, hchain hmem⟩
  | @or n ls ms runs more _ _ ih ihmore =>
    have hmem : ∀ r ∈ [Filter.ofChain runs] :: more,
        ∀ f ∈ r, f.height ≤ max 1 (2 * (n + 1) - 1) :=
      List.forall_mem_cons.2 ⟨List.forall_mem_singleton.2 (by omega), ihmore.1⟩
    exact ⟨hmem, hchain hmem⟩

/-- The number of parentheses open at once in a text, at most. It is counted in the lexemes, so a
parenthesis that stands in a value does not count. -/
def nesting (s : String) : Nat :=
  nestingFrom 0 ((tokenize s).map (·.lexeme))

namespace Filter

variable {s : String} {f : Filter}

/-- A filter is derived with just as many parentheses as its text nests, though as many as the limit
would be allowed. -/
theorem exists_derives_of_parse (h : Filter.parse s = .ok f) :
    nesting s ≤ maxNesting ∧
      ∃ runs, Derives (nesting s) ((tokenize s).map (·.lexeme)) runs ∧ f = ofChain runs := by
  obtain ⟨runs, hruns, heq⟩ := ofTokens_eq_ok_iff.1 h
  obtain ⟨d, hd, hderives, hnests⟩ := hruns.exists_nests
  obtain rfl : nesting s = d := hnests.nestingFrom_eq
  exact ⟨hd, runs, hderives, heq⟩

theorem nesting_le_of_parse (h : Filter.parse s = .ok f) : nesting s ≤ maxNesting :=
  (exists_derives_of_parse h).1

/-- **Every pair of parentheses is good for two levels**, and the leaves for one: what stands in it
may be a chain of both connectives, whose filters stand in parentheses or are leaves. -/
theorem depth_le_of_parse (h : Filter.parse s = .ok f) : f.depth ≤ 2 * nesting s + 1 := by
  obtain ⟨-, runs, hruns, rfl⟩ := exists_derives_of_parse h
  rw [depth_eq_height]
  exact hruns.height_le_of_mem.2

end Filter

/-! ### The steepest texts -/

/-- A text in parentheses, joined to what follows by a connective. -/
def linkText (c : Connective) (text rest : List Char) : List Char :=
  '(' :: (text ++ ')' :: ' ' :: (c.word.toList ++ ' ' :: rest))

/-- Lexemes in parentheses, joined to what follows by a connective. -/
def linkLexemes (c : Connective) (ls rest : List Lexeme) : List Lexeme :=
  .lparen :: (ls ++ .rparen :: .connective c :: rest)

/-- The leaf of the texts below. -/
def someLeaf : Leaf :=
  ⟨"a", .compare .equal "1"⟩

/-- A filter with two levels more for every number: each time two groups, one in the other. -/
def steep : Nat → Filter
  | 0 => .leaf someLeaf
  | k + 1 => .group .or [.group .and [steep k, .leaf someLeaf], .leaf someLeaf]

/-- A text of that filter, which nests one pair of parentheses more for every number: `and`
binds stronger than `or`, so the inner group needs none of its own. -/
def steepText : Nat → List Char
  | 0 => someLeaf.render
  | k + 1 => linkText .and (steepText k) (linkText .or someLeaf.render someLeaf.render)

/-- The lexemes of that text. -/
def steepLexemes : Nat → List Lexeme
  | 0 => someLeaf.lexemes
  | k + 1 =>
    linkLexemes .and (steepLexemes k) (linkLexemes .or someLeaf.lexemes someLeaf.lexemes)

theorem height_steep (k : Nat) : (steep k).height = 2 * k + 1 := by
  induction k with
  | zero => rfl
  | succ k ih =>
    simp only [steep, Filter.height, Filter.heightMax, ih]
    omega

namespace Lexer

/-- A linked text is read part by part. -/
theorem lexemesFrom_linkText (c : Connective) {text rest : List Char} {ls ms : List Lexeme}
    (htext : ∀ cs, lexemesFrom .normal (text ++ cs) = ls ++ lexemesFrom .normal cs)
    (hrest : ∀ cs, lexemesFrom .normal (rest ++ cs) = ms ++ lexemesFrom .normal cs)
    (cs : List Char) :
    lexemesFrom .normal (linkText c text rest ++ cs) =
      linkLexemes c ls ms ++ lexemesFrom .normal cs := by
  simp only [linkText, linkLexemes, List.cons_append, List.append_assoc]
  rw [lexemesFrom_lparen, htext, lexemesFrom_rparen, lexemesFrom_connective, hrest]

theorem lexemesFrom_steepText (k : Nat) (cs : List Char) :
    lexemesFrom .normal (steepText k ++ cs) = steepLexemes k ++ lexemesFrom .normal cs := by
  have hcanonical : someLeaf.IsCanonical :=
    ⟨⟨by decide, by decide, by decide⟩, by simp [someLeaf, Test.IsCanonical, QuoteFree]⟩
  have hleaf : ∀ cs, lexemesFrom .normal (someLeaf.render ++ cs) =
      someLeaf.lexemes ++ lexemesFrom .normal cs :=
    lexemesFrom_leaf hcanonical
  induction k generalizing cs with
  | zero => exact hleaf cs
  | succ k ih => exact lexemesFrom_linkText .and ih (lexemesFrom_linkText .or hleaf hleaf) cs

end Lexer

/-- One pair of parentheses more is enough for two levels more. The lexemes are nested as deep as
stated and no deeper, which the sharpness of the bounds rests on. -/
theorem derives_steepLexemes (k : Nat) :
    Nests (steepLexemes k) k ∧
      ∃ runs, Derives k (steepLexemes k) runs ∧ .ofChain runs = steep k := by
  have hleaf : Condition someLeaf.lexemes someLeaf := .compare "a" .equal "1"
  induction k with
  | zero => exact ⟨hleaf.nests, _, .condition hleaf, rfl⟩
  | succ k ih =>
    obtain ⟨hnests, runs, hruns, heq⟩ := ih
    have hmore := Derives.or (n := k) (.condition hleaf) (.condition hleaf)
    refine ⟨?_, _, .and hruns hmore, ?_⟩
    · have hjoin := hnests.join (hleaf.nests.join hleaf.nests .or) .and
      rwa [Nat.max_eq_left (by omega)] at hjoin
    · rw [steep, ← heq]
      rfl

theorem map_lexeme_tokenize_steepText (k : Nat) :
    (tokenize (String.ofList (steepText k))).map (·.lexeme) = steepLexemes k := by
  have h := Lexer.lexemesFrom_steepText k []
  rw [List.append_nil, Lexer.lexemesFrom_nil, List.append_nil] at h
  rw [map_lexeme_tokenize, String.toList_ofList, h]

/-- **The steepest texts**: with `k` nested pairs of parentheses, `2 * k + 1` levels. -/
theorem parse_steepText {k : Nat} (hk : k ≤ maxNesting) :
    Filter.parse (String.ofList (steepText k)) = .ok (steep k) ∧
      nesting (String.ofList (steepText k)) = k ∧ (steep k).depth = 2 * k + 1 := by
  obtain ⟨hnests, runs, hruns, heq⟩ := derives_steepLexemes k
  refine ⟨?_, ?_, by rw [Filter.depth_eq_height, height_steep]⟩
  · rw [Filter.parse, Filter.ofTokens_eq_ok_iff, map_lexeme_tokenize_steepText]
    exact ⟨runs, hruns.mono hk, heq.symm⟩
  · rw [nesting, map_lexeme_tokenize_steepText, hnests.nestingFrom_eq]

/-! ### What is read again -/

namespace Filter

/-- The canonical text of a filter that was read is read again if its levels are no more than the
parentheses around them allow. Being canonical is no condition then, as what is read is. -/
theorem parse_toText_iff_depth_le {s : String} {f : Filter} (h : Filter.parse s = .ok f) :
    Filter.parse f.toText = .ok f ↔ f.depth ≤ maxNesting + 1 := by
  have hf := isCanonical_of_parse h
  rw [parse_toText_iff_parenDepth_le hf, depth_eq_height, hf.height_eq_parenDepth,
    Nat.add_le_add_iff_right]

/-- **What is read again.** The canonical text of a filter that was read is read as that filter
exactly if the filter has no more than `NestedFilter.maxNesting` levels below its root. That
is so for every text that nests half of `NestedFilter.maxNesting` pairs of parentheses at
most. -/
theorem parse_toText_of_parse_iff {s : String} {f : Filter} (h : Filter.parse s = .ok f) :
    (Filter.parse f.toText = .ok f ↔ f.depth ≤ maxNesting + 1) ∧
      (2 * nesting s ≤ maxNesting → Filter.parse f.toText = .ok f) := by
  refine ⟨parse_toText_iff_depth_le h, fun hnesting => ?_⟩
  have hdepth := depth_le_of_parse h
  exact (parse_toText_iff_depth_le h).2 (by omega)

/-- With 64 nested pairs of parentheses the canonical text needs 128 at most, and for the steepest
filter it does need them. -/
theorem parse_toText_of_parse_iff_half :
    Filter.parse (String.ofList (steepText 64)) = .ok (steep 64) ∧
      2 * nesting (String.ofList (steepText 64)) ≤ maxNesting ∧
      Filter.parse (steep 64).toText = .ok (steep 64) := by
  obtain ⟨hparse, hnesting, -⟩ := parse_steepText (k := 64) (by decide)
  have hhalf : 2 * nesting (String.ofList (steepText 64)) ≤ maxNesting := by
    rw [hnesting]
    decide
  exact ⟨hparse, hhalf, (parse_toText_of_parse_iff hparse).2 hhalf⟩

/-- **Half is sharp**: for every greater number of nested pairs of parentheses that may be read
there is a text whose canonical text is not. -/
theorem parse_toText_steep_ne {k : Nat} (hk : k ≤ maxNesting) (hhalf : maxNesting < 2 * k) :
    Filter.parse (String.ofList (steepText k)) = .ok (steep k) ∧
      nesting (String.ofList (steepText k)) = k ∧
      Filter.parse (steep k).toText ≠ .ok (steep k) := by
  obtain ⟨hparse, hnesting, hdepth⟩ := parse_steepText hk
  refine ⟨hparse, hnesting, fun hagain => ?_⟩
  rw [parse_toText_iff_depth_le hparse, hdepth] at hagain
  omega

/-- With 65 nested pairs of parentheses the canonical text may need 130, and is not read. -/
theorem parse_toText_ne_of_parse_steepText :
    Filter.parse (String.ofList (steepText 65)) = .ok (steep 65) ∧
      Filter.parse (steep 65).toText ≠ .ok (steep 65) := by
  obtain ⟨hparse, -, hne⟩ := parse_toText_steep_ne (k := 65) (by decide) (by decide)
  exact ⟨hparse, hne⟩

end Filter

end NestedFilter
