import NestedFilter.Proofs.Canonical
import NestedFilter.Proofs.Scope
import NestedFilter.Request

/-!
# Nested queries for the empty path

A field with nothing before its only dot lies at the root: the empty path is no path
(`NestedFilter.nestedPath?`). The common path of several leaves is found by dropping
segments from behind, and there nothing stops at the empty path. It is what `.a` and `.b`
have in common, the segment before their first dot being empty in both.

`NestedFilter.Query.hasEmptyPath_ofText_iff` says exactly when that happens: a nested query
for the empty path occurs in the query of a filter if and only if somewhere in the filter
leaves whose paths all start with a dot, and agree no further, are to hold together or are
the last two of an `or` (`NestedFilter.Filter.PartsAtDot`). No other nested query has an
empty path:

| where a nested query comes from | its path |
|---|---|
| a leaf by itself | that of its field, which is never empty |
| leaves gathered at the root | their common path, empty for leaves that part at the dot |
| leaves gathered below that | a path with more segments than the one around it |
| the last two leaves of an `or` | their common path again |

The two directions go by different inductions. From the query to the filter it is one over the
rules by which the query came about (`NestedFilter.Query.partsAtDot_of_compiled`). From the
filter to the query it is one over the place in the filter: a group that stands in another is
compiled as if it stood alone, and its query occurs in that of the other with no nested query
in between (`NestedFilter.Query.exists_occurs_of_mem`). An operand that is a leaf would not
do here, as its query may have become part of one for all the leaves.
-/

namespace NestedFilter

theorem nestedPath?_ne_nil {field : String} {path : Path} (h : nestedPath? field = some path) :
    path ≠ [] := by
  rw [nestedPath?, Option.filter_eq_some_iff] at h
  simpa using h.2

/-! ### Leaves that part at a leading dot -/

namespace Leaf

variable {leaves : List Leaf} {leaf : Leaf} {scope : Option Path} {path : Path}
variable {settings : Settings} {query : Query}

/-- The paths of the leaves start with a dot, and that is all they have in common. It is said
without the common path, by the first characters and the second segments of the paths. -/
structure PartAtDot (leaves : List Leaf) : Prop where
  /-- There is a leaf. -/
  ne_nil : leaves ≠ []
  /-- All leaves have paths that start with a dot. -/
  dotted : ∀ l ∈ leaves, ∃ own, l.path? = some own ∧ own.head? = some '.'
  /-- No segment comes behind that dot in all these paths. -/
  apart : ∀ segment, ∃ l ∈ leaves, ∃ own, l.path? = some own ∧ own.segments[1]? ≠ some segment

theorem path?_ne_nil {own : Path} (h : leaf.path? = some own) : own ≠ [] :=
  nestedPath?_ne_nil h

/-- Only what starts with a dot is within the empty path, as a dot is what has to come behind the
characters of a path for another to go on from it. -/
theorem isWithin_nil_iff {own : Path} (hne : own ≠ []) :
    own.isWithin [] = true ↔ own.head? = some '.' := by
  obtain ⟨c, cs, rfl⟩ := List.exists_cons_of_ne_nil hne
  simp [Path.isWithin]

/-- **The common path is empty** exactly for leaves that part at a leading dot. This is so for any
number of leaves, though a single one never parts. -/
theorem commonPath?_eq_some_nil_iff : commonPath? leaves = some [] ↔ PartAtDot leaves := by
  constructor
  · intro h
    obtain ⟨hne, -⟩ := commonPath?_isSome_iff.1 (by rw [h]; rfl)
    refine ⟨hne, fun l hl => ?_, fun segment => Classical.byContradiction fun hno => ?_⟩
    · obtain ⟨own, hown, hwithin⟩ := isWithin_commonPath? h hl
      exact ⟨own, hown, (isWithin_nil_iff (path?_ne_nil hown)).1 hwithin⟩
    · -- Did a segment come next in all paths, they would have a longer path in common.
      have hlonger : ∀ l ∈ leaves, ∀ own ∈ l.path?, own.isWithin ('.' :: segment) = true := by
        intro l hl own hown
        have hnext : Path.next? [] own = some segment :=
          Classical.byContradiction fun hnext => hno ⟨l, hl, own, hown, hnext⟩
        have hdot : '.' ∉ segment := Path.dot_notMem_of_mem_segments (List.mem_of_getElem? hnext)
        obtain ⟨own', hown', hwithin⟩ := isWithin_commonPath? h hl
        obtain rfl : own' = own := Option.some.inj (hown'.symm.trans hown)
        have hprefix := (Path.next?_eq_some_iff (Path.isWithin_iff_segments.1 hwithin)).1 hnext
        rw [← Path.segments_eq_singleton hdot, ← Path.segments_append_dot] at hprefix
        exact Path.isWithin_iff_segments.2 hprefix
      exact absurd (commonPath?_isWithin h hlonger) (by simp [Path.isWithin])
  · rintro ⟨hne, hdotted, hapart⟩
    have hwithin : ∀ l ∈ leaves, ∃ own, l.path? = some own ∧ own.isWithin [] = true := by
      intro l hl
      obtain ⟨own, hown, hdot⟩ := hdotted l hl
      exact ⟨own, hown, (isWithin_nil_iff (path?_ne_nil hown)).2 hdot⟩
    obtain ⟨path, hpath⟩ := Option.isSome_iff_exists.1
      (commonPath?_isSome_of_isWithin hne hwithin)
    have hroot : path.isWithin [] = true := commonPath?_isWithin_of_forall hpath hwithin
    rw [hpath, Option.some.injEq]
    refine Classical.byContradiction fun hnil => ?_
    -- A longer common path would show a segment that comes next in all paths.
    have hextends : path.Extends [] := Path.extends_iff.2 ⟨hroot, hnil⟩
    obtain ⟨segment, hsegment⟩ := hextends.exists_next?
    obtain ⟨l, hl, own, hown, hapart⟩ := hapart segment
    obtain ⟨own', hown', hin⟩ := isWithin_commonPath? hpath hl
    obtain rfl : own' = own := Option.some.inj (hown'.symm.trans hown)
    have hnext := Path.next?_of_isWithin hextends (Path.isWithin_iff_segments.1 hin)
    exact hapart (hnext.trans hsegment)

/-- A leaf by itself parts from nothing, so that it takes two at least. -/
theorem PartAtDot.two_le_length (h : PartAtDot leaves) : 2 ≤ leaves.length := by
  refine two_le_length_iff.2 ⟨h.ne_nil, ?_⟩
  rintro l rfl
  obtain ⟨own, hown, -⟩ := h.dotted l (List.mem_singleton_self l)
  have hcommon : commonPath? [l] = some own := by
    simp [commonPath?, Path.common?, hown]
  obtain rfl : own = [] := Option.some.inj (hcommon.symm.trans (commonPath?_eq_some_nil_iff.2 h))
  exact path?_ne_nil hown rfl

end Leaf

/-! ### Filters with such leaves -/

/-- Somewhere in the filter leaves that part at a leading dot are put into one nested query. Nothing
is said of the query here; these are the places in a filter where leaves are looked at together. -/
inductive Filter.PartsAtDot : Filter → Prop
  /-- All leaves of an `and`. -/
  | all {leaves : List Leaf} (h : Leaf.PartAtDot leaves) :
      PartsAtDot (.group .and (leaves.map .leaf))
  /-- The last two leaves of an `or`. -/
  | last (before : List Filter) {l m : Leaf} (h : Leaf.PartAtDot [l, m]) :
      PartsAtDot (.group .or (before ++ [.leaf l, .leaf m]))
  /-- Leaves within an operand. -/
  | operand {c : Connective} {operands : List Filter} {f : Filter} (hmem : f ∈ operands)
      (hf : PartsAtDot f) : PartsAtDot (.group c operands)

/-- What is so of the others of an `or` is so with one more operand before them, as it is the last
two that count. -/
theorem Filter.PartsAtDot.cons {operands : List Filter}
    (h : (Filter.group .or operands).PartsAtDot) (f : Filter) :
    (Filter.group .or (f :: operands)).PartsAtDot := by
  generalize hgroup : Filter.group .or operands = g at h
  cases h with
  | all => simp at hgroup
  | last before h =>
    obtain ⟨-, rfl⟩ := Filter.group.inj hgroup
    exact .last (f :: before) h
  | operand hmem hf =>
    obtain ⟨-, rfl⟩ := Filter.group.inj hgroup
    exact .operand (List.mem_cons_of_mem f hmem) hf

/-! ### Queries with an empty path -/

namespace Query

variable {settings : Settings} {q : Query} {queries : List Query} {path : Path}
variable {scope : Option Path}

/-- A nested query for the empty path occurs in the query, with whatever around it. -/
def HasEmptyPath (q : Query) : Prop :=
  ∃ enclosing body, Occurs q enclosing (.nested [] body)

theorem not_hasEmptyPath_clause (c : Clause) : ¬(clause c).HasEmptyPath := by
  rintro ⟨enclosing, body, h⟩
  cases h

theorem not_hasEmptyPath_mustNot (c : Clause) : ¬(mustNot c).HasEmptyPath := by
  rintro ⟨enclosing, body, h⟩
  cases h

theorem hasEmptyPath_filter : (filter queries).HasEmptyPath ↔ ∃ q ∈ queries, q.HasEmptyPath := by
  constructor
  · rintro ⟨enclosing, body, h⟩
    cases h with
    | filter hmem hq => exact ⟨_, hmem, enclosing, body, hq⟩
  · rintro ⟨q, hmem, enclosing, body, hq⟩
    exact ⟨enclosing, body, .filter hmem hq⟩

theorem hasEmptyPath_should : (should queries).HasEmptyPath ↔ ∃ q ∈ queries, q.HasEmptyPath := by
  constructor
  · rintro ⟨enclosing, body, h⟩
    cases h with
    | should hmem hq => exact ⟨_, hmem, enclosing, body, hq⟩
  · rintro ⟨q, hmem, enclosing, body, hq⟩
    exact ⟨enclosing, body, .should hmem hq⟩

theorem hasEmptyPath_nested : (nested path q).HasEmptyPath ↔ path = [] ∨ q.HasEmptyPath := by
  constructor
  · rintro ⟨enclosing, body, h⟩
    cases h with
    | here => exact .inl rfl
    | nested hq => exact .inr ⟨_, body, hq⟩
  · rintro (rfl | ⟨enclosing, body, hq⟩)
    · exact ⟨[], q, .here⟩
    · exact ⟨_, body, .nested hq⟩

theorem hasEmptyPath_enter :
    (Leaf.enter scope path q).HasEmptyPath ↔ (path = [] ∧ scope ≠ some []) ∨ q.HasEmptyPath := by
  rw [Leaf.enter]
  split
  · next heq =>
    refine ⟨.inr, fun h => h.resolve_left ?_⟩
    rintro ⟨rfl, hne⟩
    exact hne heq
  · next hne =>
    rw [hasEmptyPath_nested]
    refine or_congr_left ⟨fun h => ⟨h, fun heq => hne (h ▸ heq)⟩, And.left⟩

/-- A leaf by itself opens its own path, which is not empty, or no path at all. -/
theorem not_hasEmptyPath_of_toQuery {leaf : Leaf} (h : leaf.toQuery settings scope = .ok q) :
    ¬q.HasEmptyPath := by
  have hclause : ∀ {q}, leaf.clause settings = .ok q → ¬q.HasEmptyPath := by
    intro q hq
    obtain ⟨c, -, rfl | rfl⟩ := Leaf.clause_cases hq
    · exact not_hasEmptyPath_clause c
    · exact not_hasEmptyPath_mustNot c
  cases hpath : leaf.path? with
  | none => exact hclause ((Leaf.toQuery_of_path?_eq_none hpath).1 h)
  | some own =>
    obtain ⟨query, hquery, rfl⟩ := (Leaf.toQuery_of_path? hpath).1 h
    rw [hasEmptyPath_enter]
    rintro (⟨rfl, -⟩ | hq)
    · exact Leaf.path?_ne_nil hpath rfl
    · exact hclause hquery hq

/-- **Gathered leaves open the empty path at the root alone**, and only if it is their common
path: below it, every further path has more segments. -/
theorem hasEmptyPath_of_gathered {leaves : List Leaf} (h : Leaf.Gathered settings scope leaves q)
    (hq : q.HasEmptyPath) : scope = none ∧ Leaf.commonPath? leaves = some [] := by
  induction h with
  | single _ _ hquery => exact absurd hq (not_hasEmptyPath_of_toQuery hquery)
  | @shared scope leaves path direct deeper _ hpath hscope hdirect hlength _ ih =>
    have hinner : ¬(filter (direct ++ deeper)).HasEmptyPath := by
      rw [hasEmptyPath_filter]
      rintro ⟨q, hmem, hq⟩
      rcases List.mem_append.1 hmem with hmem | hmem
      · obtain ⟨l, -, hquery⟩ := exists_mem_of_forall₂ hdirect hmem
        exact not_hasEmptyPath_of_toQuery hquery hq
      · refine forall_mem_of_zip (p := fun q => ¬q.HasEmptyPath) hlength (fun pair hpair hq => ?_)
          q hmem hq
        simpa using (ih pair hpair hq).1
    obtain ⟨rfl, hne⟩ := (hasEmptyPath_enter.1 hq).resolve_right hinner
    refine ⟨Option.eq_none_iff_forall_ne_some.2 fun root hroot => ?_, hpath⟩
    -- Only the empty path has the empty path within it.
    obtain rfl : root = [] := by
      have hwithin := hscope root hroot
      cases root with
      | nil => rfl
      | cons => simp [Path.isWithin] at hwithin
    exact hne hroot

/-- **Where an empty path comes from**, rule by rule. Only two rules put leaves together, and both
open their common path; the others hand the question down to an operand. -/
theorem partsAtDot_of_compiled {f : Filter} (h : Compiled settings f q) (hq : q.HasEmptyPath) :
    f.PartsAtDot := by
  induction h with
  | leaf hquery => exact absurd hq (not_hasEmptyPath_of_toQuery hquery)
  | only _ ih => exact .operand List.mem_cons_self (ih hq)
  | together _ _ hquery =>
    exact .all (Leaf.commonPath?_eq_some_nil_iff.1 (hasEmptyPath_of_gathered hquery hq).2)
  | all _ _ hlength _ ih =>
    obtain ⟨part, hmem, hpart⟩ := hasEmptyPath_filter.1 hq
    obtain ⟨f, hf, hparts⟩ :=
      exists_mem_of_zip (r := fun f q => q.HasEmptyPath → f.PartsAtDot) hlength ih hmem
    exact .operand hf (hparts hpart)
  | either hpath hleft hright =>
    rcases hasEmptyPath_nested.1 hq with rfl | hq
    · exact .last [] (Leaf.commonPath?_eq_some_nil_iff.1 hpath)
    · obtain ⟨part, hmem, hpart⟩ := hasEmptyPath_should.1 hq
      rcases List.mem_pair.1 hmem with rfl | rfl
      · exact absurd hpart (not_hasEmptyPath_of_toQuery hleft)
      · exact absurd hpart (not_hasEmptyPath_of_toQuery hright)
  | first _ _ ihleft ihright =>
    obtain ⟨part, hmem, hpart⟩ := hasEmptyPath_should.1 hq
    rcases List.mem_pair.1 hmem with rfl | rfl
    · exact .operand List.mem_cons_self (ihleft hpart)
    · exact (ihright hpart).cons _

/-! ### Such leaves do open the empty path -/

theorem occurs_all {part : Query} (h : part ∈ queries) : Occurs (all queries) [] part := by
  match queries, h with
  | [q], h =>
    obtain rfl := List.mem_singleton.1 h
    exact .here
  | _ :: _ :: _, h => exact .filter h .here

/-- A group within a group is compiled by itself, and its query occurs right in that of the
outer group. -/
theorem exists_occurs_of_mem {c d : Connective} {operands inner : List Filter}
    (h : compile settings (.group c operands) = .ok q) (hmem : .group d inner ∈ operands) :
    ∃ part, compile settings (.group d inner) = .ok part ∧ Occurs q [] part := by
  cases c with
  | and =>
    rw [compile] at h
    cases hleaves : operands.mapM (·.leaf?) with
    | some leaves =>
      obtain rfl := mapM_leaf?_eq_some_iff.1 hleaves
      simp at hmem
    | none =>
      rw [hleaves] at h
      obtain ⟨parts, hparts, h⟩ := bind_eq_ok_iff.1 h
      obtain rfl := Except.ok.inj h
      rw [compileList_eq_mapM, mapM_eq_ok_iff] at hparts
      have hflip := List.Forall₂.flip (R := fun q f => compile settings f = .ok q) hparts
      obtain ⟨part, hpart, hcompile⟩ := exists_mem_of_forall₂ hflip hmem
      exact ⟨part, hcompile, occurs_all hpart⟩
  | or =>
    rw [compile] at h
    induction operands generalizing q with
    | nil => simp at hmem
    | cons f rest ih =>
      rcases rest with _ | ⟨g, others⟩
      · obtain rfl := List.mem_singleton.1 hmem
        rw [compileOr] at h
        exact ⟨q, h, .here⟩
      rcases compileOr_cons_cons settings f g others with ⟨l, m, rfl, rfl, rfl⟩ | hcons
      · simp at hmem
      rw [hcons] at h
      obtain ⟨left, hleft, h⟩ := bind_eq_ok_iff.1 h
      obtain ⟨right, hright, h⟩ := bind_eq_ok_iff.1 h
      obtain rfl := Except.ok.inj h
      rcases List.mem_cons.1 hmem with rfl | hmem
      · exact ⟨left, hleft, .should List.mem_cons_self .here⟩
      · obtain ⟨part, hcompile, hpart⟩ := ih hmem hright
        exact ⟨part, hcompile, .should (List.mem_cons_of_mem _ List.mem_cons_self) hpart⟩

theorem hasEmptyPath_of_gather {leaves : List Leaf} (hleaves : Leaf.PartAtDot leaves)
    (h : Leaf.gather settings none leaves = .ok q) : q.HasEmptyPath := by
  rw [Leaf.gather_of_commonPath? hleaves.two_le_length
    (Leaf.commonPath?_eq_some_nil_iff.2 hleaves)] at h
  obtain ⟨direct, -, h⟩ := bind_eq_ok_iff.1 h
  obtain ⟨deeper, -, h⟩ := bind_eq_ok_iff.1 h
  obtain rfl := Except.ok.inj h
  exact hasEmptyPath_enter.2 (.inl ⟨rfl, by simp⟩)

theorem hasEmptyPath_of_either {l m : Leaf} (hleaves : Leaf.PartAtDot [l, m])
    (h : l.either settings m = .ok q) : q.HasEmptyPath := by
  rw [Leaf.either, Leaf.commonPath?_eq_some_nil_iff.2 hleaves] at h
  obtain ⟨left, -, h⟩ := bind_eq_ok_iff.1 h
  obtain ⟨right, -, h⟩ := bind_eq_ok_iff.1 h
  obtain rfl := Except.ok.inj h
  exact hasEmptyPath_nested.2 (.inl rfl)

/-- The last two leaves of an `or` are compiled together, whatever stands before them. The operands
before are split off one by one, until these two are left. -/
theorem hasEmptyPath_of_compileOr {before : List Filter} {l m : Leaf}
    (hleaves : Leaf.PartAtDot [l, m])
    (h : compileOr settings (before ++ [.leaf l, .leaf m]) = .ok q) : q.HasEmptyPath := by
  induction before generalizing q with
  | nil =>
    rw [List.nil_append, compileOr] at h
    exact hasEmptyPath_of_either hleaves h
  | cons f before ih =>
    obtain ⟨g, k, others, hrest⟩ :
        ∃ g k others, before ++ [.leaf l, .leaf m] = g :: k :: others := by
      rcases before with _ | ⟨g, _ | ⟨k, others⟩⟩
      · exact ⟨_, _, _, rfl⟩
      · exact ⟨_, _, _, rfl⟩
      · exact ⟨_, _, _, rfl⟩
    rw [List.cons_append, hrest] at h
    rcases compileOr_cons_cons settings f g (k :: others) with ⟨_, _, _, _, hnil⟩ | hcons
    · simp at hnil
    rw [hcons] at h
    obtain ⟨left, -, h⟩ := bind_eq_ok_iff.1 h
    obtain ⟨right, hright, h⟩ := bind_eq_ok_iff.1 h
    obtain rfl := Except.ok.inj h
    exact hasEmptyPath_should.2
      ⟨right, List.mem_cons_of_mem _ List.mem_cons_self, ih (hrest ▸ hright)⟩

theorem hasEmptyPath_of_partsAtDot {f : Filter} (hf : f.PartsAtDot)
    (h : compile settings f = .ok q) : q.HasEmptyPath := by
  induction hf generalizing q with
  | all hleaves =>
    rw [compile, mapM_leaf?_eq_some_iff.2 rfl] at h
    exact hasEmptyPath_of_gather hleaves h
  | last before hleaves =>
    rw [compile] at h
    exact hasEmptyPath_of_compileOr hleaves h
  | @operand c operands f hmem hf ih =>
    cases f with
    | leaf l => cases hf
    | group d inner =>
      obtain ⟨part, hcompile, hpart⟩ := exists_occurs_of_mem h hmem
      obtain ⟨enclosing, body, hbody⟩ := ih hcompile
      exact ⟨enclosing ++ [], body, hpart.trans hbody⟩

/-- **Where an empty path is opened.** In the query of a text there is a nested query for the
empty path exactly if somewhere in its filter leaves that part at a leading dot are put into
one nested query. -/
theorem hasEmptyPath_ofText_iff {s : String} {f : Filter} (hf : Filter.parse s = .ok f)
    (h : ofText settings s = .ok q) : q.HasEmptyPath ↔ f.PartsAtDot := by
  obtain ⟨g, hg, hquery⟩ := ofText_eq_ok_iff.1 h
  obtain rfl : f = g := Except.ok.inj (hf.symm.trans hg)
  have hcompile := compile_of_ofFilter hquery
  exact ⟨partsAtDot_of_compiled (compiled_of_compile hcompile),
    fun hparts => hasEmptyPath_of_partsAtDot hparts hcompile⟩

/-- Two leaves that part at a leading dot. -/
def dotted : Filter :=
  .group .and [.leaf ⟨".a.x", .compare .equal "1"⟩, .leaf ⟨".b.y", .compare .equal "2"⟩]

/-- Such leaves can be said by a text, and have a query. -/
theorem ofText_dotted :
    Filter.parse "(.a.x='1') and (.b.y='2')" = .ok dotted ∧
      ofText {} "(.a.x='1') and (.b.y='2')" =
        .ok (.nested [] (.filter [.nested ".a".toList (.clause (.term ".a.x" "1")),
          .nested ".b".toList (.clause (.term ".b.y" "2"))])) := by
  have hcanonical : dotted.IsCanonical := by
    refine .group (by decide) ?_
    rw [List.forall_mem_cons, List.forall_mem_singleton]
    exact ⟨.leaf ⟨⟨by decide, by decide, by decide⟩, by simp [Test.IsCanonical, QuoteFree]⟩,
      .leaf ⟨⟨by decide, by decide, by decide⟩, by simp [Test.IsCanonical, QuoteFree]⟩⟩
  have htext : dotted.toText = "(.a.x='1') and (.b.y='2')" := by decide
  have hparse := (Filter.parse_toText_iff_parenDepth_le hcanonical).2 (by decide)
  rw [htext] at hparse
  have hquery : ofFilter {} dotted =
      .ok (.nested [] (.filter [.nested ".a".toList (.clause (.term ".a.x" "1")),
        .nested ".b".toList (.clause (.term ".b.y" "2"))])) := by
    with_unfolding_all rfl
  exact ⟨hparse, ofText_eq_ok_iff.2 ⟨dotted, hparse, hquery⟩⟩

/-- The empty path in a query, and the leaves that it comes from. -/
theorem hasEmptyPath_ofText_iff_dotted :
    Filter.parse "(.a.x='1') and (.b.y='2')" = .ok dotted ∧
      ∃ q, ofText {} "(.a.x='1') and (.b.y='2')" = .ok q ∧ (q.HasEmptyPath ↔ dotted.PartsAtDot) :=
  ⟨ofText_dotted.1, _, ofText_dotted.2, hasEmptyPath_ofText_iff ofText_dotted.1 ofText_dotted.2⟩

/-- Not every query of a text is free of the empty path. -/
theorem not_forall_ofText_not_hasEmptyPath :
    ¬∀ (settings : Settings) (s : String) (q : Query),
      ofText settings s = .ok q → ¬q.HasEmptyPath := fun h =>
  h {} _ _ ofText_dotted.2 ⟨[], _, .here⟩

end Query

end NestedFilter
