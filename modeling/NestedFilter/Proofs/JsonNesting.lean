import NestedFilter.Proofs.Height
import NestedFilter.Proofs.Scope

/-!
# How deep the JSON of a query nests

The limit on the levels of a filter does not bound how deep arrays and objects stand in each
other in the JSON value of its query: an `or` sets its first operand beside the `or` of the
others, so that every operand before the last puts what follows one boolean query further
down, however flat the filter is. Three numbers together do bound it:

| number | of what |
|---|---|
| `NestedFilter.Filter.depth` | the levels, no more than `NestedFilter.maxLevels` |
| `NestedFilter.Filter.orWidth` | the operands of an `or` |
| `NestedFilter.Filter.fieldSegments` | the segments of a field |

The operands of an `and` do not count, however many there are: they stand beside each other,
and leaves that share a path are nested once for every segment at most
(`NestedFilter.Query.nesting_toJson_gathered_le`).

**From above** (`NestedFilter.Query.nesting_toJson_ofFilter_le`) the way goes by the boolean
queries above a clause, `NestedFilter.Filter.boolLevels`. They are a number of the filter and
not of its query, so the first half, `NestedFilter.Filter.boolLevels_add_le`, is arithmetic on
the tree, and the second, `NestedFilter.Query.nesting_toJson_compiled_le`, has one case for
each rule of `NestedFilter.Query.Compiled`.

**From below** (`NestedFilter.Query.le_nesting_toJson_ofFilter`) only the operands of an `or`
count: groups of one operand may lie within each other as deep as the limit allows, and come
to the query of a single leaf. The two bounds do not meet, as wide groups may lie within each
other or apart. They do say what the levels and the segments can bound at all
(`NestedFilter.Query.nesting_toJson_bounded_iff_orWidth`), and the flat filters of the last
section, an `or` of one leaf over and over, are a kind in which they bound nothing.
-/

namespace NestedFilter

/-! ### Values in values -/

namespace Json

mutual

/-- How deep arrays and objects stand in each other: none for a value that is neither. -/
def nesting : Json → Nat
  | .null | .bool _ | .number _ | .string _ => 0
  | .array elements => 1 + nestingMax elements
  | .object members => 1 + nestingMaxOfMembers members

/-- The deepest nesting of a list of values. -/
def nestingMax : List Json → Nat
  | [] => 0
  | value :: rest => max value.nesting (nestingMax rest)

/-- The deepest nesting of the values of members. -/
def nestingMaxOfMembers : List (String × Json) → Nat
  | [] => 0
  | (_, value) :: rest => max value.nesting (nestingMaxOfMembers rest)

end

@[simp] theorem nesting_string (s : String) : (Json.string s).nesting = 0 := by
  rw [nesting]

@[simp] theorem nesting_single (key : String) (value : Json) :
    (single key value).nesting = 1 + value.nesting := by
  rw [single, nesting, nestingMaxOfMembers, nestingMaxOfMembers, Nat.max_zero]

theorem nestingMax_strings (texts : List String) : nestingMax (texts.map .string) = 0 := by
  induction texts with
  | nil => rfl
  | cons s texts ih => rw [List.map_cons, nestingMax, ih, nesting_string, Nat.max_self]

@[simp] theorem nesting_strings (texts : List String) : (strings texts).nesting = 1 := by
  rw [strings, nesting, nestingMax_strings]

end Json

theorem Clause.nesting_toJson_le (c : Clause) : c.toJson.nesting ≤ 3 := by
  cases c <;> simp [Clause.toJson, Json.nesting, Json.nestingMaxOfMembers]

namespace Query

variable {settings : Settings} {q : Query} {queries : List Query} {n : Nat}

theorem nestingMax_toJsonList_le_iff :
    Json.nestingMax (toJsonList queries) ≤ n ↔ ∀ q ∈ queries, q.toJson.nesting ≤ n := by
  induction queries with
  | nil => simp [toJsonList, Json.nestingMax]
  | cons q queries ih =>
    rw [toJsonList, Json.nestingMax, Nat.max_le, ih, List.forall_mem_cons]

theorem nesting_toJson_mustNot_le (c : Clause) : (mustNot c).toJson.nesting ≤ 5 := by
  have hc := c.nesting_toJson_le
  rw [toJson, Json.nesting_single, Json.nesting_single]
  omega

theorem nesting_toJson_filter (queries : List Query) :
    (filter queries).toJson.nesting = 3 + Json.nestingMax (toJsonList queries) := by
  rw [toJson, Json.nesting_single, Json.nesting_single, Json.nesting]
  omega

theorem nesting_toJson_filter_le (h : ∀ q ∈ queries, q.toJson.nesting ≤ n) :
    (filter queries).toJson.nesting ≤ 3 + n := by
  rw [nesting_toJson_filter]
  exact Nat.add_le_add_left (nestingMax_toJsonList_le_iff.2 h) 3

theorem le_nesting_toJson_filter (hq : q ∈ queries) :
    3 + q.toJson.nesting ≤ (filter queries).toJson.nesting := by
  rw [nesting_toJson_filter]
  exact Nat.add_le_add_left (nestingMax_toJsonList_le_iff.1 (Nat.le_refl _) q hq) 3

theorem nesting_toJson_should (left right : Query) :
    (should [left, right]).toJson.nesting = 3 + max left.toJson.nesting right.toJson.nesting := by
  simp only [toJson, toJsonList, Json.nesting_single, Json.nesting, Json.nestingMax, Nat.max_zero]
  omega

theorem nesting_toJson_nested (path : Path) (q : Query) :
    (nested path q).toJson.nesting = 2 + q.toJson.nesting := by
  rw [toJson, Json.nesting_single, Json.nesting, Json.nestingMaxOfMembers,
    Json.nestingMaxOfMembers, Json.nestingMaxOfMembers, Json.nesting_string, Nat.max_zero,
    Nat.zero_max]
  omega

/-- No query is flatter than a clause: its kind, its field, and the value looked for. -/
theorem two_le_nesting_toJson (q : Query) : 2 ≤ q.toJson.nesting := by
  rcases q with c | c | queries | queries | ⟨path, query⟩
  · cases c <;> simp [toJson, Clause.toJson, Json.nesting, Json.nestingMaxOfMembers]
  · rw [toJson, Json.nesting_single, Json.nesting_single]
    omega
  · rw [nesting_toJson_filter]
    omega
  · rw [toJson, Json.nesting_single, Json.nesting_single]
    omega
  · rw [nesting_toJson_nested]
    omega

theorem nesting_toJson_enter_le (scope : Option Path) (path : Path) (q : Query) :
    (Leaf.enter scope path q).toJson.nesting ≤ 2 + q.toJson.nesting := by
  rw [Leaf.enter]
  split
  · exact Nat.le_add_left _ 2
  · exact Nat.le_of_eq (nesting_toJson_nested path q)

end Query

/-! ### The numbers that count -/

namespace Filter

mutual

/-- The largest number anywhere in the filter, where each leaf has a number, and each group
has one that depends on its connective and on how many operands it joins. -/
def largest (leaf : Leaf → Nat) (group : Connective → Nat → Nat) : Filter → Nat
  | .leaf l => leaf l
  | .group c operands => max (group c operands.length) (largestAmong leaf group operands)

/-- The largest number anywhere in a list of filters. -/
def largestAmong (leaf : Leaf → Nat) (group : Connective → Nat → Nat) : List Filter → Nat
  | [] => 0
  | f :: fs => max (f.largest leaf group) (largestAmong leaf group fs)

end

/-- The largest number of segments of a field in the filter. -/
def fieldSegments (f : Filter) : Nat :=
  f.largest (fun l => (Path.segments l.field.toList).length) fun _ _ => 0

/-- The largest number of operands of an `or` in the filter. -/
def orWidth (f : Filter) : Nat :=
  f.largest (fun _ => 0) fun c width => if c = .or then width else 0

mutual

/-- The boolean queries on the longest way down in the query of the filter, and the clause at
its end: one boolean query for an `and`, and one for each operand of an `or` but the last. -/
def boolLevels : Filter → Nat
  | .leaf _ => 1
  | .group .and operands => 1 + boolLevelsMax operands
  | .group .or operands => boolLevelsOr operands

/-- The largest number of such levels in a list. -/
def boolLevelsMax : List Filter → Nat
  | [] => 0
  | f :: fs => max f.boolLevels (boolLevelsMax fs)

/-- The levels of an `or`: its first operand stands beside the `or` of the others. -/
def boolLevelsOr : List Filter → Nat
  | [] => 1
  | [f] => f.boolLevels
  | f :: g :: fs => 1 + max f.boolLevels (boolLevelsOr (g :: fs))

end

section Largest

variable {leaf : Leaf → Nat} {group : Connective → Nat → Nat} {c : Connective}
variable {operands : List Filter} {n : Nat}

theorem largestAmong_le_iff :
    largestAmong leaf group operands ≤ n ↔ ∀ f ∈ operands, f.largest leaf group ≤ n := by
  induction operands with
  | nil => simp [largestAmong]
  | cons f operands ih => rw [largestAmong, Nat.max_le, ih, List.forall_mem_cons]

theorem largest_group_le_iff :
    (Filter.group c operands).largest leaf group ≤ n ↔
      group c operands.length ≤ n ∧ ∀ f ∈ operands, f.largest leaf group ≤ n := by
  rw [largest, Nat.max_le, largestAmong_le_iff]

end Largest

variable {operands : List Filter} {n : Nat}

theorem fieldSegments_group_le_iff {c : Connective} :
    (Filter.group c operands).fieldSegments ≤ n ↔ ∀ f ∈ operands, f.fieldSegments ≤ n := by
  rw [fieldSegments, largest_group_le_iff]
  exact and_iff_right (Nat.zero_le n)

theorem fieldSegments_leaves_le_iff {c : Connective} {leaves : List Leaf} :
    (Filter.group c (leaves.map .leaf)).fieldSegments ≤ n ↔
      ∀ l ∈ leaves, (Path.segments l.field.toList).length ≤ n :=
  fieldSegments_group_le_iff.trans List.forall_mem_map

theorem orWidth_group_le_iff {c : Connective} :
    (Filter.group c operands).orWidth ≤ n ↔
      (c = .or → operands.length ≤ n) ∧ ∀ f ∈ operands, f.orWidth ≤ n := by
  rw [orWidth, largest_group_le_iff]
  refine and_congr_left fun _ => ?_
  cases c <;> simp

theorem boolLevelsMax_le_iff :
    boolLevelsMax operands ≤ n ↔ ∀ f ∈ operands, f.boolLevels ≤ n := by
  induction operands with
  | nil => simp [boolLevelsMax]
  | cons f operands ih => rw [boolLevelsMax, Nat.max_le, ih, List.forall_mem_cons]

/-- An `or` has as many levels more than its operands as there are operands before the last. -/
theorem boolLevelsOr_add_le {k : Nat} (hne : operands ≠ [])
    (h : ∀ f ∈ operands, f.boolLevels + k ≤ n) :
    boolLevelsOr operands + k + 1 ≤ n + operands.length := by
  induction operands with
  | nil => exact absurd rfl hne
  | cons f rest ih =>
    obtain ⟨hf, hrest⟩ := List.forall_mem_cons.1 h
    rcases rest with _ | ⟨g, others⟩
    · exact Nat.succ_le_succ hf
    · have hothers := ih (List.cons_ne_nil g others) hrest
      simp only [boolLevelsOr, List.length_cons] at hothers ⊢
      omega

/-- **Every level of the filter is good for one boolean query**, or, if it is an `or`, for as
many as it has operands before the last. -/
theorem boolLevels_add_le {width : Nat} (hwidth : 1 ≤ width) {f : Filter}
    (h : f.orWidth ≤ width + 1) : f.boolLevels + width ≤ width * f.height + 1 := by
  induction f with
  | leaf l => rw [boolLevels, height, Nat.mul_one, Nat.add_comm]
  | group c operands ih =>
    obtain ⟨hlength, hmem⟩ := largest_group_le_iff.1 h
    have hoperand : ∀ f ∈ operands, f.boolLevels + width ≤ width * heightMax operands + 1 := by
      intro f hf
      refine Nat.le_trans (ih f hf (hmem f hf)) (Nat.succ_le_succ ?_)
      exact Nat.mul_le_mul_left width (heightMax_le_iff.1 (Nat.le_refl _) f hf)
    rw [height, Nat.mul_add, Nat.mul_one]
    cases c with
    | and =>
      have hmax : boolLevelsMax operands ≤ width * heightMax operands :=
        boolLevelsMax_le_iff.2 fun f hf => by have := hoperand f hf; omega
      rw [boolLevels]
      omega
    | or =>
      rw [boolLevels]
      rcases eq_or_ne operands [] with rfl | hne
      · exact Nat.le_of_eq (Nat.add_comm 1 width)
      · have hor := boolLevelsOr_add_le hne hoperand
        rw [if_pos rfl] at hlength
        omega

end Filter

/-! ### Queries of leaves -/

namespace Query

variable {settings : Settings} {q : Query} {scope : Option Path} {leaf : Leaf} {segments : Nat}

/-- What a leaf is within has fewer segments than its field: the last one names no path. -/
theorem segments_length_lt_of_isWithin {own top : Path} (hown : leaf.path? = some own)
    (htop : own.isWithin top = true) :
    top.segments.length < (Path.segments leaf.field.toList).length := by
  have hbegins := segments_isPrefix_of_nestedPath? hown
  refine Nat.lt_of_le_of_lt (Path.isWithin_iff_segments.1 htop).length_le ?_
  refine Nat.lt_of_le_of_ne hbegins.length_le fun hlength => ?_
  rw [Leaf.path?, nestedPath?, Option.filter_eq_some_iff] at hown
  have heq := Path.segments_injective (hbegins.eq_of_length hlength)
  exact absurd (Path.parent?_length_lt hown.1) (by simp [heq])

theorem segments_length_lt_of_commonPath? {leaves : List Leaf} {path : Path}
    (hpath : Leaf.commonPath? leaves = some path)
    (hsegments : ∀ l ∈ leaves, (Path.segments l.field.toList).length ≤ segments) :
    path.segments.length < segments := by
  obtain ⟨hne, -⟩ := Leaf.commonPath?_isSome_iff.1 (Option.isSome_iff_exists.2 ⟨path, hpath⟩)
  obtain ⟨l, hl⟩ := List.exists_mem_of_ne_nil leaves hne
  obtain ⟨own, hown, hwithin⟩ := Leaf.isWithin_commonPath? hpath hl
  exact Nat.lt_of_lt_of_le (segments_length_lt_of_isWithin hown hwithin) (hsegments l hl)

theorem nesting_toJson_clause_le (h : leaf.clause settings = .ok q) : q.toJson.nesting ≤ 5 := by
  obtain ⟨c, -, rfl | rfl⟩ := Leaf.clause_cases h
  · exact Nat.le_trans c.nesting_toJson_le (by decide)
  · exact nesting_toJson_mustNot_le c

/-- A leaf by itself is nested once at most. -/
theorem nesting_toJson_toQuery_le (h : leaf.toQuery settings scope = .ok q) :
    q.toJson.nesting ≤ 7 := by
  cases hpath : leaf.path? with
  | none =>
    have hclause := nesting_toJson_clause_le ((Leaf.toQuery_of_path?_eq_none hpath).1 h)
    omega
  | some own =>
    obtain ⟨query, hquery, rfl⟩ := (Leaf.toQuery_of_path? hpath).1 h
    have hclause := nesting_toJson_clause_le hquery
    have henter := nesting_toJson_enter_le scope own query
    omega

/-- A leaf right at the path that is open is not nested. -/
theorem nesting_toJson_toQuery_self_le {path : Path} (hpath : leaf.path? = some path)
    (h : leaf.toQuery settings (some path) = .ok q) : q.toJson.nesting ≤ 5 := by
  obtain ⟨query, hquery, rfl⟩ := (Leaf.toQuery_of_path? hpath).1 h
  rw [Leaf.enter, if_pos rfl]
  exact nesting_toJson_clause_le hquery

/-- A leaf whose field has a single segment is not nested at all. -/
theorem nesting_toJson_toQuery_le_segments (h : leaf.toQuery settings scope = .ok q)
    (hsegments : (Path.segments leaf.field.toList).length ≤ segments) :
    q.toJson.nesting ≤ 5 * segments := by
  cases hpath : leaf.path? with
  | none =>
    have hclause := nesting_toJson_clause_le ((Leaf.toQuery_of_path?_eq_none hpath).1 h)
    have hpos := List.length_pos_iff.2 (Path.segments_ne_nil leaf.field.toList)
    omega
  | some own =>
    have hquery := nesting_toJson_toQuery_le h
    have hpos := List.length_pos_iff.2 (Path.segments_ne_nil own)
    have hlt := segments_length_lt_of_isWithin hpath (Path.isWithin_self own)
    omega

/-- **Gathered leaves are nested once for every segment at most**: each nested query is for a
path with more segments than the one around it has. -/
theorem nesting_toJson_gathered_le {leaves : List Leaf} {top : Path}
    (h : Leaf.Gathered settings scope leaves q)
    (htop : ∀ l ∈ leaves, ∃ own, l.path? = some own ∧ own.isWithin top = true)
    (hsegments : ∀ l ∈ leaves, (Path.segments l.field.toList).length ≤ segments) :
    q.toJson.nesting + 5 * top.segments.length ≤ 5 * segments + 5 := by
  induction h generalizing top with
  | single hown _ hquery =>
    have hleaf := nesting_toJson_toQuery_le hquery
    have hfield := hsegments _ List.mem_cons_self
    obtain ⟨own, hown, hwithin⟩ := htop _ List.mem_cons_self
    have hlt := segments_length_lt_of_isWithin hown hwithin
    omega
  | @shared scope leaves path direct deeper _ hpath _ hdirect hlength _ ih =>
    have hin : ∀ l ∈ leaves, ∃ own, l.path? = some own ∧ own.isWithin path = true := fun l hl =>
      Leaf.isWithin_commonPath? hpath hl
    have hbelow : path.isWithin top = true := Leaf.commonPath?_isWithin_of_forall hpath htop
    have hle := (Path.isWithin_iff_segments.1 hbelow).length_le
    have hlt := segments_length_lt_of_commonPath? hpath hsegments
    have hdirectLe : ∀ part ∈ direct,
        part.toJson.nesting ≤ 5 * (segments - path.segments.length) := by
      intro part hpart
      obtain ⟨l, hl, hquery⟩ := exists_mem_of_forall₂ hdirect hpart
      have hself := nesting_toJson_toQuery_self_le (Leaf.mem_directlyAt.1 hl).2 hquery
      omega
    -- Every group lies within a path of one segment more, which makes up for its nesting.
    have hgroupLe : ∀ pair ∈ (Leaf.childPaths path leaves).zip deeper,
        pair.2.toJson.nesting ≤ 5 * (segments - path.segments.length) := by
      intro pair hpair
      have hchild : pair.1 ∈ Leaf.childPaths path leaves := (List.of_mem_zip hpair).1
      obtain ⟨segment, hsegment⟩ := Leaf.segments_of_mem_childPaths hpath hchild
      have hwithin : ∀ l ∈ Leaf.under path pair.1 leaves,
          ∃ own, l.path? = some own ∧ own.isWithin pair.1 = true := by
        intro l hl
        obtain ⟨own, hown, -⟩ := hin l (Leaf.mem_under.1 hl).1
        exact ⟨own, hown, Leaf.isWithin_of_mem_under hpath hl hown⟩
      have hgroup := ih pair hpair hwithin fun l hl => hsegments l (Leaf.mem_under.1 hl).1
      rw [hsegment, List.length_append, List.length_singleton] at hgroup
      omega
    have hparts : ∀ part ∈ direct ++ deeper,
        part.toJson.nesting ≤ 5 * (segments - path.segments.length) :=
      List.forall_mem_append.2 ⟨hdirectLe, forall_mem_of_zip hlength hgroupLe⟩
    have hfilter := nesting_toJson_filter_le hparts
    have henter := nesting_toJson_enter_le scope path (filter (direct ++ deeper))
    omega

/-- **Every boolean level of the filter is good for three levels of the value**, and the
segments of a field are nested at the lowest of them. -/
theorem nesting_toJson_compiled_le {f : Filter} (h : Compiled settings f q)
    (hsegments : f.fieldSegments ≤ segments) :
    q.toJson.nesting + 3 ≤ 3 * f.boolLevels + 5 * segments := by
  induction h with
  | leaf hquery =>
    have hleaf := nesting_toJson_toQuery_le_segments hquery hsegments
    rw [Filter.boolLevels]
    omega
  | @only c f query _ ih =>
    have hf := ih (Filter.fieldSegments_group_le_iff.1 hsegments f List.mem_cons_self)
    cases c with
    | and =>
      rw [Filter.boolLevels, Filter.boolLevelsMax, Filter.boolLevelsMax]
      omega
    | or => exact hf
  | @together leaves query _ hpath hquery =>
    obtain ⟨path, hpath⟩ := Option.isSome_iff_exists.1 hpath
    have hgathered := nesting_toJson_gathered_le hquery
      (fun l hl => Leaf.isWithin_commonPath? hpath hl)
      (Filter.fieldSegments_leaves_le_iff.1 hsegments)
    have hpos := List.length_pos_iff.2 (Path.segments_ne_nil path)
    rw [Filter.boolLevels]
    omega
  | @all operands queries htwo _ hlength _ ih =>
    have hpair : ∀ pair ∈ operands.zip queries, pair.2.toJson.nesting + 3 ≤
        3 * Filter.boolLevelsMax operands + 5 * segments := by
      intro pair hpair
      have hmem : pair.1 ∈ operands := (List.of_mem_zip hpair).1
      have hlevels := Filter.boolLevelsMax_le_iff.1 (Nat.le_refl _) pair.1 hmem
      have hpart := ih pair hpair (Filter.fieldSegments_group_le_iff.1 hsegments pair.1 hmem)
      omega
    have hparts : ∀ part ∈ queries, part.toJson.nesting + 3 ≤
        3 * Filter.boolLevelsMax operands + 5 * segments := forall_mem_of_zip hlength hpair
    have hfilter := nesting_toJson_filter_le fun part hmem =>
      Nat.le_sub_of_add_le (hparts part hmem)
    obtain ⟨part, hmem⟩ := List.exists_mem_of_length_pos
      (Nat.lt_of_lt_of_le Nat.zero_lt_two (hlength ▸ htwo))
    have hpart := hparts part hmem
    rw [Filter.boolLevels]
    omega
  | @either l m path left right hpath hleft hright =>
    have hleftLe := nesting_toJson_toQuery_le hleft
    have hrightLe := nesting_toJson_toQuery_le hright
    have hleaves : ∀ x ∈ [l, m], (Path.segments x.field.toList).length ≤ segments :=
      Filter.fieldSegments_leaves_le_iff.1 hsegments
    have hlt := segments_length_lt_of_commonPath? hpath hleaves
    have hpos := List.length_pos_iff.2 (Path.segments_ne_nil path)
    simp only [nesting_toJson_nested, nesting_toJson_should, Filter.boolLevels,
      Filter.boolLevelsOr]
    omega
  | @first f g others left right _ _ ihleft ihright =>
    rw [Filter.fieldSegments_group_le_iff, List.forall_mem_cons] at hsegments
    have hleft := ihleft hsegments.1
    have hright := ihright (Filter.fieldSegments_group_le_iff.2 hsegments.2)
    rw [nesting_toJson_should, Filter.boolLevels, Filter.boolLevelsOr]
    rw [Filter.boolLevels] at hright
    omega

/-- Three levels of the value for every level of the filter below the root, as often as an
`or` has operands before the last, and five for every segment of a field. -/
theorem nesting_toJson_le_depth {f : Filter} (h : compile settings f = .ok q) :
    q.toJson.nesting ≤ 3 * ((f.depth - 1) * max 1 (f.orWidth - 1)) + 5 * f.fieldSegments := by
  have hcompiled := nesting_toJson_compiled_le (compiled_of_compile h)
    (Nat.le_refl f.fieldSegments)
  have hlevels : f.boolLevels + max 1 (f.orWidth - 1) ≤ max 1 (f.orWidth - 1) * f.height + 1 :=
    Filter.boolLevels_add_le (Nat.le_max_left _ _) (by omega)
  rw [Filter.depth_eq_height, Filter.height_eq, Nat.add_sub_cancel_left,
    Nat.mul_comm (Filter.heightMax _)]
  rw [Filter.height_eq, Nat.mul_add, Nat.mul_one] at hlevels
  omega

/-- **The widest `or` nests the value**: every operand of an `or` before the last puts what
follows it three levels down, wherever in the filter the `or` stands. -/
theorem orWidth_le_of_compiled {f : Filter} (h : Compiled settings f q) :
    f.orWidth ≤ (q.toJson.nesting + 1) / 3 := by
  -- A single operand fits into every query, and two fit into an `or` of two parts.
  have hsingle : ∀ q : Query, 1 ≤ (q.toJson.nesting + 1) / 3 := fun q => by
    have hq := two_le_nesting_toJson q
    omega
  have hpair : ∀ left right : Query, 2 ≤ ((should [left, right]).toJson.nesting + 1) / 3 := by
    intro left right
    have hleft := two_le_nesting_toJson left
    rw [nesting_toJson_should]
    omega
  induction h with
  | leaf _ => exact Nat.zero_le _
  | only _ ih =>
    exact Filter.orWidth_group_le_iff.2 ⟨fun _ => hsingle _, List.forall_mem_singleton.2 ih⟩
  | together _ _ _ =>
    refine Filter.orWidth_group_le_iff.2 ⟨nofun, ?_⟩
    rw [List.forall_mem_map]
    exact fun _ _ => Nat.zero_le _
  | @all operands queries _ _ hlength _ ih =>
    refine Filter.orWidth_group_le_iff.2 ⟨nofun, forall_mem_of_zip_left hlength ?_⟩
    intro pair hmem
    have hpart := le_nesting_toJson_filter (List.of_mem_zip hmem).2
    have hwidth := ih pair hmem
    omega
  | @either l m path left right _ _ _ =>
    have htwo := hpair left right
    rw [nesting_toJson_nested]
    refine Filter.orWidth_group_le_iff.2 ⟨fun _ => ?_, ?_⟩
    · rw [List.length_cons, List.length_singleton]
      omega
    · rw [List.forall_mem_cons, List.forall_mem_singleton]
      exact ⟨Nat.zero_le _, Nat.zero_le _⟩
  | @first f g others left right _ _ ihleft ihright =>
    obtain ⟨hlength, hothers⟩ := Filter.orWidth_group_le_iff.1 ihright
    have hrest := hlength rfl
    rw [nesting_toJson_should]
    refine Filter.orWidth_group_le_iff.2 ⟨fun _ => ?_, List.forall_mem_cons.2 ⟨?_, ?_⟩⟩
    · rw [List.length_cons]
      omega
    · omega
    · intro f hf
      have hwidth := hothers f hf
      omega

/-- Three levels for every operand of an `or` before the last, and two for the last. -/
theorem le_nesting_toJson_ofFilter {f : Filter} (h : ofFilter settings f = .ok q) :
    3 * (f.orWidth - 1) + 2 ≤ q.toJson.nesting := by
  have hwidth := orWidth_le_of_compiled (compiled_of_compile (compile_of_ofFilter h))
  have htwo := two_le_nesting_toJson q
  omega

/-- As a filter that has a query has `NestedFilter.maxLevels` levels at most, nothing but the
widest `or` and the longest field can make the value nest deeper. -/
theorem nesting_toJson_ofFilter_le {f : Filter} (h : ofFilter settings f = .ok q) :
    q.toJson.nesting ≤
      3 * ((maxLevels - 1) * max 1 (f.orWidth - 1)) + 5 * f.fieldSegments := by
  have hdepth := depth_le_of_ofFilter h
  refine Nat.le_trans (nesting_toJson_le_depth (compile_of_ofFilter h)) ?_
  refine Nat.add_le_add_right (Nat.mul_le_mul_left 3 ?_) _
  exact Nat.mul_le_mul_right _ (Nat.sub_le_sub_right hdepth 1)

/-- **How deep the JSON of a query nests.** At least three levels for every operand of its
widest `or` before the last, and no more than three for each of these on every level that a
filter may have, with five for every segment of its longest field. So among the settings and
filters of any kind, the levels and the segments bound the nesting exactly if they bound how
many operands an `or` has there. -/
theorem nesting_toJson_bounded_iff_orWidth (kind : Settings → Filter → Prop) :
    (∀ (settings : Settings) (f : Filter) (q : Query), ofFilter settings f = .ok q →
      3 * (f.orWidth - 1) + 2 ≤ q.toJson.nesting ∧
        q.toJson.nesting ≤
          3 * ((maxLevels - 1) * max 1 (f.orWidth - 1)) + 5 * f.fieldSegments) ∧
    ((∃ bound : Nat → Nat → Nat, ∀ (settings : Settings) (f : Filter) (q : Query),
        kind settings f → ofFilter settings f = .ok q →
          q.toJson.nesting ≤ bound maxLevels f.fieldSegments) ↔
      ∃ width : Nat → Nat → Nat, ∀ (settings : Settings) (f : Filter) (q : Query),
        kind settings f → ofFilter settings f = .ok q →
          f.orWidth ≤ width maxLevels f.fieldSegments) := by
  refine ⟨fun settings f q h => ⟨le_nesting_toJson_ofFilter h, nesting_toJson_ofFilter_le h⟩,
    ⟨?_, ?_⟩⟩
  · rintro ⟨bound, hbound⟩
    refine ⟨bound, fun settings f q hkind h => ?_⟩
    have hnesting := hbound settings f q hkind h
    have hwidth := le_nesting_toJson_ofFilter h
    omega
  · rintro ⟨width, hwidth⟩
    refine ⟨fun levels segments =>
      3 * ((levels - 1) * max 1 (width levels segments - 1)) + 5 * segments,
      fun settings f q hkind h => (nesting_toJson_ofFilter_le h).trans ?_⟩
    have hle := hwidth settings f q hkind h
    have hmax : max 1 (f.orWidth - 1) ≤ max 1 (width maxLevels f.fieldSegments - 1) := by omega
    exact Nat.add_le_add_right (Nat.mul_le_mul_left 3 (Nat.mul_le_mul_left _ hmax)) _

/-- An `or` of three leaves, the last two of which share a path, and the filters no `or` of
which has more operands. -/
theorem nesting_toJson_bounded_iff_orWidth_three :
    let f : Filter := .group .or [.leaf ⟨"name", .compare .equal "a"⟩,
      .leaf ⟨"tests.name", .compare .equal "b"⟩, .leaf ⟨"tests.size", .compare .less "9"⟩]
    let q : Query := .should [.clause (.term "name" "a"), .nested "tests".toList (.should
      [.clause (.term "tests.name" "b"), .clause (.range "tests.size" .lt "9")])]
    ofFilter {} f = .ok q ∧
      (3 * (3 - 1) + 2 ≤ q.toJson.nesting ∧ q.toJson.nesting ≤ 3 * (256 * 2) + 5 * 2) ∧
      ∃ bound : Nat → Nat → Nat, ∀ (settings : Settings) (f : Filter) (q : Query),
        f.orWidth ≤ 3 → ofFilter settings f = .ok q →
          q.toJson.nesting ≤ bound maxLevels f.fieldSegments := by
  intro f q
  have h : ofFilter {} f = .ok q := by with_unfolding_all rfl
  obtain ⟨hbounds, hiff⟩ := nesting_toJson_bounded_iff_orWidth fun _ f => f.orWidth ≤ 3
  exact ⟨h, hbounds {} f q h, hiff.2 ⟨fun _ _ => 3, fun _ _ _ hwidth _ => hwidth⟩⟩

/-! ### Flat filters -/

/-- An `or` of one leaf with itself, over and over: as flat as a group can be. -/
def flat (operands : Nat) : Filter :=
  .group .or (List.replicate operands (.leaf someLeaf))

/-- The query of one such operand and a number of others before it. -/
def flatQuery : Nat → Query
  | 0 => .clause (.term "a" "1")
  | n + 1 => .should [.clause (.term "a" "1"), flatQuery n]

theorem compileOr_replicate (settings : Settings) (n : Nat) :
    compileOr settings (List.replicate (n + 1) (.leaf someLeaf)) = .ok (flatQuery n) := by
  have hleaf : compile settings (.leaf someLeaf) = .ok (.clause (.term "a" "1")) := rfl
  induction n with
  | zero => exact hleaf
  | succ n ih =>
    rcases compileOr_cons_cons settings (.leaf someLeaf) (.leaf someLeaf)
      (List.replicate n (.leaf someLeaf)) with ⟨-, -, -, -, hnil⟩ | hcons
    · obtain rfl := (List.replicate_eq_nil_iff _).1 hnil
      rfl
    · rw [List.replicate_succ, List.replicate_succ, hcons, ← List.replicate_succ, ih, hleaf]
      rfl

theorem height_flat (n : Nat) : (flat (n + 1)).height = 2 := by
  have hmax : Filter.heightMax (List.replicate (n + 1) (.leaf someLeaf)) = 1 := by
    refine Nat.le_antisymm (Filter.heightMax_le_iff.2 fun f hf => ?_) (Nat.le_max_left 1 _)
    rw [List.eq_of_mem_replicate hf, Filter.height]
  rw [flat, Filter.height, hmax]

theorem fieldSegments_flat (n : Nat) : (flat (n + 1)).fieldSegments = 1 := by
  have hleaf : (Filter.leaf someLeaf).fieldSegments = 1 := rfl
  refine Nat.le_antisymm (Filter.fieldSegments_group_le_iff.2 fun f hf => ?_) ?_
  · rw [List.eq_of_mem_replicate hf, hleaf]
  · rw [← hleaf]
    exact Filter.fieldSegments_group_le_iff.1 (Nat.le_refl _) _ List.mem_cons_self

theorem ofFilter_flat (settings : Settings) (n : Nat) :
    ofFilter settings (flat (n + 1)) = .ok (flatQuery n) := by
  have hdepth : (flat (n + 1)).depth ≤ maxLevels := by
    rw [Filter.depth_eq_height, height_flat]
    decide
  rw [ofFilter, if_neg (Nat.not_lt_of_le hdepth), flat, compile, compileOr_replicate]

/-- **Every operand before the last puts the others three levels down.** -/
theorem nesting_toJson_flatQuery (n : Nat) : (flatQuery n).toJson.nesting = 3 * n + 2 := by
  have hterm : (clause (.term "a" "1")).toJson.nesting = 2 := rfl
  induction n with
  | zero => exact hterm
  | succ n ih =>
    rw [flatQuery, nesting_toJson_should, ih, hterm]
    omega

/-- The limit on levels and the segments of the fields do not bound the nesting. -/
theorem not_exists_bound_nesting_toJson :
    ¬∃ bound : Nat → Nat → Nat, ∀ (settings : Settings) (f : Filter) (q : Query),
      ofFilter settings f = .ok q → q.toJson.nesting ≤ bound maxLevels f.fieldSegments := by
  rintro ⟨bound, h⟩
  have hflat := h {} (flat (bound maxLevels 1 + 1)) _ (ofFilter_flat {} _)
  rw [nesting_toJson_flatQuery, fieldSegments_flat] at hflat
  omega

end Query

end NestedFilter
