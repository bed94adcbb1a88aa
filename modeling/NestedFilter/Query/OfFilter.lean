import NestedFilter.Filter.Parser
import NestedFilter.Query
import NestedFilter.Settings

/-!
# From a filter to a query

Leaves become clauses, `and` becomes a query that all of its parts hold, `or` one that
some part holds. A leaf on a dotted field is about the nested objects at its path, so its
clause has to stand in a nested query for exactly that path.

The path of the innermost nested query around a place is the *scope* there. An `and` of
leaves alone whose paths have something in common opens one nested query at their common
path; leaves that lie deeper are gathered by the next segment of their paths and nested
again (`NestedFilter.Leaf.gather`). So all conditions on one path are put to the same
object:

    (tests.name=a) and (tests.suites.name=b) and (tests.suites.cases.name=c)

    nested tests
      filter
        term tests.name
        nested tests.suites
          filter
            term tests.suites.name
            nested tests.suites.cases
              term tests.suites.cases.name

An `or` sets its first operand beside the `or` of the others; when two leaves with a
common path are left, these share one nested query (`NestedFilter.Leaf.either`). No
nested query reaches over a group within a group: the parts of a group that are groups
are compiled as if they stood alone.

That gathering ends is `NestedFilter.Leaf.length_under_lt`: paths part below their common
path.
-/

namespace NestedFilter

/-- The greatest number of levels of a filter that is compiled. Reading a filter of at
most `NestedFilter.maxNesting` nested parentheses yields no more: each parenthesis adds
at most two groups. -/
def maxLevels : Nat := 2 * maxNesting + 1

/-- Why a filter has no query. The first two are about a group or a leaf in it, and name what is
wrong with that; the third is about the tree as a whole. -/
inductive BuildError where
  /-- A group joins nothing. -/
  | emptyGroup (connective : Connective)
  /-- A membership test has no values. -/
  | emptyMembership (field : String)
  /-- The filter has more levels than are allowed. -/
  | tooDeep (depth max : Nat)
deriving DecidableEq, Repr, Inhabited

/-- The error in words. -/
def BuildError.message : BuildError → String
  | .emptyGroup c => "`" ++ c.word ++ "` group has no operands"
  | .emptyMembership field => "membership test on `" ++ field ++ "` has no values"
  | .tooDeep depth max =>
    "tree depth " ++ toString depth ++ " exceeds the maximum of " ++ toString max

namespace Leaf

/-! ### Single leaves -/

/-- The query of a leaf, looked up on the object that has the field. -/
def clause (settings : Settings) (leaf : Leaf) : Except BuildError Query :=
  match leaf.test with
  | .compare .equal value => .ok (.clause (.term leaf.field value))
  | .compare .notEqual value => .ok (.mustNot (.term leaf.field value))
  | .compare .less value => .ok (.clause (.range leaf.field .lt value))
  | .compare .lessOrEqual value => .ok (.clause (.range leaf.field .lte value))
  | .compare .greater value => .ok (.clause (.range leaf.field .gt value))
  | .compare .greaterOrEqual value => .ok (.clause (.range leaf.field .gte value))
  | .compare .matching value =>
    .ok (.clause (.regexp leaf.field value settings.regexpFlags settings.regexpCaseInsensitive))
  | .member _ [] => .error (.emptyMembership leaf.field)
  | .member .isIn values => .ok (.clause (.terms leaf.field values))
  | .member .notIn values => .ok (.mustNot (.terms leaf.field values))

/-- The query of a leaf in a scope: the clause stands in a nested query for the path of
the leaf, unless that is the scope. -/
def toQuery (settings : Settings) (scope : Option Path) (leaf : Leaf) :
    Except BuildError Query := do
  let query ← leaf.clause settings
  match leaf.path? with
  | none => return query
  | some path => return if some path = scope then query else .nested path query

/-! ### Leaves that share a path -/

/-- The deepest path that the paths of all leaves are within; `none` if some leaf has no
path, or if their paths part at once. -/
def commonPath? (leaves : List Leaf) : Option Path :=
  (leaves.mapM path?).bind Path.common?

/-- The leaves right at a path, in the order in which they stand. -/
def directlyAt (path : Path) (leaves : List Leaf) : List Leaf :=
  leaves.filter fun leaf => leaf.path? == some path

/-- The path one segment below `path` on the way to the leaf; `none` if the leaf lies
right at `path`, or has no path. -/
def childPath? (path : Path) (leaf : Leaf) : Option Path :=
  match leaf.path? with
  | none => none
  | some own => if own = path then none else some (path.childOf own)

/-- The paths one segment below `path` that leaves lie at or below, in the order of the
first such leaf. -/
def childPaths (path : Path) (leaves : List Leaf) : List Path :=
  (leaves.filterMap (childPath? path)).eraseDups

/-- The leaves that lie at `child` or below it, where `child` is one segment below
`path`. -/
def under (path child : Path) (leaves : List Leaf) : List Leaf :=
  leaves.filter fun leaf => leaf.childPath? path == some child

theorem commonPath?_eq_some {leaves : List Leaf} {path : Path}
    (h : commonPath? leaves = some path) :
    ∃ paths, leaves.mapM path? = some paths ∧ Path.common? paths = some path :=
  Option.bind_eq_some_iff.1 h

theorem exists_leaf_of_mem_paths {leaves : List Leaf} {paths : List Path}
    (h : leaves.mapM path? = some paths) {p : Path} (hp : p ∈ paths) :
    ∃ leaf ∈ leaves, leaf.path? = some p := by
  induction leaves generalizing paths with
  | nil =>
    obtain rfl : paths = [] := by simpa using h.symm
    simp at hp
  | cons leaf leaves ih =>
    rw [List.mapM_cons] at h
    obtain ⟨q, hq, h⟩ := Option.bind_eq_some_iff.1 h
    obtain ⟨qs, hqs, h⟩ := Option.bind_eq_some_iff.1 h
    obtain rfl := Option.some.inj h
    rcases List.mem_cons.1 hp with rfl | hp
    · exact ⟨leaf, by simp, hq⟩
    · obtain ⟨leaf', hmem, hleaf'⟩ := ih hqs hp
      exact ⟨leaf', List.mem_cons_of_mem _ hmem, hleaf'⟩

/-- **Gathering makes progress**: below a common path no group of leaves holds all. -/
theorem length_under_lt {leaves : List Leaf} {path : Path}
    (h : commonPath? leaves = some path) (child : Path) :
    (under path child leaves).length < leaves.length := by
  obtain ⟨paths, hpaths, hcommon⟩ := commonPath?_eq_some h
  obtain ⟨p, hp, hnot⟩ := Path.exists_not_under hcommon child
  obtain ⟨leaf, hmem, hleaf⟩ := exists_leaf_of_mem_paths hpaths hp
  refine List.length_filter_lt_length_iff_exists.2 ⟨leaf, hmem, fun hbeq => hnot ?_⟩
  have hchild := eq_of_beq hbeq
  unfold childPath? at hchild
  rw [hleaf] at hchild
  by_cases hpath : p = path
  · simp [hpath] at hchild
  · simpa [hpath] using hchild

/-- A query in a nested query for `path`, unless that is the scope. A path that is open is not
opened again. -/
def enter (scope : Option Path) (path : Path) (query : Query) : Query :=
  if scope = some path then query else .nested path query

/-- The query that all leaves hold, in a scope. Leaves with a common path are put into
one nested query for it: first those right at the path, then, for every next segment,
those that go on with it. -/
def gather (settings : Settings) (scope : Option Path) (leaves : List Leaf) :
    Except BuildError Query :=
  match leaves with
  | [] => .error (.emptyGroup .and)
  | [leaf] => leaf.toQuery settings scope
  | leaves =>
    match _h : commonPath? leaves with
    | none => return .filter (← leaves.mapM (·.toQuery settings scope))
    | some path => do
      let direct ← (directlyAt path leaves).mapM (·.toQuery settings (some path))
      let deeper ← (childPaths path leaves).mapM fun child =>
        gather settings (some path) (under path child leaves)
      return enter scope path (.filter (direct ++ deeper))
termination_by leaves.length
decreasing_by exact length_under_lt _h child

end Leaf

namespace Leaf

/-- The query that one of two leaves holds. Leaves with a common path are put into one
nested query for it. That stands at the root, where no scope is open. -/
def either (settings : Settings) (l m : Leaf) : Except BuildError Query :=
  match commonPath? [l, m] with
  | none => return .should [← l.toQuery settings none, ← m.toQuery settings none]
  | some path =>
    return .nested path (.should
      [← l.toQuery settings (some path), ← m.toQuery settings (some path)])

end Leaf

namespace Query

/-! ### Filters -/

/-- The query that all queries hold; a single one is left as it is. -/
def all : List Query → Query
  | [q] => q
  | qs => .filter qs

mutual

/-- The query of a filter, whatever its depth. An `and` of leaves alone is gathered, any other `and`
is compiled operand by operand, and an `or` from its first operand on. -/
def compile (settings : Settings) : Filter → Except BuildError Query
  | .leaf l => l.toQuery settings none
  | .group .and operands =>
    match operands.mapM (·.leaf?) with
    | some leaves => Leaf.gather settings none leaves
    | none => return all (← compileList settings operands)
  | .group .or operands => compileOr settings operands

/-- The queries of a list of filters. -/
def compileList (settings : Settings) : List Filter → Except BuildError (List Query)
  | [] => return []
  | f :: fs => return (← compile settings f) :: (← compileList settings fs)

/-- The query that some filter holds: the first one, or one of the others. -/
def compileOr (settings : Settings) : List Filter → Except BuildError Query
  | [] => .error (.emptyGroup .or)
  | [f] => compile settings f
  | [.leaf l, .leaf m] => l.either settings m
  | f :: g :: fs => return .should [← compile settings f, ← compileOr settings (g :: fs)]

end

/-- The query of a filter. The levels are counted first, so that a filter with too many is not gone
into at all. -/
def ofFilter (settings : Settings) (f : Filter) : Except BuildError Query :=
  if maxLevels < f.depth then .error (.tooDeep f.depth maxLevels)
  else compile settings f

end Query

end NestedFilter
