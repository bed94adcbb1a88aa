import Mathlib.Data.List.Perm.Basic
import NestedFilter.Proofs.Scope

/-!
# Every leaf is asked for once, and in order

What stands in a query, leaf by leaf. A clause, or the negation of one, can be read back as the
leaf that it is for, with its field, its operator and its values (`NestedFilter.Query.leaf?`);
in the query of a filter these are the leaves of the filter, each as often as it stands there.

Their order is that of the filter, except among leaves with a common path. There the leaves
right at the path come first, and the others follow item by item, one item for each segment that
comes next, in the order in which the segments come up. `NestedFilter.Leaf.Ordered` and
`NestedFilter.Query.Ordered` say so for a query, whatever nested queries there are in it. The
groups are said by segments there and not by the paths that gathering goes by, so that nothing
of the way in which the query came about is in the statement; that both are the same groups is
`NestedFilter.Leaf.childPaths_eq_map_nextSegments`.

That an ordered query has all leaves (`NestedFilter.Leaf.Ordered.perm`) is then a matter of
grouping a list: the members without a key and the groups by key are a permutation of it
(`NestedFilter.perm_filter_append_flatMap`). Both parts of the main result,
`NestedFilter.Query.clauses_ofFilter`, come from that.

What holds of the query is so of the JSON value that is written of it, because that value tells
the query (`NestedFilter.Query.toJson_injective`). A decoder would show this too, but there is
none in the program to be proved right, so it is shown by induction on the query: every form of
query and of clause is written under keys of its own.
-/

namespace NestedFilter

/-! ### Groups of a list -/

section Groups

variable {α β κ : Type}

/-- Renaming the members keeps the first of each. -/
theorem eraseDups_map [BEq α] [LawfulBEq α] [BEq β] [LawfulBEq β] {f : α → β}
    (hf : Function.Injective f) (xs : List α) :
    (xs.map f).eraseDups = xs.eraseDups.map f := by
  match xs with
  | [] => rfl
  | x :: xs =>
    have hlt : (xs.filter fun y => !y == x).length < xs.length + 1 :=
      Nat.lt_succ_of_le (List.length_filter_le _ xs)
    have hrest : (xs.map f).filter (fun y => !y == f x) =
        (xs.filter fun y => !y == x).map f := by
      rw [List.filter_map]
      refine congrArg (List.map f) (List.filter_congr fun y _ => ?_)
      rw [Function.comp_apply, hf.beq_eq]
    rw [List.map_cons, List.eraseDups_cons, List.eraseDups_cons, List.map_cons, hrest,
      eraseDups_map hf]
termination_by xs.length

/-- **Grouping loses nothing**: the members without a key and, for each key, those with it are
all members. -/
theorem perm_filter_append_flatMap [BEq κ] [LawfulBEq κ] {key : α → Option κ} {keys : List κ}
    (hnodup : keys.Nodup) {xs : List α} (hkeys : ∀ x ∈ xs, ∀ k ∈ key x, k ∈ keys) :
    (xs.filter (fun x => key x == none) ++
      keys.flatMap fun k => xs.filter fun x => key x == some k).Perm xs := by
  induction keys generalizing xs with
  | nil =>
    have hnone : ∀ x ∈ xs, key x = none := fun x hx =>
      Option.eq_none_iff_forall_not_mem.2 fun k hk => List.not_mem_nil (hkeys x hx k hk)
    rw [List.flatMap_nil, List.append_nil,
      List.filter_eq_self.2 fun x hx => by simp [hnone x hx]]
  | cons k keys ih =>
    obtain ⟨hk, hnodup⟩ := List.nodup_cons.1 hnodup
    have hothers : ∀ x ∈ xs.filter fun x => !(key x == some k), ∀ j ∈ key x, j ∈ keys := by
      intro x hx j hj
      obtain ⟨hmem, hne⟩ := List.mem_filter.1 hx
      refine (List.mem_cons.1 (hkeys x hmem j hj)).resolve_left ?_
      rintro rfl
      simp [Option.mem_def.1 hj] at hne
    have hrest := ih hnodup hothers
    -- Neither the members without a key nor those with a later one have the first.
    have hnone : (xs.filter fun x => !(key x == some k)).filter (fun x => key x == none) =
        xs.filter fun x => key x == none := by
      rw [List.filter_filter]
      refine List.filter_congr fun x _ => ?_
      cases key x <;> simp
    have hlater : ∀ j ∈ keys, (xs.filter fun x => !(key x == some k)).filter
        (fun x => key x == some j) = xs.filter fun x => key x == some j := by
      intro j hj
      have hne : j ≠ k := fun heq => hk (heq ▸ hj)
      rw [List.filter_filter]
      refine List.filter_congr fun x _ => ?_
      by_cases hx : key x = some j <;> simp [hx, hne]
    rw [hnone, List.flatMap_congr hlater] at hrest
    rw [List.flatMap_cons]
    exact (List.perm_append_comm_assoc _ _ _).trans
      ((hrest.append_left _).trans (List.filter_append_perm _ xs))

/-- Lists that are permutations of each other, one by one, are so when they are joined. The lists
here are the leaves of operands and the clauses of their queries. -/
theorem perm_flatMap_of_forall₂ {f : α → List κ} {g : β → List κ} {xs : List α} {ys : List β}
    (h : List.Forall₂ (fun x y => (g y).Perm (f x)) xs ys) :
    (ys.flatMap g).Perm (xs.flatMap f) := by
  induction h with
  | nil => exact .refl _
  | cons hxy _ ih =>
    rw [List.flatMap_cons, List.flatMap_cons]
    exact hxy.append ih

end Groups

/-! ### The leaves of a filter and the clauses of a query -/

namespace Filter

mutual

/-- The leaves of a filter, from left to right, each as often as it stands there. -/
def leaves : Filter → List Leaf
  | .leaf l => [l]
  | .group _ operands => leavesList operands

/-- The leaves of a list of filters, from left to right. -/
def leavesList : List Filter → List Leaf
  | [] => []
  | f :: fs => f.leaves ++ leavesList fs

end

theorem leaves_group (c : Connective) (operands : List Filter) :
    (group c operands).leaves = operands.flatMap leaves := by
  rw [leaves]
  induction operands with
  | nil => rfl
  | cons f fs ih => rw [leavesList, ih, List.flatMap_cons]

theorem leaves_group_map_leaf (c : Connective) (ls : List Leaf) :
    (group c (ls.map leaf)).leaves = ls := by
  rw [leaves_group]
  induction ls with
  | nil => rfl
  | cons l ls ih => rw [List.map_cons, List.flatMap_cons, ih, leaves, List.singleton_append]

end Filter

namespace Query

mutual

/-- The clauses of a query and the negations of clauses, from left to right, in whatever boolean and
nested queries they stand. -/
def clauses : Query → List Query
  | .clause c => [.clause c]
  | .mustNot c => [.mustNot c]
  | .filter queries => clausesList queries
  | .should queries => clausesList queries
  | .nested _ query => query.clauses

/-- The clauses of a list of queries and the negations of clauses, from left to right. -/
def clausesList : List Query → List Query
  | [] => []
  | q :: qs => q.clauses ++ clausesList qs

end

/-- The leaf that a clause is for, or the negation of a clause, with the field, the operator and
the values that stand in it. A regular expression is for a leaf only with the flags that the
settings ask for. -/
def leaf? (settings : Settings) : Query → Option Leaf
  | .clause (.term field value) => some ⟨field, .compare .equal value⟩
  | .mustNot (.term field value) => some ⟨field, .compare .notEqual value⟩
  | .clause (.range field .lt value) => some ⟨field, .compare .less value⟩
  | .clause (.range field .lte value) => some ⟨field, .compare .lessOrEqual value⟩
  | .clause (.range field .gt value) => some ⟨field, .compare .greater value⟩
  | .clause (.range field .gte value) => some ⟨field, .compare .greaterOrEqual value⟩
  | .clause (.regexp field pattern flags caseInsensitive) =>
    if flags = settings.regexpFlags ∧ caseInsensitive = settings.regexpCaseInsensitive then
      some ⟨field, .compare .matching pattern⟩
    else none
  | .clause (.terms field (value :: values)) => some ⟨field, .member .isIn (value :: values)⟩
  | .mustNot (.terms field (value :: values)) => some ⟨field, .member .notIn (value :: values)⟩
  | _ => none

variable {settings : Settings} {query : Query} {queries : List Query} {l : Leaf}

theorem clausesList_eq_flatMap : clausesList queries = queries.flatMap clauses := by
  induction queries with
  | nil => rfl
  | cons q qs ih => rw [clausesList, ih, List.flatMap_cons]

theorem clausesList_append (queries others : List Query) :
    clausesList (queries ++ others) = clausesList queries ++ clausesList others := by
  simp only [clausesList_eq_flatMap, List.flatMap_append]

/-- **Reading a clause back undoes the writing of it**, and nothing else is read as a leaf. -/
theorem clause_eq_ok_iff : l.clause settings = .ok query ↔ query.leaf? settings = some l := by
  constructor
  · intro h
    obtain ⟨field, test⟩ := l
    cases test with
    | compare op value => cases op <;> obtain rfl := Except.ok.inj h <;> simp [leaf?]
    | member op values =>
      cases values with
      | nil => simp [Leaf.clause] at h
      | cons value values => cases op <;> obtain rfl := Except.ok.inj h <;> rfl
  · intro h
    unfold leaf? at h
    split at h
    case h_7 =>
      split at h
      · next hflags =>
        obtain rfl := Option.some.inj h
        rw [hflags.1, hflags.2]
        rfl
      · simp at h
    case h_10 => simp at h
    all_goals
      obtain rfl := Option.some.inj h
      rfl

/-- What is read as a leaf stands for itself: it is a clause or the negation of one, and has no
parts that would be listed. -/
theorem clauses_of_leaf? (h : query.leaf? settings = some l) : query.clauses = [query] := by
  obtain ⟨c, -, rfl | rfl⟩ := Leaf.clause_cases (clause_eq_ok_iff.2 h) <;> rw [clauses]

/-- What is read as leaves stands for itself, query by query. -/
theorem clausesList_of_leaf? (h : ∀ q ∈ queries, ∃ l, q.leaf? settings = some l) :
    clausesList queries = queries := by
  induction queries with
  | nil => rfl
  | cons q qs ih =>
    obtain ⟨⟨l, hl⟩, hqs⟩ := List.forall_mem_cons.1 h
    rw [clausesList, clauses_of_leaf? hl, ih hqs, List.singleton_append]

end Query

/-! ### Leaves with a common path -/

namespace Leaf

variable {settings : Settings} {scope : Option Path} {leaf : Leaf} {leaves : List Leaf}
variable {path own : Path} {segment : List Char} {query : Query}

/-- The segment that the path of the leaf takes next below `path`, if it goes on from there. A leaf
right at the path has none. -/
def next? (path : Path) (leaf : Leaf) : Option (List Char) :=
  leaf.path?.bind path.next?

/-- The segments that come next below `path`, in the order in which they come up. -/
def nextSegments (path : Path) (leaves : List Leaf) : List (List Char) :=
  (leaves.filterMap (next? path)).eraseDups

/-- The leaves that go on from `path` with the segment. -/
def goingOn (path : Path) (segment : List Char) (leaves : List Leaf) : List Leaf :=
  leaves.filter fun leaf => leaf.next? path == some segment

/-- The query asks for leaves with a common path, and asks in order, whatever nested queries
there are in it. -/
inductive Ordered (settings : Settings) : List Leaf → Query → Prop
  /-- A leaf by itself. -/
  | single {leaf : Leaf} {query : Query} (hleaf : query.leaf? settings = some leaf) :
      Ordered settings [leaf] query
  /-- Nested queries are passed over. -/
  | nested {leaves : List Leaf} {path : Path} {query : Query}
      (h : Ordered settings leaves query) : Ordered settings leaves (.nested path query)
  /-- The leaves right at the common path come first, as they stand. Then there is one item for
  each segment that comes next, in the order in which the segments come up, and the leaves that
  go on with the segment are in order within the item. -/
  | shared {leaves : List Leaf} {path : Path} {direct items : List Query}
      (htwo : 2 ≤ leaves.length) (hpath : commonPath? leaves = some path)
      (hdirect : direct.map (Query.leaf? settings) = (directlyAt path leaves).map some)
      (hlength : (nextSegments path leaves).length = items.length)
      (hitems : ∀ pair ∈ (nextSegments path leaves).zip items,
        Ordered settings (goingOn path pair.1 leaves) pair.2) :
      Ordered settings leaves (.filter (direct ++ items))

/-! ### The next segment -/

theorem next?_eq_none_iff (hown : leaf.path? = some own) (hin : own.isWithin path = true) :
    leaf.next? path = none ↔ own = path := by
  have hnext : leaf.next? path = path.next? own := by rw [next?, hown, Option.bind_some]
  rw [hnext]
  constructor
  · intro hnone
    refine Classical.not_not.1 fun hne => ?_
    obtain ⟨segment, hsegment⟩ := (Path.extends_iff.2 ⟨hin, hne⟩).exists_next?
    simp [hnone] at hsegment
  · rintro rfl
    exact Path.next?_self

/-- The path one segment further down is made of the next segment. This is where groups by paths and
groups by segments are found to be the same. -/
theorem childPath?_eq_map_next? (hown : leaf.path? = some own) (hin : own.isWithin path = true) :
    leaf.childPath? path = (leaf.next? path).map (path ++ '.' :: ·) := by
  cases hnext : leaf.next? path with
  | none =>
    obtain rfl := (next?_eq_none_iff hown hin).1 hnext
    simp [childPath?, hown]
  | some segment =>
    have hstep : path.next? own = some segment := by
      rwa [next?, hown, Option.bind_some] at hnext
    obtain ⟨below, hbelow, hsegments⟩ := childPath?_of_next? hown hin hstep
    have hmem : segment ∈ below.segments := by simp [hsegments]
    have hdot := Path.dot_notMem_of_mem_segments hmem
    have heq : below = path ++ '.' :: segment := Path.segments_injective (by
      rw [hsegments, Path.segments_append_dot, Path.segments_eq_singleton hdot])
    rw [hbelow, heq, Option.map_some]

theorem append_dot_injective (path : Path) :
    Function.Injective fun segment : List Char => path ++ '.' :: segment := by
  intro s t h
  simpa using h

/-- **Groups by the next segment**: there is a group for each segment that comes next. -/
theorem childPaths_eq_map_nextSegments (hpath : commonPath? leaves = some path) :
    childPaths path leaves = (nextSegments path leaves).map (path ++ '.' :: ·) := by
  have hchild : leaves.filterMap (childPath? path) =
      (leaves.filterMap (next? path)).map (path ++ '.' :: ·) := by
    rw [List.map_filterMap]
    refine List.filterMap_congr fun l hl => ?_
    obtain ⟨own, hown, hin⟩ := isWithin_commonPath? hpath hl
    exact childPath?_eq_map_next? hown hin
  rw [childPaths, hchild, nextSegments, ← eraseDups_map (append_dot_injective path)]

theorem under_append_dot (hpath : commonPath? leaves = some path) (segment : List Char) :
    under path (path ++ '.' :: segment) leaves = goingOn path segment leaves := by
  refine List.filter_congr fun l hl => ?_
  obtain ⟨own, hown, hin⟩ := isWithin_commonPath? hpath hl
  rw [childPath?_eq_map_next? hown hin]
  cases l.next? path with
  | none => rfl
  | some s => exact (append_dot_injective path).beq_eq

/-- The leaves right at the common path are those with no next segment. All leaves are within it, so
there is no other reason to have none. -/
theorem directlyAt_eq_filter_next? (hpath : commonPath? leaves = some path) :
    directlyAt path leaves = leaves.filter fun leaf => leaf.next? path == none := by
  refine List.filter_congr fun l hl => ?_
  obtain ⟨own, hown, hin⟩ := isWithin_commonPath? hpath hl
  rw [hown, Bool.eq_iff_iff, beq_iff_eq, beq_iff_eq, next?_eq_none_iff hown hin,
    Option.some.injEq]

/-! ### Gathering keeps the order -/

theorem Ordered.enter (h : Ordered settings leaves query) :
    Ordered settings leaves (enter scope path query) := by
  rw [Leaf.enter]
  split
  · exact h
  · exact .nested h

/-- A leaf is asked for by its clause, which may stand in a nested query. There is one such query at
most around it, as a leaf by itself opens no more than its own path. -/
theorem leaf?_of_toQuery (h : leaf.toQuery settings scope = .ok query) :
    query.leaf? settings = some leaf ∨
      ∃ path c, query = .nested path c ∧ c.leaf? settings = some leaf := by
  cases hpath : leaf.path? with
  | none => exact .inl (Query.clause_eq_ok_iff.1 ((toQuery_of_path?_eq_none hpath).1 h))
  | some own =>
    obtain ⟨c, hc, rfl⟩ := (toQuery_of_path? hpath).1 h
    have hread := Query.clause_eq_ok_iff.1 hc
    rw [Leaf.enter]
    split
    · exact .inl hread
    · exact .inr ⟨own, c, rfl, hread⟩

theorem ordered_of_toQuery (h : leaf.toQuery settings scope = .ok query) :
    Ordered settings [leaf] query := by
  rcases leaf?_of_toQuery h with hread | ⟨path, c, rfl, hread⟩
  · exact .single hread
  · exact .nested (.single hread)

/-- Right at the path of the scope a leaf is asked for by its clause alone. -/
theorem leaf?_of_toQuery_self (hpath : leaf.path? = some path)
    (h : leaf.toQuery settings (some path) = .ok query) :
    query.leaf? settings = some leaf := by
  obtain ⟨c, hc, rfl⟩ := (toQuery_of_path? hpath).1 h
  rw [Leaf.enter, if_pos rfl]
  exact Query.clause_eq_ok_iff.1 hc

/-- **Gathering keeps the order**, rule by rule. The leaves of a group are in the order of all
leaves, so the order within an item is the same kind of order again. -/
theorem ordered_of_gathered (h : Gathered settings scope leaves query) :
    Ordered settings leaves query := by
  induction h with
  | single _ _ hquery => exact ordered_of_toQuery hquery
  | @shared scope leaves path direct deeper htwo hpath _ hdirect hlength _ ih =>
    have hread : direct.map (Query.leaf? settings) = (directlyAt path leaves).map some := by
      obtain ⟨hlen, hqueries⟩ := List.forall₂_iff_zip.1 hdirect
      refine (List.forall₂_eq_eq_eq ▸ List.forall₂_map_left_iff.2
        (List.forall₂_map_right_iff.2 (List.forall₂_iff_zip.2 ⟨hlen, fun hpair => ?_⟩))).symm
      have hat := (mem_directlyAt.1 (List.of_mem_zip hpair).1).2
      exact (leaf?_of_toQuery_self hat (hqueries hpair)).symm
    rw [childPaths_eq_map_nextSegments hpath] at hlength ih
    refine Ordered.enter (.shared htwo hpath hread (by simpa using hlength) fun pair hpair => ?_)
    have hgroup := ih (path ++ '.' :: pair.1, pair.2) (by
      rw [List.zip_map_left]
      exact List.mem_map_of_mem (f := Prod.map (path ++ '.' :: ·) id) hpair)
    rwa [under_append_dot hpath] at hgroup

/-- **An ordered query asks for all leaves**, and for each as often as it is among them. By
induction each item has the leaves of its group, and the groups with the leaves right at the path
are all. -/
theorem Ordered.perm (h : Ordered settings leaves query) :
    (query.clauses.map (Query.leaf? settings)).Perm (leaves.map some) := by
  induction h with
  | single hleaf => simp [Query.clauses_of_leaf? hleaf, hleaf]
  | nested _ ih => rwa [Query.clauses]
  | @shared leaves path direct items _ hpath hdirect hlength _ ih =>
    have hread : ∀ q ∈ direct, ∃ l, q.leaf? settings = some l := by
      intro q hq
      have hmem : q.leaf? settings ∈ (directlyAt path leaves).map some :=
        hdirect ▸ List.mem_map_of_mem hq
      obtain ⟨l, -, hl⟩ := List.mem_map.1 hmem
      exact ⟨l, hl.symm⟩
    have hgroups : (items.flatMap fun q => q.clauses.map (Query.leaf? settings)).Perm
        ((nextSegments path leaves).flatMap fun s => (goingOn path s leaves).map some) :=
      perm_flatMap_of_forall₂ (List.forall₂_iff_zip.2 ⟨hlength, fun hpair => ih _ hpair⟩)
    have hall : (directlyAt path leaves ++
        (nextSegments path leaves).flatMap fun s => goingOn path s leaves).Perm leaves := by
      rw [directlyAt_eq_filter_next? hpath]
      refine perm_filter_append_flatMap (nodup_eraseDups (leaves.filterMap (next? path)))
        fun l hl s hs => ?_
      exact List.mem_eraseDups.2 (List.mem_filterMap.2 ⟨l, hl, hs⟩)
    rw [Query.clauses, Query.clausesList_append, Query.clausesList_of_leaf? hread,
      Query.clausesList_eq_flatMap, List.map_append, hdirect, List.map_flatMap]
    refine (hgroups.append_left _).trans ?_
    rw [← List.map_flatMap, ← List.map_append]
    exact hall.map some

end Leaf

/-! ### What a query is written as -/

theorem Bound.word_injective : Function.Injective Bound.word := by
  intro b d h
  cases b <;> cases d <;> first | rfl | simp [word] at h

theorem Clause.toJson_injective : Function.Injective Clause.toJson := by
  intro c d h
  cases c <;> cases d <;>
    simp [toJson, Json.single, Json.strings, Bound.word_injective.eq_iff, List.map_inj_right]
      at h ⊢ <;>
    exact h

/-- No clause is written under the key of a boolean or of a nested query, whatever field and values
it has. -/
theorem Clause.toJson_ne_single (c : Clause) {key : String} (hkey : key = "bool" ∨ key = "nested")
    (value : Json) : c.toJson ≠ .single key value := by
  rcases hkey with rfl | rfl <;> cases c <;> simp [toJson, Json.single]

namespace Query

/-- Induction over a query and the queries that it joins: what holds of clauses, and of a query when
it holds of all its parts, holds of all queries. -/
@[elab_as_elim]
theorem induction {motive : Query → Prop} (clause : ∀ c, motive (.clause c))
    (mustNot : ∀ c, motive (.mustNot c))
    (filter : ∀ queries, (∀ q ∈ queries, motive q) → motive (.filter queries))
    (should : ∀ queries, (∀ q ∈ queries, motive q) → motive (.should queries))
    (nested : ∀ path query, motive query → motive (.nested path query)) (q : Query) : motive q :=
  @Query.rec motive (fun queries => ∀ q ∈ queries, motive q) clause mustNot filter should nested
    (by simp) (fun _ _ hq hqs => by simpa using ⟨hq, hqs⟩) q

theorem eq_of_toJsonList_eq {queries others : List Query}
    (heq : ∀ q ∈ queries, ∀ {r : Query}, q.toJson = r.toJson → q = r)
    (h : toJsonList queries = toJsonList others) : queries = others := by
  induction queries generalizing others with
  | nil =>
    cases others with
    | nil => rfl
    | cons r rs => simp [toJsonList] at h
  | cons q qs ih =>
    cases others with
    | nil => simp [toJsonList] at h
    | cons r rs =>
      rw [toJsonList, toJsonList] at h
      obtain ⟨hhead, htail⟩ := List.cons.inj h
      rw [heq q List.mem_cons_self hhead,
        ih (fun p hp => heq p (List.mem_cons_of_mem q hp)) htail]

/-- **A query is told by its JSON value**: nothing that stands in it is lost in the writing. -/
theorem toJson_injective : Function.Injective toJson := by
  intro q r h
  -- A clause stands under a key of its own, so only equal forms can be equal.
  induction q using induction generalizing r with
  | clause c =>
    cases r with
    | clause d => rw [Clause.toJson_injective h]
    | nested path query => exact absurd h (c.toJson_ne_single (.inr rfl) _)
    | _ => exact absurd h (c.toJson_ne_single (.inl rfl) _)
  | mustNot c =>
    cases r with
    | clause d => exact absurd h.symm (d.toJson_ne_single (.inl rfl) _)
    | mustNot d =>
      have hclauses : c.toJson = d.toJson := by simpa [toJson, Json.single] using h
      rw [Clause.toJson_injective hclauses]
    | _ => simp [toJson, Json.single] at h
  | filter queries ih =>
    cases r with
    | clause d => exact absurd h.symm (d.toJson_ne_single (.inl rfl) _)
    | filter others =>
      have hlists : toJsonList queries = toJsonList others := by
        simpa [toJson, Json.single] using h
      rw [eq_of_toJsonList_eq ih hlists]
    | _ => simp [toJson, Json.single] at h
  | should queries ih =>
    cases r with
    | clause d => exact absurd h.symm (d.toJson_ne_single (.inl rfl) _)
    | should others =>
      have hlists : toJsonList queries = toJsonList others := by
        simpa [toJson, Json.single] using h
      rw [eq_of_toJsonList_eq ih hlists]
    | _ => simp [toJson, Json.single] at h
  | nested path query ih =>
    cases r with
    | clause d => exact absurd h.symm (d.toJson_ne_single (.inr rfl) _)
    | nested other inner =>
      obtain ⟨hpath, hquery⟩ : path = other ∧ query.toJson = inner.toJson := by
        simpa [toJson, Json.single, String.ofList_inj] using h
      rw [hpath, ih hquery]
    | _ => simp [toJson, Json.single] at h

end Query

/-! ### Filters -/

namespace Query

variable {settings : Settings} {f : Filter} {query : Query}

/-- The query asks for the leaves of the filter, and asks in order, whatever nested queries
there are in it. -/
inductive Ordered (settings : Settings) : Filter → Query → Prop
  /-- A leaf is asked for by its clause. -/
  | leaf {l : Leaf} {query : Query} (hleaf : query.leaf? settings = some l) :
      Ordered settings (.leaf l) query
  /-- Nested queries are passed over. -/
  | nested {f : Filter} {path : Path} {query : Query} (h : Ordered settings f query) :
      Ordered settings f (.nested path query)
  /-- A group of one filter is that filter. -/
  | only {c : Connective} {f : Filter} {query : Query} (h : Ordered settings f query) :
      Ordered settings (.group c [f]) query
  /-- Leaves with a common path that are to hold together are ordered among themselves. -/
  | together {leaves : List Leaf} {query : Query} (htwo : 2 ≤ leaves.length)
      (hpath : (Leaf.commonPath? leaves).isSome = true)
      (h : Leaf.Ordered settings leaves query) :
      Ordered settings (.group .and (leaves.map .leaf)) query
  /-- Any other filters that are all to hold stand from left to right. -/
  | all {operands : List Filter} {queries : List Query} (htwo : 2 ≤ operands.length)
      (hapart : ∀ leaves, operands = leaves.map .leaf → Leaf.commonPath? leaves = none)
      (hlength : operands.length = queries.length)
      (hqueries : ∀ pair ∈ operands.zip queries, Ordered settings pair.1 pair.2) :
      Ordered settings (.group .and operands) (.filter queries)
  /-- Filters of which one is to hold stand from left to right: the first, then the others. -/
  | first {f g : Filter} {others : List Filter} {left right : Query}
      (hleft : Ordered settings f left)
      (hright : Ordered settings (.group .or (g :: others)) right) :
      Ordered settings (.group .or (f :: g :: others)) (.should [left, right])

theorem ordered_of_toQuery {l : Leaf} {scope : Option Path}
    (h : l.toQuery settings scope = .ok query) : Ordered settings (.leaf l) query := by
  rcases Leaf.leaf?_of_toQuery h with hread | ⟨path, c, rfl, hread⟩
  · exact .leaf hread
  · exact .nested (.leaf hread)

/-- **Compilation keeps the order**, rule by rule. Only where leaves are gathered there is something
to show, as all other rules put the queries of operands in the places of the operands. -/
theorem ordered_of_compiled (h : Compiled settings f query) : Ordered settings f query := by
  induction h with
  | leaf hquery => exact ordered_of_toQuery hquery
  | only _ ih => exact .only ih
  | together htwo hpath hquery => exact .together htwo hpath (Leaf.ordered_of_gathered hquery)
  | all htwo hapart hlength _ ih => exact .all htwo hapart hlength ih
  | either _ hleft hright =>
    exact .nested (.first (ordered_of_toQuery hleft) (.only (ordered_of_toQuery hright)))
  | first _ _ ihleft ihright => exact .first ihleft ihright

/-- **An ordered query asks for all leaves of the filter**, and for each as often as it stands
there. -/
theorem Ordered.perm (h : Ordered settings f query) :
    (query.clauses.map (leaf? settings)).Perm (f.leaves.map some) := by
  induction h with
  | leaf hleaf => simp [clauses_of_leaf? hleaf, hleaf, Filter.leaves]
  | nested _ ih => rwa [clauses]
  | only _ ih => simpa [Filter.leaves_group] using ih
  | together _ _ h =>
    rw [Filter.leaves_group_map_leaf]
    exact h.perm
  | @all operands queries _ _ hlength _ ih =>
    have hqueries : (queries.flatMap fun q => q.clauses.map (leaf? settings)).Perm
        (operands.flatMap fun f => f.leaves.map some) :=
      perm_flatMap_of_forall₂ (List.forall₂_iff_zip.2 ⟨hlength, fun hpair => ih _ hpair⟩)
    rw [clauses, clausesList_eq_flatMap, Filter.leaves_group, List.map_flatMap, List.map_flatMap]
    exact hqueries
  | first _ _ ihleft ihright =>
    rw [Filter.leaves_group] at ihright ⊢
    simpa [clauses, clausesList] using ihleft.append ihright

/-- **Nothing is lost, and all is in order.** The clauses that the query of a filter is made of,
and their negations, are those that the leaves of the filter have by themselves, each as often as
its leaf stands in the filter; read back they are these leaves, with their fields, operators and
values. They stand in the order of the filter, but that leaves with a common path are put item by
item. The JSON value that is written tells the query, and so all of this, from any other. -/
theorem clauses_ofFilter (h : ofFilter settings f = .ok query) :
    (query.clauses.map .ok).Perm (f.leaves.map (Leaf.clause settings)) ∧
      (query.clauses.map (leaf? settings)).Perm (f.leaves.map some) ∧
      Ordered settings f query ∧
      ∀ other : Query, other.toJson = query.toJson → other = query := by
  have hordered := ordered_of_compiled (compiled_of_compile (compile_of_ofFilter h))
  have hperm := hordered.perm
  refine ⟨?_, hperm, hordered, fun _ hjson => toJson_injective hjson⟩
  have hwritten : query.clauses.filterMap
      (fun q => (q.leaf? settings).map (Leaf.clause settings)) = query.clauses.map .ok := by
    rw [← List.filterMap_eq_map]
    refine List.filterMap_congr fun q hq => ?_
    obtain ⟨l, -, hl⟩ := List.mem_map.1 (hperm.mem_iff.1 (List.mem_map_of_mem hq))
    rw [← hl, Option.map_some, clause_eq_ok_iff.2 hl.symm, Function.comp_apply]
  have hleaves := hperm.filterMap (Option.map (Leaf.clause settings))
  simpa [List.filterMap_map, Function.comp_def, hwritten] using hleaves

/-- The leaf right at the common path is the third of four, and two leaves on one path have
another between them. -/
theorem clauses_ofFilter_siblings :
    let f : Filter := .group .and [.leaf ⟨"a.b.x", .compare .matching "1"⟩,
      .leaf ⟨"a.c.z", .compare .notEqual "3"⟩, .leaf ⟨"a.y", .member .isIn ["p", "q"]⟩,
      .leaf ⟨"a.b.w", .compare .less "2"⟩]
    let query : Query := .nested "a".toList (.filter [.clause (.terms "a.y" ["p", "q"]),
      .nested "a.b".toList (.filter [.clause (.regexp "a.b.x" "1" "ALL" true),
        .clause (.range "a.b.w" .lt "2")]),
      .nested "a.c".toList (.mustNot (.term "a.c.z" "3"))])
    ofFilter {} f = .ok query ∧ (query.clauses.map (leaf? {})).Perm (f.leaves.map some) ∧
      Ordered {} f query := by
  intro f query
  have h : ofFilter {} f = .ok query := by with_unfolding_all rfl
  obtain ⟨-, hperm, hordered, -⟩ := clauses_ofFilter h
  exact ⟨h, hperm, hordered⟩

end Query

end NestedFilter
