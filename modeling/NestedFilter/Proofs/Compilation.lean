import Mathlib.Data.List.Forall2
import NestedFilter.Proofs.Segments
import NestedFilter.Query.OfFilter

/-!
# Compilation, case by case

What `NestedFilter.Query.compile` does with a filter it accepts, as a relation with one
rule for every way in which a query comes about: `NestedFilter.Query.Compiled` for filters
and, below it, `NestedFilter.Leaf.Gathered` for leaves that share a path. Facts about
queries are then proved rule by rule, and none of them looks into the functions again.

| rule | filter | query |
|---|---|---|
| `leaf` | a leaf | its clause, nested if it has a path |
| `only` | a group of one | the query of that one |
| `together` | an `and` of leaves with a common path | what gathering the leaves gives |
| `all` | any other `and` | all queries of the operands |
| `either` | an `or` of two leaves with a common path | one nested query for both |
| `first` | any other `or` | the first operand beside the others |

The functions are less convenient than that. They look for the first error, they deal with
groups of one in three places, and an `and` of leaves that have no common path is compiled by
the function that gathers, while it belongs with the other groups.

The rules also say more than the functions show. Leaves are gathered in an open scope only when
they have a common path again, one that goes further down
(`NestedFilter.Leaf.Anchored.under`): the way out of leaves whose paths part at once is
taken at the root alone. Where a rule is about a list of filters and the list of their queries,
it speaks of the pairs of the two, so that an induction over the rules has its hypothesis for
every operand.
-/

namespace NestedFilter

/-! ### Results of lists -/

section Results

variable {α β ε : Type}

theorem bind_eq_ok_iff {x : Except ε α} {f : α → Except ε β} {b : β} :
    (x >>= f) = .ok b ↔ ∃ a, x = .ok a ∧ f a = .ok b := by
  cases x <;> simp [bind, Except.bind]

theorem bind_eq_error_iff {x : Except ε α} {f : α → Except ε β} {e : ε} :
    (x >>= f) = .error e ↔ x = .error e ∨ ∃ a, x = .ok a ∧ f a = .error e := by
  cases x <;> simp [bind, Except.bind]

/-- A list has results when all of its members have, and these are the results one by one. Lists of
operands are compiled in this way, and lists of leaves. -/
theorem mapM_eq_ok_iff {f : α → Except ε β} {xs : List α} {ys : List β} :
    xs.mapM f = .ok ys ↔ List.Forall₂ (fun x y => f x = .ok y) xs ys := by
  induction xs generalizing ys with
  | nil => simp [pure, Except.pure, eq_comm]
  | cons x xs ih =>
    rw [List.mapM_cons, List.forall₂_cons_left_iff]
    simp only [bind_eq_ok_iff, ih, pure, Except.pure, Except.ok.injEq]
    constructor
    · rintro ⟨y, hy, ys', hys, rfl⟩
      exact ⟨y, ys', hy, hys, rfl⟩
    · rintro ⟨y, ys', hy, hys, rfl⟩
      exact ⟨y, hy, ys', hys, rfl⟩

theorem mapM_eq_some_iff {f : α → Option β} {xs : List α} {ys : List β} :
    xs.mapM f = some ys ↔ xs.map f = ys.map some := by
  induction xs generalizing ys with
  | nil => cases ys <;> simp
  | cons x xs ih => cases ys <;> simp [Option.bind_eq_some_iff, ih]

/-- What holds of matched members alike holds of all members alike. Which members are matched does
not matter then. -/
theorem forall_mem_iff_of_forall₂ {p : α → Prop} {q : β → Prop} {xs : List α} {ys : List β}
    (h : List.Forall₂ (fun x y => q y ↔ p x) xs ys) : (∀ y ∈ ys, q y) ↔ ∀ x ∈ xs, p x := by
  induction h with
  | nil => simp
  | cons hxy _ ih => simp only [List.forall_mem_cons, hxy, ih]

theorem exists_mem_of_forall₂ {r : α → β → Prop} {xs : List α} {ys : List β}
    (h : List.Forall₂ r xs ys) {y : β} (hy : y ∈ ys) : ∃ x ∈ xs, r x y := by
  induction h with
  | nil => simp at hy
  | @cons x y' xs ys hxy _ ih =>
    rcases List.mem_cons.1 hy with rfl | hy
    · exact ⟨x, List.mem_cons_self, hxy⟩
    · obtain ⟨x', hx', hr⟩ := ih hy
      exact ⟨x', List.mem_cons_of_mem _ hx', hr⟩

/-- A member of the second list is matched with one of the first. -/
theorem exists_mem_of_zip {r : α → β → Prop} {xs : List α} {ys : List β}
    (hlength : xs.length = ys.length) (h : ∀ pair ∈ xs.zip ys, r pair.1 pair.2) {y : β}
    (hy : y ∈ ys) : ∃ x ∈ xs, r x y :=
  exists_mem_of_forall₂ (List.forall₂_iff_zip.2 ⟨hlength, fun hpair => h _ hpair⟩) hy

/-- What holds of every match holds of every member of the second list. -/
theorem forall_mem_of_zip {p : β → Prop} {xs : List α} {ys : List β}
    (hlength : xs.length = ys.length) (h : ∀ pair ∈ xs.zip ys, p pair.2) : ∀ y ∈ ys, p y := by
  intro y hy
  obtain ⟨_, -, hp⟩ := exists_mem_of_zip (r := fun _ => p) hlength h hy
  exact hp

/-- What holds of every match holds of every member of the first list. -/
theorem forall_mem_of_zip_left {p : α → Prop} {xs : List α} {ys : List β}
    (hlength : xs.length = ys.length) (h : ∀ pair ∈ xs.zip ys, p pair.1) : ∀ x ∈ xs, p x := by
  intro x hx
  rw [← List.map_fst_zip (Nat.le_of_eq hlength)] at hx
  obtain ⟨pair, hpair, rfl⟩ := List.mem_map.1 hx
  exact h pair hpair

/-- What sets members apart sets matched members apart. -/
theorem pairwise_of_forall₂ {r : α → β → Prop} {s : α → α → Prop} {t : β → β → Prop}
    (hrst : ∀ {x y x' y'}, r x y → r x' y' → s x x' → t y y') {xs : List α} {ys : List β}
    (h : List.Forall₂ r xs ys) (hs : xs.Pairwise s) : ys.Pairwise t := by
  induction h with
  | nil => exact .nil
  | @cons x y xs ys hxy hrest ih =>
    obtain ⟨hx, hxs⟩ := List.pairwise_cons.1 hs
    refine List.pairwise_cons.2 ⟨fun y' hy' => ?_, ih hxs⟩
    obtain ⟨x', hx', hx'y'⟩ := exists_mem_of_forall₂ hrest hy'
    exact hrst hxy hx'y' (hx x' hx')

theorem nodup_eraseDups [BEq α] [LawfulBEq α] (xs : List α) : xs.eraseDups.Nodup := by
  match xs with
  | [] => simp
  | x :: xs =>
    have hlt : (xs.filter fun y => !y == x).length < xs.length + 1 :=
      Nat.lt_succ_of_le (List.length_filter_le _ xs)
    rw [List.eraseDups_cons, List.nodup_cons]
    exact ⟨by simp, nodup_eraseDups _⟩
termination_by xs.length

end Results

namespace Leaf

variable {leaves : List Leaf} {path child : Path} {leaf : Leaf}

/-! ### Single leaves -/

/-- A leaf with a path enters it: its clause stands in a nested query for the path, if that is not
the scope already. -/
theorem toQuery_of_path? {settings : Settings} {scope : Option Path} {query : Query}
    (hpath : leaf.path? = some path) :
    leaf.toQuery settings scope = .ok query ↔
      ∃ c, leaf.clause settings = .ok c ∧ enter scope path c = query := by
  simp only [toQuery, bind_eq_ok_iff, hpath, enter, eq_comm (a := scope), pure, Except.pure,
    Except.ok.injEq]

/-- A leaf without a path stands where it is. -/
theorem toQuery_of_path?_eq_none {settings : Settings} {scope : Option Path} {query : Query}
    (hpath : leaf.path? = none) :
    leaf.toQuery settings scope = .ok query ↔ leaf.clause settings = .ok query := by
  simp [toQuery, bind_eq_ok_iff, hpath, pure, Except.pure]

/-! ### Leaves with a common path -/

/-- **When leaves have a common path**: there is a leaf, all have paths, and these begin
with one segment. It is enough to look at first segments, since the common path may be as short
as a single one. -/
theorem commonPath?_isSome_iff :
    (commonPath? leaves).isSome = true ↔
      leaves ≠ [] ∧ ∃ segment, ∀ l ∈ leaves,
        ∃ own, l.path? = some own ∧ own.segments.head? = some segment := by
  constructor
  · intro h
    obtain ⟨path, hpath⟩ := Option.isSome_iff_exists.1 h
    obtain ⟨paths, hpaths, hcommon⟩ := commonPath?_eq_some hpath
    obtain ⟨hne, segment, hsegment⟩ :=
      Path.common?_isSome_iff.1 (Option.isSome_iff_exists.2 ⟨path, hcommon⟩)
    rw [mapM_eq_some_iff] at hpaths
    refine ⟨?_, segment, fun l hl => ?_⟩
    · rintro rfl
      exact hne (by simpa using hpaths.symm)
    · have hmem : l.path? ∈ paths.map some := hpaths ▸ List.mem_map_of_mem hl
      obtain ⟨own, hown, heq⟩ := List.mem_map.1 hmem
      exact ⟨own, heq.symm, hsegment own hown⟩
  · rintro ⟨hne, segment, hsegment⟩
    choose! own hown using hsegment
    have hpaths : leaves.mapM path? = some (leaves.map own) := by
      rw [mapM_eq_some_iff, List.map_map]
      exact List.map_congr_left fun l hl => (hown l hl).1
    rw [commonPath?, hpaths, Option.bind_some, Path.common?_isSome_iff]
    refine ⟨by simpa using hne, segment, fun p hp => ?_⟩
    obtain ⟨l, hl, rfl⟩ := List.mem_map.1 hp
    exact (hown l hl).2

/-- All leaves lie within their common path, and so all of them have paths. -/
theorem isWithin_commonPath? (h : commonPath? leaves = some path) (hl : leaf ∈ leaves) :
    ∃ own, leaf.path? = some own ∧ own.isWithin path = true := by
  obtain ⟨paths, hpaths, hcommon⟩ := commonPath?_eq_some h
  have hmem : leaf.path? ∈ paths.map some := mapM_eq_some_iff.1 hpaths ▸ List.mem_map_of_mem hl
  obtain ⟨own, hown, heq⟩ := List.mem_map.1 hmem
  exact ⟨own, heq.symm, Path.isWithin_common? hcommon own hown⟩

/-- The common path lies within all that all leaves lie within: it is the deepest such path. Leaves
without a path do not count here; there are none if there is a common path. -/
theorem commonPath?_isWithin {root : Path} (h : commonPath? leaves = some path)
    (hroot : ∀ l ∈ leaves, ∀ own ∈ l.path?, own.isWithin root = true) :
    path.isWithin root = true := by
  obtain ⟨paths, hpaths, hcommon⟩ := commonPath?_eq_some h
  refine Path.isWithin_of_common? hcommon fun p hp => ?_
  obtain ⟨l, hl, hlp⟩ := exists_leaf_of_mem_paths hpaths hp
  exact hroot l hl p hlp

/-- The common path of leaves that all lie within one path lies within it too. -/
theorem commonPath?_isWithin_of_forall {root : Path} (h : commonPath? leaves = some path)
    (hroot : ∀ l ∈ leaves, ∃ own, l.path? = some own ∧ own.isWithin root = true) :
    path.isWithin root = true := by
  refine commonPath?_isWithin h fun l hl own hown => ?_
  obtain ⟨own', hown', hwithin⟩ := hroot l hl
  obtain rfl : own' = own := Option.some.inj (hown'.symm.trans hown)
  exact hwithin

/-- Leaves that all lie within one path have a common path. -/
theorem commonPath?_isSome_of_isWithin {root : Path} (hne : leaves ≠ [])
    (h : ∀ l ∈ leaves, ∃ own, l.path? = some own ∧ own.isWithin root = true) :
    (commonPath? leaves).isSome = true := by
  refine commonPath?_isSome_iff.2 ⟨hne, root.segments.head (Path.segments_ne_nil _), fun l hl => ?_⟩
  obtain ⟨own, hown, hwithin⟩ := h l hl
  obtain ⟨below, hbelow⟩ := Path.isWithin_iff_segments.1 hwithin
  refine ⟨own, hown, ?_⟩
  rw [← hbelow, List.head?_append_of_ne_nil _ (Path.segments_ne_nil _), List.head?_eq_some_head]

/-! ### Leaves below a path -/

theorem mem_directlyAt :
    leaf ∈ directlyAt path leaves ↔ leaf ∈ leaves ∧ leaf.path? = some path := by
  simp [directlyAt]

theorem childPath?_eq_some_iff :
    leaf.childPath? path = some child ↔
      ∃ own, leaf.path? = some own ∧ own ≠ path ∧ path.childOf own = child := by
  rw [childPath?]
  cases leaf.path? with
  | none => simp
  | some own => by_cases h : own = path <;> simp [h]

theorem mem_under :
    leaf ∈ under path child leaves ↔ leaf ∈ leaves ∧ leaf.childPath? path = some child := by
  simp [under]

theorem mem_childPaths :
    child ∈ childPaths path leaves ↔ ∃ l ∈ leaves, l.childPath? path = some child := by
  simp [childPaths]

theorem nodup_childPaths : (childPaths path leaves).Nodup :=
  nodup_eraseDups _

/-- A leaf below a path lies within the path one segment further down. -/
theorem isWithin_of_childPath? {own : Path} (hown : leaf.path? = some own)
    (hwithin : own.isWithin path = true) (h : leaf.childPath? path = some child) :
    own ≠ path ∧ own.isWithin child = true ∧
      ∃ segment, child.segments = path.segments ++ [segment] := by
  obtain ⟨own', hown', hne, rfl⟩ := childPath?_eq_some_iff.1 h
  obtain rfl : own' = own := Option.some.inj (hown'.symm.trans hown)
  obtain ⟨segment, hsegment, -⟩ := Path.segments_childOf hwithin hne
  exact ⟨hne, (Path.isWithin_childOf hwithin hne).1, segment, hsegment⟩

/-! ### Gathering -/

/-- Leaves that are gathered in a scope: they lie within it, and if there are several they
have a common path. This is what every call of gathering below the first one can rely on, and
what the first one is given. -/
structure Anchored (scope : Option Path) (leaves : List Leaf) : Prop where
  /-- There is a leaf. -/
  ne_nil : leaves ≠ []
  /-- All leaves lie within the scope. -/
  within : ∀ l ∈ leaves, ∃ own, l.path? = some own ∧ ∀ root ∈ scope, own.isWithin root = true
  /-- Several leaves have a common path. -/
  common : 2 ≤ leaves.length → (commonPath? leaves).isSome = true

/-- **Every group of leaves below a common path is gathered in turn**, with the common path as its
scope. Its leaves lie within the path one segment further down, so they have a common path again
and do not part at once. -/
theorem Anchored.under (h : commonPath? leaves = some path)
    (hchild : child ∈ childPaths path leaves) :
    Anchored (some path) (under path child leaves) := by
  obtain ⟨first, hfirst, hfirstChild⟩ := mem_childPaths.1 hchild
  have hne : Leaf.under path child leaves ≠ [] :=
    List.ne_nil_of_mem (mem_under.2 ⟨hfirst, hfirstChild⟩)
  have hwithin : ∀ l ∈ Leaf.under path child leaves,
      ∃ own, l.path? = some own ∧ own.isWithin path = true := fun l hl =>
    isWithin_commonPath? h (mem_under.1 hl).1
  refine ⟨hne, fun l hl => ?_, fun _ => commonPath?_isSome_of_isWithin hne hwithin⟩
  obtain ⟨own, hown, hroot⟩ := hwithin l hl
  exact ⟨own, hown, by simpa using hroot⟩

/-- How the query of leaves comes about that are gathered in a scope. Leaves whose paths part at
once have no rule: they are met at the root alone, where they belong to the groups that are
compiled operand by operand. -/
inductive Gathered (settings : Settings) : Option Path → List Leaf → Query → Prop
  /-- A leaf by itself. -/
  | single {scope : Option Path} {leaf : Leaf} {own : Path} {query : Query}
      (hown : leaf.path? = some own) (hscope : ∀ root ∈ scope, own.isWithin root = true)
      (hquery : leaf.toQuery settings scope = .ok query) :
      Gathered settings scope [leaf] query
  /-- Several leaves: their common path is entered, the leaves right there come first, then
  those below, one query for each next segment. -/
  | shared {scope : Option Path} {leaves : List Leaf} {path : Path} {direct deeper : List Query}
      (htwo : 2 ≤ leaves.length) (hpath : commonPath? leaves = some path)
      (hscope : ∀ root ∈ scope, path.isWithin root = true)
      (hdirect : List.Forall₂ (fun l q => l.toQuery settings (some path) = .ok q)
        (directlyAt path leaves) direct)
      (hlength : (childPaths path leaves).length = deeper.length)
      (hdeeper : ∀ pair ∈ (childPaths path leaves).zip deeper,
        Gathered settings (some path) (under path pair.1 leaves) pair.2) :
      Gathered settings scope leaves (enter scope path (.filter (direct ++ deeper)))

theorem two_le_length_iff : 2 ≤ leaves.length ↔ leaves ≠ [] ∧ ∀ l, leaves ≠ [l] := by
  rcases leaves with _ | ⟨l, _ | ⟨m, leaves⟩⟩ <;> simp

/-- Several leaves with a common path: this is entered, and what lies below it is gathered. -/
theorem gather_of_commonPath? {settings : Settings} {scope : Option Path}
    (htwo : 2 ≤ leaves.length) (hpath : commonPath? leaves = some path) :
    gather settings scope leaves = do
      let direct ← (directlyAt path leaves).mapM (·.toQuery settings (some path))
      let deeper ← (childPaths path leaves).mapM fun child =>
        gather settings (some path) (under path child leaves)
      return enter scope path (.filter (direct ++ deeper)) := by
  obtain ⟨hnil, hsingle⟩ := two_le_length_iff.1 htwo
  rw [gather.eq_3 settings scope leaves hnil hsingle]
  split
  · next hnone => simp [hpath] at hnone
  · next path' hpath' =>
    obtain rfl : path' = path := Option.some.inj (hpath'.symm.trans hpath)
    rfl

/-- Several leaves without a common path: each has its own query. -/
theorem gather_of_commonPath?_eq_none {settings : Settings} {scope : Option Path}
    (htwo : 2 ≤ leaves.length) (hnone : commonPath? leaves = none) :
    gather settings scope leaves =
      return .filter (← leaves.mapM (·.toQuery settings scope)) := by
  obtain ⟨hnil, hsingle⟩ := two_le_length_iff.1 htwo
  rw [gather.eq_3 settings scope leaves hnil hsingle]
  split
  · rfl
  · next path hpath => simp [hnone] at hpath

theorem gathered_of_gather {settings : Settings} {scope : Option Path} {query : Query}
    (hanchored : Anchored scope leaves) (h : gather settings scope leaves = .ok query) :
    Gathered settings scope leaves query := by
  induction scope, leaves using gather.induct generalizing query with
  | case1 scope => exact absurd rfl hanchored.ne_nil
  | case2 scope leaf =>
    rw [gather] at h
    obtain ⟨own, hown, hscope⟩ := hanchored.within leaf (by simp)
    exact .single hown hscope h
  | case3 scope leaves hnil hsingle hnone =>
    -- Leaves whose paths part at once are not anchored, so this way out is never taken.
    have htwo : 2 ≤ leaves.length := two_le_length_iff.2 ⟨hnil, hsingle⟩
    exact absurd (hanchored.common htwo) (by simp [hnone])
  | case4 scope leaves hnil hsingle path hpath ih =>
    have hscope : ∀ root ∈ scope, path.isWithin root = true := by
      intro root hroot
      refine commonPath?_isWithin_of_forall hpath fun l hl => ?_
      obtain ⟨own, hown, hwithin⟩ := hanchored.within l hl
      exact ⟨own, hown, hwithin root hroot⟩
    have htwo : 2 ≤ leaves.length := two_le_length_iff.2 ⟨hnil, hsingle⟩
    rw [gather_of_commonPath? htwo hpath] at h
    obtain ⟨direct, hdirect, h⟩ := bind_eq_ok_iff.1 h
    obtain ⟨deeper, hdeeper, h⟩ := bind_eq_ok_iff.1 h
    obtain rfl := Except.ok.inj h
    rw [mapM_eq_ok_iff] at hdirect hdeeper
    obtain ⟨hlength, hmem⟩ := List.forall₂_iff_zip.1 hdeeper
    refine .shared htwo hpath hscope hdirect hlength ?_
    rintro ⟨child, q⟩ hpair
    exact ih child (Anchored.under hpath (List.of_mem_zip hpair).1) (hmem hpair)

/-- At the root, leaves with a common path are gathered. There is no scope that they would have to
lie within. -/
theorem anchored_none (hpath : commonPath? leaves = some path) : Anchored none leaves where
  ne_nil := (commonPath?_isSome_iff.1 (by simp [hpath])).1
  within := by
    intro l hl
    obtain ⟨own, hown, -⟩ := isWithin_commonPath? hpath hl
    exact ⟨own, hown, by simp⟩
  common := fun _ => by simp [hpath]

end Leaf

/-! ### Filters -/

namespace Query

variable {settings : Settings}

/-- Apart from the limit on levels, the query of a filter is what it is compiled to. -/
theorem compile_of_ofFilter {f : Filter} {query : Query} (h : ofFilter settings f = .ok query) :
    compile settings f = .ok query := by
  rw [ofFilter] at h
  split at h
  · simp at h
  · exact h

/-- What has a query is within the limit on levels. -/
theorem depth_le_of_ofFilter {f : Filter} {query : Query} (h : ofFilter settings f = .ok query) :
    f.depth ≤ maxLevels := by
  rw [ofFilter] at h
  split at h
  · simp at h
  · next hle => exact Nat.le_of_not_lt hle

/-- How the query of a filter comes about. Every query that is returned does so by these rules,
though not all that they allow is returned: the last one is not used for two leaves with a common
path. The limit on levels is left out, since it is looked at once, for the filter as a whole. -/
inductive Compiled (settings : Settings) : Filter → Query → Prop
  /-- A leaf. -/
  | leaf {l : Leaf} {query : Query} (hquery : l.toQuery settings none = .ok query) :
      Compiled settings (.leaf l) query
  /-- A group of one filter is that filter. -/
  | only {c : Connective} {f : Filter} {query : Query} (hf : Compiled settings f query) :
      Compiled settings (.group c [f]) query
  /-- Leaves with a common path that are to hold together. -/
  | together {leaves : List Leaf} {query : Query} (htwo : 2 ≤ leaves.length)
      (hpath : (Leaf.commonPath? leaves).isSome = true)
      (hquery : Leaf.Gathered settings none leaves query) :
      Compiled settings (.group .and (leaves.map .leaf)) query
  /-- Any other filters that are all to hold. -/
  | all {operands : List Filter} {queries : List Query} (htwo : 2 ≤ operands.length)
      (hapart : ∀ leaves, operands = leaves.map .leaf → Leaf.commonPath? leaves = none)
      (hlength : operands.length = queries.length)
      (hqueries : ∀ pair ∈ operands.zip queries, Compiled settings pair.1 pair.2) :
      Compiled settings (.group .and operands) (.filter queries)
  /-- Two leaves with a common path of which one is to hold. -/
  | either {l m : Leaf} {path : Path} {left right : Query}
      (hpath : Leaf.commonPath? [l, m] = some path)
      (hleft : l.toQuery settings (some path) = .ok left)
      (hright : m.toQuery settings (some path) = .ok right) :
      Compiled settings (.group .or [.leaf l, .leaf m]) (.nested path (.should [left, right]))
  /-- Any other filters of which one is to hold: the first, or one of the others. -/
  | first {f g : Filter} {others : List Filter} {left right : Query}
      (hleft : Compiled settings f left)
      (hright : Compiled settings (.group .or (g :: others)) right) :
      Compiled settings (.group .or (f :: g :: others)) (.should [left, right])

theorem mapM_leaf?_eq_some_iff {operands : List Filter} {leaves : List Leaf} :
    operands.mapM (·.leaf?) = some leaves ↔ operands = leaves.map .leaf := by
  rw [mapM_eq_some_iff]
  induction operands generalizing leaves with
  | nil => cases leaves <;> simp
  | cons f operands ih =>
    cases leaves with
    | nil => simp
    | cons l leaves =>
      rw [List.map_cons, List.map_cons, List.map_cons, List.cons.injEq, List.cons.injEq, ih]
      cases f <;> simp [Filter.leaf?]

/-- Leaves without a common path are compiled one by one. -/
theorem compiled_all_leaves {leaves : List Leaf} {queries : List Query} (htwo : 2 ≤ leaves.length)
    (hnone : Leaf.commonPath? leaves = none)
    (hqueries : List.Forall₂ (fun l q => l.toQuery settings none = .ok q) leaves queries) :
    Compiled settings (.group .and (leaves.map .leaf)) (.filter queries) := by
  have hcompiled : List.Forall₂ (Compiled settings) (leaves.map .leaf) queries :=
    List.forall₂_map_left_iff.2 (hqueries.imp fun _ _ h => .leaf h)
  obtain ⟨hlength, hmem⟩ := List.forall₂_iff_zip.1 hcompiled
  refine .all (by simpa using htwo) (fun leaves' heq => ?_) hlength fun pair hpair => hmem hpair
  obtain rfl : leaves = leaves' := List.map_injective_iff.2 (fun _ _ h => by injection h) heq
  exact hnone

/-- Filters that are all to hold are compiled one by one. -/
theorem compileList_eq_mapM (operands : List Filter) :
    compileList settings operands = operands.mapM (compile settings) := by
  induction operands with
  | nil => rfl
  | cons f operands ih => rw [compileList, List.mapM_cons, ih]

/-- Of filters of which one is to hold, the first is compiled beside the others, unless two
leaves are left. In that case too it may be compiled so, if the two have no common path. -/
theorem compileOr_cons_cons (settings : Settings) (f g : Filter) (others : List Filter) :
    (∃ l m, f = .leaf l ∧ g = .leaf m ∧ others = []) ∨
      compileOr settings (f :: g :: others) =
        return .should [← compile settings f, ← compileOr settings (g :: others)] := by
  by_cases hpair : ∃ l m, f = .leaf l ∧ g = .leaf m ∧ others = []
  · exact .inl hpair
  · exact .inr (compileOr.eq_4 settings f g others
      fun l m hf hg hnil => hpair ⟨l, m, hf, hg, hnil⟩)

theorem compiled_of_compileList {operands : List Filter} {queries : List Query}
    (ih : ∀ f ∈ operands, ∀ {q}, compile settings f = .ok q → Compiled settings f q)
    (h : compileList settings operands = .ok queries) :
    List.Forall₂ (Compiled settings) operands queries := by
  rw [compileList_eq_mapM, mapM_eq_ok_iff, List.forall₂_iff_zip] at h
  exact List.forall₂_iff_zip.2 ⟨h.1, fun hpair => ih _ (List.of_mem_zip hpair).1 (h.2 hpair)⟩

theorem compiled_of_either {l m : Leaf} {query : Query} (h : l.either settings m = .ok query) :
    Compiled settings (.group .or [.leaf l, .leaf m]) query := by
  rw [Leaf.either] at h
  cases hpath : Leaf.commonPath? [l, m] with
  | none =>
    rw [hpath] at h
    obtain ⟨left, hleft, h⟩ := bind_eq_ok_iff.1 h
    obtain ⟨right, hright, h⟩ := bind_eq_ok_iff.1 h
    obtain rfl := Except.ok.inj h
    exact .first (.leaf hleft) (.only (.leaf hright))
  | some path =>
    rw [hpath] at h
    obtain ⟨left, hleft, h⟩ := bind_eq_ok_iff.1 h
    obtain ⟨right, hright, h⟩ := bind_eq_ok_iff.1 h
    obtain rfl := Except.ok.inj h
    exact .either hpath hleft hright

theorem compiled_of_compileOr {operands : List Filter} {query : Query}
    (ih : ∀ f ∈ operands, ∀ {q}, compile settings f = .ok q → Compiled settings f q)
    (h : compileOr settings operands = .ok query) :
    Compiled settings (.group .or operands) query := by
  induction operands generalizing query with
  | nil => simp [compileOr] at h
  | cons f rest ihs =>
    have hrest : ∀ {q}, compileOr settings rest = .ok q → Compiled settings (.group .or rest) q :=
      ihs fun g hg => ih g (List.mem_cons_of_mem _ hg)
    rcases rest with _ | ⟨g, others⟩
    · rw [compileOr] at h
      exact .only (ih f (by simp) h)
    rcases compileOr_cons_cons settings f g others with ⟨l, m, rfl, rfl, rfl⟩ | hcons
    · rw [compileOr] at h
      exact compiled_of_either h
    · rw [hcons] at h
      obtain ⟨left, hleft, h⟩ := bind_eq_ok_iff.1 h
      obtain ⟨right, hright, h⟩ := bind_eq_ok_iff.1 h
      obtain rfl := Except.ok.inj h
      exact .first (ih f (by simp) hleft) (hrest hright)

/-- Leaves that are all to hold have a common path, or else each has its own query. The function
that gathers is called in both cases. -/
theorem compiled_of_gather {leaves : List Leaf} {query : Query}
    (h : Leaf.gather settings none leaves = .ok query) :
    Compiled settings (.group .and (leaves.map .leaf)) query := by
  rcases leaves with _ | ⟨l, _ | ⟨m, leaves⟩⟩
  · simp [Leaf.gather] at h
  · rw [Leaf.gather] at h
    exact .only (.leaf h)
  have htwo : 2 ≤ (l :: m :: leaves).length := by simp
  cases hpath : Leaf.commonPath? (l :: m :: leaves) with
  | none =>
    rw [Leaf.gather_of_commonPath?_eq_none htwo hpath] at h
    obtain ⟨queries, hqueries, h⟩ := bind_eq_ok_iff.1 h
    obtain rfl := Except.ok.inj h
    exact compiled_all_leaves htwo hpath (mapM_eq_ok_iff.1 hqueries)
  | some path =>
    exact .together htwo (by simp [hpath]) (Leaf.gathered_of_gather (Leaf.anchored_none hpath) h)

/-- Filters of which some is a group are compiled one by one. -/
theorem compiled_of_forall₂ {operands : List Filter} {queries : List Query}
    (hgroup : operands.mapM (·.leaf?) = none)
    (h : List.Forall₂ (Compiled settings) operands queries) :
    Compiled settings (.group .and operands) (all queries) := by
  obtain ⟨hlength, hmem⟩ := List.forall₂_iff_zip.1 h
  rcases h with _ | ⟨hf, _ | ⟨hg, hrest⟩⟩
  · simp at hgroup
  · exact .only hf
  · refine .all (by simp) (fun leaves heq => ?_) hlength fun pair hpair => hmem hpair
    simp [mapM_leaf?_eq_some_iff.2 heq] at hgroup

/-- **Every query that is returned comes about by the rules.** The induction is on the filter and
not along the functions, as these call each other for operands and lists of operands. -/
theorem compiled_of_compile {f : Filter} {query : Query} (h : compile settings f = .ok query) :
    Compiled settings f query := by
  induction f generalizing query with
  | leaf l =>
    rw [compile] at h
    exact .leaf h
  | group c operands ih =>
    cases c with
    | and =>
      rw [compile] at h
      cases hleaves : operands.mapM (·.leaf?) with
      | some leaves =>
        rw [hleaves] at h
        obtain rfl := mapM_leaf?_eq_some_iff.1 hleaves
        exact compiled_of_gather h
      | none =>
        rw [hleaves] at h
        obtain ⟨queries, hqueries, h⟩ := bind_eq_ok_iff.1 h
        obtain rfl := Except.ok.inj h
        exact compiled_of_forall₂ hleaves (compiled_of_compileList ih hqueries)
    | or =>
      rw [compile] at h
      exact compiled_of_compileOr ih h

end Query

end NestedFilter
