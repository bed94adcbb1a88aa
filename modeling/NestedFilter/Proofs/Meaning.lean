import NestedFilter.Proofs.Compilation
import NestedFilter.Proofs.Document

/-!
# What filters and queries mean on documents

A query is asked of an object, a filter of a whole document. The meaning of a query
(`NestedFilter.Query.Holds`) is local: a nested query moves to an object further down and
goes on from there. The meaning of a filter (`NestedFilter.Filter.Holds`) is global: leaves
that an `and` joins and whose paths begin alike hold *together*, on one selection of
objects for all of their paths (`NestedFilter.Leaf.HoldTogether`).

A selection names one object for each path. It starts with the object that is asked, and the
object for a longer path is one of those that the object for the shorter path has there. The
tests of a selection are made where it goes, so two leaves on one path are tested on one object,
and two on paths that begin alike on objects within one and the same. Nothing of this refers to
the way in which a query is put together.

The main result, `NestedFilter.Query.holds_ofFilter_iff`, is that the query of a filter
holds at the root of exactly the documents that the filter holds of. The one step that is
not local is gathering. It rests on two facts about holding together: leaves within a path
hold together when they do so from some object at the path on
(`NestedFilter.Leaf.holdTogether_within`), and from there on the next segments are
independent of each other (`NestedFilter.Leaf.holdTogether_split`). For the second, selections
for the next segments are made into one, which for each path takes the object from the selection
for the segment that the path goes on with.

Everything else goes rule by rule (`NestedFilter.Query.holds_of_compiled`). For an `or` there
is nothing to hold together: its operands are alternatives, and one of them is enough.
-/

namespace NestedFilter

/-! ### Meanings -/

namespace Query

mutual

/-- The query holds at the object `o`, which lies at `base`. Where it lies is only needed to go on
from there, since a nested query has its whole path and not the way from the one around it. -/
def Holds (base : List (List Char)) (o : Object) : Query → Prop
  | .clause c => o.Satisfies c
  | .mustNot c => ¬o.Satisfies c
  | .filter queries => AllHold base o queries
  | .should queries => SomeHolds base o queries
  | .nested path query => ∃ o', o.Leads base path.segments o' ∧ Holds path.segments o' query

/-- All queries hold. -/
def AllHold (base : List (List Char)) (o : Object) : List Query → Prop
  | [] => True
  | q :: qs => Holds base o q ∧ AllHold base o qs

/-- Some query holds. -/
def SomeHolds (base : List (List Char)) (o : Object) : List Query → Prop
  | [] => False
  | q :: qs => Holds base o q ∨ SomeHolds base o qs

end

variable {base : List (List Char)} {o : Object}

@[simp] theorem holds_filter {queries : List Query} :
    (filter queries).Holds base o ↔ ∀ q ∈ queries, q.Holds base o := by
  rw [Holds]
  induction queries with
  | nil => simp [AllHold]
  | cons q qs ih => rw [AllHold, ih, List.forall_mem_cons]

@[simp] theorem holds_should {queries : List Query} :
    (should queries).Holds base o ↔ ∃ q ∈ queries, q.Holds base o := by
  rw [Holds]
  induction queries with
  | nil => simp [SomeHolds]
  | cons q qs ih => rw [SomeHolds, ih, List.exists_mem_cons_iff]

end Query

namespace Leaf

/-- The object passes the test of a leaf, whatever its path. An operator that
denies something is passed where the clause for the opposite is not satisfied. -/
def HoldsOn (settings : Settings) (leaf : Leaf) (o : Object) : Prop :=
  match leaf.test with
  | .compare .equal value => o.Satisfies (.term leaf.field value)
  | .compare .notEqual value => ¬o.Satisfies (.term leaf.field value)
  | .compare .less value => o.Satisfies (.range leaf.field .lt value)
  | .compare .lessOrEqual value => o.Satisfies (.range leaf.field .lte value)
  | .compare .greater value => o.Satisfies (.range leaf.field .gt value)
  | .compare .greaterOrEqual value => o.Satisfies (.range leaf.field .gte value)
  | .compare .matching value =>
    o.Satisfies (.regexp leaf.field value settings.regexpFlags settings.regexpCaseInsensitive)
  | .member .isIn values => o.Satisfies (.terms leaf.field values)
  | .member .notIn values => ¬o.Satisfies (.terms leaf.field values)

/-- The leaf holds of a document: its root passes the test, or some object at the path of
the leaf does. So a leaf that denies something holds if there is an object at its path of which
the thing is not true, though it be true of others. -/
def Holds (settings : Settings) (root : Object) (leaf : Leaf) : Prop :=
  match leaf.path? with
  | none => leaf.HoldsOn settings root
  | some path => ∃ o ∈ root.along path.segments, leaf.HoldsOn settings o

/-- Several leaves, all with paths, and these begin with one segment. It is said here of the paths
alone, as a filter means something whether it is compiled or not. -/
def Linked (leaves : List Leaf) : Prop :=
  2 ≤ leaves.length ∧ ∃ segment, ∀ l ∈ leaves,
    ∃ path, l.path? = some path ∧ path.segments.head? = some segment

/-- One selection of objects, which starts with `o` at `base` and goes down along the path
of every leaf, names for each leaf an object that passes its test. As it is one selection, leaves
on one path are tested on one object, and where paths go on from each other, so do the objects. -/
def HoldTogether (settings : Settings) (base : List (List Char)) (o : Object)
    (leaves : List Leaf) : Prop :=
  ∃ pick : List (List Char) → Object, pick base = o ∧ ∀ l ∈ leaves,
    ∃ path, l.path? = some path ∧ Object.Descends pick base path.segments ∧
      l.HoldsOn settings (pick path.segments)

end Leaf

namespace Filter

/-- The filters are leaves, and linked ones. -/
def LinkedLeaves (operands : List Filter) (leaves : List Leaf) : Prop :=
  operands = leaves.map .leaf ∧ Leaf.Linked leaves

mutual

/-- The filter holds of the document with the given root. Linked leaves that `and` joins
hold together; else each operand holds by itself, on objects of its own, and a group among the
operands is enough for that. -/
def Holds (settings : Settings) (root : Object) : Filter → Prop
  | .leaf l => l.Holds settings root
  | .group .and operands =>
    (∃ leaves, LinkedLeaves operands leaves ∧ Leaf.HoldTogether settings [] root leaves) ∨
      (¬∃ leaves, LinkedLeaves operands leaves) ∧ AllHold settings root operands
  | .group .or operands => SomeHolds settings root operands

/-- All filters hold. -/
def AllHold (settings : Settings) (root : Object) : List Filter → Prop
  | [] => True
  | f :: fs => Holds settings root f ∧ AllHold settings root fs

/-- Some filter holds. -/
def SomeHolds (settings : Settings) (root : Object) : List Filter → Prop
  | [] => False
  | f :: fs => Holds settings root f ∨ SomeHolds settings root fs

end

variable {settings : Settings} {root : Object} {operands : List Filter}

theorem allHold_iff : AllHold settings root operands ↔ ∀ f ∈ operands, f.Holds settings root := by
  induction operands with
  | nil => simp [AllHold]
  | cons f fs ih => rw [AllHold, ih, List.forall_mem_cons]

/-- An `or` holds when some operand does. -/
theorem holds_or :
    (group .or operands).Holds settings root ↔ ∃ f ∈ operands, f.Holds settings root := by
  rw [Holds]
  induction operands with
  | nil => simp [SomeHolds]
  | cons f fs ih => rw [SomeHolds, ih, List.exists_mem_cons_iff]

/-- An `and` of linked leaves holds when these hold together. -/
theorem holds_and_of_linked {leaves : List Leaf} (h : Leaf.Linked leaves) :
    (group .and (leaves.map .leaf)).Holds settings root ↔
      Leaf.HoldTogether settings [] root leaves := by
  have hlinked : LinkedLeaves (leaves.map .leaf) leaves := ⟨rfl, h⟩
  rw [Holds]
  constructor
  · rintro (⟨leaves', ⟨heq, -⟩, htogether⟩ | ⟨hnone, -⟩)
    · obtain rfl : leaves = leaves' := List.map_injective_iff.2 (fun _ _ h => by injection h) heq
      exact htogether
    · exact absurd ⟨leaves, hlinked⟩ hnone
  · exact fun htogether => .inl ⟨leaves, hlinked, htogether⟩

/-- Any other `and` holds when all operands do. -/
theorem holds_and_of_not_linked (h : ¬∃ leaves, LinkedLeaves operands leaves) :
    (group .and operands).Holds settings root ↔ ∀ f ∈ operands, f.Holds settings root := by
  rw [Holds, ← allHold_iff]
  constructor
  · rintro (⟨leaves, hlinked, -⟩ | ⟨-, hall⟩)
    · exact absurd ⟨leaves, hlinked⟩ h
    · exact hall
  · exact fun hall => .inr ⟨h, hall⟩

end Filter

/-! ### Holding together -/

namespace Leaf

open Object

variable {settings : Settings} {leaves : List Leaf} {leaf : Leaf} {path : Path}
variable {base : List (List Char)} {o : Object}

theorem holdTogether_singleton (hpath : leaf.path? = some path) (hbase : base <+: path.segments) :
    HoldTogether settings base o [leaf] ↔
      ∃ o', o.Leads base path.segments o' ∧ leaf.HoldsOn settings o' := by
  constructor
  · rintro ⟨pick, rfl, hpick⟩
    obtain ⟨path', hpath', hdescends, hholds⟩ := hpick leaf (by simp)
    obtain rfl : path' = path := Option.some.inj (hpath'.symm.trans hpath)
    exact ⟨_, hdescends.leads hbase, hholds⟩
  · rintro ⟨o', hleads, hholds⟩
    obtain ⟨pick, hstart, rfl, hdescends⟩ := exists_descends hleads
    exact ⟨pick, hstart, by simpa using ⟨path, hpath, hdescends, hholds⟩⟩

/-- **Leaves within a path hold together from some object at the path on.** The object is the one
that the selection names for the path. The other way round, the way to the object and the selection
from there on make one selection. -/
theorem holdTogether_within (hne : leaves ≠ []) (hbase : base <+: path.segments)
    (hwithin : ∀ l ∈ leaves, ∃ own, l.path? = some own ∧ own.isWithin path = true) :
    HoldTogether settings base o leaves ↔
      ∃ o', o.Leads base path.segments o' ∧ HoldTogether settings path.segments o' leaves := by
  constructor
  · rintro ⟨pick, rfl, hpick⟩
    refine ⟨pick path.segments, ?_, pick, rfl, fun l hl => ?_⟩
    · obtain ⟨first, hfirst⟩ := List.exists_mem_of_ne_nil _ hne
      obtain ⟨own, hown, hin⟩ := hwithin first hfirst
      obtain ⟨own', hown', hdescends, -⟩ := hpick first hfirst
      obtain rfl : own' = own := Option.some.inj (hown'.symm.trans hown)
      exact (hdescends.toward (Path.isWithin_iff_segments.1 hin)).leads hbase
    · obtain ⟨own, hown, hdescends, hholds⟩ := hpick l hl
      exact ⟨own, hown, hdescends.since hbase, hholds⟩
  · rintro ⟨o', hleads, below, rfl, hbelow⟩
    obtain ⟨above, hstart, hmeet, habove⟩ := exists_descends hleads
    refine ⟨graft path.segments above below, ?_, fun l hl => ?_⟩
    · by_cases hpath : path.segments <+: base
      · -- Then the path is `base` itself, and the selection already starts in `below`.
        obtain heq := hbase.eq_of_length_le hpath.length_le
        rw [graft_below hpath, ← hstart, heq, hmeet]
      · rw [graft_elsewhere hpath, hstart]
    · obtain ⟨own, hown, hdescends, hholds⟩ := hbelow l hl
      obtain ⟨own', hown', hin⟩ := hwithin l hl
      obtain rfl : own' = own := Option.some.inj (hown'.symm.trans hown)
      have hprefix := Path.isWithin_iff_segments.1 hin
      refine ⟨own', hown, descends_graft habove hdescends hmeet hprefix, ?_⟩
      rwa [graft_below hprefix]

/-- **Below a path the next segments are independent**: leaves within the path hold
together when those right there hold and, for each next segment, those that go on with it
hold together. -/
theorem holdTogether_split
    (hwithin : ∀ l ∈ leaves, ∃ own, l.path? = some own ∧ own.isWithin path = true) :
    HoldTogether settings path.segments o leaves ↔
      (∀ l ∈ directlyAt path leaves, l.HoldsOn settings o) ∧
        ∀ child ∈ childPaths path leaves,
          HoldTogether settings path.segments o (under path child leaves) := by
  constructor
  · rintro ⟨pick, rfl, hpick⟩
    refine ⟨fun l hl => ?_, fun child _ => ⟨pick, rfl, fun l hl => hpick l (mem_under.1 hl).1⟩⟩
    obtain ⟨hmem, hpath⟩ := mem_directlyAt.1 hl
    obtain ⟨own, hown, -, hholds⟩ := hpick l hmem
    obtain rfl : own = path := Option.some.inj (hown.symm.trans hpath)
    exact hholds
  · rintro ⟨hdirect, hdeeper⟩
    choose! pick hstart hpick using hdeeper
    -- The selection for a segment is the one for the path that goes on with it.
    refine ⟨branch path.segments o fun s => pick (['.'].intercalate (path.segments ++ [s])),
      branch_self, fun l hl => ?_⟩
    obtain ⟨own, hown, hin⟩ := hwithin l hl
    refine ⟨own, hown, ?_⟩
    by_cases hself : own = path
    · subst hself
      exact ⟨descends_self, by simpa using hdirect l (mem_directlyAt.2 ⟨hl, hown⟩)⟩
    · have hchildPath : l.childPath? path = some (path.childOf own) :=
        childPath?_eq_some_iff.2 ⟨own, hown, hself, rfl⟩
      have hmem : path.childOf own ∈ childPaths path leaves := mem_childPaths.2 ⟨l, hl, hchildPath⟩
      obtain ⟨own', hown', hdescends, hholds⟩ := hpick _ hmem l (mem_under.2 ⟨hl, hchildPath⟩)
      obtain rfl : own' = own := Option.some.inj (hown'.symm.trans hown)
      obtain ⟨segment, hsegment, hnext⟩ := Path.segments_childOf hin hself
      have hchild : path.childOf own' = ['.'].intercalate (path.segments ++ [segment]) := by
        rw [← hsegment, Path.intercalate_segments]
      rw [hchild] at hdescends hholds hmem
      exact ⟨descends_branch hdescends (hstart _ hmem) hnext, by rwa [branch_below hnext]⟩

end Leaf

/-! ### Queries mean what their filters mean -/

/-- The segments of a scope; none at the root. With it the two ways to say where an object lies, by
an open path or by segments, can be compared. -/
def scopeSegments : Option Path → List (List Char)
  | none => []
  | some path => path.segments

theorem scopeSegments_isPrefix {scope : Option Path} {path : Path}
    (h : ∀ root ∈ scope, path.isWithin root = true) : scopeSegments scope <+: path.segments := by
  cases scope with
  | none => exact List.nil_prefix
  | some root => exact Path.isWithin_iff_segments.1 (h root rfl)

namespace Leaf

variable {settings : Settings} {leaves : List Leaf} {leaf : Leaf} {path : Path}
variable {scope : Option Path} {query : Query} {o root : Object}

theorem holds_of_clause {base : List (List Char)} (h : leaf.clause settings = .ok query) :
    query.Holds base o ↔ leaf.HoldsOn settings o := by
  obtain ⟨field, test⟩ := leaf
  cases test with
  | compare op value =>
    cases op <;> obtain rfl := Except.ok.inj h <;> simp only [Query.Holds, HoldsOn]
  | member op values =>
    cases values with
    | nil => simp [clause] at h
    | cons value values =>
      cases op <;> obtain rfl := Except.ok.inj h <;> simp only [Query.Holds, HoldsOn]

theorem holds_enter :
    (enter scope path query).Holds (scopeSegments scope) o ↔
      ∃ o', o.Leads (scopeSegments scope) path.segments o' ∧ query.Holds path.segments o' := by
  rw [enter]
  split
  · next h => subst h; simp [scopeSegments]
  · rw [Query.Holds]

/-- The query of a leaf with a path is asked of the objects at the path, in whatever scope it
stands: from there the objects are reached that are meant. -/
theorem holds_of_toQuery (hpath : leaf.path? = some path)
    (h : leaf.toQuery settings scope = .ok query) :
    query.Holds (scopeSegments scope) o ↔
      ∃ o', o.Leads (scopeSegments scope) path.segments o' ∧ leaf.HoldsOn settings o' := by
  obtain ⟨c, hc, rfl⟩ := (toQuery_of_path? hpath).1 h
  simp only [holds_enter, holds_of_clause hc]

/-- At the root, the query of a leaf means what the leaf does. -/
theorem holds_of_toQuery_none (h : leaf.toQuery settings none = .ok query) :
    query.Holds [] root ↔ leaf.Holds settings root := by
  rw [Holds]
  cases hpath : leaf.path? with
  | none => exact holds_of_clause ((toQuery_of_path?_eq_none hpath).1 h)
  | some path => simpa only [Object.leads_nil, scopeSegments] using holds_of_toQuery hpath h

/-- Going to a path that the leaf is within, and asking its query there, is asking the
leaf of the document. -/
theorem exists_holds_of_toQuery {own : Path} (hown : leaf.path? = some own)
    (hin : own.isWithin path = true) (h : leaf.toQuery settings (some path) = .ok query) :
    (∃ o, root.Leads [] path.segments o ∧ query.Holds path.segments o) ↔
      leaf.Holds settings root := by
  have hquery : ∀ o, query.Holds path.segments o ↔
      ∃ o', o.Leads path.segments own.segments o' ∧ leaf.HoldsOn settings o' :=
    fun _ => holds_of_toQuery hown h
  simp only [Holds, hown, hquery, ← Object.leads_nil,
    Object.leads_iff_exists_middle List.nil_prefix (Path.isWithin_iff_segments.1 hin)]
  constructor
  · rintro ⟨o, hleads, o', hleads', hholds⟩
    exact ⟨o', ⟨o, hleads, hleads'⟩, hholds⟩
  · rintro ⟨o', ⟨o, hleads, hleads'⟩, hholds⟩
    exact ⟨o, hleads, o', hleads', hholds⟩

/-- Right at the path of the scope, the query of a leaf is the test of the object. -/
theorem holds_of_toQuery_self (hpath : leaf.path? = some path)
    (h : leaf.toQuery settings (some path) = .ok query) :
    query.Holds path.segments o ↔ leaf.HoldsOn settings o := by
  have hquery : query.Holds path.segments o ↔
      ∃ o', o.Leads path.segments path.segments o' ∧ leaf.HoldsOn settings o' :=
    holds_of_toQuery hpath h
  simpa using hquery

/-- **Leaves that are gathered hold together**, from the object on that the scope has led
to. The induction is over the rules of gathering: the common path is entered by the first of the
two facts about holding together, and the groups below it come apart by the second. -/
theorem holds_of_gathered (h : Gathered settings scope leaves query) (o : Object) :
    query.Holds (scopeSegments scope) o ↔
      HoldTogether settings (scopeSegments scope) o leaves := by
  induction h generalizing o with
  | single hown hscope hquery =>
    rw [holds_of_toQuery hown hquery, holdTogether_singleton hown (scopeSegments_isPrefix hscope)]
  | @shared scope leaves path direct deeper htwo hpath hscope hdirect hlength hdeeper ih =>
    have hwithin : ∀ l ∈ leaves, ∃ own, l.path? = some own ∧ own.isWithin path = true :=
      fun l hl => isWithin_commonPath? hpath hl
    have hne : leaves ≠ [] := (two_le_length_iff.1 htwo).1
    rw [holds_enter, holdTogether_within hne (scopeSegments_isPrefix hscope) hwithin]
    refine exists_congr fun o' => and_congr_right fun _ => ?_
    -- At the path each leaf is tested by itself, and each group below it by induction.
    rw [Query.holds_filter, List.forall_mem_append, holdTogether_split hwithin]
    refine and_congr ?_ ?_
    · refine forall_mem_iff_of_forall₂ (List.forall₂_iff_zip.2 ⟨hdirect.length_eq, fun hpair => ?_⟩)
      have hat := (mem_directlyAt.1 (List.of_mem_zip hpair).1).2
      exact holds_of_toQuery_self hat ((List.forall₂_iff_zip.1 hdirect).2 hpair)
    · exact forall_mem_iff_of_forall₂ (List.forall₂_iff_zip.2 ⟨hlength, fun hpair => ih _ hpair o'⟩)

end Leaf

namespace Query

variable {settings : Settings} {query : Query} {f : Filter} {root : Object}

/-- Leaves are linked when they have a common path, and there are several of them. So what is said
of filters by first segments is what compilation goes by. -/
theorem linked_iff {leaves : List Leaf} :
    Leaf.Linked leaves ↔ 2 ≤ leaves.length ∧ (Leaf.commonPath? leaves).isSome = true := by
  rw [Leaf.Linked, Leaf.commonPath?_isSome_iff]
  refine and_congr_right fun htwo => ?_
  simp [(Leaf.two_le_length_iff.1 htwo).1]

/-- **Compilation keeps the meaning**, rule by rule. At the root no object has been chosen yet, so
the operands of a group may be asked one after the other. -/
theorem holds_of_compiled (h : Compiled settings f query) :
    query.Holds [] root ↔ f.Holds settings root := by
  induction h with
  | leaf hquery => rw [Leaf.holds_of_toQuery_none hquery, Filter.Holds]
  | @only c f query hf ih =>
    cases c with
    | and =>
      rw [Filter.holds_and_of_not_linked, ih]
      · simp
      · rintro ⟨leaves, heq, htwo, -⟩
        have hlength := congrArg List.length heq
        simp at hlength
        omega
    | or => simp [Filter.holds_or, ih]
  | together htwo hpath hquery =>
    rw [Filter.holds_and_of_linked (linked_iff.2 ⟨htwo, hpath⟩)]
    exact Leaf.holds_of_gathered hquery root
  | @all operands queries htwo hapart hlength hqueries ih =>
    have hnot : ¬∃ leaves, Filter.LinkedLeaves operands leaves := by
      rintro ⟨leaves, heq, hlinked⟩
      simpa [hapart leaves heq] using (linked_iff.1 hlinked).2
    rw [holds_filter, Filter.holds_and_of_not_linked hnot]
    exact forall_mem_iff_of_forall₂ (List.forall₂_iff_zip.2 ⟨hlength, fun hpair => ih _ hpair⟩)
  | @either l m path left right hpath hleft hright =>
    have hl : l ∈ [l, m] := List.mem_cons_self
    have hm : m ∈ [l, m] := List.mem_cons_of_mem _ List.mem_cons_self
    obtain ⟨own, hown, hin⟩ := Leaf.isWithin_commonPath? hpath hl
    obtain ⟨own', hown', hin'⟩ := Leaf.isWithin_commonPath? hpath hm
    have hleft' : _ ↔ l.Holds settings root := Leaf.exists_holds_of_toQuery hown hin hleft
    have hright' : _ ↔ m.Holds settings root := Leaf.exists_holds_of_toQuery hown' hin' hright
    rw [Filter.holds_or]
    simp only [List.exists_mem_cons_iff, Filter.Holds, ← hleft', ← hright', Holds, SomeHolds,
      or_false, and_or_left, exists_or]
    simp
  | first hleft hright ihleft ihright =>
    rw [Filter.holds_or, List.exists_mem_cons_iff, ← Filter.holds_or, ← ihleft, ← ihright,
      holds_should, List.exists_mem_cons_iff]
    simp

/-- **The query of a filter means what the filter does**: on every document, it holds at
the root exactly when the filter holds. -/
theorem holds_ofFilter_iff (h : ofFilter settings f = .ok query) (root : Object) :
    query.Holds [] root ↔ f.Holds settings root := by
  rw [ofFilter] at h
  split at h
  · simp at h
  · exact holds_of_compiled (compiled_of_compile h)

/-- The name of a test and the name of one of its suites, asked of the same test. -/
theorem holds_ofFilter_iff_tests_suites :
    ofFilter {} (.group .and [.leaf ⟨"tests.name", .compare .equal "a"⟩,
        .leaf ⟨"tests.suites.name", .compare .notEqual "b"⟩]) =
      .ok (.nested "tests".toList (.filter [.clause (.term "tests.name" "a"),
        .nested "tests.suites".toList (.mustNot (.term "tests.suites.name" "b"))])) ∧
    ((nested "tests".toList (.filter [.clause (.term "tests.name" "a"),
        .nested "tests.suites".toList (.mustNot (.term "tests.suites.name" "b"))])).Holds []
        (.node (fun _ => False) fun _ => [.node (· = .term "tests.name" "a") fun _ => []]) ↔
      Filter.Holds {}
        (.node (fun _ => False) fun _ => [.node (· = .term "tests.name" "a") fun _ => []])
        (.group .and [.leaf ⟨"tests.name", .compare .equal "a"⟩,
          .leaf ⟨"tests.suites.name", .compare .notEqual "b"⟩])) :=
  have h : ofFilter {} (.group .and [.leaf ⟨"tests.name", .compare .equal "a"⟩,
      .leaf ⟨"tests.suites.name", .compare .notEqual "b"⟩]) =
      .ok (.nested "tests".toList (.filter [.clause (.term "tests.name" "a"),
        .nested "tests.suites".toList (.mustNot (.term "tests.suites.name" "b"))])) := by
    with_unfolding_all rfl
  ⟨h, holds_ofFilter_iff h _⟩

end Query

end NestedFilter
