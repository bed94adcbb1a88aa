import NestedFilter.Proofs.Compilation

/-!
# Every clause stands in its scope

A clause has to be asked of the objects at the path of its field, so the innermost nested
query around it has to be for that path; and nested queries only ever go further down. What
this asks of a query as a whole is `NestedFilter.Query.WellScoped`, and the main result,
`NestedFilter.Query.wellScoped_ofFilter`, is that the query of every filter is well scoped.

Well-scopedness is about places anywhere in the query (`NestedFilter.Query.Occurs`), with all
the nested queries around them, and does not follow from the same for the parts: it looks at
queries side by side, and at what is around the whole. The invariant behind it is
`NestedFilter.Query.Scoped`, which speaks of a query in the scope that it is compiled for and so
can be followed through compilation, rule by rule. Only the innermost of the paths around a
place is kept in it. The others are found again by going up, as each path goes on from the one
around it (`NestedFilter.Query.Scoped.extends_of_occurs`).

A list of queries in an open scope is *spread*: it holds clauses and nested queries alone, and
no two of these take the same next step (`NestedFilter.Query.Spread`). That rests on the common
path being the deepest, and on the groups below it being formed by the next segment. At the root
lists need not be spread, and often are not: the operands of a group are compiled one by one
there, and two of them may be nested queries for one path. This is why the last two conditions
on scopes are about lists in a nested query only.
-/

namespace NestedFilter

namespace Path

/-- The path goes on from `root`, by one segment or more. So no path goes on from itself, and of two
different paths on the way to a third one goes on from the other. -/
def Extends (path root : Path) : Prop :=
  root.segments <+: path.segments ∧ root.segments.length < path.segments.length

variable {path root top : Path}

theorem extends_iff : path.Extends root ↔ path.isWithin root = true ∧ path ≠ root := by
  rw [Extends, isWithin_iff_segments]
  refine and_congr_right fun hroot => ⟨fun hlt heq => ?_, fun hne => ?_⟩
  · simp [heq] at hlt
  · exact lt_of_le_of_ne hroot.length_le fun hlength =>
      hne (segments_injective (hroot.eq_of_length hlength).symm)

theorem Extends.trans (h : path.Extends root) (htop : root.Extends top) : path.Extends top :=
  ⟨htop.1.trans h.1, htop.2.trans h.2⟩

/-- The segment that the path takes next below `root`. This is only of interest where `root` begins
the path. -/
def next? (root path : Path) : Option (List Char) :=
  path.segments[root.segments.length]?

@[simp] theorem next?_self : root.next? root = none :=
  List.getElem?_eq_none (Nat.le_refl _)

theorem Extends.exists_next? (h : path.Extends root) : ∃ segment, root.next? path = some segment :=
  ⟨_, List.getElem?_eq_getElem h.2⟩

theorem next?_eq_some_iff {segment : List Char} (h : root.segments <+: path.segments) :
    next? root path = some segment ↔ root.segments ++ [segment] <+: path.segments := by
  obtain ⟨below, hbelow⟩ := h
  rw [next?, ← hbelow, List.getElem?_append_right (Nat.le_refl _), Nat.sub_self,
    List.prefix_append_right_inj]
  cases below <;> simp [eq_comm]

/-- What lies below a path that extends `root` takes the same next segment, as the path has it
already. -/
theorem next?_of_isWithin {below : Path} (h : path.Extends root)
    (hbelow : path.segments <+: below.segments) : next? root below = next? root path := by
  obtain ⟨rest, hrest⟩ := hbelow
  rw [next?, next?, ← hrest, List.getElem?_append_left h.2]

end Path

namespace Query

/-! ### Places in a query -/

/-- In the query `whole` the query `part` occurs, within the nested queries for `enclosing`,
of which the innermost is listed first. A query may occur in several places, and the relation
has each of them. -/
inductive Occurs : Query → List Path → Query → Prop
  /-- A query occurs in itself. -/
  | here {whole : Query} : Occurs whole [] whole
  /-- What occurs in one of the queries that are all to hold. -/
  | filter {queries : List Query} {q part : Query} {enclosing : List Path} (hmem : q ∈ queries)
      (hq : Occurs q enclosing part) : Occurs (.filter queries) enclosing part
  /-- What occurs in one of the queries of which some is to hold. -/
  | should {queries : List Query} {q part : Query} {enclosing : List Path} (hmem : q ∈ queries)
      (hq : Occurs q enclosing part) : Occurs (.should queries) enclosing part
  /-- What occurs in a nested query is within its path. -/
  | nested {path : Path} {q part : Query} {enclosing : List Path}
      (hq : Occurs q enclosing part) : Occurs (.nested path q) (enclosing ++ [path]) part

/-- The clause is asked, or its negation is. For the scopes it makes no difference which. -/
def Asks (whole : Query) (enclosing : List Path) (c : Clause) : Prop :=
  Occurs whole enclosing (.clause c) ∨ Occurs whole enclosing (.mustNot c)

/-- The queries are listed side by side, to hold all of them or some of them. -/
def Lists (whole : Query) (enclosing : List Path) (queries : List Query) : Prop :=
  Occurs whole enclosing (.filter queries) ∨ Occurs whole enclosing (.should queries)

/-- What is asked of the scopes of a query. The first three conditions are about one place and what
is around it, the last two about places side by side in a nested query. -/
structure WellScoped (whole : Query) : Prop where
  /-- The innermost nested query around a clause is for the path of its field; around a
  clause whose field has no path there is none. -/
  innermost : ∀ {enclosing c}, whole.Asks enclosing c → enclosing.head? = nestedPath? c.field
  /-- The path of a nested query begins every field in it. -/
  covers : ∀ {enclosing path q within c}, Occurs whole enclosing (.nested path q) →
    q.Asks within c → path.segments <+: Path.segments c.field.toList
  /-- The path of a nested query goes on from the paths of those around it. -/
  deeper : ∀ {enclosing path q}, Occurs whole enclosing (.nested path q) →
    ∀ outer ∈ enclosing, path.Extends outer
  /-- Nested queries side by side in a nested query for `scope` differ in the segment that
  they take next. -/
  apart : ∀ {enclosing scope queries}, whole.Lists (scope :: enclosing) queries →
    queries.Pairwise fun q r => ∀ path body path' body', q = .nested path body →
      r = .nested path' body' → scope.next? path ≠ scope.next? path'
  /-- Clauses from different queries side by side there have no deeper path in common. -/
  shared : ∀ {enclosing scope queries}, whole.Lists (scope :: enclosing) queries →
    queries.Pairwise fun q r => ∀ within c within' c' path path', q.Asks within c →
      r.Asks within' c' → nestedPath? c.field = some path → nestedPath? c'.field = some path' →
      ∀ segment, scope.segments ++ [segment] <+: path.segments →
        ¬scope.segments ++ [segment] <+: path'.segments

/-! ### The invariant -/

/-- A query in an open scope is a clause, or a nested query for a path that extends it. A boolean
query there would stand in the list of another one, which compilation never does in a scope. -/
inductive Entry (scope : Path) : Query → Prop
  /-- A clause. -/
  | clause {c : Clause} : Entry scope (.clause c)
  /-- The negation of a clause. -/
  | mustNot {c : Clause} : Entry scope (.mustNot c)
  /-- A nested query. -/
  | nested {path : Path} {q : Query} (h : path.Extends scope) : Entry scope (.nested path q)

/-- The next segment that a query takes in a scope, if it is a nested query. -/
def step? (scope : Path) : Query → Option (List Char)
  | .nested path _ => scope.next? path
  | _ => none

/-- The queries side by side in a scope are entries, and no two take the same next
segment. -/
def Spread (scope : Path) (queries : List Query) : Prop :=
  (∀ q ∈ queries, Entry scope q) ∧
    queries.Pairwise fun q r =>
      ∀ segment, q.step? scope = some segment → r.step? scope ≠ some segment

/-- The query is compiled for a scope. Unlike the conditions on a query as a whole this is said of
parts in the scope in which they stand, so there is one rule for each form of a query. -/
inductive Scoped : Option Path → Query → Prop
  /-- A clause stands in the scope of its field. -/
  | clause {scope : Option Path} {c : Clause} (hfield : nestedPath? c.field = scope) :
      Scoped scope (.clause c)
  /-- So does the negation of a clause. -/
  | mustNot {scope : Option Path} {c : Clause} (hfield : nestedPath? c.field = scope) :
      Scoped scope (.mustNot c)
  /-- Queries that are all to hold. -/
  | filter {scope : Option Path} {queries : List Query} (hall : ∀ q ∈ queries, Scoped scope q)
      (hspread : ∀ path ∈ scope, Spread path queries) : Scoped scope (.filter queries)
  /-- Queries of which some is to hold. -/
  | should {scope : Option Path} {queries : List Query} (hall : ∀ q ∈ queries, Scoped scope q)
      (hspread : ∀ path ∈ scope, Spread path queries) : Scoped scope (.should queries)
  /-- A nested query goes on from the scope. -/
  | nested {scope : Option Path} {path : Path} {q : Query}
      (hdeeper : ∀ outer ∈ scope, path.Extends outer) (hq : Scoped (some path) q) :
      Scoped scope (.nested path q)

/-! ### From the invariant to the scopes -/

variable {scope : Option Path} {whole part q : Query} {enclosing : List Path} {c : Clause}
variable {path outer : Path} {queries : List Query}

/-- What occurs in a scoped query is scoped, by the innermost nested query around it, or by the
scope of the whole if there is none around it. -/
theorem Scoped.of_occurs (h : Scoped scope whole) (hpart : Occurs whole enclosing part) :
    Scoped (enclosing.head?.or scope) part := by
  induction hpart generalizing scope with
  | here => simpa using h
  | filter hmem _ ih =>
    cases h with
    | filter hall _ => exact ih (hall _ hmem)
  | should hmem _ ih =>
    cases h with
    | should hall _ => exact ih (hall _ hmem)
  | @nested path q part enclosing _ ih =>
    cases h with
    | nested _ hq =>
      have hpart := ih hq
      cases enclosing with
      | nil => simpa using hpart
      | cons p enclosing => simpa using hpart

/-- What occurs in a part occurs in the whole. -/
theorem Occurs.trans {within : List Path} (hpart : Occurs whole enclosing part)
    (hq : Occurs part within q) : Occurs whole (within ++ enclosing) q := by
  induction hpart with
  | here => simpa using hq
  | filter hmem _ ih => exact .filter hmem (ih hq)
  | should hmem _ ih => exact .should hmem (ih hq)
  | nested _ ih =>
    rw [← List.append_assoc]
    exact .nested (ih hq)

/-- **Nested queries go further down**: the paths around a place extend each other, and all
extend the scope. The invariant has this for one path and the next, and it is passed on. -/
theorem Scoped.extends_of_occurs (h : Scoped scope whole) (hpart : Occurs whole enclosing part) :
    enclosing.Pairwise Path.Extends ∧ ∀ path ∈ enclosing, ∀ outer ∈ scope, path.Extends outer := by
  induction hpart generalizing scope with
  | here => simp
  | filter hmem _ ih =>
    cases h with
    | filter hall _ => exact ih (hall _ hmem)
  | should hmem _ ih =>
    cases h with
    | should hall _ => exact ih (hall _ hmem)
  | @nested path q part enclosing _ ih =>
    cases h with
    | nested hdeeper hq =>
      obtain ⟨hchain, hbelow⟩ := ih hq
      refine ⟨List.pairwise_append.2 ⟨hchain, List.pairwise_singleton _ _, ?_⟩, ?_⟩
      · intro p hp r hr
        obtain rfl := List.mem_singleton.1 hr
        exact hbelow p hp r rfl
      · intro p hp outer houter
        rcases List.mem_append.1 hp with hp | hp
        · exact (hbelow p hp path rfl).trans (hdeeper outer houter)
        · obtain rfl := List.mem_singleton.1 hp
          exact hdeeper outer houter

/-- The innermost nested query around a clause, or else the scope, is for its path. -/
theorem Scoped.eq_of_asks (h : Scoped scope whole) (hc : whole.Asks enclosing c) :
    enclosing.head?.or scope = nestedPath? c.field := by
  rcases hc with hc | hc
  · cases h.of_occurs hc with
    | clause hfield => exact hfield.symm
  · cases h.of_occurs hc with
    | mustNot hfield => exact hfield.symm

/-- The clauses in a scoped query lie within its scope. -/
theorem Scoped.isWithin_of_asks (h : Scoped (some outer) whole) (hc : whole.Asks enclosing c) :
    ∃ own, nestedPath? c.field = some own ∧ outer.segments <+: own.segments := by
  rw [← h.eq_of_asks hc]
  cases enclosing with
  | nil => exact ⟨outer, by simp, List.prefix_rfl⟩
  | cons own enclosing =>
    have hchain : ∀ path ∈ own :: enclosing, ∀ outer' ∈ some outer, path.Extends outer' := by
      rcases hc with hc | hc <;> exact (h.extends_of_occurs hc).2
    exact ⟨own, by simp, (hchain own (by simp) outer rfl).1⟩

/-- The path of a field begins the field, segment by segment. -/
theorem segments_isPrefix_of_nestedPath? {field : String} (h : nestedPath? field = some path) :
    path.segments <+: Path.segments field.toList := by
  rw [nestedPath?, Option.filter_eq_some_iff] at h
  exact Path.isWithin_iff_segments.1 (Path.isWithin_of_parent? h.1)

theorem exists_asks_of_nested (h : (nested path q).Asks enclosing c) :
    ∃ within, q.Asks within c := by
  rcases h with h | h
  · cases h with
    | nested hq => exact ⟨_, .inl hq⟩
  · cases h with
    | nested hq => exact ⟨_, .inr hq⟩

/-- What an entry asks below its scope, it asks in a nested query that goes there. So two entries
that ask for something under the same next segment take the same step. -/
theorem Entry.step?_of_asks (hentry : Entry path q) (hq : Scoped (some path) q)
    (hc : q.Asks enclosing c) {own : Path} {segment : List Char}
    (hown : nestedPath? c.field = some own)
    (hsegment : path.segments ++ [segment] <+: own.segments) :
    q.step? path = some segment := by
  have hscope := hq.eq_of_asks hc
  -- A clause right in the scope is about the scope, and so is not below it.
  have hnot : own ≠ path := by
    rintro rfl
    exact absurd hsegment.length_le (by simp)
  cases hentry with
  | clause =>
    obtain rfl : enclosing = [] := by rcases hc with hc | hc <;> cases hc; rfl
    exact absurd (by simpa [hown] using hscope.symm) hnot
  | mustNot =>
    obtain rfl : enclosing = [] := by rcases hc with hc | hc <;> cases hc; rfl
    exact absurd (by simpa [hown] using hscope.symm) hnot
  | @nested p body h =>
    obtain ⟨within, hbody⟩ := exists_asks_of_nested hc
    cases hq with
    | nested _ hbodyScoped =>
      obtain ⟨own', hown', hin⟩ := hbodyScoped.isWithin_of_asks hbody
      obtain rfl : own' = own := Option.some.inj (hown'.symm.trans hown)
      rw [step?, ← Path.next?_of_isWithin h hin, Path.next?_eq_some_iff (h.1.trans hin)]
      exact hsegment

/-- The queries side by side in a scoped query are scoped, and spread in an open scope. -/
theorem Scoped.of_lists (h : Scoped scope whole)
    (hlists : whole.Lists (path :: enclosing) queries) :
    (∀ q ∈ queries, Scoped (some path) q) ∧ Spread path queries := by
  rcases hlists with hlists | hlists
  · cases h.of_occurs hlists with
    | filter hall hspread => exact ⟨hall, hspread path rfl⟩
  · cases h.of_occurs hlists with
    | should hall hspread => exact ⟨hall, hspread path rfl⟩

/-- **A scoped query is well scoped.** Each of the five conditions is seen from the place that it is
about, once the invariant has been carried there. -/
theorem wellScoped_of_scoped (h : Scoped none whole) : whole.WellScoped where
  innermost hc := by simpa using h.eq_of_asks hc
  covers hnested hc := by
    cases h.of_occurs hnested with
    | nested _ hq =>
      obtain ⟨own, hown, hin⟩ := hq.isWithin_of_asks hc
      exact hin.trans (segments_isPrefix_of_nestedPath? hown)
  deeper hnested outer houter :=
    -- Seen from its own body, a nested query is the innermost of those around it.
    List.rel_of_pairwise_cons (h.extends_of_occurs (hnested.trans (.nested .here))).1 houter
  apart hlists := by
    obtain ⟨hall, hentries, hsteps⟩ := h.of_lists hlists
    refine hsteps.imp_of_mem fun {q r} hq hr hqr path body path' body' hpath hpath' heq => ?_
    subst hpath hpath'
    cases hentries _ hq with
    | nested hextends =>
      obtain ⟨segment, hsegment⟩ := hextends.exists_next?
      exact hqr segment hsegment (heq.symm.trans hsegment)
  shared hlists := by
    obtain ⟨hall, hentries, hsteps⟩ := h.of_lists hlists
    refine hsteps.imp_of_mem fun {q r} hq hr hqr within c within' c' path path' hc hc' hpath hpath'
      segment hsegment hsegment' => ?_
    exact hqr segment ((hentries q hq).step?_of_asks (hall q hq) hc hpath hsegment)
      ((hentries r hr).step?_of_asks (hall r hr) hc' hpath' hsegment')

end Query

/-! ### Compilation keeps to the scopes -/

namespace Leaf

variable {settings : Settings} {scope : Option Path} {leaf : Leaf} {leaves : List Leaf}
variable {own path child : Path} {query : Query}

/-- The query of a leaf by itself is a clause about its field, or the negation of one. -/
theorem clause_cases (h : leaf.clause settings = .ok query) :
    ∃ c : Clause, c.field = leaf.field ∧ (query = .clause c ∨ query = .mustNot c) := by
  obtain ⟨field, test⟩ := leaf
  cases test with
  | compare op value => cases op <;> obtain rfl := Except.ok.inj h <;> simp [Clause.field]
  | member op values =>
    cases values with
    | nil => simp [clause] at h
    | cons value values => cases op <;> obtain rfl := Except.ok.inj h <;> simp [Clause.field]

theorem scoped_of_clause (h : leaf.clause settings = .ok query) : query.Scoped leaf.path? := by
  obtain ⟨c, hfield, rfl | rfl⟩ := clause_cases h
  · exact .clause (by rw [hfield, path?])
  · exact .mustNot (by rw [hfield, path?])

/-- Entering a path goes further down, if only the path is within the scope. -/
theorem scoped_enter (hscope : ∀ root ∈ scope, path.isWithin root = true)
    (h : query.Scoped (some path)) : (enter scope path query).Scoped scope := by
  rw [enter]
  split
  · next heq => exact heq ▸ h
  · next hne =>
    refine .nested (fun outer houter => Path.extends_iff.2 ⟨hscope outer houter, ?_⟩) h
    rintro rfl
    exact hne houter

theorem scoped_of_toQuery (hown : leaf.path? = some own)
    (hscope : ∀ root ∈ scope, own.isWithin root = true)
    (h : leaf.toQuery settings scope = .ok query) : query.Scoped scope := by
  obtain ⟨c, hc, rfl⟩ := (toQuery_of_path? hown).1 h
  exact scoped_enter hscope (hown ▸ scoped_of_clause hc)

/-- The query of a leaf in an open scope is an entry; it goes down if the leaf lies below. -/
theorem entry_of_toQuery (hown : leaf.path? = some own) (hin : own.isWithin path = true)
    (h : leaf.toQuery settings (some path) = .ok query) :
    query.Entry path ∧ query.step? path = path.next? own := by
  obtain ⟨c, hc, rfl⟩ := (toQuery_of_path? hown).1 h
  by_cases hself : some path = some own
  · obtain rfl := Option.some.inj hself
    rw [enter, if_pos rfl]
    obtain ⟨c', -, rfl | rfl⟩ := clause_cases hc
    · exact ⟨.clause, Path.next?_self.symm⟩
    · exact ⟨.mustNot, Path.next?_self.symm⟩
  · rw [enter, if_neg hself]
    exact ⟨.nested (Path.extends_iff.2 ⟨hin, by rintro rfl; exact hself rfl⟩), rfl⟩

/-- Leaves that are gathered within a path below the scope have a query that goes there. Their
common path may be further down than the path, but the next segment below the scope is the same. -/
theorem entry_of_gathered (hextends : child.Extends path)
    (hwithin : ∀ l ∈ leaves, ∀ own ∈ l.path?, own.isWithin child = true)
    (h : Gathered settings (some path) leaves query) :
    query.Entry path ∧ query.step? path = path.next? child := by
  cases h with
  | @single _ leaf own _ hown hscope hquery =>
    obtain ⟨hentry, hstep⟩ := entry_of_toQuery hown (hscope path rfl) hquery
    have hchild := Path.isWithin_iff_segments.1 (hwithin leaf (by simp) own hown)
    exact ⟨hentry, hstep.trans (Path.next?_of_isWithin hextends hchild)⟩
  | @shared _ _ common direct deeper htwo hpath hscope hdirect hlength hdeeper =>
    have hchild : common.isWithin child = true := commonPath?_isWithin hpath hwithin
    have hprefix := Path.isWithin_iff_segments.1 hchild
    have hcommon : common.Extends path :=
      ⟨hextends.1.trans hprefix, hextends.2.trans_le hprefix.length_le⟩
    have hne : some path ≠ some common := fun heq =>
      (Path.extends_iff.1 hcommon).2 (Option.some.inj heq).symm
    rw [enter, if_neg hne]
    exact ⟨.nested hcommon, Path.next?_of_isWithin hextends hprefix⟩

theorem isWithin_of_mem_under (hpath : commonPath? leaves = some path)
    (hleaf : leaf ∈ under path child leaves) (hown : own ∈ leaf.path?) :
    own.isWithin child = true := by
  obtain ⟨hmem, hchild⟩ := mem_under.1 hleaf
  obtain ⟨own', hown', hin⟩ := isWithin_commonPath? hpath hmem
  obtain rfl : own' = own := Option.some.inj (hown'.symm.trans hown)
  exact (isWithin_of_childPath? hown' hin hchild).2.1

/-- A path with a group of leaves has just one segment more than the common path. -/
theorem segments_of_mem_childPaths (hpath : commonPath? leaves = some path)
    (hchild : child ∈ childPaths path leaves) :
    ∃ segment, child.segments = path.segments ++ [segment] := by
  obtain ⟨l, hmem, hl⟩ := mem_childPaths.1 hchild
  obtain ⟨own, hown, hin⟩ := isWithin_commonPath? hpath hmem
  exact (isWithin_of_childPath? hown hin hl).2.2

theorem extends_of_mem_childPaths (hpath : commonPath? leaves = some path)
    (hchild : child ∈ childPaths path leaves) : child.Extends path := by
  obtain ⟨segment, hsegment⟩ := segments_of_mem_childPaths hpath hchild
  rw [Path.Extends, hsegment]
  exact ⟨List.prefix_append _ _, by simp⟩

/-- Groups of leaves differ in the next segment, as the paths that they are formed by are the common
path and that segment. -/
theorem childPath_injective {child' : Path} (hpath : commonPath? leaves = some path)
    (hchild : child ∈ childPaths path leaves) (hchild' : child' ∈ childPaths path leaves)
    (h : path.next? child = path.next? child') : child = child' := by
  obtain ⟨segment, hsegment⟩ := segments_of_mem_childPaths hpath hchild
  obtain ⟨segment', hsegment'⟩ := segments_of_mem_childPaths hpath hchild'
  refine Path.segments_injective ?_
  rw [Path.next?, Path.next?, hsegment, hsegment'] at h
  rw [hsegment, hsegment']
  simpa using h

/-- The queries that leaves are gathered into are spread below their common path. -/
theorem spread_of_gathered {direct deeper : List Query} (hpath : commonPath? leaves = some path)
    (hdirect : List.Forall₂ (fun l q => l.toQuery settings (some path) = .ok q)
      (directlyAt path leaves) direct)
    (hdeeper : List.Forall₂
      (fun below q => Gathered settings (some path) (under path below leaves) q)
      (childPaths path leaves) deeper) :
    Query.Spread path (direct ++ deeper) := by
  have hdirectEntry : ∀ q ∈ direct, q.Entry path ∧ q.step? path = none := by
    intro q hq
    obtain ⟨l, hl, hquery⟩ := exists_mem_of_forall₂ hdirect hq
    obtain ⟨hentry, hstep⟩ :=
      entry_of_toQuery (mem_directlyAt.1 hl).2 (Path.isWithin_self path) hquery
    exact ⟨hentry, by rw [hstep, Path.next?_self]⟩
  have hdeeperEntry : List.Forall₂ (fun below q => below ∈ childPaths path leaves ∧
      q.Entry path ∧ q.step? path = path.next? below) (childPaths path leaves) deeper := by
    rw [List.forall₂_iff_zip] at hdeeper ⊢
    refine ⟨hdeeper.1, fun hpair => ?_⟩
    have hmem := (List.of_mem_zip hpair).1
    exact ⟨hmem, entry_of_gathered (extends_of_mem_childPaths hpath hmem)
      (fun l hl own hown => isWithin_of_mem_under hpath hl hown) (hdeeper.2 hpair)⟩
  refine ⟨List.forall_mem_append.2 ⟨fun q hq => (hdirectEntry q hq).1, fun q hq => ?_⟩,
    List.pairwise_append.2 ⟨?_, ?_, ?_⟩⟩
  · obtain ⟨below, -, -, hentry, -⟩ := exists_mem_of_forall₂ hdeeperEntry hq
    exact hentry
  · refine List.pairwise_of_forall_mem_list fun q hq r _ segment hsegment => ?_
    simp [(hdirectEntry q hq).2] at hsegment
  · -- Two groups that took the same next segment would be one group.
    refine pairwise_of_forall₂ (fun {below q below' r} hq hr hne segment hsegment hsegment' => ?_)
      hdeeperEntry nodup_childPaths
    exact hne (childPath_injective hpath hq.1 hr.1
      ((hq.2.2.symm.trans hsegment).trans (hr.2.2.symm.trans hsegment').symm))
  · intro q hq r _ segment hsegment
    simp [(hdirectEntry q hq).2] at hsegment

/-- **The query of leaves that are gathered keeps to the scopes.** The common path goes on from the
scope or is the scope, and below it each group is in the scope of the common path. -/
theorem scoped_of_gathered (h : Gathered settings scope leaves query) : query.Scoped scope := by
  induction h with
  | single hown hscope hquery => exact scoped_of_toQuery hown hscope hquery
  | @shared scope leaves path direct deeper htwo hpath hscope hdirect hlength hdeeper ih =>
    have hgroups : List.Forall₂ (fun below q => Gathered settings (some path)
        (under path below leaves) q) (childPaths path leaves) deeper :=
      List.forall₂_iff_zip.2 ⟨hlength, fun hpair => hdeeper _ hpair⟩
    refine scoped_enter hscope
      (.filter (List.forall_mem_append.2 ⟨fun q hq => ?_, fun q hq => ?_⟩) ?_)
    · obtain ⟨l, hl, hquery⟩ := exists_mem_of_forall₂ hdirect hq
      exact scoped_of_toQuery (mem_directlyAt.1 hl).2 (by simp [Path.isWithin_self]) hquery
    · have hscoped :
          List.Forall₂ (fun _ q => q.Scoped (some path)) (childPaths path leaves) deeper :=
        List.forall₂_iff_zip.2 ⟨hlength, fun hpair => ih _ hpair⟩
      obtain ⟨_, -, hq⟩ := exists_mem_of_forall₂ hscoped hq
      exact hq
    · intro _ hp
      obtain rfl := Option.mem_some_iff.1 hp
      exact spread_of_gathered hpath hdirect hgroups

/-- The path one segment further down on the way to a leaf, by that segment. -/
theorem childPath?_of_next? {segment : List Char} (hown : leaf.path? = some own)
    (hin : own.isWithin path = true) (hnext : path.next? own = some segment) :
    ∃ below, leaf.childPath? path = some below ∧ below.segments = path.segments ++ [segment] := by
  have hself : own ≠ path := by
    rintro rfl
    simp at hnext
  obtain ⟨segment', hsegments, hprefix⟩ := Path.segments_childOf hin hself
  have hnext' := (Path.next?_eq_some_iff (Path.isWithin_iff_segments.1 hin)).2 hprefix
  obtain rfl : segment = segment' := Option.some.inj (hnext.symm.trans hnext')
  exact ⟨path.childOf own, childPath?_eq_some_iff.2 ⟨own, hown, hself, rfl⟩, hsegments⟩

/-- Two leaves part below their common path: were they to take the same next segment, both would be
in the group for it. -/
theorem next?_ne_of_commonPath? {l m : Leaf} {own' : Path} {segment : List Char}
    (hpath : commonPath? [l, m] = some path) (hown : l.path? = some own)
    (hown' : m.path? = some own') (hin : own.isWithin path = true)
    (hin' : own'.isWithin path = true) (hnext : path.next? own = some segment) :
    path.next? own' ≠ some segment := by
  intro hnext'
  obtain ⟨below, hl, hbelow⟩ := childPath?_of_next? hown hin hnext
  obtain ⟨below', hm, hbelow'⟩ := childPath?_of_next? hown' hin' hnext'
  obtain rfl : below = below' := Path.segments_injective (hbelow.trans hbelow'.symm)
  -- Both leaves would be in one group, but no group has all leaves.
  simpa [under, hl, hm] using length_under_lt hpath below

theorem scoped_of_either {l m : Leaf} {left right : Query} (hpath : commonPath? [l, m] = some path)
    (hleft : l.toQuery settings (some path) = .ok left)
    (hright : m.toQuery settings (some path) = .ok right) :
    (Query.should [left, right]).Scoped (some path) := by
  have hl : l ∈ [l, m] := List.mem_cons_self
  have hm : m ∈ [l, m] := List.mem_cons_of_mem _ List.mem_cons_self
  obtain ⟨own, hown, hin⟩ := isWithin_commonPath? hpath hl
  obtain ⟨own', hown', hin'⟩ := isWithin_commonPath? hpath hm
  obtain ⟨hentry, hstep⟩ := entry_of_toQuery hown hin hleft
  obtain ⟨hentry', hstep'⟩ := entry_of_toQuery hown' hin' hright
  refine .should ?_ fun _ hp => ?_
  · simpa using ⟨scoped_of_toQuery hown (by simpa using hin) hleft,
      scoped_of_toQuery hown' (by simpa using hin') hright⟩
  · obtain rfl := Option.mem_some_iff.1 hp
    refine ⟨by simpa using ⟨hentry, hentry'⟩, List.pairwise_pair.2 fun segment hsegment => ?_⟩
    rw [hstep] at hsegment
    rw [hstep']
    exact next?_ne_of_commonPath? hpath hown hown' hin hin' hsegment

end Leaf

namespace Query

variable {settings : Settings} {f : Filter} {query : Query}

/-- **Compilation keeps to the scopes**, rule by rule. At the root lists need not be spread, so the
operands of a group only have to be scoped one by one. -/
theorem scoped_of_compiled (h : Compiled settings f query) : query.Scoped none := by
  induction h with
  | @leaf l query hquery =>
    cases hpath : l.path? with
    | none => exact hpath ▸ Leaf.scoped_of_clause ((Leaf.toQuery_of_path?_eq_none hpath).1 hquery)
    | some own => exact Leaf.scoped_of_toQuery hpath (by simp) hquery
  | only _ ih => exact ih
  | together _ _ hquery => exact Leaf.scoped_of_gathered hquery
  | @all operands queries _ _ hlength _ ih =>
    have hscoped : List.Forall₂ (fun _ q => q.Scoped none) operands queries :=
      List.forall₂_iff_zip.2 ⟨hlength, fun hpair => ih _ hpair⟩
    refine .filter (fun q hq => ?_) (by simp)
    obtain ⟨_, -, hq⟩ := exists_mem_of_forall₂ hscoped hq
    exact hq
  | either hpath hleft hright =>
    exact .nested (by simp) (Leaf.scoped_of_either hpath hleft hright)
  | first _ _ ihleft ihright => exact .should (by simpa using ⟨ihleft, ihright⟩) (by simp)

/-- **The query of every filter is well scoped.** -/
theorem wellScoped_ofFilter (h : ofFilter settings f = .ok query) : query.WellScoped := by
  rw [ofFilter] at h
  split at h
  · simp at h
  · exact wellScoped_of_scoped (scoped_of_compiled (compiled_of_compile h))

/-- Tests, their suites and the cases of these, each in the scope of the one before. -/
theorem wellScoped_ofFilter_tests_suites_cases :
    ofFilter {} (.group .and [.leaf ⟨"tests.suites.cases.name", .member .notIn ["c"]⟩,
        .leaf ⟨"tests.name", .compare .equal "a"⟩,
        .leaf ⟨"tests.suites.name", .compare .equal "b"⟩]) =
      .ok (.nested "tests".toList (.filter [.clause (.term "tests.name" "a"),
        .nested "tests.suites".toList (.filter [.clause (.term "tests.suites.name" "b"),
          .nested "tests.suites.cases".toList
            (.mustNot (.terms "tests.suites.cases.name" ["c"]))])])) ∧
    WellScoped (.nested "tests".toList (.filter [.clause (.term "tests.name" "a"),
        .nested "tests.suites".toList (.filter [.clause (.term "tests.suites.name" "b"),
          .nested "tests.suites.cases".toList
            (.mustNot (.terms "tests.suites.cases.name" ["c"]))])])) :=
  have h : ofFilter {} (.group .and [.leaf ⟨"tests.suites.cases.name", .member .notIn ["c"]⟩,
      .leaf ⟨"tests.name", .compare .equal "a"⟩,
      .leaf ⟨"tests.suites.name", .compare .equal "b"⟩]) =
      .ok (.nested "tests".toList (.filter [.clause (.term "tests.name" "a"),
        .nested "tests.suites".toList (.filter [.clause (.term "tests.suites.name" "b"),
          .nested "tests.suites.cases".toList
            (.mustNot (.terms "tests.suites.cases.name" ["c"]))])])) := by
    with_unfolding_all rfl
  ⟨h, wellScoped_ofFilter h⟩

end Query

end NestedFilter
