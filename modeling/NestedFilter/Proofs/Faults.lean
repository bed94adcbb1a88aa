import NestedFilter.Proofs.Compilation
import NestedFilter.Proofs.Height
import NestedFilter.Request

/-!
# Which filters have a query

Filters that are put together by hand may be impossible to compile: a group may join
nothing, a membership test may have no values (`NestedFilter.Filter.HasFault`), and the tree
may have too many levels. `NestedFilter.Query.ofFilter_rejects_exactly` says which filters are
refused, and why. It has two halves.

**Every error names a fault of the filter** (`NestedFilter.Query.hasFault_of_compile_eq_error`).
The function that gathers leaves reports a group that joins nothing if it is given no leaf,
and below the common path this would be no fault of the filter. It does not happen there:
leaves are grouped by a next segment only because some leaf goes on with it.

**No fault is passed over** (`NestedFilter.Query.not_hasFault_of_compiled`). Leaves are visited
group by group, in another order than in the filter, and picked by their paths; still each of
them lies right at the common path or in one of the groups below it, so it has its clause
somewhere in the query. The order does show in one thing, which of several faults is reported.
So the statement is that the error is for *a* fault of the filter, and not for the first one.

Too many levels are no fault of anything in the filter. They are looked for before anything
else, so a filter that has a fault and is too deep is refused for its depth.

A filter that was read has no fault, and its levels keep to `NestedFilter.maxLevels`, which no
smaller number could replace, as the steepest texts show. So a text has a query exactly if it
can be read (`NestedFilter.Query.ofText_total_on_parsed`).
-/

namespace NestedFilter

/-! ### Faults -/

namespace Filter

/-- Somewhere in the filter there is something that has no query, for the given reason. A filter may
have many faults; that it has too many levels is none of them. -/
inductive HasFault : Filter → BuildError → Prop
  /-- A group joins nothing. -/
  | emptyGroup {c : Connective} : HasFault (.group c []) (.emptyGroup c)
  /-- A membership test has no values. -/
  | emptyMembership {field : String} {op : Membership} :
      HasFault (.leaf ⟨field, .member op []⟩) (.emptyMembership field)
  /-- The fault is that of an operand. -/
  | operand {c : Connective} {operands : List Filter} {f : Filter} {e : BuildError}
      (hmem : f ∈ operands) (hf : HasFault f e) : HasFault (.group c operands) e

/-- The faults of a group are that it joins nothing, and those of its operands. -/
theorem hasFault_group_iff {c : Connective} {operands : List Filter} {e : BuildError} :
    (group c operands).HasFault e ↔
      (operands = [] ∧ e = .emptyGroup c) ∨ ∃ f ∈ operands, f.HasFault e := by
  constructor
  · intro h
    cases h with
    | emptyGroup => exact .inl ⟨rfl, rfl⟩
    | operand hmem hf => exact .inr ⟨_, hmem, hf⟩
  · rintro (⟨rfl, rfl⟩ | ⟨f, hmem, hf⟩)
    · exact .emptyGroup
    · exact .operand hmem hf

/-- That the tree has too many levels is not a fault of anything in it. -/
theorem not_hasFault_tooDeep (f : Filter) {depth max : Nat} :
    ¬f.HasFault (.tooDeep depth max) := by
  induction f with
  | leaf l => rintro ⟨⟩
  | group c operands ih => simpa [hasFault_group_iff] using ih

/-- A text can not say a fault, since neither an empty group nor an empty list can be read. -/
theorem IsCanonical.not_hasFault {f : Filter} (hf : f.IsCanonical) (e : BuildError) :
    ¬f.HasFault e := by
  intro hfault
  induction hfault with
  | emptyGroup =>
    cases hf with
    | group hmany _ => exact absurd hmany (by simp)
  | emptyMembership =>
    cases hf with
    | leaf h => exact h.test.1 rfl
  | operand hmem _ ih =>
    cases hf with
    | group _ hoperands => exact ih (hoperands _ hmem)

end Filter

/-! ### Errors of compilation -/

section Results

variable {α β γ ε : Type} {e : ε}

/-- What is made of one result fails by it, and by nothing else. -/
theorem eq_error_of_bind_pure {x : Except ε α} {g : α → β}
    (h : (x >>= fun a => pure (g a)) = .error e) : x = .error e := by
  cases x <;> simp_all [bind, Except.bind, pure, Except.pure]

/-- What is made of two results fails by one of them. -/
theorem eq_error_of_bind_bind_pure {x : Except ε α} {y : Except ε β} {g : α → β → γ}
    (h : (x >>= fun a => y >>= fun b => pure (g a b)) = .error e) :
    x = .error e ∨ y = .error e := by
  cases x with
  | error e' => exact .inl (by simpa [bind, Except.bind] using h)
  | ok a => exact .inr (eq_error_of_bind_pure (g := g a) h)

/-- A list fails by one of its members, in fact by the first that fails. -/
theorem exists_mem_of_mapM_eq_error {f : α → Except ε β} {xs : List α}
    (h : xs.mapM f = .error e) : ∃ x ∈ xs, f x = .error e := by
  induction xs with
  | nil => simp [pure, Except.pure] at h
  | cons x xs ih =>
    rw [List.mapM_cons] at h
    rcases eq_error_of_bind_bind_pure h with hx | hxs
    · exact ⟨x, List.mem_cons_self, hx⟩
    · obtain ⟨x', hx', hfail⟩ := ih hxs
      exact ⟨x', List.mem_cons_of_mem x hx', hfail⟩

end Results

namespace Leaf

variable {settings : Settings} {scope : Option Path} {leaf : Leaf} {leaves : List Leaf}
variable {e : BuildError}

theorem hasFault_of_clause_eq_error (h : leaf.clause settings = .error e) :
    (Filter.leaf leaf).HasFault e := by
  obtain ⟨field, test⟩ := leaf
  cases test with
  | compare op value => cases op <;> simp [clause] at h
  | member op values =>
    cases values with
    | nil =>
      obtain rfl : BuildError.emptyMembership field = e := by simpa [clause] using h
      exact .emptyMembership
    | cons value values => cases op <;> simp [clause] at h

/-- Only the clause of a leaf can fail, in whatever scope: to enter its path is always possible. -/
theorem hasFault_of_toQuery_eq_error (h : leaf.toQuery settings scope = .error e) :
    (Filter.leaf leaf).HasFault e := by
  have hclause : leaf.clause settings = .error e := by
    rw [toQuery] at h
    cases hpath : leaf.path? with
    | none =>
      rw [hpath] at h
      exact eq_error_of_bind_pure h
    | some path =>
      rw [hpath] at h
      exact eq_error_of_bind_pure h
  exact hasFault_of_clause_eq_error hclause

/-- **Gathering fails by a leaf**: no group of leaves that it forms is empty. The induction is along
the function, as the groups are no parts of the filter. -/
theorem hasFault_of_gather_eq_error (hne : leaves ≠ [])
    (h : gather settings scope leaves = .error e) :
    ∃ l ∈ leaves, (Filter.leaf l).HasFault e := by
  induction scope, leaves using gather.induct with
  | case1 scope => exact absurd rfl hne
  | case2 scope leaf =>
    rw [gather] at h
    exact ⟨leaf, List.mem_singleton_self leaf, hasFault_of_toQuery_eq_error h⟩
  | case3 scope leaves hnil hsingle hnone =>
    rw [gather_of_commonPath?_eq_none (two_le_length_iff.2 ⟨hnil, hsingle⟩) hnone] at h
    obtain ⟨l, hl, hfail⟩ := exists_mem_of_mapM_eq_error (eq_error_of_bind_pure h)
    exact ⟨l, hl, hasFault_of_toQuery_eq_error hfail⟩
  | case4 scope leaves hnil hsingle path hpath ih =>
    rw [gather_of_commonPath? (two_le_length_iff.2 ⟨hnil, hsingle⟩) hpath] at h
    rcases eq_error_of_bind_bind_pure h with hdirect | hdeeper
    · obtain ⟨l, hl, hfail⟩ := exists_mem_of_mapM_eq_error hdirect
      exact ⟨l, (mem_directlyAt.1 hl).1, hasFault_of_toQuery_eq_error hfail⟩
    · obtain ⟨child, hchild, hfail⟩ := exists_mem_of_mapM_eq_error hdeeper
      -- There is a group for a child only because some leaf lies below it.
      obtain ⟨l, hl, hfault⟩ := ih child (Anchored.under hpath hchild).ne_nil hfail
      exact ⟨l, (mem_under.1 hl).1, hfault⟩

theorem hasFault_of_either_eq_error {l m : Leaf} (h : l.either settings m = .error e) :
    (Filter.leaf l).HasFault e ∨ (Filter.leaf m).HasFault e := by
  rw [either] at h
  cases hpath : commonPath? [l, m] with
  | none =>
    rw [hpath] at h
    exact (eq_error_of_bind_bind_pure h).imp hasFault_of_toQuery_eq_error
      hasFault_of_toQuery_eq_error
  | some path =>
    rw [hpath] at h
    exact (eq_error_of_bind_bind_pure h).imp hasFault_of_toQuery_eq_error
      hasFault_of_toQuery_eq_error

end Leaf

namespace Query

variable {settings : Settings} {f : Filter} {operands : List Filter} {e : BuildError}

/-- Filters of which one is to hold fail if there are none, or by one of them. In the latter case
the group has the fault of its operand. -/
theorem hasFault_of_compileOr_eq_error
    (ih : ∀ f ∈ operands, ∀ {e}, compile settings f = .error e → f.HasFault e)
    (h : compileOr settings operands = .error e) : (Filter.group .or operands).HasFault e := by
  induction operands with
  | nil =>
    obtain rfl : BuildError.emptyGroup .or = e := by simpa [compileOr] using h
    exact .emptyGroup
  | cons f rest ihs =>
    have hfirst : f.HasFault e → (Filter.group .or (f :: rest)).HasFault e :=
      .operand List.mem_cons_self
    rcases rest with _ | ⟨g, others⟩
    · rw [compileOr] at h
      exact hfirst (ih f List.mem_cons_self h)
    have hothers : (Filter.group .or (g :: others)).HasFault e →
        (Filter.group .or (f :: g :: others)).HasFault e := by
      intro hfault
      cases hfault with
      | operand hmem hg => exact .operand (List.mem_cons_of_mem f hmem) hg
    rcases compileOr_cons_cons settings f g others with ⟨l, m, rfl, rfl, rfl⟩ | hcons
    · rw [compileOr] at h
      rcases Leaf.hasFault_of_either_eq_error h with hl | hm
      · exact hfirst hl
      · exact hothers (.operand List.mem_cons_self hm)
    · rw [hcons] at h
      rcases eq_error_of_bind_bind_pure h with hleft | hright
      · exact hfirst (ih f List.mem_cons_self hleft)
      · exact hothers (ihs (fun k hk => ih k (List.mem_cons_of_mem f hk)) hright)

/-- **Every error of compilation names a fault of the filter**, and not only one of the same kind:
the connective and the field in the error are those of a group and a leaf that are there. -/
theorem hasFault_of_compile_eq_error (h : compile settings f = .error e) : f.HasFault e := by
  induction f generalizing e with
  | leaf l =>
    rw [compile] at h
    exact Leaf.hasFault_of_toQuery_eq_error h
  | group c operands ih =>
    cases c with
    | or =>
      rw [compile] at h
      exact hasFault_of_compileOr_eq_error (fun f hf _ => ih f hf) h
    | and =>
      rw [compile] at h
      cases hleaves : operands.mapM (·.leaf?) with
      | some leaves =>
        rw [hleaves] at h
        obtain rfl := mapM_leaf?_eq_some_iff.1 hleaves
        rcases eq_or_ne leaves [] with rfl | hne
        · obtain rfl : BuildError.emptyGroup .and = e := by simpa [Leaf.gather] using h
          exact .emptyGroup
        · obtain ⟨l, hl, hfault⟩ := Leaf.hasFault_of_gather_eq_error hne h
          exact .operand (List.mem_map_of_mem hl) hfault
      | none =>
        rw [hleaves] at h
        have hlist := eq_error_of_bind_pure h
        rw [compileList_eq_mapM] at hlist
        obtain ⟨f, hf, hfail⟩ := exists_mem_of_mapM_eq_error hlist
        exact .operand hf (ih f hf hfail)

end Query

/-! ### No fault is passed over -/

namespace Leaf

variable {settings : Settings} {scope : Option Path} {leaf : Leaf} {leaves : List Leaf}
variable {query : Query} {e : BuildError}

theorem not_hasFault_of_clause (h : leaf.clause settings = .ok query) :
    ¬(Filter.leaf leaf).HasFault e := by
  intro hfault
  cases hfault with
  | emptyMembership => simp [clause] at h

theorem not_hasFault_of_toQuery (h : leaf.toQuery settings scope = .ok query) :
    ¬(Filter.leaf leaf).HasFault e := by
  rw [toQuery] at h
  obtain ⟨c, hc, -⟩ := bind_eq_ok_iff.1 h
  exact not_hasFault_of_clause hc

/-- **Gathering passes over no leaf**: each lies right at the common path, or in one of the
groups below it. It has its clause in either case, so it has values. -/
theorem not_hasFault_of_gathered (h : Gathered settings scope leaves query) :
    ∀ l ∈ leaves, ¬(Filter.leaf l).HasFault e := by
  induction h with
  | single _ _ hquery => simpa using not_hasFault_of_toQuery hquery
  | @shared scope leaves path direct deeper _ hpath _ hdirect hlength _ ih =>
    have hgroups := forall_mem_of_zip_left
      (p := fun child => ∀ l ∈ under path child leaves, ¬(Filter.leaf l).HasFault e) hlength ih
    obtain ⟨hlengthDirect, hqueries⟩ := List.forall₂_iff_zip.1 hdirect
    have hdirectly := forall_mem_of_zip_left (p := fun l => ¬(Filter.leaf l).HasFault e)
      hlengthDirect fun pair hpair => not_hasFault_of_toQuery (hqueries hpair)
    intro l hl
    obtain ⟨own, hown, -⟩ := isWithin_commonPath? hpath hl
    by_cases hself : own = path
    · exact hdirectly l (mem_directlyAt.2 ⟨hl, hself ▸ hown⟩)
    · have hchild : l.childPath? path = some (path.childOf own) :=
        childPath?_eq_some_iff.2 ⟨own, hown, hself, rfl⟩
      exact hgroups _ (mem_childPaths.2 ⟨l, hl, hchild⟩) l (mem_under.2 ⟨hl, hchild⟩)

end Leaf

namespace Query

variable {settings : Settings} {f : Filter} {query : Query} {e : BuildError}

/-- **No fault is passed over**, rule by rule: what has a query has no fault. Every rule asks for
the queries of all operands, in one way or another. -/
theorem not_hasFault_of_compiled (h : Compiled settings f query) : ¬f.HasFault e := by
  induction h with
  | leaf hquery => exact Leaf.not_hasFault_of_toQuery hquery
  | only _ ih => simpa [Filter.hasFault_group_iff] using ih
  | @together leaves _ htwo _ hquery =>
    have hne := (Leaf.two_le_length_iff.1 htwo).1
    simpa [Filter.hasFault_group_iff, hne] using Leaf.not_hasFault_of_gathered hquery
  | @all operands _ htwo _ hlength _ ih =>
    have hne : operands ≠ [] := List.ne_nil_of_length_pos (Nat.lt_of_lt_of_le Nat.zero_lt_two htwo)
    have hoperands := forall_mem_of_zip_left (p := fun f => ¬f.HasFault e) hlength ih
    simpa [Filter.hasFault_group_iff, hne] using hoperands
  | either _ hleft hright =>
    simpa [Filter.hasFault_group_iff] using
      ⟨Leaf.not_hasFault_of_toQuery hleft, Leaf.not_hasFault_of_toQuery hright⟩
  | first _ _ ihleft ihright =>
    intro hfault
    rcases Filter.hasFault_group_iff.1 hfault with ⟨hnil, -⟩ | ⟨g, hmem, hg⟩
    · exact absurd hnil (List.cons_ne_nil _ _)
    · rcases List.mem_cons.1 hmem with rfl | hmem
      · exact ihleft hg
      · exact ihright (.operand hmem hg)

/-- A group of one filter is compiled as that filter. -/
theorem compile_group_singleton (settings : Settings) (c : Connective) (f : Filter) :
    compile settings (.group c [f]) = compile settings f := by
  cases c with
  | or => rw [compile, compileOr]
  | and =>
    cases f with
    | leaf l =>
      have hleaf : compile settings (.leaf l) = l.toQuery settings none := by rw [compile]
      have hleaves : [Filter.leaf l].mapM (·.leaf?) = some [l] := rfl
      rw [hleaf, compile, hleaves]
      exact Leaf.gather.eq_2 settings none l
    | group d operands =>
      have hnone : [Filter.group d operands].mapM (·.leaf?) = none := rfl
      rw [compile, hnone, compileList_eq_mapM, List.mapM_cons]
      cases compile settings (.group d operands) <;> rfl

theorem ofFilter_of_height_le (h : f.height ≤ maxLevels) :
    ofFilter settings f = compile settings f := by
  rw [ofFilter, Filter.depth_eq_height, if_neg (Nat.not_lt.2 h)]

/-- **Just the faulty filters are refused.** A filter with more levels than may be compiled is
refused for that reason, whatever its faults are, and the reason has the right numbers. Any
other filter is refused if and only if it has a fault, and for a fault that it has. A group of
one filter is compiled as that filter. -/
theorem ofFilter_rejects_exactly (settings : Settings) (f : Filter) :
    (∀ depth max, ofFilter settings f = .error (.tooDeep depth max) ↔
      maxLevels < f.height ∧ depth = f.height ∧ max = maxLevels) ∧
    (f.height ≤ maxLevels →
      ((∃ e, ofFilter settings f = .error e) ↔ ∃ e, f.HasFault e) ∧
      (∀ e, ofFilter settings f = .error e → f.HasFault e) ∧
      ((¬∃ e, f.HasFault e) → ∃ query, ofFilter settings f = .ok query)) ∧
    ∀ c, (Filter.group c [f]).height ≤ maxLevels →
      ofFilter settings (.group c [f]) = ofFilter settings f := by
  refine ⟨fun depth max => ⟨fun h => ?_, ?_⟩, fun hle => ?_, fun c hc => ?_⟩
  · by_cases hle : f.height ≤ maxLevels
    · rw [ofFilter_of_height_le hle] at h
      exact absurd (hasFault_of_compile_eq_error h) (Filter.not_hasFault_tooDeep f)
    · rw [ofFilter, Filter.depth_eq_height, if_pos (Nat.lt_of_not_le hle)] at h
      obtain ⟨rfl, rfl⟩ := BuildError.tooDeep.inj (Except.error.inj h)
      exact ⟨Nat.lt_of_not_le hle, rfl, rfl⟩
  · rintro ⟨hlt, rfl, rfl⟩
    rw [ofFilter, Filter.depth_eq_height, if_pos hlt]
  · rw [ofFilter_of_height_le hle]
    cases hquery : compile settings f with
    | ok query =>
      have hnone : ¬∃ e, f.HasFault e := by
        rintro ⟨e, hfault⟩
        exact not_hasFault_of_compiled (compiled_of_compile hquery) hfault
      simp [hnone]
    | error e =>
      have hfault := hasFault_of_compile_eq_error hquery
      refine ⟨⟨fun _ => ⟨e, hfault⟩, fun _ => ⟨e, rfl⟩⟩, ?_, fun hno => absurd ⟨e, hfault⟩ hno⟩
      rintro _ ⟨⟩
      exact hfault
  · have hf : f.height ≤ maxLevels := by
      rw [Filter.height, Filter.heightMax] at hc
      omega
    rw [ofFilter_of_height_le hc, ofFilter_of_height_le hf, compile_group_singleton]

/-- An `or` without operands behind a membership test without values, all in a group of one. -/
def faulty : Filter :=
  .group .and [.group .and [.leaf ⟨"a.b", .member .isIn []⟩, .group .or []]]

/-- Both faults are there, and the first is the reason. -/
theorem ofFilter_rejects_exactly_faulty :
    faulty.height ≤ maxLevels ∧ faulty.HasFault (.emptyGroup .or) ∧
      (∃ e, ofFilter {} faulty = .error e) ∧
      ∀ e, ofFilter {} faulty = .error e → faulty.HasFault e := by
  have hheight : faulty.height ≤ maxLevels := by decide
  have hfault : faulty.HasFault (.emptyGroup .or) :=
    .operand List.mem_cons_self (.operand (List.mem_cons_of_mem _ List.mem_cons_self) .emptyGroup)
  obtain ⟨hrefused, hreason, -⟩ := (ofFilter_rejects_exactly {} faulty).2.1 hheight
  exact ⟨hheight, hfault, hrefused.2 ⟨_, hfault⟩, hreason⟩

/-! ### Texts -/

/-- A filter that was read has a query: it is canonical, so it has no fault, and it has no more
levels than parentheses allow. -/
theorem exists_ofFilter_of_parse (settings : Settings) {s : String}
    (h : Filter.parse s = .ok f) : ∃ query, ofFilter settings f = .ok query := by
  have hdepth := Filter.depth_le_of_parse h
  have hnesting := Filter.nesting_le_of_parse h
  have hlevels : ¬maxLevels < f.depth := by
    rw [maxLevels]
    omega
  rw [ofFilter, if_neg hlevels]
  cases hquery : compile settings f with
  | ok query => exact ⟨query, rfl⟩
  | error e =>
    have hcanonical := Filter.isCanonical_of_parse h
    exact absurd (hasFault_of_compile_eq_error hquery) (hcanonical.not_hasFault e)

/-- The only errors of a text are those of reading it. What a filter could be refused for after that
can not be said by a text. -/
theorem ofText_eq_error_iff {s : String} {e : FilterError} :
    ofText settings s = .error e ↔ ∃ cause, Filter.parse s = .error cause ∧ e = .parse cause := by
  rw [ofText]
  cases h : Filter.parse s with
  | error cause => simp [eq_comm]
  | ok f =>
    obtain ⟨query, hquery⟩ := exists_ofFilter_of_parse settings h
    simp [hquery]

/-- **What is read has a query.** A filter that was read from a text with `k` nested pairs of
parentheses has `2 * k + 1` levels at most, no more than may be compiled, and it has a query;
so the only errors of a text are those of reading it. For every `k` that may be nested some
text reaches the bound, so that no smaller number of levels would do for all texts. -/
theorem ofText_total_on_parsed (settings : Settings) :
    (∀ (s : String) (f : Filter), Filter.parse s = .ok f →
      f.depth ≤ 2 * nesting s + 1 ∧ 2 * nesting s + 1 ≤ maxLevels ∧
        ∃ query, ofFilter settings f = .ok query) ∧
    (∀ (s : String) (e : FilterError), ofText settings s = .error e ↔
      ∃ cause, Filter.parse s = .error cause ∧ e = .parse cause) ∧
    (∀ k ≤ maxNesting, ∃ (s : String) (f : Filter), Filter.parse s = .ok f ∧ nesting s = k ∧
      f.depth = 2 * k + 1) ∧
    ∀ levels < maxLevels, ∃ (s : String) (f : Filter), Filter.parse s = .ok f ∧
      levels < f.depth := by
  refine ⟨fun s f h => ?_, fun s e => ofText_eq_error_iff, fun k hk => ?_, fun levels hlevels => ?_⟩
  · have hnesting := Filter.nesting_le_of_parse h
    refine ⟨Filter.depth_le_of_parse h, ?_, exists_ofFilter_of_parse settings h⟩
    rw [maxLevels]
    omega
  · obtain ⟨hparse, hnesting, hdepth⟩ := parse_steepText hk
    exact ⟨_, _, hparse, hnesting, hdepth⟩
  · obtain ⟨hparse, -, hdepth⟩ := parse_steepText (Nat.le_refl maxNesting)
    exact ⟨_, _, hparse, by rw [hdepth]; exact hlevels⟩

/-- The deepest text of a chain in a chain, all limits being reached. -/
theorem ofText_total_on_parsed_steepest :
    Filter.parse (String.ofList (steepText maxNesting)) = .ok (steep maxNesting) ∧
      ∃ query, ofFilter {} (steep maxNesting) = .ok query := by
  have hparse := (parse_steepText (Nat.le_refl maxNesting)).1
  exact ⟨hparse, ((ofText_total_on_parsed {}).1 _ _ hparse).2.2⟩

end Query

end NestedFilter
