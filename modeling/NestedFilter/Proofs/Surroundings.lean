import NestedFilter.Proofs.Compilation
import NestedFilter.Proofs.Height

/-!
# Groups within groups

A group that stands somewhere within a filter is compiled as if it stood alone: the query of
the filter is that of the group, put into surroundings that depend on everything but the group
and that open no nested query around it. This is `NestedFilter.Query.ofFilter_fill`.

Surroundings are a filter, or a query, with one place in it left open
(`NestedFilter.Filter.Context`, `NestedFilter.Query.Context`). The theorem says more than that
the query of the group occurs in that of the filter: another group in the same place is put in
the very same surroundings. So nothing that stands beside a group has any part in how it is
compiled, nor the group in how they are.

Compilation can be followed with the scope open at each place handed down to the operands
(`NestedFilter.Query.compileIn`). That is the form in which the question can be asked at all:
does a scope that is opened for some operands ever come to a group? An open scope gets no
further than to leaves, as only leaves have a common path
(`NestedFilter.Query.sharedPath?_append_group`). So a group is reached with the scope that the
whole filter is compiled in, whatever its siblings are (`NestedFilter.Query.apart_fill`); and
since no scope is open around the whole filter, nothing is lost if compilation keeps no track of
it (`NestedFilter.Query.compileIn_none`).

The step is one layer, a group among the operands of an `and` or of an `or`, where for the
latter those before it are split off one by one (`NestedFilter.Query.apart_or`). The induction on
the place is then the same for both connectives. Only the limit on levels is about the filter as
a whole, which is why the other group must not make it too deep.
-/

namespace NestedFilter

/-! ### Surroundings -/

/-- A filter with a place in it left open. On the way to the place each group has operands before
and after the one that holds it. -/
inductive Filter.Context where
  /-- The place is the filter. -/
  | hole
  /-- The place is in an operand of a group. -/
  | operand (c : Connective) (before : List Filter) (inner : Filter.Context)
      (after : List Filter)

/-- The filter with another put in its open place. -/
def Filter.Context.fill : Filter.Context → Filter → Filter
  | .hole, f => f
  | .operand c before inner after, f => .group c (before ++ inner.fill f :: after)

/-- A query with a place in it left open. Nested queries may be on the way to the place; which of
them are is what the main result is about. -/
inductive Query.Context where
  /-- The place is the query. -/
  | hole
  /-- The place is in one of the queries that are all to hold. -/
  | filter (before : List Query) (inner : Query.Context) (after : List Query)
  /-- The place is in one of the queries of which one is to hold. -/
  | should (before : List Query) (inner : Query.Context) (after : List Query)
  /-- The place is in a nested query. -/
  | nested (path : Path) (inner : Query.Context)

namespace Query.Context

/-- The query with another put in its open place. -/
def fill : Query.Context → Query → Query
  | .hole, q => q
  | .filter before inner after, q => .filter (before ++ inner.fill q :: after)
  | .should before inner after, q => .should (before ++ inner.fill q :: after)
  | .nested path inner, q => .nested path (inner.fill q)

/-- The paths of the nested queries around the open place, outermost first. -/
def opens : Query.Context → List Path
  | .hole => []
  | .filter _ inner _ => inner.opens
  | .should _ inner _ => inner.opens
  | .nested path inner => path :: inner.opens

/-- The open place of the first is filled with the second. -/
def comp : Query.Context → Query.Context → Query.Context
  | .hole, L => L
  | .filter before inner after, L => .filter before (inner.comp L) after
  | .should before inner after, L => .should before (inner.comp L) after
  | .nested path inner, L => .nested path (inner.comp L)

theorem fill_comp (K L : Query.Context) (q : Query) : (K.comp L).fill q = K.fill (L.fill q) := by
  induction K with
  | hole => rfl
  | filter | should | nested => simp only [comp, fill, *]

theorem opens_comp (K L : Query.Context) : (K.comp L).opens = K.opens ++ L.opens := by
  induction K with
  | hole => rfl
  | filter | should | nested => simp only [comp, opens, *, List.cons_append]

end Query.Context

namespace Filter.Context

/-- What holds a group is a group, so that no path is shared with it one level up either. -/
theorem exists_fill_group (C : Filter.Context) (c : Connective) (operands : List Filter) :
    ∃ d others, C.fill (.group c operands) = .group d others := by
  cases C with
  | hole => exact ⟨c, operands, rfl⟩
  | operand d before inner after => exact ⟨d, _, rfl⟩

/-- What stands in a filter has no more levels than it. -/
theorem depth_le_depth_fill (C : Filter.Context) (f : Filter) : f.depth ≤ (C.fill f).depth := by
  rw [depth_eq_height, depth_eq_height]
  induction C with
  | hole => exact Nat.le_refl _
  | operand c before inner after ih =>
    have hmax := heightMax_le_iff.1 (Nat.le_refl (heightMax (before ++ inner.fill f :: after)))
    have hinner := hmax (inner.fill f) (by simp)
    rw [fill, height]
    omega

end Filter.Context

/-! ### Handing down the scope -/

namespace Query

/-- The common path of filters that are all leaves. One group among them, and there is none. -/
def sharedPath? (fs : List Filter) : Option Path :=
  (fs.mapM Filter.leaf?).bind Leaf.commonPath?

/-- The common path of a filter and what stands behind it, if that is one filter and both are
leaves. -/
def pairPath? (f : Filter) : List Filter → Option Path
  | [g] => sharedPath? [f, g]
  | _ => none

mutual

/-- The query of a filter in a scope. Every place where an operand is compiled is handed the scope
that is open there, also where it is known to be the one before. -/
def compileIn (settings : Settings) (scope : Option Path) : Filter → Except BuildError Query
  | .leaf l => l.toQuery settings scope
  | .group .and operands =>
    match operands.mapM (·.leaf?) with
    | some leaves => Leaf.gather settings scope leaves
    | none => return all (← compileListIn settings scope operands)
  | .group .or operands => compileOrIn settings scope operands

/-- The queries of a list of filters in a scope. -/
def compileListIn (settings : Settings) (scope : Option Path) :
    List Filter → Except BuildError (List Query)
  | [] => return []
  | f :: fs => return (← compileIn settings scope f) :: (← compileListIn settings scope fs)

/-- The query that some filter holds, in a scope. -/
def compileOrIn (settings : Settings) (scope : Option Path) :
    List Filter → Except BuildError Query
  | [] => .error (.emptyGroup .or)
  | [f] => compileIn settings scope f
  | f :: g :: fs =>
    match pairPath? f (g :: fs) with
    | none =>
      return .should [← compileIn settings scope f, ← compileOrIn settings scope (g :: fs)]
    | some path =>
      return Leaf.enter scope path (.should
        [← compileIn settings (some path) f, ← compileOrIn settings (some path) (g :: fs)])

end

variable {settings : Settings} {scope : Option Path}

theorem compileListIn_eq_mapM (fs : List Filter) :
    compileListIn settings scope fs = fs.mapM (compileIn settings scope) := by
  induction fs with
  | nil => rfl
  | cons f fs ih => rw [compileListIn, List.mapM_cons, ih]

theorem mapM_leaf?_append_group (before after : List Filter) (c : Connective)
    (operands : List Filter) :
    (before ++ .group c operands :: after).mapM Filter.leaf? = none := by
  rw [Option.eq_none_iff_forall_ne_some]
  intro leaves hleaves
  have hmem : Filter.group c operands ∈ leaves.map Filter.leaf := by
    rw [← mapM_leaf?_eq_some_iff.1 hleaves]
    simp
  obtain ⟨l, -, hl⟩ := List.mem_map.1 hmem
  exact absurd hl (by simp)

/-- **A group has no path in common with its siblings.** It is not even looked for, as the operands
are not all leaves. -/
theorem sharedPath?_append_group (before after : List Filter) (c : Connective)
    (operands : List Filter) : sharedPath? (before ++ .group c operands :: after) = none := by
  rw [sharedPath?, mapM_leaf?_append_group, Option.bind_none]

theorem pairPath?_group (c : Connective) (operands fs : List Filter) :
    pairPath? (.group c operands) fs = none := by
  rcases fs with _ | ⟨g, _ | ⟨h, fs⟩⟩
  · rfl
  · exact sharedPath?_append_group [] [g] c operands
  · rfl

theorem pairPath?_append_group (f : Filter) (before after : List Filter) (c : Connective)
    (operands : List Filter) : pairPath? f (before ++ .group c operands :: after) = none := by
  rcases before with _ | ⟨g, _ | ⟨h, before⟩⟩
  · cases after with
    | nil => exact sharedPath?_append_group [f] [] c operands
    | cons => rfl
  · rfl
  · rfl

/-- Beside filters with which it has no path in common, a filter is compiled by itself. -/
theorem compileOrIn_cons (settings : Settings) (scope : Option Path) {f : Filter}
    {fs : List Filter} (hne : fs ≠ []) (hpath : pairPath? f fs = none) :
    compileOrIn settings scope (f :: fs) =
      return .should [← compileIn settings scope f, ← compileOrIn settings scope fs] := by
  obtain ⟨g, gs, rfl⟩ := List.exists_cons_of_ne_nil hne
  rw [compileOrIn, hpath]

/-! ### No scope is open around a filter -/

/-- Leaves alone have a path in common, and of an `or` it is the last two. -/
theorem pairPath?_eq_some {f : Filter} {fs : List Filter} {path : Path}
    (h : pairPath? f fs = some path) :
    ∃ l m, f = .leaf l ∧ fs = [.leaf m] ∧ Leaf.commonPath? [l, m] = some path := by
  rcases fs with _ | ⟨g, _ | ⟨k, fs⟩⟩
  · exact absurd h (by simp [pairPath?])
  · obtain ⟨leaves, hleaves, hpath⟩ := Option.bind_eq_some_iff.1 h
    rcases leaves with _ | ⟨l, _ | ⟨m, _ | ⟨n, leaves⟩⟩⟩ <;>
      have hmap := mapM_leaf?_eq_some_iff.1 hleaves <;> simp at hmap
    exact ⟨l, m, hmap.1, by rw [hmap.2], hpath⟩
  · exact absurd h (by simp [pairPath?])

theorem compileListIn_none {fs : List Filter}
    (h : ∀ f ∈ fs, compileIn settings none f = compile settings f) :
    compileListIn settings none fs = compileList settings fs := by
  induction fs with
  | nil => rfl
  | cons f fs ih =>
    obtain ⟨hf, hfs⟩ := List.forall_mem_cons.1 h
    rw [compileListIn, compileList, hf, ih hfs]

theorem compileOrIn_none {fs : List Filter}
    (h : ∀ f ∈ fs, compileIn settings none f = compile settings f) :
    compileOrIn settings none fs = compileOr settings fs := by
  induction fs with
  | nil => rfl
  | cons f fs ih =>
    obtain ⟨hf, hfs⟩ := List.forall_mem_cons.1 h
    have ih := ih hfs
    rcases fs with _ | ⟨g, fs⟩
    · rw [compileOrIn, compileOr, hf]
    cases hpath : pairPath? f (g :: fs) with
    | some path =>
      -- The scope that is opened is handed to two leaves.
      obtain ⟨l, m, rfl, hpair, hcommon⟩ := pairPath?_eq_some hpath
      obtain ⟨rfl, rfl⟩ := List.cons.inj hpair
      rw [compileOrIn, hpath, compileOr, Leaf.either, hcommon]
      rfl
    | none =>
      rw [compileOrIn_cons settings none (List.cons_ne_nil g fs) hpath, hf, ih]
      rcases compileOr_cons_cons settings f g fs with ⟨l, m, rfl, rfl, rfl⟩ | hcons
      · have hcommon : Leaf.commonPath? [l, m] = none := hpath
        rw [compileOr, compileOr, Leaf.either, hcommon]
        rfl
      · rw [hcons]

/-- **Compilation need not keep track of the scope**: what is opened is for leaves alone. -/
theorem compileIn_none (f : Filter) : compileIn settings none f = compile settings f := by
  induction f with
  | leaf l => rw [compileIn, compile]
  | group c operands ih =>
    cases c with
    | and =>
      rw [compileIn, compile]
      cases operands.mapM (·.leaf?) with
      | some leaves => rfl
      | none => simp only [compileListIn_none ih]
    | or => rw [compileIn, compile, compileOrIn_none ih]

/-! ### Groups are compiled apart -/

/-- Whatever group it is computed for, the result is the query of the group, compiled by itself
in the scope and put in surroundings that open no nested query. The surroundings come first in the
statement, so they are the same for all groups, and an error of the group is an error of the
whole. -/
def Apart (settings : Settings) (scope : Option Path)
    (compute : Filter → Except BuildError Query) : Prop :=
  ∃ K : Query.Context, K.opens = [] ∧ ∀ c operands,
    compute (.group c operands) = K.fill <$> compileIn settings scope (.group c operands)

variable {compute : Filter → Except BuildError Query} {c : Connective}
  {before operands after : List Filter} {query : Query}

theorem apart_compileIn : Apart settings scope (compileIn settings scope) :=
  ⟨.hole, rfl, fun _ _ => (id_map _).symm⟩

/-- If there is a result, then the group has a query. -/
theorem Apart.exists_eq_ok (h : Apart settings scope compute)
    (hquery : compute (.group c operands) = .ok query) :
    ∃ part, compileIn settings scope (.group c operands) = .ok part := by
  obtain ⟨K, -, hcompute⟩ := h
  rw [hcompute] at hquery
  cases hpart : compileIn settings scope (.group c operands) with
  | ok part => exact ⟨part, rfl⟩
  | error e =>
    rw [hpart] at hquery
    exact absurd hquery (by simp)

/-- The group may stand further down: the surroundings of a group in its operand are put into those
of the operand, which is a group as well. -/
theorem Apart.fill (h : Apart settings scope compute) {C : Filter.Context}
    (hC : Apart settings scope fun f => compileIn settings scope (C.fill f)) :
    Apart settings scope fun f => compute (C.fill f) := by
  obtain ⟨K, hK, hcompute⟩ := h
  obtain ⟨L, hL, hfill⟩ := hC
  refine ⟨K.comp L, by rw [Context.opens_comp, hK, hL]; rfl, fun c operands => ?_⟩
  obtain ⟨d, others, hgroup⟩ := C.exists_fill_group c operands
  have hcomp : (K.comp L).fill = K.fill ∘ L.fill := funext (Context.fill_comp K L)
  have hinner : compileIn settings scope (C.fill (.group c operands)) = _ := hfill c operands
  change compute (C.fill (.group c operands)) = _
  rw [hgroup] at hinner ⊢
  rw [hcompute, hinner, hcomp, comp_map]

theorem exists_fill_eq_all (before after : List Query) :
    ∃ K : Query.Context, K.opens = [] ∧ ∀ q, K.fill q = all (before ++ q :: after) := by
  rcases before with _ | ⟨p, before⟩
  · cases after with
    | nil => exact ⟨.hole, rfl, fun _ => rfl⟩
    | cons r after => exact ⟨.filter [] .hole (r :: after), rfl, fun _ => rfl⟩
  · refine ⟨.filter (p :: before) .hole after, rfl, fun q => ?_⟩
    cases before <;> rfl

theorem compileIn_and_append_group (c : Connective) (before operands after : List Filter) :
    compileIn settings scope (.group .and (before ++ .group c operands :: after)) = do
      let left ← before.mapM (compileIn settings scope)
      let part ← compileIn settings scope (.group c operands)
      let right ← after.mapM (compileIn settings scope)
      return all (left ++ part :: right) := by
  rw [compileIn, mapM_leaf?_append_group, compileListIn_eq_mapM, List.mapM_append, List.mapM_cons]
  simp

/-- **A group among the operands of an `and` is compiled apart from them.** The other operands have
queries, since the whole has one for some group, and these do not depend on it. -/
theorem apart_and
    (h : compileIn settings scope (.group .and (before ++ .group c operands :: after)) =
      .ok query) :
    Apart settings scope fun f =>
      compileIn settings scope (.group .and (before ++ f :: after)) := by
  rw [compileIn_and_append_group] at h
  obtain ⟨left, hleft, h⟩ := bind_eq_ok_iff.1 h
  obtain ⟨_, -, h⟩ := bind_eq_ok_iff.1 h
  obtain ⟨right, hright, -⟩ := bind_eq_ok_iff.1 h
  obtain ⟨K, hK, hfill⟩ := exists_fill_eq_all left right
  refine ⟨K, hK, fun d others => ?_⟩
  dsimp only
  rw [compileIn_and_append_group, hleft, hright, funext hfill]
  cases compileIn settings scope (.group d others) <;> rfl

/-- **So is one among the operands of an `or`**, those before it split off one by one. -/
theorem apart_or
    (h : compileOrIn settings scope (before ++ .group c operands :: after) = .ok query) :
    Apart settings scope fun f => compileOrIn settings scope (before ++ f :: after) := by
  induction before generalizing query with
  | nil =>
    rcases after with _ | ⟨g, after⟩
    · have honly : ∀ f, compileOrIn settings scope [f] = compileIn settings scope f := by
        intro f
        rw [compileOrIn]
      simpa [honly] using apart_compileIn
    have hcons := fun d others =>
      compileOrIn_cons settings scope (List.cons_ne_nil g after) (pairPath?_group d others _)
    rw [List.nil_append, hcons] at h
    obtain ⟨_, -, h⟩ := bind_eq_ok_iff.1 h
    obtain ⟨right, hright, -⟩ := bind_eq_ok_iff.1 h
    refine ⟨.should [] .hole [right], rfl, fun d others => ?_⟩
    dsimp only
    rw [List.nil_append, hcons, hright]
    cases compileIn settings scope (.group d others) <;> rfl
  | cons f before ih =>
    have hcons := fun d others =>
      compileOrIn_cons settings scope (by simp) (pairPath?_append_group f before after d others)
    rw [List.cons_append, hcons] at h
    obtain ⟨left, hleft, h⟩ := bind_eq_ok_iff.1 h
    obtain ⟨rest, hrest, -⟩ := bind_eq_ok_iff.1 h
    obtain ⟨K, hK, hcompute⟩ := ih hrest
    refine ⟨.should [left] K [], hK, fun d others => ?_⟩
    have hrest' : compileOrIn settings scope (before ++ .group d others :: after) = _ :=
      hcompute d others
    dsimp only
    rw [List.cons_append, hcons, hleft, hrest']
    cases compileIn settings scope (.group d others) <;> rfl

/-- **Wherever a group stands, it is compiled apart.** The induction is on the place, one layer of
the filter at a time. -/
theorem apart_fill {C : Filter.Context}
    (h : compileIn settings scope (C.fill (.group c operands)) = .ok query) :
    Apart settings scope fun f => compileIn settings scope (C.fill f) := by
  induction C generalizing query with
  | hole => exact apart_compileIn
  | operand e before inner after ih =>
    obtain ⟨d, others, hgroup⟩ := inner.exists_fill_group c operands
    have hstep : Apart settings scope fun f =>
        compileIn settings scope (.group e (before ++ f :: after)) := by
      rw [Filter.Context.fill, hgroup] at h
      cases e with
      | and => exact apart_and h
      | or =>
        simp only [compileIn] at h ⊢
        exact apart_or h
    rw [Filter.Context.fill, hgroup] at h
    obtain ⟨part, hpart⟩ := hstep.exists_eq_ok h
    rw [← hgroup] at hpart
    exact hstep.fill (ih hpart)

theorem ofFilter_of_depth_le {f : Filter} (hdepth : f.depth ≤ maxLevels) :
    ofFilter settings f = compileIn settings none f := by
  rw [ofFilter, if_neg (Nat.not_lt.2 hdepth), compileIn_none]

/-- **Groups within groups are compiled apart.** If a filter that holds a group somewhere has a
query, then so has the group, and the first is the second in surroundings that open no nested
query around it. These depend on all of the filter but the group: another group in its place
is put in the same surroundings, if this does not make the filter too deep. -/
theorem ofFilter_fill {C : Filter.Context}
    (h : ofFilter settings (C.fill (.group c operands)) = .ok query) :
    ∃ K : Query.Context, K.opens = [] ∧
      (∃ part, ofFilter settings (.group c operands) = .ok part ∧ query = K.fill part) ∧
      ∀ d others, (C.fill (.group d others)).depth ≤ maxLevels →
        ofFilter settings (C.fill (.group d others)) =
          K.fill <$> ofFilter settings (.group d others) := by
  have hdepth := depth_le_of_ofFilter h
  have hpart := Nat.le_trans (C.depth_le_depth_fill (.group c operands)) hdepth
  rw [ofFilter_of_depth_le hdepth] at h
  obtain ⟨K, hK, hfill⟩ := apart_fill h
  obtain ⟨part, hpartQuery⟩ := (apart_fill h).exists_eq_ok h
  refine ⟨K, hK, ⟨part, ?_, ?_⟩, fun d others hothers => ?_⟩
  · rw [ofFilter_of_depth_le hpart, hpartQuery]
  · have hquery : compileIn settings none (C.fill (.group c operands)) = _ := hfill c operands
    rw [h, hpartQuery] at hquery
    exact Except.ok.inj hquery
  · have hothersPart := Nat.le_trans (C.depth_le_depth_fill (.group d others)) hothers
    rw [ofFilter_of_depth_le hothers, ofFilter_of_depth_le hothersPart]
    exact hfill d others

/-- A group on components, beside a leaf that is on components as well. -/
theorem ofFilter_fill_components :
    ofFilter {} (.group .and [.leaf ⟨"components.name", .compare .equal "a"⟩,
        .group .or [.leaf ⟨"components.type", .compare .equal "b"⟩,
          .leaf ⟨"components.version", .compare .notEqual "c"⟩]]) =
      .ok (.filter [.nested "components".toList (.clause (.term "components.name" "a")),
        .nested "components".toList (.should [.clause (.term "components.type" "b"),
          .mustNot (.term "components.version" "c")])]) ∧
    ∃ K : Query.Context, K.opens = [] ∧
      ∃ part, ofFilter {} (.group .or [.leaf ⟨"components.type", .compare .equal "b"⟩,
          .leaf ⟨"components.version", .compare .notEqual "c"⟩]) = .ok part ∧
        .filter [.nested "components".toList (.clause (.term "components.name" "a")),
          .nested "components".toList (.should [.clause (.term "components.type" "b"),
            .mustNot (.term "components.version" "c")])] = K.fill part := by
  have h : ofFilter {} (Filter.Context.fill (.operand .and
        [.leaf ⟨"components.name", .compare .equal "a"⟩] .hole [])
      (.group .or [.leaf ⟨"components.type", .compare .equal "b"⟩,
        .leaf ⟨"components.version", .compare .notEqual "c"⟩])) =
      .ok (.filter [.nested "components".toList (.clause (.term "components.name" "a")),
        .nested "components".toList (.should [.clause (.term "components.type" "b"),
          .mustNot (.term "components.version" "c")])]) := by
    with_unfolding_all rfl
  obtain ⟨K, hK, hpart, -⟩ := ofFilter_fill h
  exact ⟨h, K, hK, hpart⟩

end Query

end NestedFilter
