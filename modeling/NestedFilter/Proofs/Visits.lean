import NestedFilter.Proofs.Height

/-!
# Visiting the levels in any order

`NestedFilter.Filter.depth` keeps a list of filters still to be visited, each with its level:
it visits one after the other, and puts the operands of each into the list. It takes the
filter in front, and puts the operands there. A stack held in an array is emptied from its end,
a queue is filled there: neither order, nor one that changes on the way, makes a difference.

A state of such a visit is a `NestedFilter.Filter.Visit`, and `NestedFilter.Filter.Visit.Round`
leaves open which of the pending filters is taken and where its operands are put. Two numbers
tell all about a round:

| number | in a round |
|---|---|
| the filters not yet visited (`NestedFilter.Filter.Visit.unvisited`) | one less |
| the level that `NestedFilter.Filter.deepestLevel` finds from the state | the same |

From the first, a visit takes as many rounds as the tree has leaves and groups, and cannot take
more; from the second, what it has found at its end is the depth. The main result is
`NestedFilter.Filter.depth_in_any_order`, with a loop that is told by a
`NestedFilter.Filter.Visit.Schedule` which filter comes next.
-/

namespace NestedFilter

namespace Filter

/-! ### The height by the operands -/

/-- The largest height in a list is the maximum of the heights, or zero if there is none. -/
theorem heightMax_eq_max? (fs : List Filter) : heightMax fs = (fs.map height).max?.getD 0 := by
  induction fs with
  | nil => rfl
  | cons f fs ih =>
    rw [heightMax, ih, List.map_cons, List.max?_cons]
    cases (fs.map height).max? with
    | none => simp
    | some n => simp

/-! ### The number of filters -/

theorem size_eq (f : Filter) : f.size = 1 + sizeSum f.operands := by
  cases f <;> rfl

theorem sizeSum_perm {fs gs : List Filter} (h : fs.Perm gs) : sizeSum fs = sizeSum gs := by
  induction h with
  | nil => rfl
  | cons f _ ih => rw [sizeSum, sizeSum, ih]
  | swap f g fs =>
    simp only [sizeSum]
    omega
  | trans _ _ ih ih' => exact ih.trans ih'

/-- The order of the pending filters has no influence on the level that is found. -/
theorem deepestLevel_perm {pending pending' : List (Filter × Nat)} (h : pending.Perm pending')
    (deepest : Nat) : deepestLevel pending deepest = deepestLevel pending' deepest := by
  -- Its bounds ask only which filters are pending, not where in the list they stand.
  refine eq_of_forall_ge_iff fun n => ?_
  rw [deepestLevel_le_iff, deepestLevel_le_iff]
  exact and_congr_right fun _ => forall_congr' fun p => by rw [h.mem_iff]

/-! ### One round -/

/-- A state of a visit. The list is in whatever order; it is the order that is left open. -/
structure Visit where
  /-- The filters to be visited next, each with its level; those below them come later. -/
  pending : List (Filter × Nat)
  /-- The greatest level visited so far. -/
  deepest : Nat
deriving DecidableEq, Repr

namespace Visit

/-- The visit of a tree, before its first round: only the root is pending, on the first level. -/
def start (f : Filter) : Visit :=
  ⟨[(f, 1)], 0⟩

/-- The number of filters that have not been visited, those that are pending and those below them.
-/
def unvisited (v : Visit) : Nat :=
  sizeSum (v.pending.map (·.1))

/-- A round: some pending filter is taken, wherever it stands, and its operands are put among
the others, wherever that may be. -/
inductive Round : Visit → Visit → Prop
  /-- The filter `f` is taken, and `rest` stays. -/
  | take {pending pending' rest : List (Filter × Nat)} {f : Filter} {level deepest : Nat}
      (htaken : pending.Perm ((f, level) :: rest))
      (hput : pending'.Perm (f.operands.map (·, level + 1) ++ rest)) :
      Round ⟨pending, deepest⟩ ⟨pending', max deepest level⟩

variable {f : Filter} {n : Nat} {v w : Visit}

theorem unvisited_start (f : Filter) : (start f).unvisited = f.size := by
  simp [start, unvisited, sizeSum]

theorem unvisited_eq_zero_iff : v.unvisited = 0 ↔ v.pending = [] := by
  rcases v with ⟨_ | ⟨⟨f, level⟩, rest⟩, deepest⟩
  · simp [unvisited, sizeSum]
  · simp [unvisited, sizeSum, size_eq f]

/-- **A round visits one filter.** The others that are pending stay so, and the operands of the one
were counted with it before. -/
theorem Round.unvisited_eq (h : Round v w) : v.unvisited = w.unvisited + 1 := by
  cases h with
  | @take pending pending' rest f level deepest htaken hput =>
    have hoperands : (f.operands.map (·, level + 1)).map (·.1) = f.operands := by
      simp [Function.comp_def]
    have hbefore : sizeSum (pending.map (·.1)) = f.size + sizeSum (rest.map (·.1)) := by
      rw [sizeSum_perm (htaken.map _), List.map_cons, sizeSum]
    have hafter : sizeSum (pending'.map (·.1)) = sizeSum f.operands + sizeSum (rest.map (·.1)) := by
      rw [sizeSum_perm (hput.map _), List.map_append, sizeSum_append, hoperands]
    rw [unvisited, unvisited, hbefore, hafter, size_eq f]
    omega

/-- **A round changes nothing about the level that is found.** -/
theorem Round.deepestLevel_eq (h : Round v w) :
    deepestLevel v.pending v.deepest = deepestLevel w.pending w.deepest := by
  cases h with
  | take htaken hput => rw [deepestLevel_perm htaken, deepestLevel_perm hput, deepestLevel]

/-- As long as filters are pending, the visit can go on, for instance with the first of them. -/
theorem exists_round (h : v.pending ≠ []) : ∃ w, Round v w := by
  rcases v with ⟨_ | ⟨⟨f, level⟩, rest⟩, deepest⟩
  · exact absurd rfl h
  · exact ⟨_, .take (.refl _) (.refl _)⟩

/-! ### A whole visit -/

/-- From one state to another in so many rounds, each of which takes whatever it likes. -/
inductive Rounds : Nat → Visit → Visit → Prop
  /-- No round. -/
  | none (v : Visit) : Rounds 0 v v
  /-- One round, and the others. -/
  | next {n : Nat} {u v w : Visit} (hround : Round u v) (hrounds : Rounds n v w) :
      Rounds (n + 1) u w

theorem Rounds.unvisited_eq (h : Rounds n v w) : v.unvisited = w.unvisited + n := by
  induction h with
  | none v => rfl
  | next hround _ ih => rw [hround.unvisited_eq, ih, Nat.add_assoc]

theorem Rounds.deepestLevel_eq (h : Rounds n v w) :
    deepestLevel v.pending v.deepest = deepestLevel w.pending w.deepest := by
  induction h with
  | none v => rfl
  | next hround _ ih => rw [hround.deepestLevel_eq, ih]

/-- What a visit has found at its end, when nothing is pending any more. -/
theorem Rounds.deepest_eq (h : Rounds n v w) (hend : w.pending = []) :
    w.deepest = deepestLevel v.pending v.deepest := by
  rw [h.deepestLevel_eq, hend, deepestLevel]

/-! ### Loops -/

/-- A rule by which a loop goes on: a round for every state in which filters are pending. It may
look at the whole state, and need not keep to any order. -/
structure Schedule where
  /-- The next state. -/
  next : Visit → Visit
  /-- It is reached by a round. -/
  round : ∀ v, v.pending ≠ [] → Round v (next v)

namespace Schedule

/-- The level that the loop finds by which rounds are made as long as filters are pending. -/
def visit (s : Schedule) (v : Visit) : Nat :=
  if _h : v.pending = [] then v.deepest
  else s.visit (s.next v)
termination_by v.unvisited
decreasing_by
  have hround := (s.round v _h).unvisited_eq
  omega

/-- The schedule of a stack held in an array: the pending filter that stands last is taken, and
its operands are put behind the others. -/
def lastFirst : Schedule where
  next v :=
    match v.pending.getLast? with
    | none => v
    | some (f, level) =>
      ⟨v.pending.dropLast ++ f.operands.map (·, level + 1), max v.deepest level⟩
  round v hpending := by
    obtain ⟨pending, deepest⟩ := v
    obtain ⟨⟨f, level⟩, hlast⟩ := Option.isSome_iff_exists.1 (List.getLast?_isSome.2 hpending)
    obtain ⟨rest, rfl⟩ := List.getLast?_eq_some_iff.1 hlast
    simp only [List.getLast?_concat, List.dropLast_concat]
    exact .take List.perm_append_comm List.perm_append_comm

/-- **The loop is a visit that ends**, by induction on the number of filters that have not been
visited. -/
theorem exists_rounds (s : Schedule) (v : Visit) :
    ∃ n w, Rounds n v w ∧ w.pending = [] ∧ s.visit v = w.deepest := by
  induction v using visit.induct (s := s) with
  | case1 v hend => exact ⟨0, v, .none v, hend, by rw [visit, dif_pos hend]⟩
  | case2 v hpending ih =>
    obtain ⟨n, w, hrounds, hend, hvisit⟩ := ih
    exact ⟨n + 1, w, .next (s.round v hpending) hrounds, hend,
      by rw [visit, dif_neg hpending, hvisit]⟩

end Schedule

end Visit

open Visit in
/-- **The order does not matter.** The depth is one for a leaf, and for a group one more than
the largest depth of an operand, zero if there is none: it is the height of the tree. Every
visit of a tree, in whatever order it takes the pending filters, goes on as long as filters are
pending, ends after as many rounds as the tree has leaves and groups, and has then found the
depth; so every loop finds it. -/
theorem depth_in_any_order :
    (∀ l, (Filter.leaf l).depth = 1) ∧
    (∀ c operands, (Filter.group c operands).depth = 1 + (operands.map depth).max?.getD 0) ∧
    ∀ f : Filter,
      f.depth = f.height ∧
      (∀ n v, Rounds n (start f) v →
        n ≤ f.size ∧ (v.pending = [] ↔ n = f.size) ∧
          (v.pending ≠ [] → ∃ w, Round v w) ∧ (v.pending = [] → v.deepest = f.depth)) ∧
      ∀ s : Schedule, s.visit (start f) = f.depth := by
  have hdepth : depth = height := funext depth_eq_height
  refine ⟨fun l => ?_, fun c operands => ?_, fun f => ⟨depth_eq_height f, fun n v h => ?_,
    fun s => ?_⟩⟩
  · rw [hdepth, height]
  · rw [hdepth, height, heightMax_eq_max?]
  · have hcount := h.unvisited_eq
    rw [unvisited_start] at hcount
    refine ⟨by omega, ?_, exists_round, fun hend => h.deepest_eq hend⟩
    rw [← unvisited_eq_zero_iff]
    omega
  · obtain ⟨n, v, h, hend, hvisit⟩ := s.exists_rounds (start f)
    rw [hvisit, h.deepest_eq hend, start, depth]

open Visit in
/-- A tree with an empty group and a group of one operand, visited from the end of the list. -/
theorem depth_in_any_order_last_first :
    let f : Filter := .group .or [.group .and [.group .or []], .leaf someLeaf]
    Rounds 4 (start f) ⟨[], 3⟩ ∧ f.size = 4 ∧ f.depth = 3 ∧
      Schedule.lastFirst.visit (start f) = 3 := by
  intro f
  have hround : ∀ v, v.pending ≠ [] → Round v (Schedule.lastFirst.next v) :=
    Schedule.lastFirst.round
  have hrounds : Rounds 4 (start f) ⟨[], 3⟩ :=
    .next (hround _ (List.cons_ne_nil _ _)) <| .next (hround _ (List.cons_ne_nil _ _)) <|
      .next (hround _ (List.cons_ne_nil _ _)) <| .next (hround _ (List.cons_ne_nil _ _)) <|
        .none _
  obtain ⟨-, hvisits, hloops⟩ := depth_in_any_order.2.2 f
  obtain ⟨-, hend, -, hdeepest⟩ := hvisits 4 _ hrounds
  have hdepth : f.depth = 3 := (hdeepest rfl).symm
  exact ⟨hrounds, (hend.1 rfl).symm, hdepth, (hloops _).trans hdepth⟩

end Filter

end NestedFilter
