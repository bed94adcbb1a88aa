import NestedFilter.Path
import NestedFilter.Token

/-!
# Filters

A filter is a tree. Its leaves test one field each; its groups join any number of filters
by a connective. Groups without a filter, or with a single one, are trees as well,
although no text is read as one.

* `NestedFilter.Filter.ofChain` builds the tree of a chain of filters joined by `and` and
  `or`: `or` binds weakest, and what has a single part is that part;
* `NestedFilter.Filter.height` is the height of a tree by recursion,
  `NestedFilter.Filter.depth` the same number from a list of subtrees still to be
  visited, which needs no stack as deep as the tree.

The operands of a group are a list of trees, so the functions on filters come in pairs, one for a
filter and one for a list of them. Proofs need not follow this: by `NestedFilter.Filter.induction`
a fact about a group may be assumed of every member of the list, and it is what `induction` takes
for filters. Likewise `NestedFilter.Filter.size` is there for nothing but to show that the visit
of the levels ends: every subtree is taken off the list once, and its operands are put there
instead.
-/

namespace NestedFilter

/-- What a leaf asks of its field. -/
inductive Test where
  /-- A comparison with one value. -/
  | compare (op : Comparison) (value : String)
  /-- A test against a list of values. -/
  | member (op : Membership) (values : List String)
deriving DecidableEq, Repr, Inhabited

/-- A test of one field. -/
structure Leaf where
  /-- The name of the field, which may be dotted. -/
  field : String
  /-- What is asked of it. -/
  test : Test
deriving DecidableEq, Repr, Inhabited

/-- The path of the nested objects that the leaf is about. -/
def Leaf.path? (leaf : Leaf) : Option Path :=
  nestedPath? leaf.field

/-- A condition on documents. Operands may be any number of filters, none and one included. -/
inductive Filter where
  /-- A test of one field. -/
  | leaf (l : Leaf)
  /-- Filters joined by a connective. -/
  | group (connective : Connective) (operands : List Filter)
deriving Repr, Inhabited

namespace Filter

/-! ### Induction -/

/-- What holds of leaves, and of a group when it holds of its operands, holds of all
filters. -/
@[elab_as_elim, induction_eliminator]
theorem induction {motive : Filter → Prop} (leaf : ∀ l, motive (.leaf l))
    (group : ∀ c operands, (∀ f ∈ operands, motive f) → motive (.group c operands))
    (f : Filter) : motive f :=
  @Filter.rec motive (fun operands => ∀ f ∈ operands, motive f) leaf group (by simp)
    (fun _ _ hf hfs => by simpa using ⟨hf, hfs⟩) f

/-! ### Equality -/

mutual

/-- Equality of filters can be decided. -/
def decEq : (f g : Filter) → Decidable (f = g)
  | .leaf l, .leaf m =>
    if h : l = m then .isTrue (by rw [h]) else .isFalse (by simpa using h)
  | .leaf _, .group _ _ => .isFalse (by simp)
  | .group _ _, .leaf _ => .isFalse (by simp)
  | .group c fs, .group d gs =>
    if h : c = d then
      match decEqList fs gs with
      | .isTrue hfs => .isTrue (by rw [h, hfs])
      | .isFalse hfs => .isFalse (by simp [hfs])
    else .isFalse (by simp [h])

/-- Equality of lists of filters can be decided. -/
def decEqList : (fs gs : List Filter) → Decidable (fs = gs)
  | [], [] => .isTrue rfl
  | [], _ :: _ => .isFalse (by simp)
  | _ :: _, [] => .isFalse (by simp)
  | f :: fs, g :: gs =>
    match decEq f g with
    | .isTrue h =>
      match decEqList fs gs with
      | .isTrue hs => .isTrue (by rw [h, hs])
      | .isFalse hs => .isFalse (by simp [hs])
    | .isFalse h => .isFalse (by simp [h])

end

instance : DecidableEq Filter := decEq

/-! ### Parts -/

/-- The leaf that the filter is, if it is one. -/
def leaf? : Filter → Option Leaf
  | .leaf l => some l
  | .group _ _ => none

/-- The field that the filter tests, if it is a leaf. -/
def field? (f : Filter) : Option String :=
  f.leaf?.map (·.field)

/-! ### Chains -/

/-- The filter that joins a list of filters; a single one is left as it is. So a text in parentheses
is read as what stands in them. -/
def collapse (c : Connective) : List Filter → Filter
  | [f] => f
  | fs => .group c fs

/-- The filter that a chain writes: its runs are joined by `or`, the filters within a run
by `and`. -/
def ofChain (runs : List (List Filter)) : Filter :=
  collapse .or (runs.map (collapse .and))

/-! ### Height -/

mutual

/-- The number of filters on the longest way from the root to a leaf or an empty group. -/
def height : Filter → Nat
  | .leaf _ => 1
  | .group _ operands => 1 + heightMax operands

/-- The largest height in a list, zero in an empty one. -/
def heightMax : List Filter → Nat
  | [] => 0
  | f :: fs => max f.height (heightMax fs)

end

mutual

/-- The number of leaves and groups of a filter, itself included. -/
def size : Filter → Nat
  | .leaf _ => 1
  | .group _ operands => 1 + sizeSum operands

/-- The number of leaves and groups of a list of filters. -/
def sizeSum : List Filter → Nat
  | [] => 0
  | f :: fs => f.size + sizeSum fs

end

/-- The filters right below the root. -/
def operands : Filter → List Filter
  | .leaf _ => []
  | .group _ operands => operands

theorem sizeSum_operands_lt (f : Filter) : sizeSum f.operands < f.size := by
  cases f <;> simp [operands, size, sizeSum]

theorem sizeSum_append (fs gs : List Filter) : sizeSum (fs ++ gs) = sizeSum fs + sizeSum gs := by
  induction fs with
  | nil => simp [sizeSum]
  | cons f fs ih => simp [sizeSum, ih, Nat.add_assoc]

/-- The greatest level among the filters still to be visited, each listed with its level,
and all filters below them; `deepest` is the greatest level visited so far. -/
def deepestLevel (pending : List (Filter × Nat)) (deepest : Nat) : Nat :=
  match pending with
  | [] => deepest
  | (f, level) :: rest =>
    deepestLevel (f.operands.map (·, level + 1) ++ rest) (max deepest level)
termination_by sizeSum (pending.map (·.1))
decreasing_by
  have hmap : (f.operands.map (·, level + 1)).map (·.1) = f.operands := by
    simp [Function.comp_def]
  have hlt := sizeSum_operands_lt f
  simp only [List.map_append, List.map_cons, hmap, sizeSum_append, sizeSum]
  omega

/-- The number of levels of the tree, the root being one. A group without operands is on the last
level, as leaves are. -/
def depth (f : Filter) : Nat :=
  deepestLevel [(f, 1)] 0

end Filter

end NestedFilter
