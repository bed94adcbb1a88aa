import Mathlib.Data.List.Infix
import Mathlib.Logic.Function.Basic
import NestedFilter.Query

/-!
# Documents and selections

A document is a tree of objects. Each object satisfies some clauses and has, for every
segment of a path, a list of objects below it. What a query reaches are the objects along
segments (`NestedFilter.Object.along`). Which clauses an object satisfies is left open: it may be
any set of them, so that what is said of all documents does not depend on what a clause means.

Conditions on several paths that are to hold *together* need more than an object for each:
the objects have to lie on one way down. A **selection** is a function that names an object
for every path; `NestedFilter.Object.Descends` says that along one path it goes from parent
to child. It names one for paths that nobody asks for too, and need not go from parent to child
there, so that no selection has to be cut to size. Two facts carry the rest: a selection that
descends reaches what it names (`NestedFilter.Object.Descends.leads`), and what can be reached is
named by a selection that descends (`NestedFilter.Object.exists_descends`).

Selections are put together in two ways. One goes on in another at a path where they meet
(`NestedFilter.Object.graft`), and several that start from one object are made into one by the
segment that a path takes next (`NestedFilter.Object.branch`). Both only have to be looked at
where they go over from one selection to another, as they are what they were everywhere else.
-/

namespace NestedFilter

/-- An object of a document. -/
inductive Object where
  /-- An object by the clauses that it satisfies and the objects below it, segment by
  segment. -/
  | node (satisfied : Clause → Prop) (below : List Char → List Object)
deriving Inhabited

namespace Object

/-- The object satisfies a clause. -/
def Satisfies : Object → Clause → Prop
  | .node satisfied _ => satisfied

/-- The objects right below an object under a segment. -/
def children : Object → List Char → List Object
  | .node _ below => below

/-- The objects that are reached from an object along segments, in the order of the document. Along
no segments it is the object itself. -/
def along : List (List Char) → Object → List Object
  | [], o => [o]
  | segment :: segments, o => (o.children segment).flatMap (along segments)

/-- From the object `o`, which lies at `base`, the object `o'` is reached, which lies at
`target`. -/
def Leads (base : List (List Char)) (o : Object) (target : List (List Char)) (o' : Object) :
    Prop :=
  ∃ segments, target = base ++ segments ∧ o' ∈ o.along segments

variable {o o' : Object} {base path : List (List Char)} {segment : List Char}

@[simp] theorem along_nil : o.along [] = [o] := rfl

@[simp] theorem mem_along_cons {segments : List (List Char)} :
    o' ∈ o.along (segment :: segments) ↔ ∃ child ∈ o.children segment, o' ∈ child.along segments :=
  List.mem_flatMap

theorem mem_along_append {upper lower : List (List Char)} :
    o' ∈ o.along (upper ++ lower) ↔ ∃ middle ∈ o.along upper, o' ∈ middle.along lower := by
  induction upper generalizing o with
  | nil => simp
  | cons s upper ih =>
    simp only [List.cons_append, mem_along_cons, ih]
    constructor
    · rintro ⟨child, hchild, middle, hmiddle, ho'⟩
      exact ⟨middle, ⟨child, hchild, hmiddle⟩, ho'⟩
    · rintro ⟨middle, ⟨child, hchild, hmiddle⟩, ho'⟩
      exact ⟨child, hchild, middle, hmiddle, ho'⟩

theorem leads_nil : Leads [] o path o' ↔ o' ∈ o.along path :=
  ⟨fun ⟨_, hpath, ho'⟩ => by rwa [hpath, List.nil_append], fun ho' => ⟨path, rfl, ho'⟩⟩

@[simp] theorem leads_self : Leads base o base o' ↔ o' = o := by
  simp [Leads]

/-- What is reached is reached by way of every path between, and by an object that lies there. -/
theorem leads_iff_exists_middle {middle : List (List Char)} (hbase : base <+: middle)
    (hpath : middle <+: path) :
    Leads base o path o' ↔ ∃ m, Leads base o middle m ∧ Leads middle m path o' := by
  obtain ⟨upper, rfl⟩ := hbase
  obtain ⟨lower, rfl⟩ := hpath
  simp [Leads, mem_along_append]

theorem leads_concat : Leads path o (path ++ [segment]) o' ↔ o' ∈ o.children segment := by
  simp [Leads]

/-! ### Selections -/

/-- From `base` on, the selection goes down along `path` from parent to child. The paths above
`base` and those that do not lie on the way are not asked for. -/
def Descends (pick : List (List Char) → Object) (base path : List (List Char)) : Prop :=
  ∀ above segment, base <+: above → above ++ [segment] <+: path →
    pick (above ++ [segment]) ∈ (pick above).children segment

variable {pick : List (List Char) → Object} {middle : List (List Char)}

theorem Descends.toward (h : Descends pick base path) (hmiddle : middle <+: path) :
    Descends pick base middle :=
  fun above s habove hs => h above s habove (hs.trans hmiddle)

theorem Descends.since (h : Descends pick base path) (hmiddle : base <+: middle) :
    Descends pick middle path :=
  fun above s habove hs => h above s (hmiddle.trans habove) hs

/-- **A selection that descends reaches what it names**, for every path on its way, by induction
from the end of the path. -/
theorem Descends.leads (h : Descends pick base path) (hbase : base <+: path) :
    Leads base (pick base) path (pick path) := by
  obtain ⟨segments, rfl⟩ := hbase
  induction segments using List.reverseRecOn with
  | nil => simp
  | append_singleton segments s ih =>
    have hup : base <+: base ++ segments := List.prefix_append _ _
    rw [← List.append_assoc] at h ⊢
    rw [leads_iff_exists_middle hup (List.prefix_append _ _)]
    exact ⟨_, ih (h.toward (List.prefix_append _ _)), leads_concat.2 (h _ _ hup List.prefix_rfl)⟩

/-- Nothing descends from a path to itself. -/
theorem descends_self : Descends pick base base := by
  intro above s habove hs
  -- The step would have to end both below `base` and on the way to it.
  have hle := (habove.length_le.trans_lt (by simp)).trans_le hs.length_le
  exact absurd hle (Nat.lt_irrefl _)

/-- **What can be reached is named by a selection that descends.** It is put together along the
path, one object more for each segment. -/
theorem exists_descends (h : Leads base o path o') :
    ∃ pick, pick base = o ∧ pick path = o' ∧ Descends pick base path := by
  obtain ⟨segments, rfl, ho'⟩ := h
  induction segments using List.reverseRecOn generalizing o' with
  | nil =>
    rw [List.append_nil]
    exact ⟨fun _ => o, rfl, (List.mem_singleton.1 ho').symm, descends_self⟩
  | append_singleton segments s ih =>
    obtain ⟨up, hup, hlast⟩ := mem_along_append.1 ho'
    have hchild : o' ∈ up.children s := by simpa using hlast
    obtain ⟨pick, hbase, hpick, hdescends⟩ := ih hup
    classical
    -- The selection for the way to `up` is kept, and the whole path gets the new object.
    rw [← List.append_assoc]
    refine ⟨Function.update pick (base ++ segments ++ [s]) o', ?_, by simp,
      fun above t habove ht => ?_⟩
    · rw [Function.update_of_ne (by simp), hbase]
    · rcases List.prefix_concat_iff.1 ht with heq | ht
      · obtain ⟨rfl, hts⟩ := List.append_inj' heq rfl
        obtain rfl : t = s := List.singleton_inj.1 hts
        rw [Function.update_self, Function.update_of_ne (by simp), hpick]
        exact hchild
      · have hshort : (above ++ [t]).length < (base ++ segments ++ [s]).length :=
          ht.length_le.trans_lt (by simp)
        rw [Function.update_of_ne (ne_of_apply_ne List.length (by simp at hshort ⊢; omega)),
          Function.update_of_ne (ne_of_apply_ne List.length hshort.ne)]
        exact hdescends above t habove ht

/-! ### Selections put together -/

open Classical in
/-- The selection `below` from `middle` on, and `above` everywhere else. On `middle` itself they
have to agree for this to be of use. -/
noncomputable def graft (middle : List (List Char)) (above below : List (List Char) → Object) :
    List (List Char) → Object :=
  fun path => if middle <+: path then below path else above path

theorem graft_below {above below : List (List Char) → Object} (h : middle <+: path) :
    graft middle above below path = below path :=
  if_pos h

theorem graft_elsewhere {above below : List (List Char) → Object} (h : ¬middle <+: path) :
    graft middle above below path = above path :=
  if_neg h

/-- Two selections that meet go on in each other: a way down to `middle` and one on from there are a
way down. -/
theorem descends_graft {above below : List (List Char) → Object}
    (habove : Descends above base middle) (hbelow : Descends below middle path)
    (hmeet : above middle = below middle) (hmiddle : middle <+: path) :
    Descends (graft middle above below) base path := by
  intro up s hup hs
  by_cases hin : middle <+: up
  · rw [graft_below hin, graft_below (hin.trans (List.prefix_append _ _))]
    exact hbelow up s hin hs
  · rw [graft_elsewhere hin]
    by_cases hlast : middle <+: up ++ [s]
    · -- Only the step onto `middle` itself leaves the one selection for the other.
      obtain rfl := (List.prefix_concat_iff.1 hlast).resolve_right hin
      rw [graft_below List.prefix_rfl, ← hmeet]
      exact habove up s hup List.prefix_rfl
    · rw [graft_elsewhere hlast]
      exact habove up s hup ((List.prefix_or_prefix_of_prefix hmiddle hs).resolve_left hlast)

/-- The object `o` at `base`, and below it one selection for every next segment. -/
def branch (base : List (List Char)) (o : Object)
    (picks : List Char → List (List Char) → Object) : List (List Char) → Object :=
  fun path => match path.drop base.length with
    | [] => o
    | s :: _ => picks s path

@[simp] theorem branch_self {picks : List Char → List (List Char) → Object} :
    branch base o picks base = o := by
  simp [branch]

theorem branch_below {picks : List Char → List (List Char) → Object}
    (h : base ++ [segment] <+: path) : branch base o picks path = picks segment path := by
  obtain ⟨below, rfl⟩ := h
  simp [branch]

/-- **The selections for different segments do not disturb each other.** Below `base` each path
takes one next segment, and all of its way is in the selection for that. -/
theorem descends_branch {picks : List Char → List (List Char) → Object}
    (hdescends : Descends (picks segment) base path) (hstart : picks segment base = o)
    (hpath : base ++ [segment] <+: path) : Descends (branch base o picks) base path := by
  intro up s hup hs
  have hnext : base ++ [segment] <+: up ++ [s] :=
    List.prefix_of_prefix_length_le hpath hs (by simpa using hup.length_le)
  have hstep := hdescends up s hup hs
  rw [branch_below hnext]
  rcases List.prefix_concat_iff.1 hnext with heq | hlow
  · obtain ⟨rfl, -⟩ := List.append_inj' heq rfl
    rwa [branch_self, ← hstart]
  · rwa [branch_below hlow]

end Object

end NestedFilter
