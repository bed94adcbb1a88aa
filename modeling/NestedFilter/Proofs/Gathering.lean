import NestedFilter.Proofs.Scope

/-!
# Gathering goes deeper

Leaves with a common path are gathered by the next segment of their paths, and every group of
them is gathered in turn, at a common path that is computed anew. One step is
`NestedFilter.Leaf.exists_commonPath?_under`: a group has a common path again, and it lies
within the path one segment below the old one. So the steps cannot go on for longer than the
paths have segments.

That gathering ends at all is known from its definition, by the number of leaves, of which a
group never has all. This gives the wrong bound, since there may be many leaves on short paths.
By the segments it does not matter how many there are.

`NestedFilter.Leaf.Gathers` says what a run of gathering is allowed to do: it counts the steps
and keeps a list of the paths that are open, it has no rule for several leaves without a common
path, and a path is entered only if it is the innermost open one or not open at all. The main
result, `NestedFilter.Leaf.gather_goes_deeper`, is that gathering is such a run, with no more
steps than the longest of the paths has segments, whether a query comes out of it or an error.

In the induction the bound is on how far the paths reach below their common one
(`NestedFilter.Leaf.gathers_gather`). A step takes one from it, and the common path has gained a
segment, so for the groups it is the same bound again.
-/

namespace NestedFilter

namespace Leaf

variable {settings : Settings} {leaves : List Leaf} {path child : Path} {opened : List Path}
variable {n : Nat}

/-! ### One step -/

/-- No group below the common path has all leaves. -/
theorem exists_notMem_under (hpath : commonPath? leaves = some path) (child : Path) :
    ∃ l ∈ leaves, l ∉ under path child leaves := by
  obtain ⟨l, hl, hnot⟩ := List.length_filter_lt_length_iff_exists.1 (length_under_lt hpath child)
  exact ⟨l, hl, fun hmem => hnot (List.mem_filter.1 hmem).2⟩

/-- **One step goes deeper**: the leaves of a group have a common path again, within the path
one segment below the old one. -/
theorem exists_commonPath?_under (hpath : commonPath? leaves = some path)
    (hchild : child ∈ childPaths path leaves) :
    ∃ deeper, commonPath? (under path child leaves) = some deeper ∧
      deeper.isWithin child = true := by
  have hwithin : ∀ l ∈ under path child leaves,
      ∃ own, l.path? = some own ∧ own.isWithin child = true := by
    intro l hl
    obtain ⟨own, hown, -⟩ := isWithin_commonPath? hpath (mem_under.1 hl).1
    exact ⟨own, hown, isWithin_of_mem_under hpath hl hown⟩
  obtain ⟨deeper, hdeeper⟩ := Option.isSome_iff_exists.1
    (commonPath?_isSome_of_isWithin (Anchored.under hpath hchild).ne_nil hwithin)
  exact ⟨deeper, hdeeper, commonPath?_isWithin_of_forall hdeeper hwithin⟩

theorem extends_of_isWithin_child (hpath : commonPath? leaves = some path)
    (hchild : child ∈ childPaths path leaves) {deeper : Path} (h : deeper.isWithin child = true) :
    deeper.Extends path := by
  have hextends := extends_of_mem_childPaths hpath hchild
  have hprefix := Path.isWithin_iff_segments.1 h
  exact ⟨hextends.1.trans hprefix, hextends.2.trans_le hprefix.length_le⟩

/-! ### A whole run -/

/-- To enter the path opens none of the open ones again: it is the innermost of them, or it is
not open. -/
def EntersOnce (opened : List Path) (path : Path) : Prop :=
  opened.head? = some path ∨ path ∉ opened

/-- Gathering leaves, while the paths `opened` are open, of which the innermost is listed first,
takes at most the given number of steps, one in another, and has the result. No several leaves
without a common path are met, and no path is opened that is already open. -/
inductive Gathers (settings : Settings) :
    Nat → List Path → List Leaf → Except BuildError Query → Prop
  /-- A leaf by itself. -/
  | single {n : Nat} {opened : List Path} {leaf : Leaf}
      (honce : ∀ own ∈ leaf.path?, EntersOnce opened own) :
      Gathers settings (n + 1) opened [leaf] (leaf.toQuery settings opened.head?)
  /-- Several leaves: their common path is entered, the leaves right there come first, then
  every group of those below, one step further. -/
  | shared {n : Nat} {opened : List Path} {leaves : List Leaf} {path : Path}
      {results : Path → Except BuildError Query}
      (htwo : 2 ≤ leaves.length) (hpath : commonPath? leaves = some path)
      (honce : EntersOnce opened path)
      (hgroups : ∀ child ∈ childPaths path leaves,
        Gathers settings n (path :: opened) (under path child leaves) (results child)) :
      Gathers settings (n + 1) opened leaves (do
        let direct ← (directlyAt path leaves).mapM (·.toQuery settings (some path))
        let deeper ← (childPaths path leaves).mapM results
        return enter opened.head? path (.filter (direct ++ deeper)))

/-- **Gathering is such a run**, if only the paths reach less than so many segments below their
common one. -/
theorem gathers_gather (hpath : commonPath? leaves = some path) (honce : EntersOnce opened path)
    (hopened : ∀ root ∈ opened, path.isWithin root = true)
    (hlength : ∀ l ∈ leaves, ∀ own ∈ l.path?, own.segments.length < n + path.segments.length) :
    Gathers settings n opened leaves (gather settings opened.head? leaves) := by
  have hne : leaves ≠ [] := (commonPath?_isSome_iff.1 (by simp [hpath])).1
  -- In every step the common path gets longer by what the bound on the steps loses.
  induction n generalizing opened leaves path with
  | zero =>
    obtain ⟨l, hl⟩ := List.exists_mem_of_ne_nil leaves hne
    obtain ⟨own, hown, hin⟩ := isWithin_commonPath? hpath hl
    have hle := (Path.isWithin_iff_segments.1 hin).length_le
    have hlt := hlength l hl own hown
    omega
  | succ n ih =>
    rcases leaves with _ | ⟨l, _ | ⟨m, leaves⟩⟩
    · exact absurd rfl hne
    · rw [gather]
      refine .single fun own hown => ?_
      have hsingle : commonPath? [l] = some own := by
        simp [commonPath?, Path.common?, Option.mem_def.1 hown]
      obtain rfl : own = path := Option.some.inj (hsingle.symm.trans hpath)
      exact honce
    · have htwo : 2 ≤ (l :: m :: leaves).length := by simp
      rw [gather_of_commonPath? htwo hpath]
      refine .shared htwo hpath honce fun child hchild => ?_
      obtain ⟨deeper, hdeeper, hin⟩ := exists_commonPath?_under hpath hchild
      have hextends := extends_of_isWithin_child hpath hchild hin
      have hbelow : ∀ root ∈ path :: opened, deeper.Extends root := by
        intro root hroot
        rcases List.mem_cons.1 hroot with rfl | hroot
        · exact hextends
        · have hroot := Path.isWithin_iff_segments.1 (hopened root hroot)
          exact ⟨hroot.trans hextends.1, hroot.length_le.trans_lt hextends.2⟩
      have hnew : deeper ∉ path :: opened := fun hmem =>
        absurd (hbelow deeper hmem).2 (Nat.lt_irrefl _)
      refine ih hdeeper (.inr hnew)
        (fun root hroot => Path.isWithin_iff_segments.2 (hbelow root hroot).1)
        (fun l' hl' own hown => ?_) (Anchored.under hpath hchild).ne_nil
      have hlt := hlength l' (mem_under.1 hl').1 own hown
      have hdeep := hextends.2
      omega

/-- **Gathering goes deeper.** Of leaves with a common path, no group has all, and each group
has a common path again, which extends the old one. So gathering them takes no more steps, one
in another, than the longest of their paths has segments; it meets no several leaves without a
common path on its way, and opens no path that is already open. -/
theorem gather_goes_deeper (hpath : commonPath? leaves = some path) :
    (∀ child ∈ childPaths path leaves,
      (∃ deeper, commonPath? (under path child leaves) = some deeper ∧ deeper.Extends path) ∧
        ∃ l ∈ leaves, l ∉ under path child leaves) ∧
    ∀ (settings : Settings) (scope : Option Path), (∀ root ∈ scope, path.isWithin root = true) →
      ∀ n, (∀ l ∈ leaves, ∀ own ∈ l.path?, own.segments.length ≤ n) →
        Gathers settings n scope.toList leaves (gather settings scope leaves) := by
  refine ⟨fun child hchild => ⟨?_, exists_notMem_under hpath child⟩,
    fun settings scope hscope n hlength => ?_⟩
  · obtain ⟨deeper, hdeeper, hin⟩ := exists_commonPath?_under hpath hchild
    exact ⟨deeper, hdeeper, extends_of_isWithin_child hpath hchild hin⟩
  · have honce : EntersOnce scope.toList path := by
      cases scope with
      | none => exact .inr (by simp)
      | some root =>
        by_cases hroot : root = path
        · exact .inl (by simp [hroot])
        · exact .inr (by simpa using Ne.symm hroot)
    have hpos := List.length_pos_of_ne_nil (Path.segments_ne_nil path)
    have hrun : Gathers settings n scope.toList leaves
        (gather settings scope.toList.head? leaves) :=
      gathers_gather hpath honce (by simpa using hscope) fun l hl own hown =>
        (hlength l hl own hown).trans_lt (Nat.lt_add_of_pos_right hpos)
    simpa using hrun

/-- Two leaves on one path, with a leaf on a sibling of it between them. -/
theorem gather_goes_deeper_siblings :
    let leaves : List Leaf := [⟨"a.b.x", .compare .equal "1"⟩, ⟨"a.c.z", .compare .equal "3"⟩,
      ⟨"a.b.y", .compare .equal "2"⟩]
    commonPath? leaves = some "a".toList ∧
      (∃ deeper, commonPath? (under "a".toList "a.b".toList leaves) = some deeper ∧
        deeper.Extends "a".toList) ∧
      Gathers {} 2 [] leaves (gather {} none leaves) := by
  intro leaves
  have hpath : commonPath? leaves = some "a".toList := by with_unfolding_all rfl
  have hchild : "a.b".toList ∈ childPaths "a".toList leaves :=
    mem_childPaths.2 ⟨⟨"a.b.x", .compare .equal "1"⟩, List.mem_cons_self, by decide⟩
  obtain ⟨hgroups, hrun⟩ := gather_goes_deeper hpath
  exact ⟨hpath, (hgroups _ hchild).1, hrun {} none (by simp) 2 (by decide)⟩

end Leaf

end NestedFilter
