import Mathlib.Data.List.Infix
import Mathlib.Data.List.TakeWhile
import NestedFilter.Path

/-!
# Paths segment by segment

The paths of `NestedFilter.Path` are worked on as characters. Here every operation on them
is read off their segments, which is what a document is made of:

* a path is within another one when the segments of the other begin its own
  (`NestedFilter.Path.isWithin_iff_segments`);
* the path one segment below another on the way to a third has just one segment more
  (`NestedFilter.Path.segments_childOf`);
* paths have a common path exactly when their first segments agree
  (`NestedFilter.Path.common?_isSome_iff`).

Nothing is lost on the way: the segments determine the path
(`NestedFilter.Path.segments_injective`), and any segments without dots are those of a path
(`NestedFilter.Path.segments_intercalate`). That a path is within another one is more than that
the characters of the other begin it, since a dot has to come next. By segments it is just a
beginning, and what is known of prefixes of lists can be used.

Cutting at the dots is what the library calls splitting, so the rest comes down to its lemmas on
`List.splitOn` and `List.intercalate`. In this way nothing has to be proved about dots but in a
few lemmas here, and no file that imports this one looks at the characters of a path again.
-/

namespace NestedFilter

namespace Path

/-! ### Segments and characters -/

/-- Cutting at the dots is what the library calls splitting. Its lemmas are used from here on. -/
theorem segments_eq_splitOn (path : Path) : path.segments = path.splitOn '.' := by
  induction path with
  | nil => rfl
  | cons c cs ih =>
    rw [List.splitOn_cons_eq_if_modifyHead, segments, ih]
    by_cases hc : c = '.'
    · simp [hc]
    · rw [if_neg hc, if_neg (by simpa using hc)]
      cases hs : cs.splitOn '.' with
      | nil => exact absurd hs (List.splitOn_ne_nil _ _)
      | cons s ss => rfl

theorem segments_ne_nil (path : Path) : path.segments ≠ [] := by
  rw [segments_eq_splitOn]
  exact List.splitOn_ne_nil _ _

/-- Setting the dots again gives the path back. -/
theorem intercalate_segments (path : Path) : ['.'].intercalate path.segments = path := by
  rw [segments_eq_splitOn, List.intercalate_splitOn]

/-- **The segments determine the path**, so what is said of paths may be said of segments. -/
theorem segments_injective : Function.Injective segments := by
  intro p q h
  rw [← intercalate_segments p, ← intercalate_segments q, h]

theorem segments_append_dot (root below : Path) :
    segments (root ++ '.' :: below) = root.segments ++ segments below := by
  simp only [segments_eq_splitOn, List.splitOn_append_cons_self]

theorem segments_eq_singleton {segment : List Char} (h : '.' ∉ segment) :
    segments segment = [segment] := by
  rw [segments_eq_splitOn, List.splitOn_eq_singleton h]

/-- No segment has a dot in it. -/
theorem dot_notMem_of_mem_segments {path : Path} {segment : List Char}
    (h : segment ∈ path.segments) : '.' ∉ segment := by
  induction path generalizing segment with
  | nil => simp_all [segments]
  | cons c cs ih =>
    rw [segments] at h
    split at h
    · rcases List.mem_cons.1 h with rfl | h
      · simp
      · exact ih h
    · next hc =>
      cases hs : segments cs with
      | nil => exact absurd hs (segments_ne_nil _)
      | cons s ss =>
        rw [hs] at h ih
        rcases List.mem_cons.1 h with rfl | h
        · have hrest := ih List.mem_cons_self
          simp only [List.mem_cons, not_or]
          exact ⟨fun heq => hc heq.symm, hrest⟩
        · exact ih (List.mem_cons_of_mem _ h)

/-- Any segments without dots are those of a path, if there is one at least. -/
theorem segments_intercalate {ss : List (List Char)} (hss : ss ≠ []) (h : ∀ s ∈ ss, '.' ∉ s) :
    segments (['.'].intercalate ss) = ss := by
  rw [segments_eq_splitOn, List.splitOn_intercalate _ h hss]

/-! ### Being within -/

/-- **Being within, by segments**: the segments of the root begin those of the path. -/
theorem isWithin_iff_segments {path root : Path} :
    isWithin path root = true ↔ root.segments <+: path.segments := by
  rw [isWithin_iff]
  constructor
  · rintro (rfl | ⟨below, rfl⟩)
    · exact List.prefix_rfl
    · rw [segments_append_dot]
      exact List.prefix_append _ _
  · rintro ⟨below, hbelow⟩
    rcases eq_or_ne below [] with rfl | hne
    · exact .inl (segments_injective (by simpa using hbelow.symm))
    · refine .inr ⟨['.'].intercalate below, segments_injective ?_⟩
      have hdots : ∀ s ∈ below, '.' ∉ s := by
        intro s hs
        have hmem : s ∈ path.segments := hbelow ▸ List.mem_append_right _ hs
        exact dot_notMem_of_mem_segments hmem
      rw [segments_append_dot, segments_intercalate hne hdots, hbelow]

/-! ### One segment below -/

/-- **One segment below**: the path named on the way from `root` to `path` has just one
segment more than `root`. -/
theorem segments_childOf {root path : Path} (h : isWithin path root = true) (hne : path ≠ root) :
    ∃ segment, (childOf root path).segments = root.segments ++ [segment] ∧
      root.segments ++ [segment] <+: path.segments := by
  have hwithin := (isWithin_childOf h hne).1
  obtain ⟨below, rfl⟩ := (isWithin_iff.1 h).resolve_left hne
  rw [childOf_append_dot] at hwithin ⊢
  have hdot : '.' ∉ below.takeWhile (· != '.') := by
    intro hmem
    simpa using List.mem_takeWhile_imp hmem
  have hsegments : segments (root ++ '.' :: below.takeWhile (· != '.')) =
      root.segments ++ [below.takeWhile (· != '.')] := by
    rw [segments_append_dot, segments_eq_singleton hdot]
  refine ⟨_, hsegments, ?_⟩
  rw [← hsegments]
  exact isWithin_iff_segments.1 hwithin

/-! ### The common path -/

theorem enclosing?_ne_none {root path other : Path} (hroot : isWithin root other = true)
    (hpath : isWithin path other = true) : enclosing? root path ≠ none := by
  fun_induction enclosing? root path with
  | case1 => simp
  | case2 root hw hup =>
    -- Without a dot there is no way up, so `root` is `other`, which `path` is within.
    rcases isWithin_iff.1 hroot with rfl | ⟨below, rfl⟩
    · exact absurd hpath hw
    · rw [parent?_append_dot] at hup
      simp at hup
  | case3 root hw above habove ih =>
    refine ih (isWithin_parent? habove hroot ?_)
    rintro rfl
    exact hw hpath

/-- Paths that are all within one path have a common path. -/
theorem exists_common? {paths : List Path} {other : Path} (hne : paths ≠ [])
    (h : ∀ p ∈ paths, isWithin p other = true) : ∃ q, common? paths = some q := by
  obtain ⟨path, paths, rfl⟩ := List.exists_cons_of_ne_nil hne
  rw [common?]
  induction paths generalizing path with
  | nil => exact ⟨path, rfl⟩
  | cons p paths ih =>
    obtain ⟨up, hup⟩ := Option.ne_none_iff_exists'.1
      (enclosing?_ne_none (h path (by simp)) (h p (by simp)))
    have hother : isWithin up other = true :=
      isWithin_enclosing? hup (h path (by simp)) (h p (by simp))
    rw [List.foldlM_cons, hup]
    refine ih up (List.cons_ne_nil _ _) fun x hx => ?_
    rcases List.mem_cons.1 hx with rfl | hx
    · exact hother
    · exact h x (by simp [hx])

/-- **When paths have a common path**: there is a path, and all begin with one segment. A single
path is its own common path. -/
theorem common?_isSome_iff {paths : List Path} :
    (common? paths).isSome = true ↔
      paths ≠ [] ∧ ∃ segment, ∀ p ∈ paths, p.segments.head? = some segment := by
  rw [Option.isSome_iff_exists]
  constructor
  · rintro ⟨q, hq⟩
    have hne : paths ≠ [] := by
      rintro rfl
      simp [common?] at hq
    refine ⟨hne, q.segments.head (segments_ne_nil q), fun p hp => ?_⟩
    obtain ⟨below, hbelow⟩ := isWithin_iff_segments.1 (isWithin_common? hq p hp)
    rw [← hbelow, List.head?_append_of_ne_nil _ (segments_ne_nil q), List.head?_eq_some_head]
  · rintro ⟨hne, segment, hsegment⟩
    have hdot : '.' ∉ segment := by
      obtain ⟨path, paths, rfl⟩ := List.exists_cons_of_ne_nil hne
      exact dot_notMem_of_mem_segments (List.mem_of_head? (hsegment path (by simp)))
    have hwithin : ∀ p ∈ paths, isWithin p segment = true := by
      intro p hp
      obtain ⟨ss, hss⟩ := List.head?_eq_some_iff.1 (hsegment p hp)
      rw [isWithin_iff_segments, segments_eq_singleton hdot]
      exact ⟨ss, hss.symm⟩
    exact exists_common? hne hwithin

end Path

end NestedFilter
