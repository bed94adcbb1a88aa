/-!
# Dotted paths

The name of a field may be dotted, as in `tests.suites.name`: the part before the last
dot is the path of the nested objects that have the field. A path is worked on as the
list of its characters; `NestedFilter.Path.segments` is the view of it as a list of
segments.

* `NestedFilter.nestedPath?` is the path that a field lies at;
* `NestedFilter.Path.isWithin` tells whether a path is another one or leads on from it;
* `NestedFilter.Path.common?` is the deepest path that all of a list are within;
* `NestedFilter.Path.childOf` is the path one segment below another on the way to a third.

The main fact is `NestedFilter.Path.isWithin_of_common?`: what all paths of a list are
within, their common path is within too. Hence paths that have left their common path can
not all have taken the same next step (`NestedFilter.Path.exists_not_under`).
-/

namespace NestedFilter

/-- A dotted path, by its characters. -/
abbrev Path := List Char

namespace Path

/-- The segments of a path, which the dots separate. There is always one, if only an
empty one. -/
def segments : Path → List (List Char)
  | [] => [[]]
  | c :: cs =>
    if c = '.' then [] :: segments cs
    else match segments cs with
      | [] => [[c]]
      | s :: ss => (c :: s) :: ss

/-- What stands before the last dot. -/
def parent? : Path → Option Path
  | [] => none
  | c :: cs =>
    match parent? cs with
    | some up => some (c :: up)
    | none => if c = '.' then some [] else none

/-- The path is `root`, or it goes on from `root` with a dot. -/
def isWithin : Path → Path → Bool
  | [], [] => true
  | c :: _, [] => c == '.'
  | [], _ :: _ => false
  | c :: path, d :: root => c == d && isWithin path root

theorem parent?_length_lt {path up : Path} (h : parent? path = some up) :
    up.length < path.length := by
  induction path generalizing up with
  | nil => simp [parent?] at h
  | cons c cs ih =>
    unfold parent? at h
    split at h
    · next up' hup =>
      obtain rfl := Option.some.inj h
      simpa using ih hup
    · split at h
      · obtain rfl := Option.some.inj h
        simp
      · simp at h

/-- The deepest path, from `root` upwards, that `path` is within. -/
def enclosing? (root path : Path) : Option Path :=
  if isWithin path root then some root
  else match _h : parent? root with
    | none => none
    | some up => enclosing? up path
termination_by root.length
decreasing_by exact parent?_length_lt _h

/-- The deepest path that all paths of a list are within; `none` if there is no such
path, or no path in the list. -/
def common? : List Path → Option Path
  | [] => none
  | path :: paths => paths.foldlM enclosing? path

/-- The path one segment below `root` on the way to `path`. -/
def childOf (root path : Path) : Path :=
  let below := path.drop (root.length + 1)
  path.take (root.length + 1 + (below.takeWhile (· != '.')).length)

/-! ### Being within -/

/-- **What being within means**: the two are one path, or `root` and a dot begin the
other. -/
theorem isWithin_iff {path root : Path} :
    isWithin path root = true ↔ path = root ∨ ∃ below, path = root ++ '.' :: below := by
  induction root generalizing path with
  | nil =>
    cases path with
    | nil => simp [isWithin]
    | cons c cs => simp [isWithin]
  | cons d root ih =>
    cases path with
    | nil => simp [isWithin]
    | cons c cs =>
      simp only [isWithin, Bool.and_eq_true, beq_iff_eq, ih, List.cons_append, List.cons.injEq]
      constructor
      · rintro ⟨hcd, rfl | ⟨below, rfl⟩⟩
        · exact .inl ⟨hcd, rfl⟩
        · exact .inr ⟨below, hcd, rfl⟩
      · rintro (⟨hcd, rfl⟩ | ⟨below, hcd, rfl⟩)
        · exact ⟨hcd, .inl rfl⟩
        · exact ⟨hcd, .inr ⟨below, rfl⟩⟩

theorem isWithin_self (path : Path) : isWithin path path = true :=
  isWithin_iff.2 (.inl rfl)

theorem isWithin_trans {a b c : Path} (hab : isWithin a b = true) (hbc : isWithin b c = true) :
    isWithin a c = true := by
  rw [isWithin_iff] at *
  rcases hab with rfl | ⟨x, rfl⟩
  · exact hbc
  · rcases hbc with rfl | ⟨y, rfl⟩
    · exact .inr ⟨x, rfl⟩
    · exact .inr ⟨y ++ '.' :: x, by simp⟩

theorem length_le_of_isWithin {path root : Path} (h : isWithin path root = true) :
    root.length ≤ path.length := by
  rcases isWithin_iff.1 h with rfl | ⟨below, rfl⟩ <;> simp

/-! ### Going up -/

/-- Going up from a path that leads on from `root` does not leave `root`. -/
theorem parent?_append_dot (root below : Path) :
    parent? (root ++ '.' :: below) =
      some (match parent? below with
        | some up => root ++ '.' :: up
        | none => root) := by
  induction root with
  | nil =>
    simp only [List.nil_append, parent?]
    cases parent? below <;> rfl
  | cons c root ih =>
    rw [List.cons_append, parent?, ih]
    cases parent? below <;> rfl

theorem isWithin_parent? {path up root : Path} (h : parent? path = some up)
    (hroot : isWithin path root = true) (hne : path ≠ root) : isWithin up root = true := by
  obtain ⟨below, rfl⟩ := (isWithin_iff.1 hroot).resolve_left hne
  rw [parent?_append_dot] at h
  obtain rfl := Option.some.inj h
  rw [isWithin_iff]
  cases parent? below with
  | none => exact .inl rfl
  | some up => exact .inr ⟨up, rfl⟩

/-- What stands before the last dot leads on to the path. -/
theorem isWithin_of_parent? {path up : Path} (h : parent? path = some up) :
    isWithin path up = true := by
  rw [isWithin_iff]
  refine .inr ?_
  induction path generalizing up with
  | nil => simp [parent?] at h
  | cons c cs ih =>
    unfold parent? at h
    split at h
    · next up' hup =>
      obtain rfl := Option.some.inj h
      obtain ⟨below, hbelow⟩ := ih hup
      exact ⟨below, by rw [List.cons_append, ← hbelow]⟩
    · split at h
      · next hc =>
        obtain rfl := Option.some.inj h
        exact ⟨cs, by rw [hc]; rfl⟩
      · simp at h

/-! ### The common path -/

theorem isWithin_of_enclosing? {root path up : Path} (h : enclosing? root path = some up) :
    isWithin path up = true ∧ isWithin root up = true := by
  fun_induction enclosing? root path with
  | case1 root hw =>
    obtain rfl := Option.some.inj h
    exact ⟨hw, isWithin_self _⟩
  | case2 => simp at h
  | case3 root hw above habove ih =>
    exact ⟨(ih h).1, isWithin_trans (isWithin_of_parent? habove) (ih h).2⟩

/-- Nothing deeper encloses both. -/
theorem isWithin_enclosing? {root path up other : Path} (h : enclosing? root path = some up)
    (hroot : isWithin root other = true) (hpath : isWithin path other = true) :
    isWithin up other = true := by
  fun_induction enclosing? root path with
  | case1 root hw =>
    obtain rfl := Option.some.inj h
    exact hroot
  | case2 => simp at h
  | case3 root hw above habove ih =>
    refine ih h (isWithin_parent? habove hroot ?_)
    rintro rfl
    exact hw hpath

theorem foldlM_enclosing? {paths : List Path} {path q : Path}
    (h : paths.foldlM enclosing? path = some q) :
    (∀ p ∈ path :: paths, isWithin p q = true) ∧
      ∀ r, (∀ p ∈ path :: paths, isWithin p r = true) → isWithin q r = true := by
  induction paths generalizing path with
  | nil =>
    obtain rfl : path = q := by simpa using h
    exact ⟨by simp [isWithin_self], fun r hr => hr _ (by simp)⟩
  | cons p paths ih =>
    rw [List.foldlM_cons] at h
    obtain ⟨up, hup, hrest⟩ := Option.bind_eq_some_iff.1 h
    obtain ⟨hall, hmax⟩ := ih hrest
    obtain ⟨hp, hpath⟩ := isWithin_of_enclosing? hup
    have hq := hall up (by simp)
    refine ⟨?_, ?_⟩
    · intro x hx
      rcases List.mem_cons.1 hx with rfl | hx
      · exact isWithin_trans hpath hq
      · rcases List.mem_cons.1 hx with rfl | hx
        · exact isWithin_trans hp hq
        · exact hall x (List.mem_cons_of_mem _ hx)
    · intro r hr
      refine hmax r fun x hx => ?_
      rcases List.mem_cons.1 hx with rfl | hx
      · exact isWithin_enclosing? hup (hr _ (by simp)) (hr _ (by simp))
      · exact hr x (by simp [hx])

/-- Every path of a list is within their common path. -/
theorem isWithin_common? {paths : List Path} {q : Path} (h : common? paths = some q) :
    ∀ p ∈ paths, isWithin p q = true := by
  cases paths with
  | nil => simp [common?] at h
  | cons path paths => exact (foldlM_enclosing? h).1

/-- **The common path is the deepest**: it is within everything that all paths of the
list are within. -/
theorem isWithin_of_common? {paths : List Path} {q r : Path} (h : common? paths = some q)
    (hr : ∀ p ∈ paths, isWithin p r = true) : isWithin q r = true := by
  cases paths with
  | nil => simp [common?] at h
  | cons path paths => exact (foldlM_enclosing? h).2 r hr

/-! ### One segment below -/

theorem childOf_append_dot (root below : Path) :
    childOf root (root ++ '.' :: below) = root ++ '.' :: below.takeWhile (· != '.') := by
  have hdrop : (root ++ '.' :: below).drop (root.length + 1) = below := by
    rw [← List.drop_drop, List.drop_left]
    rfl
  have htake : below.take (below.takeWhile (· != '.')).length = below.takeWhile (· != '.') :=
    List.prefix_iff_eq_take.1 (List.takeWhile_prefix _) |>.symm
  rw [childOf, hdrop, Nat.add_assoc, List.take_length_add_append, Nat.add_comm 1,
    List.take_succ_cons, htake]

/-- A path that leads on from `root` is within the path one segment below `root`. -/
theorem isWithin_childOf {root path : Path} (h : isWithin path root = true) (hne : path ≠ root) :
    isWithin path (childOf root path) = true ∧ root.length < (childOf root path).length := by
  obtain ⟨below, rfl⟩ := (isWithin_iff.1 h).resolve_left hne
  rw [childOf_append_dot]
  refine ⟨isWithin_iff.2 ?_, by simp⟩
  have hsplit := List.takeWhile_append_dropWhile (p := (· != '.')) (l := below)
  cases hd : below.dropWhile (· != '.') with
  | nil =>
    rw [hd, List.append_nil] at hsplit
    exact .inl (by rw [hsplit])
  | cons c cs =>
    have hc : (c != '.') = false := by
      have := List.head?_dropWhile_not (· != '.') below
      rw [hd] at this
      simpa using this
    obtain rfl : c = '.' := by simpa using hc
    rw [hd] at hsplit
    exact .inr ⟨cs, by simp [hsplit]⟩

/-- **Paths part below their common path**: whatever path is named, some path of the
list is the common path or takes another next step below it. -/
theorem exists_not_under {paths : List Path} {q : Path} (h : common? paths = some q)
    (child : Path) : ∃ p ∈ paths, ¬(p ≠ q ∧ childOf q p = child) := by
  cases paths with
  | nil => simp [common?] at h
  | cons path paths =>
    refine Classical.byContradiction fun hno => ?_
    have hall : ∀ p ∈ path :: paths, p ≠ q ∧ childOf q p = child := fun p hp =>
      Classical.byContradiction fun hn => hno ⟨p, hp, hn⟩
    have hchild : ∀ p ∈ path :: paths,
        isWithin p child = true ∧ q.length < child.length := fun p hp => by
      obtain ⟨hne, rfl⟩ := hall p hp
      exact isWithin_childOf (isWithin_common? h p hp) hne
    have hlt := (hchild path (by simp)).2
    have hle := length_le_of_isWithin (isWithin_of_common? h fun p hp => (hchild p hp).1)
    omega

end Path

/-- The path of the nested objects that have the field: the part of its name before the
last dot. A field without a dot, or with nothing before its only one, lies at the root. -/
def nestedPath? (field : String) : Option Path :=
  (Path.parent? field.toList).filter (!·.isEmpty)

end NestedFilter
