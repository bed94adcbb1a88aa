import NestedFilter.Proofs.Surroundings
import NestedFilter.Text.Bytes

/-!
# Shared paths, segment by segment

What the operations on paths compute, said of lists of segments alone:

| operation | by segments | theorem |
|---|---|---|
| `NestedFilter.Path.isWithin` | one list begins the other | `NestedFilter.Path.isWithin_iff_segments` |
| `NestedFilter.nestedPath?` | all segments but the last | `NestedFilter.nestedPath?_eq_some_iff` |
| `NestedFilter.Path.common?` | the longest common prefix | `NestedFilter.Path.common?_eq_some_iff` |
| `NestedFilter.Path.childOf` | one segment more | `NestedFilter.Path.segments_childOf_eq_take` |

The longest common prefix is said of lists (`NestedFilter.IsLongestCommonPrefix`) and does not
see in which order they are listed. So the path that operands share does not depend on their
order, although it is found by going through them one by one. It is a property and not another
function, so there is nothing to choose between prefixes of one length: those of one list are
equal.

Segments may be empty, and this is a special case in one place only: the empty path has a
segment, the empty one, but as the path of a field it is taken for none.

A path is stored as its bytes in UTF-8, and the path one segment below another is cut out of it
at places that are counted in bytes (`NestedFilter.Path.childOfBytes?`). Such a place may lie
outside of the path, or within a character. Here it never does
(`NestedFilter.Path.childOfBytes?_eq_some`): the first place is behind a dot, the second before
one. What stands between the two may be of any characters, as it is never looked at but for
dots.
-/

namespace NestedFilter

/-! ### The longest common prefix -/

section Prefix

variable {α : Type} {common : List α} {lists lists' : List (List α)}

/-- The list begins all of the lists, and no longer one does. -/
structure IsLongestCommonPrefix (common : List α) (lists : List (List α)) : Prop where
  /-- It begins all of the lists. -/
  begins : ∀ l ∈ lists, common <+: l
  /-- Nothing that begins all of them is longer. -/
  longest : ∀ other, (∀ l ∈ lists, other <+: l) → other.length ≤ common.length

/-- The order of the lists does not matter. -/
theorem IsLongestCommonPrefix.perm (hperm : lists.Perm lists')
    (h : IsLongestCommonPrefix common lists) : IsLongestCommonPrefix common lists' where
  begins l hl := h.begins l (hperm.mem_iff.2 hl)
  longest other hother := h.longest other fun l hl => hother l (hperm.mem_iff.1 hl)

end Prefix

namespace Path

variable {path root q : Path} {paths : List Path}

/-- **The common path, by segments**: its segments are the longest common prefix of those of the
paths. A path has a segment at least, so without a first segment in common there is none. -/
theorem common?_eq_some_iff :
    common? paths = some q ↔
      paths ≠ [] ∧ IsLongestCommonPrefix q.segments (paths.map segments) := by
  constructor
  · intro h
    have hwithin := isWithin_common? h
    have hpaths : paths ≠ [] := by
      rintro rfl
      simp [common?] at h
    refine ⟨hpaths, ?_, fun other hother => ?_⟩
    · simpa using fun p hp => isWithin_iff_segments.1 (hwithin p hp)
    · rcases eq_or_ne other [] with rfl | hne
      · exact Nat.zero_le _
      -- Without dots in its segments, what begins all the lists is a path.
      obtain ⟨path, hpath⟩ := List.exists_mem_of_ne_nil paths hpaths
      have hbegins : ∀ p ∈ paths, other <+: p.segments := by simpa using hother
      have hdots : ∀ s ∈ other, '.' ∉ s := fun s hs =>
        dot_notMem_of_mem_segments ((hbegins path hpath).subset hs)
      have hsegments := segments_intercalate hne hdots
      have hin := isWithin_of_common? (r := ['.'].intercalate other) h fun p hp =>
        isWithin_iff_segments.2 (by rw [hsegments]; exact hbegins p hp)
      rw [← hsegments]
      exact (isWithin_iff_segments.1 hin).length_le
  · rintro ⟨hne, hbegins, hlongest⟩
    have hwithin : ∀ p ∈ paths, isWithin p q = true := fun p hp =>
      isWithin_iff_segments.2 (hbegins _ (List.mem_map_of_mem hp))
    obtain ⟨deepest, hdeepest⟩ := exists_common? hne hwithin
    have hin := isWithin_iff_segments.1 (isWithin_of_common? hdeepest hwithin)
    have hle : deepest.segments.length ≤ q.segments.length := by
      refine hlongest _ ?_
      simpa using fun p hp => isWithin_iff_segments.1 (isWithin_common? hdeepest p hp)
    rw [hdeepest, segments_injective (hin.eq_of_length_le hle)]

theorem parent?_eq_none_iff : parent? path = none ↔ '.' ∉ path := by
  induction path with
  | nil => simp [parent?]
  | cons c cs ih =>
    rw [parent?]
    cases hup : parent? cs with
    | some up =>
      have hdot : '.' ∈ cs := Classical.not_not.1 fun hno => by simp [ih.2 hno] at hup
      simp [hdot]
    | none =>
      have hdot : '.' ∉ cs := ih.1 hup
      by_cases hc : c = '.'
      · simp [hc]
      · simp [hc, hdot, Ne.symm hc]

/-- What stands before the last dot, by segments: all but the last. -/
theorem parent?_eq_some_iff {up : Path} :
    parent? path = some up ↔ ∃ last, path.segments = up.segments ++ [last] := by
  constructor
  · intro h
    have hne : path ≠ up := by
      rintro rfl
      exact absurd (parent?_length_lt h) (Nat.lt_irrefl _)
    obtain ⟨last, rfl⟩ := (isWithin_iff.1 (isWithin_of_parent? h)).resolve_left hne
    rw [parent?_append_dot] at h
    -- With a dot further down, what stands before the last one would be longer.
    have hdot : parent? last = none := by
      cases hlast : parent? last with
      | none => rfl
      | some rest => simp [hlast] at h
    exact ⟨last, by rw [segments_append_dot, segments_eq_singleton (parent?_eq_none_iff.1 hdot)]⟩
  · rintro ⟨last, hlast⟩
    have hmem : last ∈ path.segments := by simp [hlast]
    have hdot := dot_notMem_of_mem_segments hmem
    have hpath : path = up ++ '.' :: last :=
      segments_injective (by rw [hlast, segments_append_dot, segments_eq_singleton hdot])
    rw [hpath, parent?_append_dot, parent?_eq_none_iff.2 hdot]

/-- **One segment below, by segments**: of the path, one segment more is kept than `root` has. -/
theorem segments_childOf_eq_take (h : isWithin path root = true) (hne : path ≠ root) :
    (childOf root path).segments = path.segments.take (root.segments.length + 1) := by
  obtain ⟨segment, hsegments, hprefix⟩ := segments_childOf h hne
  have htake := List.prefix_iff_eq_take.1 hprefix
  rw [hsegments, htake, List.length_append, List.length_singleton]

end Path

/-- **The path of a field, by segments**: all segments of its name but the last, if this is not
the empty path. -/
theorem nestedPath?_eq_some_iff {field : String} {path : Path} :
    nestedPath? field = some path ↔
      path ≠ [] ∧ ∃ last, Path.segments field.toList = path.segments ++ [last] := by
  rw [nestedPath?, Option.filter_eq_some_iff, Path.parent?_eq_some_iff, and_comm]
  simp

/-! ### The path that operands share -/

/-- The path of the nested objects that the filter is about, if it is a leaf and has one. -/
def Filter.path? (f : Filter) : Option Path :=
  f.field?.bind nestedPath?

namespace Query

variable {operands : List Filter} {q : Path}

/-- Going through the operands for leaves, and through these for paths, is going through the
operands for the paths of leaves. -/
theorem sharedPath?_eq_bind (operands : List Filter) :
    sharedPath? operands = (operands.mapM Filter.path?).bind Path.common? := by
  have hpaths : ∀ fs : List Filter,
      (fs.mapM Filter.leaf?).bind (fun leaves => leaves.mapM Leaf.path?) =
        fs.mapM Filter.path? := by
    intro fs
    induction fs with
    | nil => rfl
    | cons f fs ih =>
      rw [List.mapM_cons, List.mapM_cons, ← ih]
      cases f with
      | group c operands => rfl
      | leaf l =>
        have hpath : (Filter.leaf l).path? = l.path? := rfl
        rw [hpath]
        cases hleaves : fs.mapM Filter.leaf? with
        | none => cases l.path? <;> simp [Filter.leaf?]
        | some leaves => simp [Filter.leaf?]
  rw [sharedPath?, ← hpaths, Option.bind_assoc]
  rfl

/-- All operands have paths, and these are listed. -/
theorem mapM_path?_eq_some_iff {paths : List Path} :
    operands.mapM Filter.path? = some paths ↔
      (∀ f ∈ operands, f.path?.isSome = true) ∧ operands.filterMap Filter.path? = paths := by
  induction operands generalizing paths with
  | nil => simp
  | cons f operands ih =>
    rw [List.mapM_cons, List.forall_mem_cons]
    cases hpath : f.path? with
    | none => simp
    | some own => cases paths <;> simp [Option.bind_eq_some_iff, ih, hpath, and_left_comm]

/-- **The path that operands share, by segments**: there is an operand, all of them are leaves
with paths, and its segments are the longest common prefix of those of the paths. -/
theorem sharedPath?_eq_some_iff :
    sharedPath? operands = some q ↔
      operands ≠ [] ∧ (∀ f ∈ operands, f.path?.isSome = true) ∧
        IsLongestCommonPrefix q.segments
          ((operands.filterMap Filter.path?).map Path.segments) := by
  simp only [sharedPath?_eq_bind, Option.bind_eq_some_iff, mapM_path?_eq_some_iff,
    Path.common?_eq_some_iff]
  constructor
  · rintro ⟨_, ⟨hall, rfl⟩, hne, hlongest⟩
    refine ⟨?_, hall, hlongest⟩
    rintro rfl
    exact hne rfl
  · rintro ⟨hne, hall, hlongest⟩
    refine ⟨_, ⟨hall, rfl⟩, ?_, hlongest⟩
    obtain ⟨f, hf⟩ := List.exists_mem_of_ne_nil _ hne
    obtain ⟨own, hown⟩ := Option.isSome_iff_exists.1 (hall f hf)
    exact List.ne_nil_of_mem (List.mem_filterMap.2 ⟨f, hf, hown⟩)

/-- The order of the operands does not matter. -/
theorem sharedPath?_eq_of_perm {operands' : List Filter} (hperm : operands.Perm operands') :
    sharedPath? operands = sharedPath? operands' := by
  have hmono : ∀ {fs gs : List Filter}, fs.Perm gs → ∀ q, sharedPath? fs = some q →
      sharedPath? gs = some q := by
    intro fs gs hperm q h
    obtain ⟨hne, hall, hlongest⟩ := sharedPath?_eq_some_iff.1 h
    refine sharedPath?_eq_some_iff.2 ⟨?_, fun f hf => hall f (hperm.mem_iff.2 hf), ?_⟩
    · rintro rfl
      exact hne hperm.eq_nil
    · exact hlongest.perm ((hperm.filterMap Filter.path?).map Path.segments)
  exact Option.ext fun q => ⟨hmono hperm q, hmono hperm.symm q⟩

end Query

/-! ### Places in bytes -/

namespace Text

/-- How many bytes stand before the first such character, if there is one. -/
def findBytes? (c : Char) : List Char → Option Nat
  | [] => none
  | d :: cs => if d = c then some 0 else (findBytes? c cs).map (d.utf8Size + ·)

theorem findBytes?_eq_none_iff {c : Char} {cs : List Char} :
    findBytes? c cs = none ↔ c ∉ cs := by
  induction cs with
  | nil => simp [findBytes?]
  | cons d cs ih =>
    by_cases hd : d = c
    · simp [findBytes?, hd]
    · simp [findBytes?, hd, ih, Ne.symm hd]

/-- What is found is the end of what stands before the character. -/
theorem eq_byteLength_of_findBytes? {c : Char} {cs : List Char} {offset : Nat}
    (h : findBytes? c cs = some offset) : offset = byteLength (cs.takeWhile (· != c)) := by
  induction cs generalizing offset with
  | nil => simp [findBytes?] at h
  | cons d cs ih =>
    rw [findBytes?] at h
    split at h
    · next hd =>
      obtain rfl := Option.some.inj h
      simp [hd]
    · next hd =>
      obtain ⟨rest, hrest, rfl⟩ := Option.map_eq_some_iff.1 h
      rw [List.takeWhile_cons_of_pos (by simpa using hd), byteLength_cons, ← ih hrest]

end Text

namespace Path

variable {path root : Path}

/-- The path one segment below `root` on the way to `path`, cut out of `path` at places in
bytes: one byte behind `root`, and where the next dot is found from there. There is none if a
place lies outside of `path` or within a character. -/
def childOfBytes? (root path : Path) : Option Path := do
  let start := Text.byteLength root + 1
  let (_, below) ← Text.splitBytes? path start
  match Text.findBytes? '.' below with
  | none => return path
  | some offset =>
    let (child, _) ← Text.splitBytes? path (start + offset)
    return child

/-- **The cuts never miss**: below `root` both places lie between two characters, and what is
cut out is the path one segment below `root`. -/
theorem childOfBytes?_eq_some (h : isWithin path root = true) (hne : path ≠ root) :
    childOfBytes? root path = some (childOf root path) := by
  obtain ⟨below, rfl⟩ := (isWithin_iff.1 h).resolve_left hne
  have hdot : Text.byteLength ['.'] = 1 := rfl
  have hstart : Text.splitBytes? (root ++ '.' :: below) (Text.byteLength root + 1) =
      some (root ++ ['.'], below) :=
    Text.splitBytes?_eq_some_iff.2 ⟨by simp, by rw [Text.byteLength_append, hdot]⟩
  rw [childOfBytes?, hstart, childOf_append_dot]
  cases hfind : Text.findBytes? '.' below with
  | none =>
    have hnone := Text.findBytes?_eq_none_iff.1 hfind
    have hall : below.takeWhile (· != '.') = below :=
      List.takeWhile_eq_self_iff.2 fun c hc => by
        simpa using fun heq : c = '.' => hnone (heq ▸ hc)
    simp [hfind, hall]
  | some offset =>
    have hend : Text.splitBytes? (root ++ '.' :: below) (Text.byteLength root + 1 + offset) =
        some (root ++ '.' :: below.takeWhile (· != '.'), below.dropWhile (· != '.')) := by
      refine Text.splitBytes?_eq_some_iff.2 ⟨by simp, ?_⟩
      rw [Text.byteLength_append, Text.byteLength_cons, Text.eq_byteLength_of_findBytes? hfind]
      exact (Nat.add_assoc _ 1 _).symm
    simp [hfind, hend]

end Path

namespace Query

/-- **Paths are worked on segment by segment.** Whatever characters the paths are made of, being
within a path, the path of a field, the path that operands share and the path one segment below
another are told by the segments. The shared path does not depend on the order of the operands,
and the places at which a path is cut are never missed. -/
theorem paths_by_segments :
    (∀ path root : Path, path.isWithin root = true ↔ root.segments <+: path.segments) ∧
    (∀ (field : String) (path : Path), nestedPath? field = some path ↔
      path ≠ [] ∧ ∃ last, Path.segments field.toList = path.segments ++ [last]) ∧
    (∀ (operands : List Filter) (q : Path), sharedPath? operands = some q ↔
      operands ≠ [] ∧ (∀ f ∈ operands, f.path?.isSome = true) ∧
        IsLongestCommonPrefix q.segments
          ((operands.filterMap Filter.path?).map Path.segments)) ∧
    (∀ operands operands' : List Filter, operands.Perm operands' →
      sharedPath? operands = sharedPath? operands') ∧
    ∀ path root : Path, path.isWithin root = true → path ≠ root →
      root.childOfBytes? path = some (root.childOf path) ∧
        (root.childOf path).segments = path.segments.take (root.segments.length + 1) :=
  ⟨fun _ _ => Path.isWithin_iff_segments, fun _ _ => nestedPath?_eq_some_iff,
    fun _ _ => sharedPath?_eq_some_iff, fun _ _ => sharedPath?_eq_of_perm,
    fun _ _ h hne => ⟨Path.childOfBytes?_eq_some h hne, Path.segments_childOf_eq_take h hne⟩⟩

/-- A path with an empty segment and characters of several bytes, and operands the other way
round. -/
theorem paths_by_segments_empty_segment :
    sharedPath? [.leaf ⟨"é.x", .compare .equal "1"⟩, .leaf ⟨"é..ü.y", .compare .equal "2"⟩] =
      sharedPath? [.leaf ⟨"é..ü.y", .compare .equal "2"⟩, .leaf ⟨"é.x", .compare .equal "1"⟩] ∧
    Path.childOfBytes? "é".toList "é..ü".toList = some "é.".toList ∧
      Path.segments "é.".toList = (Path.segments "é..ü".toList).take 2 := by
  obtain ⟨-, -, -, hperm, hchild⟩ := paths_by_segments
  exact ⟨hperm _ _ (List.Perm.swap _ _ _), hchild "é..ü".toList "é".toList (by decide) (by decide)⟩

end Query

end NestedFilter
