import NestedFilter.Text.BreakClass

/-!
# Grapheme clusters

A text falls into clusters, each of which a reader takes for one character. The edges are
those of the *extended* grapheme clusters of Unicode: a place is no edge if one of the
rules in `NestedFilter.Text.Before.joins` holds the characters at it together.

The rules look back, and some of them as far as they like: whether a regional indicator goes
on with the one before it depends on how many stand there in a row, and a joiner holds two
pictographs together across all the marks between them. But what they need to know of the
text before a place is no more than `NestedFilter.Text.Before`, a class and four marks, which
grows by one character at a time. So the clusters are found in one pass from the left
(`NestedFilter.Text.clustersAfter`), and no rule has to read the text again.
-/

namespace NestedFilter

namespace Text

/-! ### Classes that hold together -/

/-- A character that always stands alone, the two line ends included. -/
def BreakClass.isControl : BreakClass → Bool
  | .control | .carriageReturn | .lineFeed => true
  | _ => false

/-- A mark that other marks after it may go through: one that has no width of its own. -/
def BreakClass.extending : BreakClass → Bool
  | .mark | .linker | .nonJoiner => true
  | _ => false

/-- A character that belongs to the one before it. -/
def BreakClass.attaches : BreakClass → Bool
  | .joiner | .spacingMark => true
  | k => k.extending

/-- Two parts of one Hangul syllable. -/
def BreakClass.conjoins : BreakClass → BreakClass → Bool
  | .leading, .leading | .leading, .vowel => true
  | .leading, .openSyllable | .leading, .closedSyllable => true
  | .openSyllable, .vowel | .openSyllable, .trailing => true
  | .vowel, .vowel | .vowel, .trailing => true
  | .closedSyllable, .trailing | .trailing, .trailing => true
  | _, _ => false

/-! ### The text before a place -/

/-- What stands before a place, as far as it matters for an edge there. -/
structure Before where
  /-- The class of the character right before the place. -/
  last : BreakClass
  /-- An odd number of regional indicators stands right before. -/
  oddRegional : Bool
  /-- A pictograph stands before, then only extending marks, then perhaps a joiner. -/
  pictograph : Bool
  /-- A consonant stands before, then only marks that a conjunct may hold. -/
  conjunct : Bool
  /-- It is a conjunct, and one of its marks is a linker. -/
  linked : Bool
deriving DecidableEq, Repr, Inhabited

/-- Nothing stands before the start. There is an edge, as after a control. -/
def Before.start : Before :=
  ⟨.control, false, false, false, false⟩

/-- What stands before the next place, one character of the given class later. -/
def Before.push (before : Before) (k : BreakClass) : Before where
  last := k
  oddRegional := k == .regional && !before.oddRegional
  pictograph := k == .pictograph ||
    before.pictograph && before.last != .joiner && (k.extending || k == .joiner)
  conjunct := k == .consonant || before.conjunct && (k == .mark || k == .linker || k == .joiner)
  linked := before.conjunct && k == .linker ||
    before.linked && (k == .mark || k == .linker || k == .joiner)

/-- A character of the given class goes on with the cluster before it. -/
def Before.joins (before : Before) (k : BreakClass) : Bool :=
  before.last == .carriageReturn && k == .lineFeed ||
  !before.last.isControl && !k.isControl &&
    (before.last.conjoins k || k.attaches || before.last == .prepended ||
      k == .consonant && before.linked ||
      k == .pictograph && before.last == .joiner && before.pictograph ||
      k == .regional && before.oddRegional)

/-! ### Clusters -/

/-- What a text adds to the cluster before it, and its own clusters. -/
def clustersAfter (before : Before) : List Char → List Char × List (List Char)
  | [] => ([], [])
  | c :: cs =>
    let k := BreakClass.ofChar c
    let (cluster, more) := clustersAfter (before.push k) cs
    if before.joins k then (c :: cluster, more) else ([], (c :: cluster) :: more)

/-- The clusters of a text. -/
def clusters (cs : List Char) : List (List Char) :=
  (clustersAfter .start cs).2

end Text

end NestedFilter
