import NestedFilter.Text.Bytes
import NestedFilter.Text.Cluster

/-!
# Backspaces

A line that was typed ahead may hold backspaces. A backspace takes back what was typed
last: one grapheme cluster, that is a character together with all that was typed onto it.
The clusters are those of the line with its backspaces.

How much a backspace takes back is kept in one byte: the size of the cluster modulo 256.
Of a cluster of 256 bytes or more it takes back only the end, and where that would cut a
character in two, the line cannot be read.
-/

namespace NestedFilter

namespace Text

/-- The character that takes back what was typed last. -/
def backspace : Char := '\x08'

/-- A line as far as it was typed. -/
structure Typed where
  /-- What the line holds, newest first. -/
  text : List Char
  /-- How many bytes each backspace to come would take back, newest first. -/
  sizes : List UInt8
deriving DecidableEq, Repr, Inhabited

/-- Type a cluster. A backspace with nothing before it does nothing; `none` if one cuts a
character. -/
def Typed.push? (typed : Typed) (cluster : List Char) : Option Typed :=
  if cluster = [backspace] then
    match typed.sizes with
    | [] => some typed
    | size :: sizes => (splitBytes? typed.text size.toNat).map fun (_, kept) => ⟨kept, sizes⟩
  else some ⟨cluster.reverse ++ typed.text, (byteLength cluster).toUInt8 :: typed.sizes⟩

/-- What a line holds once its backspaces have taken effect; `none` if one of them cuts a
character. -/
def applyBackspaces? (cs : List Char) : Option (List Char) :=
  ((clusters cs).foldlM Typed.push? ⟨[], []⟩).map (·.text.reverse)

end Text

end NestedFilter
