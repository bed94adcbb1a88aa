import NestedFilter.Filter
import NestedFilter.Text.Quoted

/-!
# The outline of a filter

The outline spells a tree out for a reader: every node by its name, every part on a line
of its own, four blanks further in than what it is part of, with a comma behind it.
`NestedFilter.Outline` is the form of such texts, and
`NestedFilter.Filter.outline` gives a filter that form.
-/

namespace NestedFilter

/-- A text laid out by its parts. -/
inductive Outline where
  /-- A text without parts. -/
  | atom (text : String)
  /-- A name with labelled parts in braces. -/
  | record (name : String) (fields : List (String × Outline))
  /-- A name with one part in parentheses. -/
  | wrapped (name : String) (part : Outline)
  /-- Parts in square brackets. -/
  | list (parts : List Outline)
deriving Inhabited

namespace Outline

/-- Parts between two brackets, each on a line of its own with a comma behind it; without
parts the brackets stand next to each other. -/
def enclosed (left right : String) (level : Nat) (parts : List String) : String :=
  if parts.isEmpty then left ++ right
  else
    left ++ "\n" ++
      "".intercalate (parts.map fun part =>
        String.ofList (List.replicate (4 * (level + 1)) ' ') ++ part ++ ",\n") ++
      String.ofList (List.replicate (4 * level) ' ') ++ right

mutual

/-- The text of an outline whose brackets stand at the given level. -/
def renderAt (level : Nat) : Outline → String
  | .atom text => text
  | .record name fields =>
    name ++ enclosed " \x7b" "\x7d" level (renderFields (level + 1) fields)
  | .wrapped name part => name ++ enclosed "(" ")" level [part.renderAt (level + 1)]
  | .list parts => enclosed "[" "]" level (renderList (level + 1) parts)

/-- The texts of labelled parts. -/
def renderFields (level : Nat) : List (String × Outline) → List String
  | [] => []
  | (label, part) :: rest => (label ++ ": " ++ part.renderAt level) :: renderFields level rest

/-- The texts of parts. -/
def renderList (level : Nat) : List Outline → List String
  | [] => []
  | part :: rest => part.renderAt level :: renderList level rest

end

/-- The text of an outline. -/
def render (o : Outline) : String :=
  o.renderAt 0

end Outline

/-- The outline of a text: the text in quotes. -/
def Outline.ofText (s : String) : Outline :=
  .atom (Text.quoted s)

/-- The outline of a leaf. -/
def Leaf.outline (leaf : Leaf) : Outline :=
  let field : Outline := .wrapped "Field" (.ofText leaf.field)
  match leaf.test with
  | .compare op value =>
    .record "Comparison" [("field", field), ("op", .atom op.name), ("value", .ofText value)]
  | .member op values =>
    .record "Membership"
      [("field", field), ("op", .atom op.name), ("values", .list (values.map .ofText))]

namespace Filter

mutual

/-- The outline of a filter. -/
def outline : Filter → Outline
  | .leaf l => l.outline
  | .group c operands => .wrapped c.name (.list (outlines operands))

/-- The outlines of a list of filters. -/
def outlines : List Filter → List Outline
  | [] => []
  | f :: fs => f.outline :: outlines fs

end

end Filter

end NestedFilter
