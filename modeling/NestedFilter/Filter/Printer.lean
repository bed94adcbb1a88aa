import NestedFilter.Filter

/-!
# The canonical text of a filter

The text shows the tree: every value stands in quotes and every operand of a group in
parentheses. Reading it gives the tree back where a text can say it at all.

More parentheses are written than are needed. An `and` within an `or` could do without its own,
as it binds stronger, and here it has them like any other operand; so the text of a tree nests as
many of them as the tree has levels below its root. A value is written as it is, for there are no
escapes, and one with a quote in it can not be said.
-/

namespace NestedFilter

/-- A value in the quotes of the filter language, which have no escapes. -/
def quotedValue (value : String) : List Char :=
  '\x27' :: value.toList ++ ['\x27']

/-- The canonical text of a leaf. -/
def Leaf.render (leaf : Leaf) : List Char :=
  match leaf.test with
  | .compare op value => leaf.field.toList ++ op.sign.toList ++ quotedValue value
  | .member op values =>
    leaf.field.toList ++ ' ' :: op.word.toList ++ " [".toList ++
      ", ".toList.intercalate (values.map quotedValue) ++ [']']

namespace Filter

/-- Texts in parentheses, joined by the word of a connective. -/
def joined (c : Connective) (texts : List (List Char)) : List Char :=
  (' ' :: c.word.toList ++ [' ']).intercalate (texts.map fun text => '(' :: text ++ [')'])

mutual

/-- The canonical text of a filter. -/
def render : Filter → List Char
  | .leaf l => l.render
  | .group c operands => joined c (renderList operands)

/-- The canonical texts of a list of filters. -/
def renderList : List Filter → List (List Char)
  | [] => []
  | f :: fs => f.render :: renderList fs

end

/-- The canonical text of a filter, as a string. -/
def toText (f : Filter) : String :=
  String.ofList f.render

end Filter

end NestedFilter
