import NestedFilter.Json.Reader
import NestedFilter.Text.Blank
import NestedFilter.Token.Lexer

/-!
# Sort orders

A page of results can be sorted by one field. The specification is the name of the field,
with a `-` in front for descending order; a `+` in front, and blanks around it all, change
nothing.

The name is a word of the filter language, made of the characters that fields are made of, and
here it may be a keyword. One sign is taken off the front, and what is left has to be the name;
there is no second sign, and no blank between the sign and the name. A direction can also come by
itself, as a JSON value (`NestedFilter.SortOrder.ofWritten?`).
-/

namespace NestedFilter

/-- A direction of sorting. -/
inductive SortOrder where
  /-- Smallest first. -/
  | ascending
  /-- Greatest first. -/
  | descending
deriving DecidableEq, Repr, Inhabited

namespace SortOrder

/-- The word for a direction. -/
def word : SortOrder → String
  | .ascending => "asc"
  | .descending => "desc"

/-- The direction of a word. -/
def ofWord? (s : String) : Option SortOrder :=
  if s = "asc" then some .ascending
  else if s = "desc" then some .descending
  else none

/-- The direction that a JSON value gives: the word, or an object whose only member has
the word for a key and no value. -/
def ofWritten? : Json.Written → Option SortOrder
  | .string body => do ofWord? (← Json.Written.decode? body)
  | .object [(key, .null)] => do ofWord? (← Json.Written.decode? key)
  | _ => none

end SortOrder

/-- A field to sort by and the direction. -/
structure SortSpec where
  /-- The name of the field. -/
  field : String
  /-- The direction. -/
  order : SortOrder
deriving DecidableEq, Repr, Inhabited

namespace SortSpec

/-- The direction that a sign in front asks for, and what stands behind the sign. -/
def splitSign : List Char → SortOrder × List Char
  | '-' :: name => (.descending, name)
  | '+' :: name => (.ascending, name)
  | name => (.ascending, name)

/-- The sort order that a text specifies. -/
def parse? (s : String) : Option SortSpec :=
  let (order, name) := splitSign (Text.trim s.toList)
  if !name.isEmpty && name.all Lexer.isWordChar then some ⟨String.ofList name, order⟩ else none

/-- The text that specifies a sort order. -/
def toText (spec : SortSpec) : String :=
  match spec.order with
  | .ascending => spec.field
  | .descending => "-" ++ spec.field

end SortSpec

end NestedFilter
