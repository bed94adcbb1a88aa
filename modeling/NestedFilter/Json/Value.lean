/-!
# JSON values and their text

The values this library writes: numbers are natural, and the members of an object are
unordered, so that both renderings list them by ascending key.
`NestedFilter.Json.compact` writes no blank at all; `NestedFilter.Json.pretty` puts every
element and member on a line of its own, indented by two spaces a level.

Members are kept as a list all the same, in the order in which they were put together, and it is
only in a rendering that they are sorted. Sorting is by the characters of the keys, and stable. An
array or object without parts has its two brackets next to each other in both renderings.

Texts are escaped as little as the format allows (`NestedFilter.Json.escape`): quotes, backslashes
and the control characters, five of which have a short escape. Any other character stands for
itself, letters of all scripts included.
-/

namespace NestedFilter

/-- A JSON value without negative or fractional numbers. -/
inductive Json where
  /-- The value `null`. -/
  | null
  /-- A truth value. -/
  | bool (b : Bool)
  /-- A natural number. -/
  | number (n : Nat)
  /-- A text. -/
  | string (s : String)
  /-- A list of values. -/
  | array (elements : List Json)
  /-- Values under keys, in no particular order. -/
  | object (members : List (String × Json))
deriving Inhabited

namespace Json

/-- An object with a single member. -/
def single (key : String) (value : Json) : Json :=
  .object [(key, value)]

/-- A list of texts. -/
def strings (texts : List String) : Json :=
  .array (texts.map .string)

/-! ### Texts in double quotes -/

/-- A character as it stands in a JSON text: the double quote, the backslash and the
control characters below U+0020 are escaped, everything else is written as it is. -/
def escape (c : Char) : List Char :=
  if c = '\x22' then ['\\', '\x22']
  else if c = '\\' then ['\\', '\\']
  else if c = '\x08' then ['\\', 'b']
  else if c = '\t' then ['\\', 't']
  else if c = '\n' then ['\\', 'n']
  else if c = '\x0c' then ['\\', 'f']
  else if c = '\r' then ['\\', 'r']
  else if c.toNat < 0x20 then
    ['\\', 'u', '0', '0', Nat.digitChar (c.toNat / 16), Nat.digitChar (c.toNat % 16)]
  else [c]

/-- A text in double quotes. -/
def quote (s : String) : String :=
  String.ofList ('\x22' :: s.toList.flatMap escape ++ ['\x22'])

/-! ### Order of members -/

/-- The members by ascending key, keys being compared character by character. -/
def byKey {α : Type} (members : List (String × α)) : List (String × α) :=
  members.mergeSort fun a b => !decide (b.1 < a.1)

/-! ### The two renderings -/

mutual

/-- The value on one line, without blanks. -/
def compact : Json → String
  | .null => "null"
  | .bool b => if b then "true" else "false"
  | .number n => toString n
  | .string s => quote s
  | .array elements => "[" ++ ",".intercalate (compactElements elements) ++ "]"
  | .object members =>
    "\x7b" ++ ",".intercalate ((byKey (compactMembers members)).map fun (key, text) =>
      quote key ++ ":" ++ text) ++ "\x7d"

/-- The renderings of the elements of an array. -/
def compactElements : List Json → List String
  | [] => []
  | value :: rest => value.compact :: compactElements rest

/-- The members of an object with their renderings. -/
def compactMembers : List (String × Json) → List (String × String)
  | [] => []
  | (key, value) :: rest => (key, value.compact) :: compactMembers rest

end

/-- A line end followed by the indentation of a level. -/
def newline (level : Nat) : String :=
  String.ofList ('\n' :: List.replicate (2 * level) ' ')

/-- Parts between two brackets, each on a line of its own one level further in; without
parts the brackets stand next to each other. -/
def bracketed (left right : String) (level : Nat) (parts : List String) : String :=
  if parts.isEmpty then left ++ right
  else left ++ newline (level + 1) ++ ("," ++ newline (level + 1)).intercalate parts ++
    newline level ++ right

mutual

/-- The value over several lines, its own brackets standing at the given level. -/
def prettyAt (level : Nat) : Json → String
  | .null => "null"
  | .bool b => if b then "true" else "false"
  | .number n => toString n
  | .string s => quote s
  | .array elements => bracketed "[" "]" level (prettyElements (level + 1) elements)
  | .object members =>
    bracketed "\x7b" "\x7d" level
      ((byKey (prettyMembers (level + 1) members)).map fun (key, text) =>
        quote key ++ ": " ++ text)

/-- The renderings of the elements of an array. -/
def prettyElements (level : Nat) : List Json → List String
  | [] => []
  | value :: rest => value.prettyAt level :: prettyElements level rest

/-- The members of an object with their renderings. -/
def prettyMembers (level : Nat) : List (String × Json) → List (String × String)
  | [] => []
  | (key, value) :: rest => (key, value.prettyAt level) :: prettyMembers level rest

end

/-- The value over several lines. -/
def pretty (value : Json) : String :=
  value.prettyAt 0

end Json

end NestedFilter
