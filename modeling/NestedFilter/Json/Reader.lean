import NestedFilter.Json.Written

/-!
# Reading a JSON text

A text is cut into symbols – brackets, the colon, the comma and the values that have no
parts – and the symbols drive a machine that keeps the arrays and objects still open in a
list, so that a text may nest to any depth. The reading is strict: nothing but the four
blanks of the format between symbols, no comma after the last element, nothing after the
value.

Every function that splits something off a text returns it with what is left, and fails if it
should be there and is not. A number is split off as the characters that write it, in three parts:
a zero alone or digits that start with none, then a fraction and an exponent if there are any.
What it is worth is not asked here. A text is split off as its body, in which escapes are looked at
only so far as to know that they are escapes, and where the body ends.

The machine has one state for each thing that may come next (`NestedFilter.Json.Expectation`). An
array or object has a state for its first part, where it may end at once, and none in which it may
end behind a comma.
-/

namespace NestedFilter

namespace Json

/-! ### Symbols -/

/-- A symbol of a JSON text. -/
inductive Symbol where
  /-- The bracket that opens an object. -/
  | openObject
  /-- The bracket that closes an object. -/
  | closeObject
  /-- The bracket that opens an array. -/
  | openArray
  /-- The bracket that closes an array. -/
  | closeArray
  /-- What separates a key from its value. -/
  | colon
  /-- What separates elements and members. -/
  | comma
  /-- A value without parts. -/
  | atom (value : Written)

namespace Symbol

/-- The blanks that may stand between symbols. -/
def isSpace (c : Char) : Bool :=
  c == ' ' || c == '\t' || c == '\n' || c == '\r'

/-- Split off the body of a text up to its closing quote, checking that it holds no
control character and that its escapes are well formed. -/
def body? : List Char → Option (List Char × List Char)
  | [] => none
  | '\x22' :: rest => some ([], rest)
  | '\\' :: e :: rest =>
    if (Written.letterEscape? e).isSome || e == 'u' &&
        (rest.take 4).length == 4 && (rest.take 4).all (Written.hexValue? · |>.isSome) then
      (body? rest).map fun (body, rest) => ('\\' :: e :: body, rest)
    else none
  | c :: rest =>
    if c.toNat < 0x20 || c == '\\' then none
    else (body? rest).map fun (body, rest) => (c :: body, rest)

/-- Split off digits, of which there has to be one. -/
def digits? (cs : List Char) : Option (List Char × List Char) :=
  match cs.takeWhile Char.isDigit with
  | [] => none
  | ds => some (ds, cs.dropWhile Char.isDigit)

/-- Split off the digits before the point: a zero alone, or digits that start with none. -/
def whole? : List Char → Option (List Char × List Char)
  | '0' :: rest => some (['0'], rest)
  | cs => digits? cs

/-- Split off the point and the digits behind it, if there are any. -/
def fraction? : List Char → Option (List Char × List Char)
  | '.' :: rest => (digits? rest).map fun (ds, rest) => ('.' :: ds, rest)
  | cs => some ([], cs)

/-- Split off the sign of an exponent, if there is one. -/
def sign : List Char → List Char × List Char
  | '+' :: rest => (['+'], rest)
  | '-' :: rest => (['-'], rest)
  | cs => ([], cs)

/-- Split off the exponent, if there is one. -/
def exponent? : List Char → Option (List Char × List Char)
  | [] => some ([], [])
  | e :: rest =>
    if e == 'e' || e == 'E' then
      (digits? (sign rest).2).map fun (ds, tail) => (e :: (sign rest).1 ++ ds, tail)
    else some ([], e :: rest)

/-- Split off a number without its minus sign. -/
def magnitude? (cs : List Char) : Option (List Char × List Char) := do
  let (whole, cs) ← whole? cs
  let (fraction, cs) ← fraction? cs
  let (exponent, cs) ← exponent? cs
  return (whole ++ fraction ++ exponent, cs)

/-- Split off the given word. -/
def word? (word : String) (value : Written) (cs : List Char) : Option (Symbol × List Char) :=
  if word.toList.isPrefixOf cs then some (.atom value, cs.drop word.length) else none

/-- Split off the symbol that starts with `c`. -/
def next? (c : Char) (rest : List Char) : Option (Symbol × List Char) :=
  match c with
  | '\x7b' => some (.openObject, rest)
  | '\x7d' => some (.closeObject, rest)
  | '[' => some (.openArray, rest)
  | ']' => some (.closeArray, rest)
  | ':' => some (.colon, rest)
  | ',' => some (.comma, rest)
  | '\x22' => (body? rest).map fun (body, rest) => (.atom (.string body), rest)
  | '-' => (magnitude? rest).map fun (ds, rest) => (.atom (.number ('-' :: ds)), rest)
  | 'n' => word? "ull" .null rest
  | 't' => word? "rue" (.bool true) rest
  | 'f' => word? "alse" (.bool false) rest
  | _ => (magnitude? (c :: rest)).map fun (ds, rest) => (.atom (.number ds), rest)

/-- Cut a text into symbols, at most `limit` of them and blanks between them; `none` if
something is no symbol, or if text is left. -/
def readUpTo? : Nat → List Char → Option (List Symbol)
  | _, [] => some []
  | 0, _ :: _ => none
  | limit + 1, c :: rest =>
    if isSpace c then readUpTo? limit rest
    else (next? c rest).bind fun (symbol, rest) => (readUpTo? limit rest).map (symbol :: ·)

/-- Cut a text into symbols; a text has no more symbols and blanks than characters. -/
def read? (cs : List Char) : Option (List Symbol) :=
  readUpTo? cs.length cs

end Symbol

/-! ### The machine -/

/-- A value still open. What it holds already is listed newest first. -/
inductive Frame where
  /-- An array with the elements before the one being read. -/
  | array (elements : List Written)
  /-- An object with the members before the one being read, and that one's key. -/
  | object (members : List (List Char × Written)) (key : List Char)

/-- What the machine expects next. -/
inductive Expectation where
  /-- A value. -/
  | value
  /-- The first element of an array, or its end. -/
  | firstElement
  /-- The first key of an object, or its end. -/
  | firstKey
  /-- A further key of an object with the given members. -/
  | key (members : List (List Char × Written))
  /-- The colon behind a key. -/
  | colon (members : List (List Char × Written)) (key : List Char)
  /-- After a value: the end of the text, a comma, or the end of what is open. -/
  | after (value : Written)

/-- The state of the machine: the open values, innermost first, and what comes next. -/
structure Reading where
  /-- The open values, innermost first. -/
  frames : List Frame
  /-- What comes next. -/
  expectation : Expectation

namespace Reading

/-- Take a symbol at which a value starts. -/
def enter? (frames : List Frame) : Symbol → Option Reading
  | .openArray => some ⟨frames, .firstElement⟩
  | .openObject => some ⟨frames, .firstKey⟩
  | .atom value => some ⟨frames, .after value⟩
  | _ => none

/-- Take a symbol that follows a value. -/
def leave? (value : Written) (frames : List Frame) (symbol : Symbol) : Option Reading :=
  match frames, symbol with
  | .array elements :: frames, .comma => some ⟨.array (value :: elements) :: frames, .value⟩
  | .array elements :: frames, .closeArray =>
    some ⟨frames, .after (.array (value :: elements).reverse)⟩
  | .object members key :: frames, .comma => some ⟨frames, .key ((key, value) :: members)⟩
  | .object members key :: frames, .closeObject =>
    some ⟨frames, .after (.object ((key, value) :: members).reverse)⟩
  | _, _ => none

/-- Take a symbol; `none` if it may not stand there. -/
def step? (state : Reading) (symbol : Symbol) : Option Reading :=
  match state.expectation, symbol with
  | .value, _ => enter? state.frames symbol
  | .firstElement, .closeArray => some ⟨state.frames, .after (.array [])⟩
  | .firstElement, _ => enter? (.array [] :: state.frames) symbol
  | .firstKey, .closeObject => some ⟨state.frames, .after (.object [])⟩
  | .firstKey, .atom (.string key) => some ⟨state.frames, .colon [] key⟩
  | .key members, .atom (.string key) => some ⟨state.frames, .colon members key⟩
  | .colon members key, .colon => some ⟨.object members key :: state.frames, .value⟩
  | .after value, _ => leave? value state.frames symbol
  | _, _ => none

/-- The value read, if the text may end here. -/
def value? (state : Reading) : Option Written :=
  match state.frames, state.expectation with
  | [], .after value => some value
  | _, _ => none

end Reading

/-- The value that a text writes, `none` if it is no JSON text. -/
def read? (s : String) : Option Written := do
  let symbols ← Symbol.read? s.toList
  let state ← symbols.foldlM Reading.step? ⟨[], .value⟩
  state.value?

end Json

end NestedFilter
