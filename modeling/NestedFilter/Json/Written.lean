/-!
# JSON as it is written

What a JSON text says before anything is made of it: a number is still its literal, a
text is still its body with the escapes, and an object has its members in the order and
the multiplicity of the text. A reader that does not care for a value need not decode it,
so a body whose escapes denote no text, such as half of a surrogate pair, is refused only
where the text is asked for, by `NestedFilter.Json.Written.decode?`.

Records are read of such values by the names of their fields
(`NestedFilter.Json.Written.fields?`). An object gives fields by its keys, in any order, and keys
that are no field are passed over, values and all; an array gives them by position. What is not
given is absent, and the reader of a record says what stands for an absent field
(`NestedFilter.Json.Written.field?`). Every key is decoded, since it has to be known whether it is
a field, and a field that is given twice spoils the record.
-/

namespace NestedFilter

namespace Json

/-- A JSON value as written. -/
inductive Written where
  /-- The literal `null`. -/
  | null
  /-- One of the literals `true` and `false`. -/
  | bool (b : Bool)
  /-- A number, by its characters. -/
  | number (literal : List Char)
  /-- A text, by the characters between its quotes. -/
  | string (body : List Char)
  /-- The elements of an array. -/
  | array (elements : List Written)
  /-- The members of an object, each key by the characters between its quotes. -/
  | object (members : List (List Char × Written))
deriving Inhabited

namespace Written

/-! ### Hexadecimal digits -/

/-- The value of a hexadecimal digit, of either case. -/
def hexValue? (c : Char) : Option Nat :=
  if '0' ≤ c ∧ c ≤ '9' then some (c.toNat - 0x30)
  else if 'a' ≤ c ∧ c ≤ 'f' then some (c.toNat - 0x61 + 10)
  else if 'A' ≤ c ∧ c ≤ 'F' then some (c.toNat - 0x41 + 10)
  else none

/-- The number that four hexadecimal digits write. -/
def unit? (a b c d : Char) : Option Nat :=
  [a, b, c, d].foldlM (fun n c => (hexValue? c).map (n * 16 + ·)) 0

/-! ### Decoding a text -/

/-- The character that a one-letter escape stands for. -/
def letterEscape? (c : Char) : Option Char :=
  if c = '\x22' ∨ c = '\\' ∨ c = '/' then some c
  else if c = 'b' then some '\x08'
  else if c = 'f' then some '\x0c'
  else if c = 'n' then some '\n'
  else if c = 'r' then some '\r'
  else if c = 't' then some '\t'
  else none

/-- One element of a text's body: a character, or a 16-bit unit given by its number. -/
inductive Item where
  /-- A character, plain or by a one-letter escape. -/
  | char (c : Char)
  /-- A unit, by `\u` and four digits. -/
  | unit (n : Nat)

/-- The elements of a body, `none` if an escape is no escape. -/
def items? : List Char → Option (List Item)
  | [] => some []
  | '\\' :: 'u' :: a :: b :: c :: d :: rest => do
    return .unit (← unit? a b c d) :: (← items? rest)
  | '\\' :: e :: rest => do
    return .char (← letterEscape? e) :: (← items? rest)
  | c :: rest => do
    return .char c :: (← items? rest)

/-- The unit is the first half of a surrogate pair. -/
def isHighSurrogate (n : Nat) : Bool := 0xD800 ≤ n && n < 0xDC00

/-- The unit is the second half of a surrogate pair. -/
def isLowSurrogate (n : Nat) : Bool := 0xDC00 ≤ n && n < 0xE000

/-- The text that the elements spell; halves of surrogate pairs have to stand in pairs. -/
def text? : List Item → Option (List Char)
  | [] => some []
  | .char c :: rest => (text? rest).map (c :: ·)
  | .unit n :: rest =>
    if isHighSurrogate n then
      match rest with
      | .unit m :: rest =>
        if isLowSurrogate m then
          (text? rest).map (Char.ofNat (0x10000 + (n - 0xD800) * 0x400 + (m - 0xDC00)) :: ·)
        else none
      | _ => none
    else if isLowSurrogate n then none
    else (text? rest).map (Char.ofNat n :: ·)

/-- The text that a body denotes, `none` if it denotes none. -/
def decode? (body : List Char) : Option String := do
  return String.ofList (← text? (← items? body))

/-! ### Reading simple values -/

/-- The text, if the value is one. -/
def string? : Written → Option String
  | .string body => decode? body
  | _ => none

/-- The truth value, if the value is one. -/
def bool? : Written → Option Bool
  | .bool b => some b
  | _ => none

/-- The number that decimal digits write. -/
def digitsValue (digits : List Char) : Nat :=
  digits.foldl (fun n c => n * 10 + (c.toNat - 0x30)) 0

/-- The number, if it is written with digits alone and fits a machine word of 64 bits. -/
def word? : Written → Option Nat
  | .number literal =>
    if literal.all Char.isDigit && digitsValue literal < UInt64.size then some (digitsValue literal)
    else none
  | _ => none

/-- The value read by `read?`, or `none` for `null`. -/
def nullable? {α : Type} (read? : Written → Option α) : Written → Option (Option α)
  | .null => some none
  | value => (read? value).map some

/-- The elements of an array, each read by `read?`. -/
def list? {α : Type} (read? : Written → Option α) : Written → Option (List α)
  | .array elements => elements.mapM read?
  | _ => none

/-! ### Records -/

/-- What a record's members give for its fields, in the order of `names`: every key has to
denote a text, keys that are no field are passed over, and no field may be given twice. -/
def fieldsOfMembers? (names : List String) (members : List (List Char × Written)) :
    Option (List (Option Written)) := do
  let keyed ← members.mapM fun (key, value) => return ((← decode? key), value)
  names.mapM fun name =>
    match keyed.filter fun (key, _) => key == name with
    | [] => some none
    | [(_, value)] => some (some value)
    | _ => none

/-- What a list of elements gives for a record's fields, which it names by position:
there may be fewer elements than fields, but not more. -/
def fieldsOfElements? (names : List String) (elements : List Written) :
    Option (List (Option Written)) :=
  if elements.length ≤ names.length then
    some (elements.map some ++ List.replicate (names.length - elements.length) none)
  else none

/-- What the value gives for a record with the fields `names`: an object gives them by
name, an array by position. -/
def fields? (names : List String) : Written → Option (List (Option Written))
  | .object members => fieldsOfMembers? names members
  | .array elements => fieldsOfElements? names elements
  | _ => none

/-- A field that may be absent: `absent` then stands for it. -/
def field? {α : Type} (read? : Written → Option α) (absent : α) : Option Written → Option α
  | none => some absent
  | some value => read? value

end Written

end Json

end NestedFilter
