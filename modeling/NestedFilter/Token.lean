import NestedFilter.Text.Quoted

/-!
# Tokens of the filter language

A filter compares fields with values. A comparison has one value, a membership test a
list of them, and conditions in parentheses are joined by connectives. This file holds
the operators, which the tree of a filter shares, the lexemes they and everything else
are written as, and tokens: lexemes with the place they stand at.

A lexeme is what a token says. A value is the same lexeme with quotes and without, and what fits
nowhere is all one lexeme, whatever its characters are; so the text can not be had back from the
lexemes. The place can tell: it is a stretch of the text in bytes, quotes included.

Operators have two names, the sign or word that is written in a filter, and the name that messages
and outlines call them by. A message shows the lexeme that was found by its name, with its text if
it is a field or a value (`NestedFilter.Lexeme.describe`).
-/

namespace NestedFilter

/-- An operator between a field and one value. -/
inductive Comparison where
  /-- The field has the value. -/
  | equal
  /-- The field does not have the value. -/
  | notEqual
  /-- The field is above the value. -/
  | greater
  /-- The field is below the value. -/
  | less
  /-- The field is the value or above it. -/
  | greaterOrEqual
  /-- The field is the value or below it. -/
  | lessOrEqual
  /-- The field matches the value, which is a regular expression. -/
  | matching
deriving DecidableEq, Repr, Inhabited

/-- An operator between a field and a list of values. -/
inductive Membership where
  /-- The field is one of the values. -/
  | isIn
  /-- The field is none of the values. -/
  | notIn
deriving DecidableEq, Repr, Inhabited

/-- What joins conditions. -/
inductive Connective where
  /-- All conditions hold. -/
  | and
  /-- Some condition holds. -/
  | or
deriving DecidableEq, Repr, Inhabited

/-- The sign of a comparison in a filter. -/
def Comparison.sign : Comparison → String
  | .equal => "="
  | .notEqual => "!="
  | .greater => ">"
  | .less => "<"
  | .greaterOrEqual => ">="
  | .lessOrEqual => "<="
  | .matching => "=~"

/-- The word for a membership test in a filter. -/
def Membership.word : Membership → String
  | .isIn => "in"
  | .notIn => "not_in"

/-- The word for a connective in a filter. -/
def Connective.word : Connective → String
  | .and => "and"
  | .or => "or"

/-- The name of a comparison in messages. -/
def Comparison.name : Comparison → String
  | .equal => "Eq"
  | .notEqual => "NotEq"
  | .greater => "Gt"
  | .less => "Lt"
  | .greaterOrEqual => "Gte"
  | .lessOrEqual => "Lte"
  | .matching => "Match"

/-- The name of a membership test in messages. -/
def Membership.name : Membership → String
  | .isIn => "In"
  | .notIn => "NotIn"

/-- The name of a connective in messages. -/
def Connective.name : Connective → String
  | .and => "And"
  | .or => "Or"

/-! ### Lexemes -/

/-- What a token is, wherever it stands. -/
inductive Lexeme where
  /-- One of the words `and` and `or`. -/
  | connective (c : Connective)
  /-- A comparison sign. -/
  | comparison (op : Comparison)
  /-- One of the words `in` and `not_in`. -/
  | membership (op : Membership)
  /-- The name of a field. -/
  | field (name : String)
  /-- A value, without the quotes it may stand in. -/
  | value (text : String)
  /-- The sign `(`. -/
  | lparen
  /-- The sign `)`. -/
  | rparen
  /-- The sign `[`. -/
  | lbracket
  /-- The sign `]`. -/
  | rbracket
  /-- The sign `,`. -/
  | comma
  /-- A character that fits nowhere, or a quote that is never closed. -/
  | illegal
deriving DecidableEq, Repr, Inhabited

/-- The lexeme as messages show it: its name, a field or value with its text. -/
def Lexeme.describe : Lexeme → String
  | .connective c => c.name
  | .comparison op => op.name
  | .membership op => op.name
  | .field name => "Field(" ++ Text.quoted name ++ ")"
  | .value text => "Value(" ++ Text.quoted text ++ ")"
  | .lparen => "LParen"
  | .rparen => "RParen"
  | .lbracket => "LBracket"
  | .rbracket => "RBracket"
  | .comma => "Comma"
  | .illegal => "Illegal"

/-! ### Tokens -/

/-- A stretch of a text, by the offsets of its first byte and of the byte behind it. -/
structure Span where
  /-- The offset of the first byte. -/
  start : Nat
  /-- The offset of the byte behind the last. -/
  stop : Nat
deriving DecidableEq, Repr, Inhabited

/-- A lexeme and the place where it stands. -/
structure Token where
  /-- What the token is. -/
  lexeme : Lexeme
  /-- Where it stands. -/
  span : Span
deriving DecidableEq, Repr, Inhabited

end NestedFilter
