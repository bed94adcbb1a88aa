import NestedFilter.Token

/-!
# Why a text is no filter

The causes for which tokens are not read as a filter, each with the token at which it
shows, if it does not show at the end of the text. The wording of a cause is
`NestedFilter.ParseError.message`, its place `NestedFilter.ParseError.span?`.

Where one kind of token only will do, the cause has the kind and the token that stands there
instead, or the kind alone if the tokens end (`NestedFilter.Wanted`). Behind a field any operator
will do, so that it has causes of its own. One more parenthesis than may be open at once is a
cause, though the tokens be right otherwise: `NestedFilter.maxNesting` is a limit of the language
and not of a machine that reads it.
-/

namespace NestedFilter

/-- The number of parentheses that may be open at once. -/
def maxNesting : Nat := 128

/-- What a token has to be, where only one kind of token will do. -/
inductive Wanted where
  /-- A field. -/
  | field
  /-- A value. -/
  | value
  /-- The bracket that opens a list. -/
  | lbracket
  /-- The bracket that closes a list. -/
  | rbracket
  /-- The parenthesis that closes a group. -/
  | rparen
deriving DecidableEq, Repr, Inhabited

/-- What is wanted, as messages show it: a field or value with an empty text. -/
def Wanted.describe : Wanted → String
  | .field => (Lexeme.field "").describe
  | .value => (Lexeme.value "").describe
  | .lbracket => Lexeme.lbracket.describe
  | .rbracket => Lexeme.rbracket.describe
  | .rparen => Lexeme.rparen.describe

/-- Why tokens are no filter. -/
inductive ParseError where
  /-- Another token stands where only one kind will do. -/
  | unexpected (wanted : Wanted) (found : Token)
  /-- The tokens end where one is wanted. -/
  | missing (wanted : Wanted)
  /-- The tokens end behind a field. -/
  | missingOperator (field : String)
  /-- What stands behind a field is no operator. -/
  | noOperator (found : Token)
  /-- A parenthesis opens although `NestedFilter.maxNesting` are open. -/
  | tooDeep (found : Token)
  /-- A token stands behind a whole filter. -/
  | trailing (found : Token)
deriving DecidableEq, Repr, Inhabited

namespace ParseError

/-- The error in words. -/
def message : ParseError → String
  | .unexpected wanted found =>
    "Expected " ++ wanted.describe ++ ", found " ++ found.lexeme.describe
  | .missing wanted => "Expected " ++ wanted.describe ++ ", but reached end of input"
  | .missingOperator field =>
    "Expected operator after field '" ++ field ++ "', but reached end of input"
  | .noOperator found =>
    "Expected comparison or membership operator, found " ++ found.lexeme.describe
  | .tooDeep _ => "Parentheses nested deeper than " ++ toString maxNesting ++ " levels"
  | .trailing found => "Unexpected token after end of query: " ++ found.lexeme.describe

/-- The token that is at fault; `none` at the end of the tokens. -/
def found? : ParseError → Option Token
  | .unexpected _ found | .noOperator found | .tooDeep found | .trailing found => some found
  | .missing _ | .missingOperator _ => none

/-- The place of the token that is at fault; `none` at the end of the tokens. -/
def span? (e : ParseError) : Option Span :=
  e.found?.map (·.span)

end ParseError

end NestedFilter
