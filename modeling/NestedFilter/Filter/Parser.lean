import NestedFilter.Filter
import NestedFilter.Filter.ParseError
import NestedFilter.Token.Lexer

/-!
# From tokens to a filter

A filter is a condition on one field, or a chain: filters in parentheses joined by `and`
and `or`, of which the last may be a condition without parentheses.

    filter    := "(" filter ")" (("and" | "or") filter)? | condition
    condition := field comparison value
               | field ("in" | "not_in") "[" value ("," value)* "]"

Tokens are taken one by one by a machine. Its state (`NestedFilter.Reading`) is what may
come next, the chain being read, and the chains around it that wait for a parenthesis to
be closed; every state that a token leads to can still become a filter, so an error is
found at the first token that cannot be part of one.

A parser (`NestedFilter.Parser`) keeps its place, so that it can be asked for a filter
again after a filter or an error. A parenthesis that an error has left open counts as
nested for good.
-/

namespace NestedFilter

/-! ### Chains being read -/

/-- The part of a chain that has been read, everything listed newest first. -/
structure Chain where
  /-- The runs that an `or` has ended. -/
  ended : List (List Filter)
  /-- The run being read. -/
  current : List Filter
deriving DecidableEq, Repr, Inhabited

namespace Chain

/-- A chain of which nothing has been read, with one run that is still empty. -/
def empty : Chain :=
  ⟨[], []⟩

/-- The chain with a filter behind it. -/
def push (c : Chain) (f : Filter) : Chain :=
  { c with current := f :: c.current }

/-- The chain with an `or` behind it: the run being read is at its end, and a new one begins. -/
def split (c : Chain) : Chain :=
  ⟨c.current :: c.ended, []⟩

/-- The runs in the order of the text. -/
def runs (c : Chain) : List (List Filter) :=
  ((c.current :: c.ended).map List.reverse).reverse

/-- The filter that the chain writes, once it is at its end. -/
def toFilter (c : Chain) : Filter :=
  .ofChain c.runs

end Chain

/-! ### The machine -/

/-- What may come next. -/
inductive Phase where
  /-- A filter. -/
  | operand
  /-- The operator behind a field. -/
  | operator (field : String)
  /-- The value of a comparison. -/
  | scalar (field : String) (op : Comparison)
  /-- The bracket that opens a list. -/
  | listStart (field : String) (op : Membership)
  /-- A value in a list; the values before it are listed newest first. -/
  | listItem (field : String) (op : Membership) (values : List String)
  /-- A comma or the end of a list; its values are listed newest first. -/
  | listNext (field : String) (op : Membership) (values : List String)
  /-- Behind a parenthesis that closes: a connective, or the end of the chain. -/
  | closed
  /-- Behind a condition without parentheses: the end of the chain. -/
  | ended
deriving DecidableEq, Repr, Inhabited

/-- The state of the machine. The chains around are those that wait for a parenthesis to be closed,
so there are as many of them as parentheses have been opened in this call. -/
structure Reading where
  /-- The number of parentheses that counted as open before. -/
  base : Nat
  /-- The chains around the one being read, innermost first. -/
  enclosing : List Chain
  /-- The chain being read. -/
  chain : Chain
  /-- What may come next. -/
  phase : Phase
deriving DecidableEq, Repr, Inhabited

/-- Why a token cannot be taken, and whether it is used up all the same. That depends on whether the
machine had to take the token to see what is wrong with it, or only looked at it. -/
structure Fault where
  /-- What is wrong. -/
  error : ParseError
  /-- The token will not be read again. -/
  consumed : Bool
deriving DecidableEq, Repr, Inhabited

namespace Reading

/-- Nothing has been read, and `base` parentheses count as open. -/
def start (base : Nat) : Reading :=
  ⟨base, [], .empty, .operand⟩

/-- The number of parentheses that count as open. -/
def depth (s : Reading) : Nat :=
  s.base + s.enclosing.length

/-- The number of parentheses that count as open after an error here. Where a chain may
end, the parenthesis around it counts as closed already. -/
def depthLeft (s : Reading) : Nat :=
  match s.phase with
  | .closed | .ended => s.base + s.enclosing.tail.length
  | _ => s.depth

/-- Any other token is wanted than the one that stands here. -/
def refuse (wanted : Wanted) (t : Token) : Except Fault Reading :=
  .error ⟨.unexpected wanted t, false⟩

/-- The chain ends with a condition. -/
def finishLeaf (s : Reading) (field : String) (test : Test) : Reading :=
  { s with chain := s.chain.push (.leaf ⟨field, test⟩), phase := .ended }

/-- Take a token at which a filter starts: a parenthesis, if there is room for one more, or the
field of a condition. -/
def takeOpening (s : Reading) (t : Token) : Except Fault Reading :=
  match t.lexeme with
  | .lparen =>
    if s.depth = maxNesting then .error ⟨.tooDeep t, true⟩
    else .ok { s with enclosing := s.chain :: s.enclosing, chain := .empty, phase := .operand }
  | .field name => .ok { s with phase := .operator name }
  | _ => refuse .field t

/-- Take a token behind the end of a chain. It closes the parenthesis around the chain, and if there
is none it is one token too many. -/
def takeClosing (s : Reading) (t : Token) : Except Fault Reading :=
  match s.enclosing with
  | [] => .error ⟨.trailing t, false⟩
  | outer :: enclosing =>
    match t.lexeme with
    | .rparen => .ok ⟨s.base, enclosing, outer.push s.chain.toFilter, .closed⟩
    | _ => refuse .rparen t

/-- Take a token. -/
def step (s : Reading) (t : Token) : Except Fault Reading :=
  match s.phase with
  | .operand => s.takeOpening t
  | .operator field =>
    match t.lexeme with
    | .comparison op => .ok { s with phase := .scalar field op }
    | .membership op => .ok { s with phase := .listStart field op }
    | _ => .error ⟨.noOperator t, true⟩
  | .scalar field op =>
    match t.lexeme with
    | .value text => .ok (s.finishLeaf field (.compare op text))
    | _ => refuse .value t
  | .listStart field op =>
    match t.lexeme with
    | .lbracket => .ok { s with phase := .listItem field op [] }
    | _ => refuse .lbracket t
  | .listItem field op values =>
    match t.lexeme with
    | .value text => .ok { s with phase := .listNext field op (text :: values) }
    | _ => refuse .value t
  | .listNext field op values =>
    match t.lexeme with
    | .comma => .ok { s with phase := .listItem field op values }
    | .rbracket => .ok (s.finishLeaf field (.member op values.reverse))
    | _ => refuse .rbracket t
  | .closed =>
    match t.lexeme with
    | .connective .and => .ok { s with phase := .operand }
    | .connective .or => .ok { s with chain := s.chain.split, phase := .operand }
    | _ => s.takeClosing t
  | .ended => s.takeClosing t

/-- The filter read, if the tokens may end here. -/
def finish (s : Reading) : Except ParseError Filter :=
  match s.phase with
  | .operand => .error (.missing .field)
  | .operator field => .error (.missingOperator field)
  | .scalar _ _ => .error (.missing .value)
  | .listStart _ _ => .error (.missing .lbracket)
  | .listItem _ _ _ => .error (.missing .value)
  | .listNext _ _ _ => .error (.missing .rbracket)
  | .closed | .ended =>
    match s.enclosing with
    | [] => .ok s.chain.toFilter
    | _ :: _ => .error (.missing .rparen)

end Reading

/-! ### Parsers -/

/-- A parser part way through tokens. -/
structure Parser where
  /-- The tokens that are left. -/
  rest : List Token
  /-- The number of parentheses that count as open. -/
  depth : Nat
deriving DecidableEq, Repr, Inhabited

/-- Let the machine take tokens up to the end or an error, and tell what it comes to and the parser
that is left: behind an error the tokens that have not been used up, and what is still open. -/
def Reading.run (s : Reading) : List Token → Except ParseError Filter × Parser
  | [] =>
    match s.finish with
    | .ok f => (.ok f, ⟨[], s.base⟩)
    | .error e => (.error e, ⟨[], s.depthLeft⟩)
  | t :: ts =>
    match s.step t with
    | .ok s' => s'.run ts
    | .error fault =>
      (.error fault.error, ⟨if fault.consumed then ts else t :: ts, s.depthLeft⟩)

namespace Parser

/-- A parser at the start of tokens. -/
def ofTokens (ts : List Token) : Parser :=
  ⟨ts, 0⟩

/-- Read all tokens that are left as one filter. -/
def parse (p : Parser) : Except ParseError Filter × Parser :=
  (Reading.start p.depth).run p.rest

/-- Ask for a filter a number of times, going on after filters and errors alike. -/
def parseTimes (p : Parser) : Nat → List (Except ParseError Filter)
  | 0 => []
  | n + 1 =>
    let (outcome, next) := p.parse
    outcome :: next.parseTimes n

end Parser

/-- The filter that tokens write. -/
def Filter.ofTokens (ts : List Token) : Except ParseError Filter :=
  (Parser.ofTokens ts).parse.1

/-- The filter that a text writes. -/
def Filter.parse (s : String) : Except ParseError Filter :=
  Filter.ofTokens (tokenize s)

end NestedFilter
