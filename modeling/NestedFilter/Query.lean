import NestedFilter.Json.Value
import NestedFilter.Path

/-!
# Search queries

The queries that filters become: clauses about one field, joined by boolean queries, with
nested queries that move to the objects at a path. `NestedFilter.Query.toJson` is the
form in which a search engine takes them.

A query is kept as a tree, and the JSON value is only written of it at the end. The tree has just
the forms that come up: of a boolean query there are those that ask for all of some queries, for
some of them, and for a single clause not to hold. A negation of anything else, or a boolean query
that asks for several of these at once, can not be said. The path of a nested query is kept as it
was cut out of the name of a field, dots and all.
-/

namespace NestedFilter

/-- A bound of a range. -/
inductive Bound where
  /-- Below the value. -/
  | lt
  /-- The value or below it. -/
  | lte
  /-- Above the value. -/
  | gt
  /-- The value or above it. -/
  | gte
deriving DecidableEq, Repr, Inhabited

/-- The word for a bound. -/
def Bound.word : Bound → String
  | .lt => "lt"
  | .lte => "lte"
  | .gt => "gt"
  | .gte => "gte"

/-- A condition on one field of an object. -/
inductive Clause where
  /-- The field has the value. -/
  | term (field value : String)
  /-- The field has one of the values. -/
  | terms (field : String) (values : List String)
  /-- The field lies on one side of the value. -/
  | range (field : String) (bound : Bound) (value : String)
  /-- The field matches the regular expression. -/
  | regexp (field pattern flags : String) (caseInsensitive : Bool)
deriving DecidableEq, Repr, Inhabited

/-- The field that a clause is about. -/
def Clause.field : Clause → String
  | .term field _ | .terms field _ | .range field _ _ | .regexp field _ _ _ => field

/-- A search query. -/
inductive Query where
  /-- The clause holds. -/
  | clause (c : Clause)
  /-- The clause does not hold. -/
  | mustNot (c : Clause)
  /-- All queries hold. -/
  | filter (queries : List Query)
  /-- Some query holds. -/
  | should (queries : List Query)
  /-- The query holds of some object at the path. -/
  | nested (path : Path) (query : Query)
deriving Repr, Inhabited

/-- The JSON value of a clause. -/
def Clause.toJson : Clause → Json
  | .term field value => .single "term" (.single field (.string value))
  | .terms field values => .single "terms" (.single field (.strings values))
  | .range field bound value =>
    .single "range" (.single field (.single bound.word (.string value)))
  | .regexp field pattern flags caseInsensitive =>
    .single "regexp" (.single field (.object
      [("value", .string pattern), ("flags", .string flags),
        ("case_insensitive", .bool caseInsensitive)]))

namespace Query

mutual

/-- The JSON value of a query. -/
def toJson : Query → Json
  | .clause c => c.toJson
  | .mustNot c => .single "bool" (.single "must_not" c.toJson)
  | .filter queries => .single "bool" (.single "filter" (.array (toJsonList queries)))
  | .should queries => .single "bool" (.single "should" (.array (toJsonList queries)))
  | .nested path query =>
    .single "nested" (.object [("path", .string (String.ofList path)), ("query", query.toJson)])

/-- The JSON values of a list of queries. -/
def toJsonList : List Query → List Json
  | [] => []
  | q :: qs => q.toJson :: toJsonList qs

end

end Query

end NestedFilter
