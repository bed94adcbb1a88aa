import NestedFilter.Query.OfFilter
import NestedFilter.SearchOptions
import NestedFilter.SortSpec

/-!
# Search requests

A request asks for a page of the documents that a filter selects, within a time window
and in an order. `NestedFilter.Request.build` assembles it, or tells what is wrong with
the filter or the options.

There are four things that can be wrong, and they are looked for in a fixed order: the size of
the page, the time window, the filter, the specification of the order. Each has a function of its
own but the size, which is compared right away (`NestedFilter.Request.rangeOf`,
`NestedFilter.Request.queryOf`, `NestedFilter.Request.sortOf`); they are called one after the
other, and the first that fails decides. The parts of documents that are wanted can not be wrong.

A filter of blanks alone asks for nothing, as if there were none. Any other filter is read without
the blanks around it, so the place that an error tells is counted from behind those in front.

The request itself is a record and not yet a JSON value: what is selected is one of four cases
(`NestedFilter.Selection`), the order and the parts may be absent, and what is absent has no
member in the value (`NestedFilter.Request.toJson`). The value of a time range that is selected
by itself stands where the query would stand; beside a query it is one of two that a boolean
query joins.
-/

namespace NestedFilter

/-- Why options give no request. What was given is told where there is something to tell. -/
inductive RequestError where
  /-- The order of the results is no specification of one. -/
  | invalidSort (specification : String)
  /-- The page is larger than the settings allow. -/
  | sizeTooLarge (size max : Nat)
  /-- The time window is open at both ends. -/
  | emptyTimeWindow
deriving DecidableEq, Repr, Inhabited

/-- The error in words. -/
def RequestError.message : RequestError → String
  | .invalidSort specification => "invalid sort specification `" ++ specification ++ "`"
  | .sizeTooLarge size max =>
    "page size " ++ toString size ++ " exceeds the maximum of " ++ toString max
  | .emptyTimeWindow => "time window needs at least one bound"

/-- Why there is no query or request: whatever can go wrong on the way from a text to either is one
of these three. -/
inductive FilterError where
  /-- The text is no filter. -/
  | parse (e : ParseError)
  /-- The filter has no query. -/
  | build (e : BuildError)
  /-- The options give no request. -/
  | request (e : RequestError)
deriving DecidableEq, Repr, Inhabited

/-- The error in words. -/
def FilterError.message : FilterError → String
  | .parse e => "Parse error: " ++ e.message
  | .build e => "Build error: " ++ e.message
  | .request e => "Invalid request: " ++ e.message

/-- The query that a text asks for: that of the filter that it is read as. -/
def Query.ofText (settings : Settings) (s : String) : Except FilterError Query :=
  match Filter.parse s with
  | .error e => .error (.parse e)
  | .ok f =>
    match Query.ofFilter settings f with
    | .error e => .error (.build e)
    | .ok q => .ok q

/-- The query of a text is that of its filter. -/
theorem Query.ofText_eq_ok_iff {settings : Settings} {s : String} {q : Query} :
    Query.ofText settings s = .ok q ↔
      ∃ f, Filter.parse s = .ok f ∧ Query.ofFilter settings f = .ok q := by
  rw [Query.ofText]
  cases Filter.parse s with
  | error e => simp
  | ok f => cases h : Query.ofFilter settings f <;> simp [h]

/-! ### Requests -/

/-- A time window on a field, with at least one bound. -/
structure TimeRange where
  /-- The field that tells the time of a document. -/
  field : String
  /-- The first moment. -/
  gte : Option String
  /-- The last moment. -/
  lte : Option String
  /-- The format of the moments. -/
  format : String
deriving DecidableEq, Repr, Inhabited

/-- Which documents a request asks for. -/
inductive Selection where
  /-- All. -/
  | everything
  /-- Those of a time. -/
  | within (range : TimeRange)
  /-- Those of which a query holds. -/
  | matching (query : Query)
  /-- Those of a time of which a query holds. -/
  | both (range : TimeRange) (query : Query)
deriving Repr, Inhabited

/-- Which parts of the documents a request asks for. -/
structure Projection where
  /-- The parts that are wanted. -/
  includes : List String
  /-- The parts that are not wanted. -/
  excludes : List String
deriving DecidableEq, Repr, Inhabited

/-- A sort order with the format of the dates in it. -/
structure SortClause where
  /-- The field and the direction. -/
  spec : SortSpec
  /-- The format of dates. -/
  format : String
deriving DecidableEq, Repr, Inhabited

/-- A search request. -/
structure Request where
  /-- The number of results before the page. -/
  offset : Nat
  /-- The size of the page. -/
  size : Nat
  /-- The documents asked for. -/
  selection : Selection
  /-- The order of the results, if one is asked for. -/
  sort : Option SortClause
  /-- The parts asked for, if not whole documents. -/
  projection : Option Projection
deriving Repr, Inhabited

/-! ### Assembling a request -/

/-- The range of a time window, on the field and in the format that the settings name. -/
def TimeWindow.toRange (settings : Settings) (window : TimeWindow) :
    Except RequestError TimeRange :=
  if window.gte.isNone && window.lte.isNone then .error .emptyTimeWindow
  else .ok ⟨settings.timestampField, window.gte, window.lte, settings.dateFormat⟩

/-- The sort order that a text specifies; if it specifies none, the error shows the text as it
stands. -/
def SortSpec.ofText (s : String) : Except RequestError SortSpec :=
  match SortSpec.parse? s with
  | none => .error (.invalidSort s)
  | some spec => .ok spec

/-- The selection by a time range and a query, either of which may be absent. -/
def Selection.of : Option TimeRange → Option Query → Selection
  | none, none => .everything
  | some range, none => .within range
  | none, some query => .matching query
  | some range, some query => .both range query

namespace Request

/-- The time range that the options ask for, if they ask for one at all. -/
def rangeOf (settings : Settings) (options : SearchOptions) :
    Except FilterError (Option TimeRange) :=
  match options.timeWindow with
  | none => .ok none
  | some window =>
    match window.toRange settings with
    | .error e => .error (.request e)
    | .ok range => .ok (some range)

/-- The query that a filter asks for. A filter of blanks alone asks for none. -/
def queryOf (settings : Settings) (filter : Option String) : Except FilterError (Option Query) :=
  match filter.map trimmed with
  | none => .ok none
  | some text =>
    if text.isEmpty then .ok none else return some (← Query.ofText settings text)

/-- The order that the options ask for. -/
def sortOf (settings : Settings) (options : SearchOptions) :
    Except FilterError (Option SortClause) :=
  match options.sort with
  | none => .ok none
  | some specification =>
    match SortSpec.ofText specification with
    | .error e => .error (.request e)
    | .ok spec => .ok (some ⟨spec, settings.dateFormat⟩)

/-- The parts that the options ask for. Without any wish, what is asked for is whole documents. -/
def projectionOf (options : SearchOptions) : Option Projection :=
  if options.includes.isEmpty && options.excludes.isEmpty then none
  else some ⟨options.includes, options.excludes⟩

/-- The request for the documents that a filter selects. Of several faults the first one
counts: the size of the page, the time window, the filter, the order. -/
def build (settings : Settings) (filter : Option String) (options : SearchOptions) :
    Except FilterError Request := do
  let size := options.size.getD settings.defaultSize
  if settings.maxSize < size then
    throw (.request (.sizeTooLarge size settings.maxSize))
  let range ← rangeOf settings options
  let query ← queryOf settings filter
  let sort ← sortOf settings options
  return ⟨options.offset, size, .of range query, sort, projectionOf options⟩

end Request

/-! ### Requests as JSON values -/

/-- The member for a bound, if there is a bound. -/
def boundMember (key : String) (bound : Option String) : List (String × Json) :=
  bound.toList.map fun moment => (key, .string moment)

/-- The JSON value of a time range. -/
def TimeRange.toJson (range : TimeRange) : Json :=
  .single "range" (.single range.field (.object
    (boundMember "gte" range.gte ++ boundMember "lte" range.lte ++
      [("format", .string range.format)])))

/-- The JSON value of a selection. -/
def Selection.toJson : Selection → Json
  | .everything => .single "match_all" (.object [])
  | .within range => range.toJson
  | .matching query => query.toJson
  | .both range query =>
    .single "bool" (.single "filter" (.array [range.toJson, query.toJson]))

/-- The JSON value of a sort order. -/
def SortClause.toJson (clause : SortClause) : Json :=
  .array [.single clause.spec.field (.object
    [("order", .string clause.spec.order.word), ("format", .string clause.format)])]

/-- The JSON value of a projection. -/
def Projection.toJson (projection : Projection) : Json :=
  .object [("includes", .strings projection.includes), ("excludes", .strings projection.excludes)]

/-- The JSON value of a request. What is absent in the request has no member. -/
def Request.toJson (request : Request) : Json :=
  .object
    ([("from", .number request.offset), ("size", .number request.size),
        ("query", request.selection.toJson)] ++
      request.sort.toList.map (fun clause => ("sort", clause.toJson)) ++
      request.projection.toList.map (fun projection => ("_source", projection.toJson)))

end NestedFilter
