import NestedFilter.Json.Reader

/-!
# Search options

What a caller asks of a request besides the filter: which page, in which order, from
which time, and which parts of the documents.

Options are read like settings, from the members of a JSON object or from an array by position,
and each has a default. Here `null` is a value too where an option may be absent: the size, the
order and the time window, and either bound of the window. It then says the same as no member at
all. Nothing is checked beyond the kinds of the values. Whether a page is too large, a window open
at both ends or an order no order is only found out by the request.
-/

namespace NestedFilter

/-- A stretch of time; both bounds belong to it. -/
structure TimeWindow where
  /-- The first moment. -/
  gte : Option String := none
  /-- The last moment. -/
  lte : Option String := none
deriving DecidableEq, Repr, Inhabited

/-- The options of a search. -/
structure SearchOptions where
  /-- The number of results before the page. -/
  offset : Nat := 0
  /-- The size of the page, if not the size in the settings. -/
  size : Option Nat := none
  /-- The specification of the order of the results. -/
  sort : Option String := none
  /-- The time that the documents come from. -/
  timeWindow : Option TimeWindow := none
  /-- The parts of the documents that are wanted. -/
  includes : List String := []
  /-- The parts of the documents that are not wanted. -/
  excludes : List String := []
deriving DecidableEq, Repr, Inhabited

/-- The time window that a JSON value gives. A bound that an object does not give is
open; a list gives both. -/
def TimeWindow.ofWritten? (value : Json.Written) : Option TimeWindow := do
  let text := Json.Written.nullable? (·.string?)
  match value with
  | .array [gte, lte] => return { gte := ← text gte, lte := ← text lte }
  | .object _ =>
    match ← value.fields? ["gte", "lte"] with
    | [gte, lte] =>
      return { gte := ← Json.Written.field? text none gte
               lte := ← Json.Written.field? text none lte }
    | _ => none
  | _ => none

namespace SearchOptions

/-- The names of the options, in the order in which a list gives them. -/
def fieldNames : List String :=
  ["offset", "size", "sort", "time_window", "includes", "excludes"]

/-- The options that a JSON value gives; what it does not give has its default. -/
def ofWritten? (value : Json.Written) : Option SearchOptions := do
  let texts := Json.Written.list? (·.string?)
  match ← value.fields? fieldNames with
  | [offset, size, sort, timeWindow, includes, excludes] =>
    return {
      offset := ← Json.Written.field? (·.word?) 0 offset
      size := ← Json.Written.field? (Json.Written.nullable? (·.word?)) none size
      sort := ← Json.Written.field? (Json.Written.nullable? (·.string?)) none sort
      timeWindow :=
        ← Json.Written.field? (Json.Written.nullable? TimeWindow.ofWritten?) none timeWindow
      includes := ← Json.Written.field? texts [] includes
      excludes := ← Json.Written.field? texts [] excludes }
  | _ => none

/-- The options that a JSON text gives. -/
def read? (s : String) : Option SearchOptions := do
  ofWritten? (← Json.read? s)

end SearchOptions

end NestedFilter
