import NestedFilter.Proofs.Faults
import NestedFilter.Proofs.SortOrders

/-!
# What a request comes to

Options and a filter may be at fault in four ways: the page is too large, the time window is open
at both ends, the filter can not be read, the order is no specification of one. The first fault in
this order is the error (`NestedFilter.Request.Refused`), and there is no other error: in
particular, what is read of a filter can always be compiled. Without a fault there is a request,
and its JSON value is put together of what was asked for (`NestedFilter.Request.IsBody`).

Both relations are about settings, options and filter as they are given, and say nothing of how
these are looked at. A rule of the first has, besides the fault, that none of the earlier ones is
there, so no two of its rules apply at once. The second has the members of the body in their
order, and for the selection one rule for each way in which a time window and a query may be
there or not.

Each part of the options is read by a function of its own, and for each of them one lemma says what
it reads and another what it refuses: `NestedFilter.Request.rangeOf_eq_ok_iff` and
`NestedFilter.Request.rangeOf_eq_error_iff` for the time window, and so on for the filter and the
sort order. They are put together in the order in which the functions are called
(`NestedFilter.Request.build_eq_error_iff`), and only then set beside the rules
(`NestedFilter.Request.build_eq_error_iff_refused`). The main result,
`NestedFilter.Request.build_answers`, is assembled from these; when one of the functions changes,
its two lemmas do, and the rest stays.
-/

namespace NestedFilter

namespace Request

variable {settings : Settings} {filter : Option String} {options : SearchOptions}
variable {e : FilterError}

/-! ### What is asked for -/

/-- The size of the page: that in the options, or else that in the settings. -/
def pageSize (settings : Settings) (options : SearchOptions) : Nat :=
  options.size.getD settings.defaultSize

/-- The query that documents are asked for by, if by any. There is no rule for a filter that can
not be read. -/
inductive Selects (settings : Settings) : Option String → Option Query → Prop
  /-- There is no filter. -/
  | absent : Selects settings none none
  /-- There is nothing in the filter. -/
  | blank {s : String} (hblank : IsBlank s) : Selects settings (some s) none
  /-- The filter, without the blanks around it, is read and compiled. -/
  | text {s : String} {f : Filter} {query : Query} (hblank : ¬IsBlank s)
      (hparse : Filter.parse (trimmed s) = .ok f) (hquery : Query.ofFilter settings f = .ok query) :
      Selects settings (some s) (some query)

/-- The sort order that is asked for, if any is. A specification that specifies none is not the same
as none. -/
inductive Sorts : Option String → Option SortSpec → Prop
  /-- There is no specification. -/
  | absent : Sorts none none
  /-- The sort order is the one that is specified. -/
  | specified {s : String} {spec : SortSpec} (h : SortSpec.Specifies s spec) :
      Sorts (some s) (some spec)

/-- **The first fault**, in the order of the rules, is why there is no request. Each rule has that
the faults of the rules before it are not there, and the error tells what was found: a size with
the size that is allowed, the cause why the filter is none, a specification as it stands. -/
inductive Refused (settings : Settings) (filter : Option String) (options : SearchOptions) :
    FilterError → Prop
  /-- The page is larger than the settings allow. -/
  | sizeTooLarge (hsize : settings.maxSize < pageSize settings options) :
      Refused settings filter options
        (.request (.sizeTooLarge (pageSize settings options) settings.maxSize))
  /-- There is a time window with neither bound. -/
  | emptyTimeWindow (hsize : pageSize settings options ≤ settings.maxSize)
      (hwindow : options.timeWindow = some ⟨none, none⟩) :
      Refused settings filter options (.request .emptyTimeWindow)
  /-- There is a filter that is not blank, and without the blanks around it it can not be read. -/
  | parse {s : String} {cause : ParseError} (hsize : pageSize settings options ≤ settings.maxSize)
      (hwindow : options.timeWindow ≠ some ⟨none, none⟩) (hfilter : filter = some s)
      (hblank : ¬IsBlank s) (hparse : Filter.parse (trimmed s) = .error cause) :
      Refused settings filter options (.parse cause)
  /-- There is a specification of a sort order, and it specifies none. -/
  | invalidSort {s : String} {query : Option Query}
      (hsize : pageSize settings options ≤ settings.maxSize)
      (hwindow : options.timeWindow ≠ some ⟨none, none⟩) (hquery : Selects settings filter query)
      (hsort : options.sort = some s) (hnone : ¬∃ spec, SortSpec.Specifies s spec) :
      Refused settings filter options (.request (.invalidSort s))

/-! ### The body of a request -/

/-- The value that a time window has: a range with the bounds that there are. A window with neither
bound has no value. -/
inductive IsRange (settings : Settings) : TimeWindow → Json → Prop
  /-- Both bounds. -/
  | both {gte lte : String} : IsRange settings ⟨some gte, some lte⟩
      (.single "range" (.single settings.timestampField (.object
        [("gte", .string gte), ("lte", .string lte), ("format", .string settings.dateFormat)])))
  /-- A first moment only. -/
  | gte {gte : String} : IsRange settings ⟨some gte, none⟩
      (.single "range" (.single settings.timestampField (.object
        [("gte", .string gte), ("format", .string settings.dateFormat)])))
  /-- A last moment only. -/
  | lte {lte : String} : IsRange settings ⟨none, some lte⟩
      (.single "range" (.single settings.timestampField (.object
        [("lte", .string lte), ("format", .string settings.dateFormat)])))

/-- The value that selects documents, by a time window and a query, either of which may be
absent. -/
inductive IsSelection (settings : Settings) : Option TimeWindow → Option Query → Json → Prop
  /-- Neither: all documents. -/
  | everything : IsSelection settings none none (.single "match_all" (.object []))
  /-- The time window. -/
  | within {window : TimeWindow} {range : Json} (hrange : IsRange settings window range) :
      IsSelection settings (some window) none range
  /-- The query. -/
  | matching {query : Query} : IsSelection settings none (some query) query.toJson
  /-- Both of them. -/
  | both {window : TimeWindow} {range : Json} {query : Query}
      (hrange : IsRange settings window range) :
      IsSelection settings (some window) (some query)
        (.single "bool" (.single "filter" (.array [range, query.toJson])))

/-- The member for the sort order, if one is asked for: a list with a single field in it, the
direction by its word. -/
def sortMembers (settings : Settings) : Option SortSpec → List (String × Json)
  | none => []
  | some spec =>
    [("sort", .array [.single spec.field (.object
      [("order", .string spec.order.word), ("format", .string settings.dateFormat)])])]

/-- The member for the parts of documents, if some are wanted or some are not. Both lists are there
then, though one of them be empty. -/
def sourceMembers (options : SearchOptions) : List (String × Json) :=
  if options.includes = [] ∧ options.excludes = [] then []
  else [("_source", .object
    [("includes", .strings options.includes), ("excludes", .strings options.excludes)])]

/-- **The JSON value of the request that is asked for**: an object with these members and no
others. -/
inductive IsBody (settings : Settings) (filter : Option String) (options : SearchOptions) :
    Json → Prop
  /-- What is selected and the order are those asked for. -/
  | of {query : Option Query} {spec : Option SortSpec} {selection : Json}
      (hquery : Selects settings filter query) (hsort : Sorts options.sort spec)
      (hselection : IsSelection settings options.timeWindow query selection) :
      IsBody settings filter options (.object
        ([("from", .number options.offset), ("size", .number (pageSize settings options)),
          ("query", selection)] ++ sortMembers settings spec ++ sourceMembers options))

/-! ### The time window -/

theorem rangeOf_eq_error_iff : rangeOf settings options = .error e ↔
    options.timeWindow = some ⟨none, none⟩ ∧ e = .request .emptyTimeWindow := by
  rw [rangeOf]
  rcases options.timeWindow with _ | ⟨_ | gte, _ | lte⟩ <;>
    simp [TimeWindow.toRange, eq_comm]

/-- The time range of a time window, on the field and in the format of the settings. -/
def rangeOfWindow (settings : Settings) (window : TimeWindow) : TimeRange :=
  ⟨settings.timestampField, window.gte, window.lte, settings.dateFormat⟩

theorem rangeOf_eq_ok_iff {range : Option TimeRange} : rangeOf settings options = .ok range ↔
    options.timeWindow ≠ some ⟨none, none⟩ ∧
      range = options.timeWindow.map (rangeOfWindow settings) := by
  rw [rangeOf]
  rcases options.timeWindow with _ | ⟨_ | gte, _ | lte⟩ <;>
    simp [TimeWindow.toRange, rangeOfWindow, eq_comm]

/-! ### The filter -/

theorem queryOf_of_blank {s : String} (hblank : IsBlank s) :
    queryOf settings (some s) = .ok none := by
  simp [queryOf, trimmed_eq_empty_iff.2 hblank]

theorem queryOf_of_not_blank {s : String} (hblank : ¬IsBlank s) :
    queryOf settings (some s) = (Query.ofText settings (trimmed s)).map some := by
  have hne : (trimmed s).isEmpty = false := by
    simpa [← trimmed_eq_empty_iff] using hblank
  simp only [queryOf, Option.map_some, hne]
  cases Query.ofText settings (trimmed s) <;> rfl

theorem queryOf_eq_ok_iff {query : Option Query} :
    queryOf settings filter = .ok query ↔ Selects settings filter query := by
  cases filter with
  | none =>
    constructor
    · rintro ⟨⟩
      exact .absent
    · rintro ⟨⟩
      rfl
  | some s =>
    by_cases hblank : IsBlank s
    · rw [queryOf_of_blank hblank]
      constructor
      · rintro ⟨⟩
        exact .blank hblank
      · intro h
        cases h with
        | blank _ => rfl
        | text hnot _ _ => exact absurd hblank hnot
    · rw [queryOf_of_not_blank hblank]
      constructor
      · intro h
        cases hquery : Query.ofText settings (trimmed s) with
        | error e => simp [hquery, Except.map] at h
        | ok q =>
          obtain rfl : some q = query := by simpa [hquery, Except.map] using h
          obtain ⟨f, hparse, hfilter⟩ := Query.ofText_eq_ok_iff.1 hquery
          exact .text hblank hparse hfilter
      · intro h
        cases h with
        | blank hblank' => exact absurd hblank' hblank
        | text _ hparse hfilter =>
          rw [Query.ofText_eq_ok_iff.2 ⟨_, hparse, hfilter⟩]
          rfl

/-- **A filter is only refused if it can not be read**, never for want of a query: what is read of a
text has one. -/
theorem queryOf_eq_error_iff : queryOf settings filter = .error e ↔
    ∃ s cause, filter = some s ∧ ¬IsBlank s ∧ Filter.parse (trimmed s) = .error cause ∧
      e = .parse cause := by
  cases filter with
  | none => simp [queryOf]
  | some s =>
    by_cases hblank : IsBlank s
    · simp [queryOf_of_blank hblank, hblank]
    · have hmap : (Query.ofText settings (trimmed s)).map some = .error e ↔
          Query.ofText settings (trimmed s) = .error e := by
        cases Query.ofText settings (trimmed s) <;> simp [Except.map]
      rw [queryOf_of_not_blank hblank, hmap, Query.ofText_eq_error_iff]
      simp [hblank]

/-! ### The sort order -/

theorem sortOf_eq_ok_iff {sort : Option SortClause} : sortOf settings options = .ok sort ↔
    ∃ spec, Sorts options.sort spec ∧ sort = spec.map fun spec => ⟨spec, settings.dateFormat⟩ := by
  rw [sortOf]
  cases options.sort with
  | none =>
    constructor
    · rintro ⟨⟩
      exact ⟨none, .absent, rfl⟩
    · rintro ⟨_, ⟨⟩, rfl⟩
      rfl
  | some s =>
    dsimp only
    constructor
    · intro h
      cases hspec : SortSpec.ofText s with
      | error cause => simp [hspec] at h
      | ok spec =>
        rw [hspec] at h
        obtain rfl := Except.ok.inj h
        exact ⟨some spec, .specified (SortSpec.ofText_eq_ok_iff.1 hspec), rfl⟩
    · rintro ⟨spec, hspec, rfl⟩
      cases hspec with
      | specified h =>
        rw [SortSpec.ofText_eq_ok_iff.2 h]
        rfl

theorem sortOf_eq_error_iff : sortOf settings options = .error e ↔
    ∃ s, options.sort = some s ∧ (¬∃ spec, SortSpec.Specifies s spec) ∧
      e = .request (.invalidSort s) := by
  rw [sortOf]
  cases options.sort with
  | none => simp
  | some s =>
    dsimp only
    constructor
    · intro h
      cases hspec : SortSpec.ofText s with
      | ok spec => simp [hspec] at h
      | error cause =>
        rw [hspec] at h
        obtain rfl := Except.error.inj h
        obtain ⟨rfl, hnone⟩ := SortSpec.ofText_eq_error_iff.1 hspec
        exact ⟨s, rfl, hnone, rfl⟩
    · rintro ⟨_, ⟨⟩, hnone, rfl⟩
      rw [SortSpec.ofText_eq_error_iff.2 ⟨rfl, hnone⟩]

/-! ### The whole request -/

theorem build_of_size_lt (hsize : settings.maxSize < pageSize settings options) :
    build settings filter options =
      .error (.request (.sizeTooLarge (pageSize settings options) settings.maxSize)) := by
  rw [build, ← pageSize, if_pos hsize]
  rfl

theorem build_of_size_le (hsize : pageSize settings options ≤ settings.maxSize) :
    build settings filter options = (do
      let range ← rangeOf settings options
      let query ← queryOf settings filter
      let sort ← sortOf settings options
      return ⟨options.offset, pageSize settings options, .of range query, sort,
        projectionOf options⟩) := by
  rw [build, ← pageSize, if_neg (Nat.not_lt.2 hsize)]

/-- A request has four parts, and each has to be there: a size that is allowed, and what the three
functions make of the time window, the filter and the specification of the order. -/
theorem build_eq_ok_iff {request : Request} : build settings filter options = .ok request ↔
    pageSize settings options ≤ settings.maxSize ∧ ∃ range query sort,
      rangeOf settings options = .ok range ∧ queryOf settings filter = .ok query ∧
        sortOf settings options = .ok sort ∧
          request = ⟨options.offset, pageSize settings options, .of range query, sort,
            projectionOf options⟩ := by
  rcases Nat.lt_or_ge settings.maxSize (pageSize settings options) with hsize | hsize
  · simp [build_of_size_lt hsize, Nat.not_le.2 hsize]
  · simp only [build_of_size_le hsize, bind_eq_ok_iff, hsize, true_and, pure, Except.pure,
      Except.ok.injEq, eq_comm (b := request)]
    constructor
    · rintro ⟨range, hrange, query, hquery, sort, hsort, rfl⟩
      exact ⟨range, query, sort, hrange, hquery, hsort, rfl⟩
    · rintro ⟨range, query, sort, hrange, hquery, hsort, rfl⟩
      exact ⟨range, hrange, query, hquery, sort, hsort, rfl⟩

/-- The first part that is not there is why there is no request. The parts after it are not looked
at. -/
theorem build_eq_error_iff : build settings filter options = .error e ↔
    (settings.maxSize < pageSize settings options ∧
        e = .request (.sizeTooLarge (pageSize settings options) settings.maxSize)) ∨
      pageSize settings options ≤ settings.maxSize ∧
        (rangeOf settings options = .error e ∨
          ∃ range, rangeOf settings options = .ok range ∧
            (queryOf settings filter = .error e ∨ ∃ query,
              queryOf settings filter = .ok query ∧ sortOf settings options = .error e)) := by
  rcases Nat.lt_or_ge settings.maxSize (pageSize settings options) with hsize | hsize
  · simp [build_of_size_lt hsize, hsize, Nat.not_le.2 hsize, eq_comm]
  · have hnot : ¬settings.maxSize < pageSize settings options := Nat.not_lt.2 hsize
    simp [build_of_size_le hsize, bind_eq_error_iff, hsize, hnot, pure, Except.pure]

/-- **The error is the first fault.** What the functions refuse is put beside the rules, each with
what the functions before it have not refused. -/
theorem build_eq_error_iff_refused :
    build settings filter options = .error e ↔ Refused settings filter options e := by
  rw [build_eq_error_iff]
  constructor
  · rintro (⟨hsize, rfl⟩ | ⟨hsize, hrange | ⟨range, hrange, hquery | ⟨query, hquery, hsort⟩⟩⟩)
    · exact .sizeTooLarge hsize
    · obtain ⟨hwindow, rfl⟩ := rangeOf_eq_error_iff.1 hrange
      exact .emptyTimeWindow hsize hwindow
    · obtain ⟨s, cause, rfl, hblank, hparse, rfl⟩ := queryOf_eq_error_iff.1 hquery
      exact .parse hsize (rangeOf_eq_ok_iff.1 hrange).1 rfl hblank hparse
    · obtain ⟨s, hs, hnone, rfl⟩ := sortOf_eq_error_iff.1 hsort
      exact .invalidSort hsize (rangeOf_eq_ok_iff.1 hrange).1 (queryOf_eq_ok_iff.1 hquery) hs hnone
  · intro h
    cases h with
    | sizeTooLarge hsize => exact .inl ⟨hsize, rfl⟩
    | emptyTimeWindow hsize hwindow =>
      exact .inr ⟨hsize, .inl (rangeOf_eq_error_iff.2 ⟨hwindow, rfl⟩)⟩
    | parse hsize hwindow hfilter hblank hparse =>
      have hquery : queryOf settings filter = .error (.parse _) :=
        queryOf_eq_error_iff.2 ⟨_, _, hfilter, hblank, hparse, rfl⟩
      exact .inr ⟨hsize, .inr ⟨_, rangeOf_eq_ok_iff.2 ⟨hwindow, rfl⟩, .inl hquery⟩⟩
    | invalidSort hsize hwindow hquery hs hnone =>
      have hsort : sortOf settings options = .error _ :=
        sortOf_eq_error_iff.2 ⟨_, hs, hnone, rfl⟩
      exact .inr ⟨hsize, .inr ⟨_, rangeOf_eq_ok_iff.2 ⟨hwindow, rfl⟩,
        .inr ⟨_, queryOf_eq_ok_iff.2 hquery, hsort⟩⟩⟩

/-! ### The body -/

/-- The value of a time range has the bounds that the time window has, so it is the value of the
window, unless that has none. -/
theorem isRange_iff {window : TimeWindow} {value : Json} : IsRange settings window value ↔
    window ≠ ⟨none, none⟩ ∧ value = (rangeOfWindow settings window).toJson := by
  constructor
  · intro h
    cases h with
    | both | gte | lte => exact ⟨by simp, rfl⟩
  · rintro ⟨hbound, rfl⟩
    rcases window with ⟨_ | gte, _ | lte⟩
    · exact absurd rfl hbound
    · exact .lte
    · exact .gte
    · exact .both

theorem isSelection_iff {window : Option TimeWindow} {query : Option Query} {value : Json} :
    IsSelection settings window query value ↔ window ≠ some ⟨none, none⟩ ∧
      value = (Selection.of (window.map (rangeOfWindow settings)) query).toJson := by
  constructor
  · intro h
    cases h with
    | everything | matching => exact ⟨by simp, rfl⟩
    | within hrange | both hrange =>
      obtain ⟨hbound, rfl⟩ := isRange_iff.1 hrange
      exact ⟨by simpa using hbound, rfl⟩
  · rintro ⟨hbound, rfl⟩
    cases window with
    | none =>
      cases query with
      | none => exact .everything
      | some query => exact .matching
    | some window =>
      have hrange : IsRange settings window _ := isRange_iff.2 ⟨by simpa using hbound, rfl⟩
      cases query with
      | none => exact .within hrange
      | some query => exact .both hrange

theorem toJson_eq {selection : Selection} {spec : Option SortSpec} :
    (⟨options.offset, pageSize settings options, selection,
      spec.map fun spec => ⟨spec, settings.dateFormat⟩, projectionOf options⟩ : Request).toJson =
    .object ([("from", .number options.offset), ("size", .number (pageSize settings options)),
      ("query", selection.toJson)] ++ sortMembers settings spec ++ sourceMembers options) := by
  have hsource : (projectionOf options).toList.map
      (fun projection => ("_source", projection.toJson)) = sourceMembers options := by
    rw [projectionOf, sourceMembers]
    simp only [Bool.and_eq_true, List.isEmpty_iff]
    split <;> rfl
  rw [toJson, hsource]
  cases spec <;> rfl

/-- **A request that fits has the value that is asked for**, and no other value is. -/
theorem map_toJson_build_eq_ok_iff {body : Json} :
    (build settings filter options).map toJson = .ok body ↔
      pageSize settings options ≤ settings.maxSize ∧ IsBody settings filter options body := by
  constructor
  · intro h
    cases hbuild : build settings filter options with
    | error e => simp [hbuild, Except.map] at h
    | ok request =>
      obtain rfl : request.toJson = body := by simpa [hbuild, Except.map] using h
      obtain ⟨hsize, range, query, sort, hrange, hquery, hsort, rfl⟩ := build_eq_ok_iff.1 hbuild
      obtain ⟨hwindow, rfl⟩ := rangeOf_eq_ok_iff.1 hrange
      obtain ⟨spec, hspec, rfl⟩ := sortOf_eq_ok_iff.1 hsort
      rw [toJson_eq]
      exact ⟨hsize, .of (queryOf_eq_ok_iff.1 hquery) hspec (isSelection_iff.2 ⟨hwindow, rfl⟩)⟩
  · rintro ⟨hsize, hbody⟩
    cases hbody with
    | of hquery hspec hselection =>
      obtain ⟨hwindow, rfl⟩ := isSelection_iff.1 hselection
      have hbuild : build settings filter options = .ok _ :=
        build_eq_ok_iff.2 ⟨hsize, _, _, _, rangeOf_eq_ok_iff.2 ⟨hwindow, rfl⟩,
          queryOf_eq_ok_iff.2 hquery, sortOf_eq_ok_iff.2 ⟨_, hspec, rfl⟩, rfl⟩
      rw [hbuild, ← toJson_eq]
      rfl

/-- **What a request comes to.** There is an error exactly if there is a fault, and it is the first
one: a page that is too large, or else a time window without bounds, or else a filter that can not
be read, or else a sort order that is not specified. It is never an error of compilation. Without
a fault there is a request, and its JSON value is the one that is asked for. The page of a request
has the size that is asked for, and that is no larger than the settings allow. -/
theorem build_answers (settings : Settings) (filter : Option String) (options : SearchOptions) :
    (∀ e, build settings filter options = .error e ↔ Refused settings filter options e) ∧
    (∀ e, build settings filter options ≠ .error (.build e)) ∧
    ((∃ request, build settings filter options = .ok request) ↔
      ¬∃ e, Refused settings filter options e) ∧
    (∀ body, (build settings filter options).map toJson = .ok body ↔
      pageSize settings options ≤ settings.maxSize ∧ IsBody settings filter options body) ∧
    ∀ request, build settings filter options = .ok request →
      request.size = pageSize settings options ∧ request.size ≤ settings.maxSize := by
  refine ⟨fun e => build_eq_error_iff_refused, fun e h => ?_, ?_,
    fun body => map_toJson_build_eq_ok_iff, fun request h => ?_⟩
  · cases build_eq_error_iff_refused.1 h
  · simp only [← build_eq_error_iff_refused]
    cases build settings filter options <;> simp
  · obtain ⟨hsize, _, _, _, -, -, -, rfl⟩ := build_eq_ok_iff.1 h
    exact ⟨rfl, hsize⟩

/-- Options that ask for something of each kind. -/
def recent : SearchOptions where
  offset := 20
  size := some 50
  sort := some " +created_at"
  timeWindow := some ⟨none, some "2024-06-30"⟩
  excludes := ["files"]

/-- A time window with one bound and a filter in a nested scope, with blanks around it. -/
theorem build_answers_recent :
    (build {} (some " team.name=qe\n") recent).map toJson = .ok (.object
      [("from", .number 20), ("size", .number 50),
        ("query", .single "bool" (.single "filter" (.array
          [.single "range" (.single "created_at" (.object
              [("lte", .string "2024-06-30"), ("format", .string "strict_date_optional_time")])),
            (Query.nested "team".toList (.clause (.term "team.name" "qe"))).toJson]))),
        ("sort", .array [.single "created_at" (.object
          [("order", .string "asc"), ("format", .string "strict_date_optional_time")])]),
        ("_source", .object [("includes", .strings []), ("excludes", .strings ["files"])])]) := by
  have hblank : ¬IsBlank " team.name=qe\n" := fun h => absurd (h 't' (by decide)) (by decide)
  have hparse : Filter.parse (trimmed " team.name=qe\n") =
      .ok (.leaf ⟨"team.name", .compare .equal "qe"⟩) := by decide +kernel
  have hquery : Query.ofFilter {} (.leaf ⟨"team.name", .compare .equal "qe"⟩) =
      .ok (.nested "team".toList (.clause (.term "team.name" "qe"))) := by
    rw [Query.ofFilter_of_height_le (by decide), Query.compile]
    rfl
  have hspec : SortSpec.Specifies " +created_at" ⟨"created_at", .ascending⟩ :=
    SortSpec.ofText_eq_ok_iff.1 rfl
  have hbody : IsBody {} (some " team.name=qe\n") recent _ :=
    .of (.text hblank hparse hquery) (.specified hspec) (.both .lte)
  exact ((build_answers {} (some " team.name=qe\n") recent).2.2.2.1 _).2 ⟨by decide, hbody⟩

end Request

end NestedFilter
