import NestedFilter.Proofs.Edits
import NestedFilter.Proofs.Places
import NestedFilter.Proofs.Requests

/-!
# Blanks around a filter

A text is read as the same filter with blanks around it and without them, but an error tells
another place: places are counted from the start of the text that is read, and a quote that is
never closed takes the blanks at the end of the text. So the place in the text without the blanks
is that in the text with them, less what lies in the margins and counted from the end of the
first margin (`NestedFilter.inTrimmed`).

The two margins are not alike. Blanks in front move every token by as many bytes, and nothing
else happens. Blanks at the end stop what the end of the text stops, so they change no token but
the last, and that only if it is such a quote (`NestedFilter.Lexer.Lexes.append_blanks`). Both
are one map of places, so what is read of the two texts differs by that map
(`NestedFilter.Filter.parse_trimmed`), the filter not at all and the error in its place.

A request frees its filter of the blanks around it. It is therefore the request for the query of
the filter as it is given, but where the filter can not be read, the place that the error tells is
one in a text that the caller never saw (`NestedFilter.Request.build_against_ofText`). It is the
right place only if there are no blanks in front, and the token at fault does not reach into those
at the end (`NestedFilter.Request.not_forall_build_eq_ofText`). An error without a place, as the
tokens end too early, is always the same.
-/

namespace NestedFilter

/-- What of a stretch lies in the `length` bytes from the offset `start` on, by its offsets
there. -/
def Span.clip (start length : Nat) (span : Span) : Span :=
  ⟨span.start - start, min (span.stop - start) length⟩

namespace Lexer

variable {m : Mode} {n : Nat} {cs tail tail' tail'' blanks : List Char} {ts : List Token}

/-! ### Blanks at the end of a text -/

theorem StopsAlike.trans (h : StopsAlike tail tail') (h' : StopsAlike tail' tail'') :
    StopsAlike tail tail'' where
  word := fun hstop => h'.word (h.word hstop)
  run := fun m hstop => h'.run m (h.run m hstop)
  sign := fun sign hsign text hbegins => h.sign sign hsign text (h'.sign sign hsign text hbegins)

/-- What ends at the end of a text ends before blanks as well. -/
theorem stopsAlike_blanks (hblanks : ∀ c ∈ blanks, Text.isBlank c = true) :
    StopsAlike [] blanks := by
  induction blanks with
  | nil => exact .refl []
  | cons w blanks ih =>
    obtain ⟨hw, hblanks⟩ := List.forall_mem_cons.1 hblanks
    by_cases hspace : w = ' '
    · -- A value without quotes goes on with spaces, up to whatever else there is.
      exact (ih hblanks).trans (stopsAlike_cons (.inr hw) fun _ => rfl)
    · exact stopsAlike_cons (.inr hw) fun h => absurd h hspace

/-- **Blanks at the end of a text** are no part of a token, unless the last token is a quote that
is never closed. What lies in the text without them are its tokens. -/
theorem Lexes.append_blanks (hblanks : ∀ c ∈ blanks, Text.isBlank c = true)
    (h : Lexes m n cs ts) : ∃ ts', Lexes m n (cs ++ blanks) ts' ∧
      ts = ts'.map (Token.mapSpan (Span.clip 0 (n + Text.byteLength cs))) := by
  induction h with
  | nil hblank => exact ⟨[], .nil (List.forall_mem_append.2 ⟨hblank, hblanks⟩), rfl⟩
  | @cons m n t leading text tail ts hleading hstart hstop hreads hlexes ih =>
    have hend : n + Text.byteLength (leading ++ text ++ tail) =
        t.span.stop + Text.byteLength tail := by
      rw [Text.byteLength_append, Text.byteLength_append]
      omega
    have hclip : t.mapSpan (Span.clip 0 (t.span.stop + Text.byteLength tail)) = t := by
      simp [Token.mapSpan, Span.clip]
    rw [hend]
    by_cases hopen : Unclosed m text
    · obtain ⟨hillegal, rfl⟩ := hopen.eq_of_reads hreads
      obtain rfl := hlexes.eq_nil
      have hcons : Lexes m n (leading ++ (text ++ blanks) ++ [])
          [⟨.illegal, ⟨t.span.start, t.span.start + Text.byteLength (text ++ blanks)⟩⟩] :=
        .cons hleading hstart rfl (hopen.append_blanks hblanks).reads (.nil (by simp))
      obtain ⟨x, start, stop⟩ := t
      obtain rfl : x = .illegal := hillegal
      obtain rfl : stop = start + Text.byteLength text := hstop
      refine ⟨_, by simpa using hcons, ?_⟩
      simp [Token.mapSpan, Span.clip, Text.byteLength_append]
    · obtain ⟨ts', hlexes', hts⟩ := ih
      have hreads' : Reads m t.lexeme text (tail ++ blanks) := by
        have hstop := (stopsAlike_blanks hblanks).append_left tail
        rw [List.append_nil] at hstop
        exact hreads.replace hstop hopen
      have hcons : Lexes m n (leading ++ text ++ (tail ++ blanks)) (t :: ts') :=
        .cons hleading hstart hstop hreads' hlexes'
      rw [← List.append_assoc] at hcons
      exact ⟨t :: ts', hcons, by rw [List.map_cons, hclip, ← hts]⟩

end Lexer

/-! ### Texts with blanks around them -/

/-- The number of bytes that the blanks in front of a text take. -/
def margin (s : String) : Nat :=
  Text.byteLength (s.toList.takeWhile Text.isBlank)

/-- What of a stretch of a text lies in the text without the blanks around it. -/
def inTrimmed (s : String) : Span → Span :=
  Span.clip (margin s) (Text.byteLength (trimmed s).toList)

/-- **The tokens of a text without the blanks around it** are those of the text, at the places
where they are then. -/
theorem tokenize_trimmed (s : String) :
    tokenize (trimmed s) = (tokenize s).map (Token.mapSpan (inTrimmed s)) := by
  obtain ⟨trailing, hsplit, htrailing⟩ := Text.exists_trailing s.toList
  have hleading : ∀ c ∈ s.toList.takeWhile Text.isBlank, Text.isBlank c = true :=
    fun c hc => List.mem_takeWhile_imp hc
  have hbody : Lexer.Lexes .normal 0 (Text.trim s.toList) (tokenize (trimmed s)) :=
    Lexer.lexes_iff.2 rfl
  obtain ⟨ts, hts, heq⟩ := hbody.append_blanks htrailing
  have hwhole := (hts.movedBy (margin s)).blanks_append hleading
  rw [← List.append_assoc, ← hsplit, Lexer.lexes_iff, String.ofList_toList] at hwhole
  rw [heq, hwhole, List.map_map]
  refine List.map_congr_left fun t _ => ?_
  simp [Token.mapSpan, Token.movedBy, inTrimmed, Span.clip, toList_trimmed]

namespace Filter

/-- **A text without the blanks around it is read as the text**; an error is at the place where its
token is then. -/
theorem parse_trimmed (s : String) : Filter.parse (trimmed s) =
    (Filter.parse s).mapError (ParseError.mapSpan (inTrimmed s)) := by
  rw [Filter.parse, tokenize_trimmed, Filter.ofTokens_mapSpan, ← Filter.parse]

variable {s : String} {cause : ParseError}

/-- **An error is the same without the blanks around the text** if it tells no place, or else if
there are no blanks in front and the token at fault does not reach into those at the end. -/
theorem mapSpan_inTrimmed_eq_iff (h : Filter.parse s = .error cause) :
    cause.mapSpan (inTrimmed s) = cause ↔ ∀ span, cause.span? = some span →
      margin s = 0 ∧ span.stop ≤ Text.byteLength (trimmed s).toList := by
  rw [ParseError.mapSpan_eq_self_iff]
  refine forall₂_congr fun span hspan => ?_
  obtain ⟨before, text, after, hat⟩ := exists_errorAt h hspan
  obtain rfl := Option.some.inj (hspan.symm.trans hat.span?_eq)
  -- A token ends behind its first byte, so with blanks in front it would end earlier.
  have hpos : 0 < Text.byteLength (before ++ text) := by
    obtain ⟨c, cs, rfl⟩ := List.exists_cons_of_ne_nil hat.ne_nil
    have := c.utf8Size_pos
    rw [Text.byteLength_append, Text.byteLength_cons]
    omega
  simp only [inTrimmed, Span.clip, Span.mk.injEq]
  omega

end Filter

namespace Query

variable {settings : Settings} {s : String}

/-- A text has the same query without the blanks around it. -/
theorem ofText_trimmed_eq_ok_iff {query : Query} :
    ofText settings (trimmed s) = .ok query ↔ ofText settings s = .ok query := by
  rw [ofText_eq_ok_iff, ofText_eq_ok_iff, Filter.parse_trimmed]
  cases Filter.parse s <;> simp [Except.mapError]

/-- The error of a text is at the place where its token is without the blanks around the text. -/
theorem ofText_trimmed_eq_error_iff {e : FilterError} :
    ofText settings (trimmed s) = .error e ↔ ∃ cause, ofText settings s = .error (.parse cause) ∧
      e = .parse (cause.mapSpan (inTrimmed s)) := by
  simp only [ofText_eq_error_iff, Filter.parse_trimmed, FilterError.parse.injEq,
    exists_eq_right']
  cases Filter.parse s <;> simp [Except.mapError]

end Query

namespace Request

variable {settings : Settings} {options : SearchOptions} {s : String}

/-- Options that are no reason for a request to be refused. -/
structure Acceptable (settings : Settings) (options : SearchOptions) : Prop where
  /-- The page is no larger than the settings allow. -/
  size_le : pageSize settings options ≤ settings.maxSize
  /-- A time window has a bound. -/
  bounded : options.timeWindow ≠ some ⟨none, none⟩
  /-- A specification of a sort order specifies one. -/
  sorted : ∀ text, options.sort = some text → ∃ spec, SortSpec.Specifies text spec

theorem Acceptable.exists_sorts (h : Acceptable settings options) :
    ∃ spec, Sorts options.sort spec := by
  cases hsort : options.sort with
  | none => exact ⟨none, .absent⟩
  | some text =>
    obtain ⟨spec, hspec⟩ := h.sorted text hsort
    exact ⟨some spec, .specified hspec⟩

/-- With acceptable options it all depends on the filter, without the blanks around it. -/
theorem Acceptable.exists_build_eq (h : Acceptable settings options) (hblank : ¬IsBlank s) :
    ∃ sort : Option SortClause, build settings (some s) options =
      (Query.ofText settings (trimmed s)).map fun query =>
        ⟨options.offset, pageSize settings options,
          .of (options.timeWindow.map (rangeOfWindow settings)) (some query), sort,
          projectionOf options⟩ := by
  obtain ⟨spec, hspec⟩ := h.exists_sorts
  have hrange : rangeOf settings options = .ok _ := rangeOf_eq_ok_iff.2 ⟨h.bounded, rfl⟩
  have hsort : sortOf settings options = .ok _ := sortOf_eq_ok_iff.2 ⟨spec, hspec, rfl⟩
  refine ⟨spec.map fun spec => ⟨spec, settings.dateFormat⟩, ?_⟩
  rw [build_of_size_le h.size_le, hrange, hsort, queryOf_of_not_blank hblank]
  cases Query.ofText settings (trimmed s) <;> rfl

/-- The request selects by the query of the text, and there is a request if there is a query. -/
theorem Acceptable.build_eq_ok (h : Acceptable settings options) (hblank : ¬IsBlank s)
    {query : Query} (hquery : Query.ofText settings s = .ok query) :
    ∃ request, build settings (some s) options = .ok request ∧ request.selection =
      .of (options.timeWindow.map (rangeOfWindow settings)) (some query) := by
  obtain ⟨sort, hbuild⟩ := h.exists_build_eq hblank
  rw [hbuild, Query.ofText_trimmed_eq_ok_iff.2 hquery]
  exact ⟨_, rfl, rfl⟩

/-- The error of the request is that of the text without the blanks around it. -/
theorem Acceptable.build_eq_error_iff_ofText (h : Acceptable settings options)
    (hblank : ¬IsBlank s) {e : FilterError} : build settings (some s) options = .error e ↔
      ∃ cause, Query.ofText settings s = .error (.parse cause) ∧
        e = .parse (cause.mapSpan (inTrimmed s)) := by
  obtain ⟨sort, hbuild⟩ := h.exists_build_eq hblank
  rw [hbuild, ← Query.ofText_trimmed_eq_error_iff]
  cases Query.ofText settings (trimmed s) <;> simp [Except.map]

/-- **The request for a filter against the query of its text.** Let the options be acceptable, and
the filter not be blank. There is a request exactly if the text has a query, and the request
selects by that query. Otherwise both are refused in the same words; but the request tells the
place that the token at fault has in the text without the blanks around it. This is the place in
the text exactly if there are no blanks in front, and the token does not reach into those at the
end. -/
theorem build_against_ofText (hoptions : Acceptable settings options) (hblank : ¬IsBlank s) :
    ((∃ request, build settings (some s) options = .ok request) ↔
      ∃ query, Query.ofText settings s = .ok query) ∧
    (∀ request query, build settings (some s) options = .ok request →
      Query.ofText settings s = .ok query → request.selection =
        .of (options.timeWindow.map (rangeOfWindow settings)) (some query)) ∧
    (∀ e, build settings (some s) options = .error e ↔
      ∃ cause, Query.ofText settings s = .error (.parse cause) ∧
        e = .parse (cause.mapSpan (inTrimmed s))) ∧
    (∀ e e', build settings (some s) options = .error e →
      Query.ofText settings s = .error e' → e.message = e'.message) ∧
    ∀ cause, Query.ofText settings s = .error (.parse cause) →
      (build settings (some s) options = .error (.parse cause) ↔
        ∀ span, cause.span? = some span →
          margin s = 0 ∧ span.stop ≤ Text.byteLength (trimmed s).toList) := by
  have herror (e : FilterError) := hoptions.build_eq_error_iff_ofText hblank (e := e)
  refine ⟨⟨?_, ?_⟩, ?_, herror, ?_, ?_⟩
  · rintro ⟨request, hrequest⟩
    cases hquery : Query.ofText settings s with
    | ok query => exact ⟨query, rfl⟩
    | error e =>
      obtain ⟨cause, -, rfl⟩ := Query.ofText_eq_error_iff.1 hquery
      rw [(herror _).2 ⟨cause, hquery, rfl⟩] at hrequest
      cases hrequest
  · rintro ⟨query, hquery⟩
    obtain ⟨request, hrequest, -⟩ := hoptions.build_eq_ok hblank hquery
    exact ⟨request, hrequest⟩
  · intro request query hrequest hquery
    obtain ⟨request', hrequest', hselection⟩ := hoptions.build_eq_ok hblank hquery
    obtain rfl := Except.ok.inj (hrequest.symm.trans hrequest')
    exact hselection
  · intro e e' he he'
    obtain ⟨cause, hcause, rfl⟩ := (herror e).1 he
    obtain rfl := Except.error.inj (he'.symm.trans hcause)
    exact congrArg ("Parse error: " ++ ·) (ParseError.message_mapSpan _ cause)
  · intro cause hcause
    obtain ⟨_, hparse, hinj⟩ := Query.ofText_eq_error_iff.1 hcause
    obtain rfl := FilterError.parse.inj hinj
    rw [herror, ← Filter.mapSpan_inTrimmed_eq_iff hparse]
    constructor
    · rintro ⟨_, hcause', heq⟩
      obtain rfl := FilterError.parse.inj (Except.error.inj (hcause.symm.trans hcause'))
      exact (FilterError.parse.inj heq).symm
    · intro heq
      exact ⟨cause, hcause, by rw [heq]⟩

/-- A quote that is never closed takes the blank behind it, which a request has cut off. -/
theorem build_against_ofText_unclosed :
    Acceptable {} {} ∧ ¬IsBlank "a='x " ∧
      Query.ofText {} "a='x " = .error (.parse (.unexpected .value ⟨.illegal, ⟨2, 5⟩⟩)) ∧
      build {} (some "a='x ") {} =
        .error (.parse (.unexpected .value ⟨.illegal, ⟨2, 4⟩⟩)) := by
  have hoptions : Acceptable {} {} := ⟨by decide, by decide, by simp⟩
  have hblank : ¬IsBlank "a='x " := fun h => absurd (h 'a' (by decide)) (by decide)
  have hparse : Filter.parse "a='x " = .error (.unexpected .value ⟨.illegal, ⟨2, 5⟩⟩) := by
    decide +kernel
  have htext : Query.ofText {} "a='x " = .error _ :=
    Query.ofText_eq_error_iff.2 ⟨_, hparse, rfl⟩
  exact ⟨hoptions, hblank, htext,
    ((build_against_ofText hoptions hblank).2.2.1 _).2 ⟨_, htext, rfl⟩⟩

/-- Blanks in front of a filter are not counted in the place of an error. -/
theorem not_forall_build_eq_ofText :
    ¬∀ (settings : Settings) (options : SearchOptions) (s : String) (cause : ParseError),
      Acceptable settings options → ¬IsBlank s → Query.ofText settings s = .error (.parse cause) →
        build settings (some s) options = .error (.parse cause) := by
  intro h
  have hoptions : Acceptable {} {} := ⟨by decide, by decide, by simp⟩
  have hblank : ¬IsBlank "  a b" := fun h => absurd (h 'a' (by decide)) (by decide)
  have hparse : Filter.parse "  a b" = .error (.noOperator ⟨.field "b", ⟨4, 5⟩⟩) := by
    decide +kernel
  have htext : Query.ofText {} "  a b" = .error _ :=
    Query.ofText_eq_error_iff.2 ⟨_, hparse, rfl⟩
  have hrequest : build {} (some "  a b") {} =
      .error (.parse (.noOperator ⟨.field "b", ⟨2, 3⟩⟩)) :=
    (hoptions.build_eq_error_iff_ofText hblank).2 ⟨_, htext, rfl⟩
  have heq := hrequest.symm.trans (h _ _ _ _ hoptions hblank htext)
  simp at heq

end Request

end NestedFilter
