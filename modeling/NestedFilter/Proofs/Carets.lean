import NestedFilter.Proofs.Places
import NestedFilter.Proofs.Requests
import NestedFilter.Session

/-!
# Carets under the token at fault

A session shows an error under the filter that it was asked about, with carets under the token at
fault. The error tells the place in bytes, the carets stand in columns of characters; and between
the line and the filter that is read blanks are cut off, once or more often. Still the carets are
always where they should be (`NestedFilter.Session.carets_under_error`).

* The filter that is shown is the one in which the error has its place: what a command holds has
  been freed of blanks (`NestedFilter.Session.ofLine_cases`), so a request finds none to cut off,
  and its filter is read as it stands.
* The place is that of a token, so it cuts no character, and there are as many columns before it
  as characters (`NestedFilter.Session.column?_eq_some`).

Neither is true of a place in general. A request for a filter with blanks around it tells a place
in another text, and for a place within a character there is no column at all. It is the session
that never asks for either, whatever the line is, and the theorem is about lines for this reason.

What is at fault is not left open: below the carets stand the characters of the first token that
can be no part of a filter (`NestedFilter.Filter.ErrorAt`). There is one at least, so that there
is always a caret to see. Columns are counted in characters, one for each; how wide they are
shown is not a matter of the session.
-/

namespace NestedFilter

namespace Session

/-! ### Columns -/

variable {before text after : List Char}

/-- Between two characters the column is the number of those before. -/
theorem column?_eq_some (before after : List Char) :
    column? (before ++ after) (Text.byteLength before) = some before.length := by
  rw [column?, Text.splitBytes?_eq_some_iff.2 ⟨rfl, rfl⟩, Option.map_some]

/-- A stretch between characters is as wide as it has characters. -/
theorem width?_eq_some (before text after : List Char) :
    width? (before ++ text ++ after) ⟨Text.byteLength before, Text.byteLength (before ++ text)⟩ =
      some text.length := by
  have hstart := column?_eq_some before (text ++ after)
  rw [← List.append_assoc] at hstart
  have hle : Text.byteLength before ≤ Text.byteLength (before ++ text) := by
    rw [Text.byteLength_append]
    exact Nat.le_add_right _ _
  rw [width?, hstart, column?_eq_some (before ++ text) after]
  simp [hle]

/-- As many carets stand under characters as there are characters, and as many spaces before
them as there are characters before. -/
theorem carets_eq (hne : text ≠ []) : carets (before ++ text ++ after)
      ⟨Text.byteLength before, Text.byteLength (before ++ text)⟩ =
    String.ofList (List.replicate before.length ' ' ++ List.replicate text.length '^') := by
  have hstart := column?_eq_some before (text ++ after)
  rw [← List.append_assoc] at hstart
  have hpos := List.length_pos_iff.2 hne
  rw [carets, width?_eq_some before text after, hstart, Option.getD_some, Option.getD_some,
    Nat.max_eq_left hpos]

/-! ### Commands -/

/-- **The command comes to an error**, in which a filter is shown. -/
inductive FailsWith (settings : Settings) : Command → String → FilterError → Prop
  /-- The filter can not be read. -/
  | tree {filter : String} {cause : ParseError} (h : Filter.parse filter = .error cause) :
      FailsWith settings (.tree filter) filter (.parse cause)
  /-- There is no request for the filter. -/
  | request {filter : String} {e : FilterError}
      (h : Request.build settings (some filter) {} = .error e) :
      FailsWith settings (.request filter) filter e
  /-- The filter has no query. -/
  | query {filter : String} {e : FilterError} (h : Query.ofText settings filter = .error e) :
      FailsWith settings (.query filter) filter e

variable {settings : Settings} {command : Command} {filter : String} {e : FilterError}

/-- The answer to a command that comes to an error shows the error and the filter. -/
theorem FailsWith.answer_eq (h : FailsWith settings command filter e) :
    answer settings command = report filter e := by
  cases h with
  | tree h | request h | query h => rw [answer, h]

/-- What stands behind a word has no blanks around it. -/
theorem trimmed_of_behind? {word : String} {cs : List Char} (h : behind? word cs = some filter) :
    trimmed filter = filter := by
  rw [behind?] at h
  split at h
  · obtain rfl := Option.some.inj h
    exact trimmed_ofList_trim _
  · exact absurd h (by simp)

/-- **A line is nothing, or the end, or a command with a filter** that has no blanks around it. -/
theorem ofLine_cases (line : List Char) :
    Command.ofLine line = .nothing ∨ Command.ofLine line = .quit ∨
      ∃ filter, trimmed filter = filter ∧ (Command.ofLine line = .tree filter ∨
        Command.ofLine line = .request filter ∨ Command.ofLine line = .query filter) := by
  simp only [Command.ofLine]
  split
  · exact .inl rfl
  split
  · exact .inr (.inl rfl)
  refine .inr (.inr ?_)
  split
  · next filter hast => exact ⟨filter, trimmed_of_behind? hast, .inl rfl⟩
  split
  · next filter hrequest => exact ⟨filter, trimmed_of_behind? hrequest, .inr (.inl rfl)⟩
  · exact ⟨_, trimmed_ofList_trim line, .inr (.inr rfl)⟩

/-- **The filter that is shown is the one that was read**, if it could not be read. -/
theorem parse_of_failsWith {line : List Char} {cause : ParseError}
    (h : FailsWith settings (Command.ofLine line) filter (.parse cause)) :
    Filter.parse filter = .error cause := by
  rcases ofLine_cases line with hline | hline | ⟨held, htrimmed, hline | hline | hline⟩ <;>
    rw [hline] at h
  · cases h
  · cases h
  · cases h with
    | tree h => exact h
  · -- A request frees its filter of blanks once more, in vain.
    cases h with
    | request h =>
      cases Request.build_eq_error_iff_refused.1 h with
      | parse _ _ hfilter _ hparse =>
        obtain rfl := Option.some.inj hfilter
        rwa [htrimmed] at hparse
  · cases h with
    | query h =>
      obtain ⟨_, hparse, hcause⟩ := Query.ofText_eq_error_iff.1 h
      rwa [← FilterError.parse.inj hcause] at hparse

/-! ### Carets -/

/-- **The carets stand under the token at fault.** Let a line, of whatever characters, come to an
error of reading that has a place. Then the filter that is shown is the text that the error is
about, and the place of the error is that of characters in it, which are the token at fault. Both
ends of the place are between characters, so that there is a column and a width for it; and in the
answer, below the filter, there are as many spaces as there are characters before the token, and
as many carets as there are characters in it, which is one at least. -/
theorem carets_under_error {settings : Settings} {line : List Char} {filter : String}
    {cause : ParseError} {span : Span}
    (h : FailsWith settings (Command.ofLine line) filter (.parse cause))
    (hspan : cause.span? = some span) :
    ∃ before text after, Filter.parse filter = .error cause ∧
      Filter.ErrorAt filter cause before text after ∧
      span = ⟨Text.byteLength before, Text.byteLength (before ++ text)⟩ ∧
      column? filter.toList span.start = some before.length ∧
      width? filter.toList span = some text.length ∧ 1 ≤ text.length ∧
      answer settings (Command.ofLine line) =
        "✗ " ++ (FilterError.parse cause).message ++ "\n" ++ ("  " ++ filter ++ "\n  " ++
          String.ofList (List.replicate before.length ' ' ++ List.replicate text.length '^') ++
            "\n") := by
  have hparse := parse_of_failsWith h
  obtain ⟨before, text, after, hat⟩ := Filter.exists_errorAt hparse hspan
  obtain rfl := Option.some.inj (hspan.symm.trans hat.span?_eq)
  have hcolumn := column?_eq_some before (text ++ after)
  rw [← List.append_assoc, ← hat.split] at hcolumn
  have hwidth := width?_eq_some before text after
  have hcarets : carets (before ++ text ++ after) _ = _ := carets_eq hat.ne_nil
  rw [← hat.split] at hwidth hcarets
  refine ⟨before, text, after, hparse, hat, rfl, hcolumn, hwidth,
    List.length_pos_iff.2 hat.ne_nil, ?_⟩
  rw [h.answer_eq, report]
  simp only [hspan, hcarets]

/-- A token of two characters and three bytes, behind others of which some have two bytes or
three, and with blanks around the filter and the line. -/
theorem carets_under_error_accents :
    FailsWith {} (Command.ofLine " :request  (a='é中') and (b='é ".toList)
        "(a='é中') and (b='é" (.parse (.unexpected .value ⟨.illegal, ⟨19, 22⟩⟩)) ∧
      answer {} (Command.ofLine " :request  (a='é中') and (b='é ".toList) =
        "✗ Parse error: Expected Value(\"\"), found Illegal\n" ++
          ("  (a='é中') and (b='é\n  " ++
            String.ofList (List.replicate 16 ' ' ++ List.replicate 2 '^') ++ "\n") := by
  have hparse : Filter.parse (trimmed "(a='é中') and (b='é") =
      .error (.unexpected .value ⟨.illegal, ⟨19, 22⟩⟩) := by decide +kernel
  have hblank : ¬IsBlank "(a='é中') and (b='é" := fun h => absurd (h '(' (by decide)) (by decide)
  have hfails : FailsWith {} (Command.ofLine " :request  (a='é中') and (b='é ".toList)
      "(a='é中') and (b='é" _ :=
    .request (Request.build_eq_error_iff_refused.2
      (.parse (by decide) (by decide) rfl hblank hparse))
  obtain ⟨before, text, after, -, -, -, hcolumn, hwidth, -, hanswer⟩ :=
    carets_under_error hfails rfl
  have hbefore : 16 = before.length := Option.some.inj hcolumn
  have htext : 2 = text.length := Option.some.inj hwidth
  rw [← hbefore, ← htext] at hanswer
  exact ⟨hfails, hanswer⟩

end Session

end NestedFilter
