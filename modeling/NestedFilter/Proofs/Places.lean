import NestedFilter.Proofs.Tiling
import NestedFilter.Proofs.Viable

/-!
# The place of an error in the text

The place that an error of reading tells is that of a token, and tokens stand in the text
(`NestedFilter.Lexer.Tiles`). So both of its ends are between characters, and there are some from
the one to the other. These are the token at fault: up to it the tokens can be part of a filter,
and with it they can not (`NestedFilter.Filter.exists_errorAt`).

Two results meet here that know nothing of each other. The parser finds the token and does not ask
where it stands; that it is the first one that can be no part of a filter is a fact about lists of
tokens (`NestedFilter.Filter.ofTokens_error_earliest`). The lexer says of every token where it
stands and how it is spelled, and does not ask whether it belongs there. Those who show an error
need both, and nothing else of either: the text cut in three, with the token in the middle
(`NestedFilter.Filter.ErrorAt`).
-/

namespace NestedFilter

namespace Filter

/-- **The characters `text` are at fault.** In the text `s` they stand between `before` and
`after`, and they spell the token that the error names, which is the first that can be no part of
a filter. -/
structure ErrorAt (s : String) (e : ParseError) (before text after : List Char) : Prop where
  /-- They stand in the text. -/
  split : s.toList = before ++ text ++ after
  /-- There is one at least. -/
  ne_nil : text ≠ []
  /-- They are a token of the text, and the error is about that token. -/
  exists_token : ∃ earlier t later, tokenize s = earlier ++ t :: later ∧ e.found? = some t ∧
    t.span = ⟨Text.byteLength before, Text.byteLength (before ++ text)⟩ ∧
    Lexer.Spelled (.afterAll .normal (earlier.map (·.lexeme))) t.lexeme text after ∧
    Viable earlier ∧ ¬Viable (earlier ++ [t])

variable {s : String} {e : ParseError} {before text after : List Char}

/-- The place that the error tells is that of the characters. -/
theorem ErrorAt.span?_eq (h : ErrorAt s e before text after) :
    e.span? = some ⟨Text.byteLength before, Text.byteLength (before ++ text)⟩ := by
  obtain ⟨_, t, _, -, hfound, hspan, -⟩ := h.exists_token
  rw [ParseError.span?, hfound, Option.map_some, hspan]

/-- **Where an error tells a place, there are characters at fault.** -/
theorem exists_errorAt {span : Span} (h : Filter.parse s = .error e) (hspan : e.span? = some span) :
    ∃ before text after, ErrorAt s e before text after := by
  rcases Reading.takes_of_run_eq_error h with
    ⟨hnone, -⟩ | ⟨earlier, t, later, next, fault, hts, htakes, hstep, hfound⟩
  · rw [ParseError.span?, hnone] at hspan
    exact absurd hspan (by simp)
  · have htiles : Lexer.Tiles [] .normal s.toList (tokenize s) :=
      Lexer.tiles_tokens (Lexer.ofChars s.toList) rfl
    have hts' : tokenize s = earlier ++ t :: later := hts
    rw [hts'] at htiles
    obtain ⟨before, text, after, hsplit, htspan, hspelled⟩ := htiles.exists_spelled
    exact ⟨before, text, after, hsplit, hspelled.ne_nil, earlier, t, later, hts', hfound, htspan,
      hspelled, viable_iff_takes.2 ⟨next, htakes⟩, not_viable_of_step_eq_error htakes hstep⟩

end Filter

end NestedFilter
