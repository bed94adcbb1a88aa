import NestedFilter.Proofs.Edits

/-!
# Quotes around values make no difference

Quotes may be put around any of the values that stand in a text without
(`NestedFilter.quoteValues`). The tokens of the text that comes out are those of the text: they are
wider by their quotes and moved by the quotes before them (`NestedFilter.widened`), and that is
all. So the text is read as it was, whether it is a filter or not
(`NestedFilter.Filter.parse_quoteValues`).

The quotes are put in by the places of tokens alone: the text is cut at the ends of each, and of
the lexer nothing is used but these places (`NestedFilter.quoteSlices`). So it is part of the
statement that the places are such that the text can be cut there.

A value that stands without quotes holds none, so it can stand in quotes
(`NestedFilter.Lexer.Reads.quoteFree_of_bare`). Whether it stands without them is told by its
place, which has no room for quotes (`NestedFilter.Lexer.Reads.isBare_iff`). The quotes change
neither what the lexer expects behind the value, nor the tokens before it: a quote ends a word, a
sign or a value without quotes as surely as the value did
(`NestedFilter.Lexer.stopsAlike_cons`). The induction is along the tokens, and it carries along
that the changed rest of a text stops what the rest of the text does, which is what the token
before it has to know.
-/

namespace NestedFilter

/-! ### Putting values in quotes -/

/-- The token is a value that stands without quotes: its place has no room for any. -/
def Token.isBare (t : Token) : Bool :=
  match t.lexeme with
  | .value value => t.span.stop == t.span.start + Text.byteLength value.toList
  | _ => false

/-- The characters with quotes around the slices where the chosen tokens stand, of a text
that starts at the offset `n`; `none` if there are no such slices. -/
def quoteSlices (chosen : Token → Bool) : Nat → List Char → List Token → Option (List Char)
  | _, cs, [] => some cs
  | n, cs, t :: ts => do
    let (before, rest) ← Text.splitBytes? cs (t.span.start - n)
    let (slice, rest) ← Text.splitBytes? rest (t.span.stop - t.span.start)
    let quoted ← quoteSlices chosen t.span.stop rest ts
    return before ++ (if chosen t then '\x27' :: slice ++ ['\x27'] else slice) ++ quoted

/-- The text with quotes around those values that stand in it without and that are chosen. -/
def quoteValues (chosen : Token → Bool) (s : String) : Option String :=
  (quoteSlices (fun t => t.isBare && chosen t) 0 s.toList (tokenize s)).map String.ofList

/-- The tokens once the chosen ones stand in quotes, which take a byte each, and all of them
`k` bytes further on. -/
def widened (chosen : Token → Bool) : Nat → List Token → List Token
  | _, [] => []
  | k, t :: ts =>
    if chosen t then
      ⟨t.lexeme, ⟨t.span.start + k, t.span.stop + k + 2⟩⟩ :: widened chosen (k + 2) ts
    else t.movedBy k :: widened chosen k ts

theorem map_lexeme_widened (chosen : Token → Bool) (k : Nat) (ts : List Token) :
    (widened chosen k ts).map (·.lexeme) = ts.map (·.lexeme) := by
  induction ts generalizing k with
  | nil => rfl
  | cons t ts ih =>
    rw [widened]
    split <;> rw [List.map_cons, ih, List.map_cons]
    rfl

theorem quoteSlices_cons {chosen : Token → Bool} {n : Nat} {t : Token} {ts : List Token}
    {before slice rest : List Char} (hstart : t.span.start = n + Text.byteLength before)
    (hstop : t.span.stop = t.span.start + Text.byteLength slice) :
    quoteSlices chosen n (before ++ slice ++ rest) (t :: ts) =
      (quoteSlices chosen t.span.stop rest ts).map fun quoted =>
        before ++ (if chosen t then '\x27' :: slice ++ ['\x27'] else slice) ++ quoted := by
  have hbefore : Text.splitBytes? (before ++ slice ++ rest) (t.span.start - n) =
      some (before, slice ++ rest) :=
    Text.splitBytes?_eq_some_iff.2 ⟨List.append_assoc .., by omega⟩
  have hslice : Text.splitBytes? (slice ++ rest) (t.span.stop - t.span.start) =
      some (slice, rest) :=
    Text.splitBytes?_eq_some_iff.2 ⟨rfl, by omega⟩
  rw [quoteSlices, hbefore, Option.bind_eq_bind, Option.bind_some]
  dsimp only
  rw [hslice, Option.bind_eq_bind, Option.bind_some, Option.map_eq_bind]
  rfl

namespace Lexer

variable {m : Mode} {x : Lexeme} {cs text tail : List Char} {n : Nat} {ts : List Token}

/-! ### Values without quotes -/

theorem mode_of_accepts {c : Char} (hc : m.accepts c = true) : m = .value ∨ m = .list := by
  cases m with
  | normal | listStart => exact absurd hc (by simp [Mode.accepts])
  | value => exact .inl rfl
  | list => exact .inr rfl

/-- **A value stands without quotes exactly if its characters are those of the value.** -/
theorem Reads.isBare_iff {t : Token} (h : Reads m t.lexeme text tail)
    (hstop : t.span.stop = t.span.start + Text.byteLength text) :
    t.isBare = true ↔ ∃ value, t.lexeme = .value value ∧ text = value.toList := by
  constructor
  · intro hbare
    obtain ⟨value, hvalue⟩ : ∃ value, t.lexeme = .value value := by
      rw [Token.isBare] at hbare
      split at hbare
      · exact ⟨_, ‹_›⟩
      · exact absurd hbare (by simp)
    have hwidth : Text.byteLength text = Text.byteLength value.toList := by
      simpa [Token.isBare, hvalue, hstop] using hbare
    rw [hvalue] at h
    rcases h.spelled.value_cases with ⟨htext, -⟩ | ⟨rfl, -⟩
    · exact ⟨value, hvalue, htext⟩
    · -- Two quotes would make the place wider.
      rw [List.cons_append, Text.byteLength_cons, Text.byteLength_append] at hwidth
      have hpos := '\x27'.utf8Size_pos
      omega
  · rintro ⟨value, hvalue, rfl⟩
    simp [Token.isBare, hvalue, hstop]

/-- A value that stands without quotes could stand in quotes. -/
theorem Reads.quoteFree_of_bare {value : String}
    (h : Reads m (.value value) value.toList tail) :
    QuoteFree value ∧ (m = .value ∨ m = .list) := by
  rcases h.spelled.value_cases with ⟨-, hbare⟩ | ⟨hquoted, -⟩
  · obtain ⟨c, cs, hcs, -⟩ := h.head
    have hall := (List.forall_mem_append.1 hbare.run.all).1
    refine ⟨fun hquote => ?_, mode_of_accepts (hall c (by simp [hcs]))⟩
    exact absurd ((hall _ hquote).symm.trans m.accepts_quote) (by simp)
  · have hlength := congrArg List.length hquoted
    simp at hlength
    omega

/-! ### From token to token -/

/-- **Quotes that are put around values only move tokens.** -/
theorem Lexes.exists_quoteSlices {chosen : Token → Bool}
    (hchosen : ∀ t, chosen t = true → t.isBare = true) (h : Lexes m n cs ts) (k : Nat) :
    ∃ cs', quoteSlices chosen n cs ts = some cs' ∧ StopsAlike cs cs' ∧
      Lexes m (n + k) cs' (widened chosen k ts) := by
  induction h generalizing k with
  | @nil m n cs hblank => exact ⟨cs, rfl, .refl cs, .nil hblank⟩
  | @cons m n t leading text tail ts hleading hstart hstop hreads hlexes ih =>
    rw [quoteSlices_cons hstart hstop, widened]
    cases ht : chosen t with
    | true =>
      obtain ⟨value, hvalue, rfl⟩ := (hreads.isBare_iff hstop).1 (hchosen t ht)
      obtain ⟨hfree, hm⟩ := (hvalue ▸ hreads).quoteFree_of_bare
      obtain ⟨tail', hquoted, -, htokens⟩ := ih (k + 2)
      have hreads' : Reads m t.lexeme ('\x27' :: value.toList ++ ['\x27']) tail' :=
        hvalue ▸ reads_quoted hm hfree
      have hstops : StopsAlike (value.toList ++ tail)
          ('\x27' :: value.toList ++ ['\x27'] ++ tail') :=
        stopsAlike_cons (.inl rfl) fun h => absurd h (by decide)
      refine ⟨leading ++ ('\x27' :: value.toList ++ ['\x27']) ++ tail', by rw [hquoted]; rfl, ?_,
        .cons hleading ?_ ?_ hreads' htokens⟩
      · rw [List.append_assoc, List.append_assoc]
        exact hstops.append_left leading
      · simp only
        omega
      · have hbyte : '\x27'.utf8Size = 1 := rfl
        simp only [List.cons_append, Text.byteLength_cons, Text.byteLength_append,
          Text.byteLength_nil, hbyte]
        omega
    | false =>
      obtain ⟨tail', hquoted, hstops, htokens⟩ := ih k
      have hreads' : Reads m t.lexeme text tail' := by
        by_cases hopen : Unclosed m text
        · -- Behind such a quote there is no value.
          obtain ⟨-, rfl⟩ := hopen.eq_of_reads hreads
          obtain rfl := hlexes.eq_nil
          obtain rfl : [] = tail' := Option.some.inj hquoted
          exact hreads
        · exact hreads.replace hstops hopen
      refine ⟨leading ++ text ++ tail', by rw [hquoted]; rfl, hstops.append_left _,
        .cons hleading ?_ ?_ hreads' htokens⟩
      · rw [Token.movedBy_start]
        omega
      · rw [Token.movedBy_stop, Token.movedBy_start]
        omega

end Lexer

/-- **Quotes around values make no difference.** Let quotes be put around any choice of the values
that stand in a text without. The tokens of the text that comes out are those of the text, but
for their places: those that are quoted are wider by the two quotes, and all are moved by the
quotes before them. So the lexemes are the same, and the text is read as the same filter or
refused in the same words. -/
theorem Filter.parse_quoteValues (s : String) (chosen : Token → Bool) :
    ∃ s', quoteValues chosen s = some s' ∧
      tokenize s' = widened (fun t => t.isBare && chosen t) 0 (tokenize s) ∧
      (tokenize s').map (·.lexeme) = (tokenize s).map (·.lexeme) ∧
      (Filter.parse s').mapError ParseError.message =
        (Filter.parse s).mapError ParseError.message := by
  have hbare : ∀ t : Token, (t.isBare && chosen t) = true → t.isBare = true :=
    fun t ht => (Bool.and_eq_true_iff.1 ht).1
  have hlexes : Lexer.Lexes .normal 0 s.toList (tokenize s) :=
    Lexer.lexes_iff.2 (by rw [String.ofList_toList])
  obtain ⟨cs, hquoted, -, htokens⟩ := hlexes.exists_quoteSlices hbare 0
  have heq : tokenize (String.ofList cs) =
      widened (fun t => t.isBare && chosen t) 0 (tokenize s) := Lexer.lexes_iff.1 htokens
  have hlexemes := (congrArg (List.map (·.lexeme)) heq).trans (map_lexeme_widened _ 0 _)
  exact ⟨String.ofList cs, congrArg (Option.map String.ofList) hquoted, heq, hlexemes,
    Filter.parse_congr hlexemes⟩

/-- The quotes stand around the values alone, not around the spaces behind them. -/
example : quoteValues (fun _ => true) "(a = b c  ) and (d in [e , 'f'])" =
    some "(a = 'b c'  ) and (d in ['e' , 'f'])" := by
  decide +kernel

end NestedFilter
