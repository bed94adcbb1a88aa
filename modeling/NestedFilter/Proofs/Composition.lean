import Mathlib.Data.List.Find
import Mathlib.Data.List.Forall2
import NestedFilter.Proofs.Height

/-!
# Texts in parentheses compose

Texts that are read as filters can be set in parentheses and joined by connectives, and what
is read is the chain of their filters: `NestedFilter.Filter.parse_compose`. Nothing that a
text holds, values without quotes or blanks at its end included, reaches over the parenthesis
behind it.

For words and signs that is no surprise. A value without quotes is another matter: it goes on
over blanks and brackets, and in a list it ends at other characters than behind a comparison
sign. So the argument is made for the lexer once, before the grammar comes in, and it rests on
two facts about reading:

* A parenthesis that closes stops every piece but a quote that is never closed, so the lexemes
  of a text are the same with a parenthesis behind it
  (`NestedFilter.Lexer.lexemesFrom_append_rparen`).
* Behind the lexemes of a filter the lexer expects what it expected before them, and none of
  them is illegal (`NestedFilter.Derives.settled`), so it reads on as if nothing had been read.

The quote that is never closed is what the second fact keeps out: it makes an illegal lexeme,
and no chain is derived from one.

A pair of parentheses around a text nests it one deeper. This is the only condition on a text
besides that it is read (`NestedFilter.Filter.Composable`), and it is one on each text by
itself: side by side, texts do not add to each other's depth. What the connectives between them
mean is said by `NestedFilter.Filter.cutAtOr`, which cuts the filters into runs as the grammar
does and knows nothing of texts.
-/

namespace NestedFilter

namespace Lexer

variable {m : Mode} {cs : List Char} {p : Piece}

/-! ### Pieces before a parenthesis -/

/-- The piece, where more text follows: it is the same but for what is left behind it. -/
def Piece.followedBy (p : Piece) (more : List Char) : Piece :=
  { p with rest := p.rest ++ more }

theorem scanRun_append_rparen {accept : Char → Bool} (haccept : accept ')' = false)
    (cs rest : List Char) :
    scanRun accept (cs ++ ')' :: rest) = (scanRun accept cs).followedBy (')' :: rest) := by
  have hstop : (')' :: rest).head?.any accept = false := haccept
  obtain ⟨htake, hdrop⟩ := takeWhile_append_of_head? cs hstop
  rw [scanRun, scanRun, htake, hdrop]
  rfl

/-- A value in quotes that is legal is closed, so it does not reach what follows, whatever that
is. -/
theorem scanQuoted_append (h : (scanQuoted cs).lexeme ≠ .illegal) (more : List Char) :
    scanQuoted (cs ++ more) = (scanQuoted cs).followedBy more := by
  have hquote : '\x27' ∈ cs := by
    by_contra hfree
    rw [scanQuoted_unclosed hfree] at h
    exact h rfl
  obtain ⟨content, tail, rfl, hfree⟩ := List.eq_append_cons_of_mem hquote
  rw [List.append_assoc, List.cons_append, scanQuoted_closed hfree, scanQuoted_closed hfree]
  rfl

theorem rparen_notMem_tail_of_mem_signs : ∀ sign ∈ signs, ')' ∉ sign.1.tail := by
  decide

theorem isPrefixOf_append_rparen {sign : List Char} (h : ')' ∉ sign) (cs rest : List Char) :
    sign.isPrefixOf (cs ++ ')' :: rest) = sign.isPrefixOf cs := by
  rw [Bool.eq_iff_iff, List.isPrefixOf_iff_prefix, List.isPrefixOf_iff_prefix]
  exact ⟨isPrefix_of_notMem h, fun hbegins => hbegins.trans (List.prefix_append cs _)⟩

/-- No sign that has begun goes on with the parenthesis. -/
theorem find?_signs_append_rparen (c : Char) (cs rest : List Char) :
    signs.find? (·.1.isPrefixOf (c :: (cs ++ ')' :: rest))) =
      signs.find? (·.1.isPrefixOf (c :: cs)) := by
  refine List.find?_congr fun sign hsign => ?_
  obtain ⟨d, ds, hd⟩ := List.exists_cons_of_ne_nil (signs_ne_nil sign hsign)
  have hds : ')' ∉ ds := by simpa [hd] using rparen_notMem_tail_of_mem_signs sign hsign
  rw [hd, List.isPrefixOf_cons_cons, List.isPrefixOf_cons_cons, isPrefixOf_append_rparen hds]

theorem scanNormal_append_rparen (h : scanNormal cs = some p) (rest : List Char) :
    scanNormal (cs ++ ')' :: rest) = some (p.followedBy (')' :: rest)) := by
  cases cs with
  | nil => simp [scanNormal, signs] at h
  | cons c cs =>
    have hstop : (')' :: rest).head?.any isWordChar = false := rfl
    obtain ⟨htake, hdrop⟩ := takeWhile_append_of_head? (c :: cs) hstop
    rw [List.cons_append] at htake hdrop ⊢
    unfold scanNormal at h ⊢
    rw [find?_signs_append_rparen]
    split at h
    · next sign lexeme hsign =>
      obtain ⟨tail, htail⟩ := isPrefixOf_of_find?_signs hsign
      obtain rfl := Option.some.inj h
      rw [← List.cons_append, ← htail, List.append_assoc, List.drop_left, List.drop_left]
      rfl
    · dsimp only at h ⊢
      split at h
      · next hc =>
        obtain rfl := Option.some.inj h
        rw [if_pos hc, htake, hdrop]
        rfl
      · next hc =>
        obtain rfl := Option.some.inj h
        rw [if_neg hc]
        rfl

/-- **A parenthesis that closes stops every piece** but a quote that is never closed. It is no
character of words or of values without quotes, in whatever mode, and no sign has it behind its
first character. -/
theorem scan_append_rparen (h : scan m cs = some p) (hp : p.lexeme ≠ .illegal)
    (rest : List Char) : scan m (cs ++ ')' :: rest) = some (p.followedBy (')' :: rest)) := by
  have haccepts : m.accepts ')' = false := by
    cases m <;> rfl
  cases cs with
  | nil => exact absurd h (by simp [scan_eq_none_iff.2])
  | cons c cs =>
    refine Cut.scan_eq ?_
    cases cut_of_scan h with
    | quoted hm =>
      rw [← scanQuoted_append hp]
      exact .quoted hm
    | run hc =>
      rw [← scanRun_append_rparen haccepts]
      exact .run hc
    | plain hlist hquote hc h =>
      exact .plain hlist hquote hc (scanNormal_append_rparen h rest)
    | stray _ _ _ => exact absurd rfl hp

/-- **A text has the same lexemes with a parenthesis behind it**, and the parenthesis is read
in the mode that they lead to. -/
theorem lexemesFrom_append_rparen (h : .illegal ∉ lexemesFrom m cs) (rest : List Char) :
    lexemesFrom m (cs ++ ')' :: rest) =
      lexemesFrom m cs ++ lexemesFrom (m.afterAll (lexemesFrom m cs)) (')' :: rest) := by
  have hstop : (')' :: rest).head?.any Text.isBlank = false := rfl
  induction m, cs using lexemesFrom.induct with
  | case1 m cs hscan =>
    -- Only blanks are left before the parenthesis.
    have hblank := scan_eq_none_iff.1 hscan
    have hdrop := (takeWhile_append_of_head? cs hstop).2
    rw [hblank, List.nil_append] at hdrop
    rw [lexemesFrom_of_scan_eq_none hscan, List.nil_append, Mode.afterAll_nil,
      ← lexemesFrom_dropWhile, hdrop]
  | case2 m cs p hscan ih =>
    have hdrop := (takeWhile_append_of_head? cs hstop).2
    rw [lexemesFrom_of_scan_eq_some hscan, List.mem_cons, not_or] at h
    obtain ⟨hp, hrest⟩ := h
    have hmore := scan_append_rparen hscan (Ne.symm hp) rest
    rw [← hdrop] at hmore
    rw [lexemesFrom_of_scan_eq_some hmore, lexemesFrom_of_scan_eq_some hscan, List.cons_append,
      Mode.afterAll_cons, ← ih hrest]
    rfl

end Lexer

/-! ### Behind the lexemes of a filter -/

/-- The lexemes leave nothing open: none is illegal, and behind them the lexer expects what it
expects at the start of a text. -/
structure Settled (ls : List Lexeme) : Prop where
  /-- No lexeme is illegal. -/
  legal : .illegal ∉ ls
  /-- The mode is that of the start. -/
  afterAll_eq : Lexer.Mode.normal.afterAll ls = .normal

theorem Settled.lparen_append {ls ms : List Lexeme} (h : Settled ls) (hms : Settled ms) :
    Settled (.lparen :: (ls ++ .rparen :: ms)) where
  legal := by simp [h.legal, hms.legal]
  afterAll_eq := by
    rw [Lexer.Mode.afterAll_cons, Lexer.Mode.afterAll_append]
    change (Lexer.Mode.normal.afterAll ls).afterAll (.rparen :: ms) = .normal
    rw [h.afterAll_eq]
    exact hms.afterAll_eq

theorem Settled.connective_cons {ls : List Lexeme} (h : Settled ls) (c : Connective) :
    Settled (.connective c :: ls) where
  legal := by simp [h.legal]
  afterAll_eq := h.afterAll_eq

theorem afterAll_list_furtherValues (values : List String) :
    Lexer.Mode.list.afterAll (furtherValues values) = .list := by
  induction values with
  | nil => rfl
  | cons value values ih => exact ih

theorem Condition.settled {ls : List Lexeme} {l : Leaf} (h : Condition ls l) : Settled ls := by
  cases h with
  | compare name op value => exact ⟨by simp, rfl⟩
  | member name op value values =>
    refine ⟨by simp [furtherValues], ?_⟩
    change Lexer.Mode.list.afterAll (furtherValues values ++ [.rbracket]) = .normal
    rw [Lexer.Mode.afterAll_append, afterAll_list_furtherValues]
    rfl

/-- **A chain leaves nothing open**, whatever its conditions are. A comparison makes the lexer
expect a value and a membership test a list, but the conditions in a chain are whole, and behind
the value or the bracket that ends the list the mode is that of the start. -/
theorem Derives.settled {n : Nat} {ls : List Lexeme} {runs : List (List Filter)}
    (h : Derives n ls runs) : Settled ls := by
  have hnil : Settled [] := ⟨List.not_mem_nil, rfl⟩
  induction h with
  | condition h => exact h.settled
  | group _ ih => exact ih.lparen_append hnil
  | and _ _ ih ihmore => exact ih.lparen_append (ihmore.connective_cons .and)
  | or _ _ ih ihmore => exact ih.lparen_append (ihmore.connective_cons .or)

/-- **A text that is read stands before a parenthesis as it stands alone**: its lexemes are the
same, and reading goes on behind the parenthesis as at the start of a text. A text that is not
read may well swallow the parenthesis. -/
theorem Lexer.lexemesFrom_append_rparen_of_derives {n : Nat} {runs : List (List Filter)}
    {text : List Char} (h : Derives n (lexemesFrom .normal text) runs) (rest : List Char) :
    lexemesFrom .normal (text ++ ')' :: rest) =
      lexemesFrom .normal text ++ .rparen :: lexemesFrom .normal rest := by
  rw [lexemesFrom_append_rparen h.settled.legal, h.settled.afterAll_eq, lexemesFrom_rparen]

/-! ### Composition -/

namespace Filter

/-- Texts in parentheses, joined by connectives. -/
def compose (first : String) : List (Connective × String) → String
  | [] => "(" ++ first ++ ")"
  | (c, next) :: others => "(" ++ first ++ ") " ++ c.word ++ " " ++ compose next others

/-- The filters of a chain, cut into runs at each `or`: an `and` puts a filter in front of the first
run of what follows, an `or` makes it a run of its own. -/
def cutAtOr (first : Filter) : List (Connective × Filter) → List (List Filter)
  | [] => [[first]]
  | (.and, next) :: others => (cutAtOr next others).modifyHead (first :: ·)
  | (.or, next) :: others => [first] :: cutAtOr next others

/-- The text is read as the filter, and there may be a pair of parentheses around it. Any condition
is such a text, and any text that was composed from such texts with room to spare. -/
structure Composable (text : String) (f : Filter) : Prop where
  /-- The text is read. -/
  parse_eq : Filter.parse text = .ok f
  /-- It nests fewer parentheses than may be nested. -/
  nesting_lt : nesting text < maxNesting

/-- The text and the filter it is read as stand behind the same connective. -/
structure Joins (t : Connective × String) (g : Connective × Filter) : Prop where
  /-- The connectives are the same. -/
  connective : t.1 = g.1
  /-- The text is read as the filter. -/
  composable : Composable t.2 g.2

variable {first : String} {f : Filter} {others : List (Connective × String)}
  {filters : List (Connective × Filter)}

theorem Composable.exists_derives (h : Composable first f) :
    ∃ n runs, n + 1 = maxNesting ∧
      Derives n (Lexer.lexemesFrom .normal first.toList) runs ∧ ofChain runs = f := by
  obtain ⟨-, runs, hruns, rfl⟩ := exists_derives_of_parse h.parse_eq
  rw [map_lexeme_tokenize] at hruns
  exact ⟨maxNesting - 1, runs, rfl, hruns.mono (Nat.le_sub_one_of_lt h.nesting_lt), rfl⟩

/-- A condition has no parentheses, so there is room for a pair. -/
theorem Composable.of_condition {text : String} {ls : List Lexeme} {l : Leaf}
    (hls : Lexer.lexemesFrom .normal text.toList = ls) (h : Condition ls l) :
    Composable text (.leaf l) := by
  rw [← map_lexeme_tokenize] at hls
  refine ⟨?_, ?_⟩
  · rw [Filter.parse, ofTokens_eq_ok_iff, hls]
    exact ⟨_, .condition h, rfl⟩
  · rw [nesting, hls, h.nests.nestingFrom_eq]
    decide

theorem exists_cutAtOr_eq_cons (f : Filter) (filters : List (Connective × Filter)) :
    ∃ run more, cutAtOr f filters = run :: more := by
  induction filters generalizing f with
  | nil => exact ⟨_, _, rfl⟩
  | cons next filters ih =>
    obtain ⟨c, g⟩ := next
    cases c with
    | and =>
      obtain ⟨run, more, heq⟩ := ih g
      exact ⟨f :: run, more, by rw [cutAtOr, heq]; rfl⟩
    | or => exact ⟨_, _, rfl⟩

/-- **The lexemes of the composed text derive the chain.** The induction is on the texts behind the
first, which is read off together with its parentheses and the connective. -/
theorem derives_compose (hfirst : Composable first f)
    (hothers : List.Forall₂ Joins others filters) :
    Derives maxNesting (Lexer.lexemesFrom .normal (compose first others).toList)
      (cutAtOr f filters) := by
  induction hothers generalizing first f with
  | nil =>
    obtain ⟨n, runs, hn, hruns, rfl⟩ := hfirst.exists_derives
    have htext : (compose first []).toList = '(' :: (first.toList ++ ')' :: []) := by
      simp [compose]
    rw [htext, Lexer.lexemesFrom_lparen, Lexer.lexemesFrom_append_rparen_of_derives hruns,
      Lexer.lexemesFrom_nil, ← hn]
    exact .group hruns
  | @cons next other others filters hnext _ ih =>
    obtain ⟨n, runs, hn, hruns, rfl⟩ := hfirst.exists_derives
    obtain ⟨c, text⟩ := next
    obtain ⟨d, g⟩ := other
    obtain ⟨rfl, hnext⟩ := hnext
    have hmore := ih hnext
    have htext : (compose first ((c, text) :: others)).toList =
        linkText c first.toList (compose text others).toList := by
      simp [compose, linkText]
    rw [htext, linkText, Lexer.lexemesFrom_lparen,
      Lexer.lexemesFrom_append_rparen_of_derives hruns, Lexer.lexemesFrom_connective]
    rw [← hn] at hmore ⊢
    cases c with
    | and =>
      obtain ⟨run, more, heq⟩ := exists_cutAtOr_eq_cons g filters
      rw [heq] at hmore
      rw [cutAtOr, heq]
      exact .and hruns hmore
    | or => exact .or hruns hmore

theorem parse_compose_eq_ofChain (hfirst : Composable first f)
    (hothers : List.Forall₂ Joins others filters) :
    Filter.parse (compose first others) = .ok (ofChain (cutAtOr f filters)) := by
  rw [Filter.parse, ofTokens_eq_ok_iff, map_lexeme_tokenize]
  exact ⟨_, derives_compose hfirst hothers, rfl⟩

/-- **Texts in parentheses compose.** Texts that are read and that leave room for a pair of
parentheses can be set in parentheses and joined by connectives; what is read is the chain of
their filters, cut at each `or`. With no other text the parentheses make no difference. -/
theorem parse_compose (hfirst : Composable first f)
    (hothers : List.Forall₂ Joins others filters) :
    Filter.parse (compose first others) = .ok (ofChain (cutAtOr f filters)) ∧
      Filter.parse ("(" ++ first ++ ")") = .ok f := by
  have halone : Filter.parse (compose first []) = .ok (ofChain (cutAtOr f [])) :=
    parse_compose_eq_ofChain hfirst .nil
  rw [compose] at halone
  exact ⟨parse_compose_eq_ofChain hfirst hothers, halone⟩

/-- A value without quotes, blanks behind it included, ends at the parenthesis, and one in
quotes may hold as many parentheses as it likes. -/
theorem parse_compose_unquoted :
    Composable "a=b [c  " (.leaf ⟨"a", .compare .equal "b [c"⟩) ∧
      Composable "d='x) and (y'" (.leaf ⟨"d", .compare .equal "x) and (y"⟩) ∧
      Filter.parse "(a=b [c  ) or (d='x) and (y')" =
        .ok (.group .or [.leaf ⟨"a", .compare .equal "b [c"⟩,
          .leaf ⟨"d", .compare .equal "x) and (y"⟩]) := by
  have hunquoted : Lexer.lexemesFrom .normal "a=b [c  ".toList =
      [.field "a", .comparison .equal, .value "b [c"] :=
    Lexer.lexemesFrom_cons (by decide) rfl <| Lexer.lexemesFrom_cons (by decide) rfl <|
      Lexer.lexemesFrom_cons (by decide) rfl (Lexer.lexemesFrom_nil _)
  have hquoted : Lexer.lexemesFrom .normal "d='x) and (y'".toList =
      [.field "d", .comparison .equal, .value "x) and (y"] :=
    Lexer.lexemesFrom_cons (by decide) rfl <| Lexer.lexemesFrom_cons (by decide) rfl <|
      Lexer.lexemesFrom_cons (by decide) rfl (Lexer.lexemesFrom_nil _)
  have hfirst := Composable.of_condition hunquoted (.compare "a" .equal "b [c")
  have hnext := Composable.of_condition hquoted (.compare "d" .equal "x) and (y")
  have hothers : List.Forall₂ Joins [(.or, "d='x) and (y'")]
      [(.or, .leaf ⟨"d", .compare .equal "x) and (y"⟩)] := .cons ⟨rfl, hnext⟩ .nil
  have htext : compose "a=b [c  " [(.or, "d='x) and (y'")] =
      "(a=b [c  ) or (d='x) and (y')" := by decide
  obtain ⟨hparse, -⟩ := parse_compose hfirst hothers
  rw [htext] at hparse
  exact ⟨hfirst, hnext, hparse⟩

end Filter

end NestedFilter
