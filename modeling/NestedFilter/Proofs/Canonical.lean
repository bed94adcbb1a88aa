import NestedFilter.Filter.Printer
import NestedFilter.Proofs.Lexemes
import NestedFilter.Proofs.Recognition

/-!
# Reading the canonical text

When does reading the canonical text of a filter give the filter back? A filter is
*canonical* (`NestedFilter.Filter.IsCanonical`) if a text can say it at all: its fields are
names, its values hold no quote, its lists are not empty and its groups have two operands or
more. `NestedFilter.Filter.parse_toText_iff` says that this, together with the limit on open
parentheses, is all that is needed, and that nothing but canonical filters is ever read.

Printing works on characters and reading on tokens, so they are not compared directly: both are
followed to the lexemes.

| from | to | by |
|---|---|---|
| the canonical text | its lexemes | `NestedFilter.Filter.lexemesFrom_render` |
| these lexemes | a chain with the filter | `NestedFilter.Filter.derives_lexemes` |
| whatever is read | a canonical filter | `NestedFilter.Filter.isCanonical_of_parse` |

The equations of the first line have any text behind the part that they are about. With
nothing behind it they could not be put together, as the lexer looks past the end of a word and
keeps what it expects next in its mode; with that, a list of operands is an induction on the
list, and a filter one on its tree.

That the limit is met just where the statement has it needs the nesting of the text as a
number, and not only a bound for it: the text is nested exactly as deep as the tree
(`NestedFilter.Filter.nests_lexemes`). A filter that is not canonical has a text too. It may be
refused, or read as some other filter, and what is read is never the filter itself.
-/

namespace NestedFilter

/-! ### Canonical filters -/

/-- A text can say the test: no quote stands in a value, as there are no escapes, and a list has
values, as an empty one is not read. -/
def Test.IsCanonical : Test → Prop
  | .compare _ value => QuoteFree value
  | .member _ values => values ≠ [] ∧ ∀ value ∈ values, QuoteFree value

/-- A text can say the leaf, field and test. -/
structure Leaf.IsCanonical (l : Leaf) : Prop where
  /-- The field is a name. -/
  field : IsFieldName l.field
  /-- The test can be said. -/
  test : l.test.IsCanonical

/-- A text can say the filter. Fields that are no names, values with quotes, empty lists and groups
of fewer than two operands are what keeps a text from saying it; how deep its groups stand within
each other is another matter. -/
inductive Filter.IsCanonical : Filter → Prop
  /-- A leaf, if a text can say it. -/
  | leaf {l : Leaf} (h : l.IsCanonical) : IsCanonical (.leaf l)
  /-- Two filters or more. -/
  | group {c : Connective} {operands : List Filter} (hmany : 2 ≤ operands.length)
      (h : ∀ f ∈ operands, IsCanonical f) : IsCanonical (.group c operands)

/-! ### The lexemes of the canonical text -/

/-- The lexemes of a test. -/
def Test.lexemes : Test → List Lexeme
  | .compare op value => [.comparison op, .value value]
  | .member op values =>
    .membership op :: .lbracket ::
      ([.comma].intercalate (values.map ([.value ·])) ++ [.rbracket])

/-- The lexemes of the canonical text of a leaf. -/
def Leaf.lexemes (l : Leaf) : List Lexeme :=
  .field l.field :: l.test.lexemes

theorem intercalate_values (value : String) (values : List String) :
    [.comma].intercalate ((value :: values).map ([.value ·])) =
      .value value :: furtherValues values := by
  induction values generalizing value with
  | nil => rfl
  | cons next values ih =>
    rw [furtherValues_cons, ← ih next]
    rfl

/-- The lexemes of a leaf write it. -/
theorem Leaf.IsCanonical.condition_lexemes {l : Leaf} (h : l.IsCanonical) :
    Condition l.lexemes l := by
  obtain ⟨name, test⟩ := l
  cases test with
  | compare op value => exact .compare name op value
  | member op values =>
    obtain ⟨value, values, rfl⟩ := List.exists_cons_of_ne_nil h.test.1
    rw [Leaf.lexemes, Test.lexemes, intercalate_values]
    exact .member name op value values

namespace Filter

/-- Lexemes in parentheses, joined by a connective. -/
def joinedLexemes (c : Connective) (parts : List (List Lexeme)) : List Lexeme :=
  [.connective c].intercalate (parts.map fun ls => .lparen :: (ls ++ [.rparen]))

mutual

/-- The lexemes of the canonical text of a filter. This is the printer over again, on lexemes
instead of characters and without blanks, so that the lexer and the grammar can be dealt with
apart. -/
def lexemes : Filter → List Lexeme
  | .leaf l => l.lexemes
  | .group c operands => joinedLexemes c (lexemesList operands)

/-- The lexemes of the canonical texts of a list of filters. -/
def lexemesList : List Filter → List (List Lexeme)
  | [] => []
  | f :: fs => f.lexemes :: lexemesList fs

end

mutual

/-- The number of parentheses open at once in the canonical text of a filter, at most: every operand
of a group stands in a pair of its own, and leaves have none. -/
def parenDepth : Filter → Nat
  | .leaf _ => 0
  | .group _ operands => 1 + parenDepthMax operands

/-- The largest of these numbers in a list, zero in an empty one. -/
def parenDepthMax : List Filter → Nat
  | [] => 0
  | f :: fs => max f.parenDepth (parenDepthMax fs)

end

theorem parenDepth_le_parenDepthMax {fs : List Filter} {f : Filter} (hf : f ∈ fs) :
    f.parenDepth ≤ parenDepthMax fs := by
  induction fs with
  | nil => exact absurd hf List.not_mem_nil
  | cons g fs ih =>
    rw [parenDepthMax]
    rcases List.mem_cons.1 hf with rfl | hf
    · exact Nat.le_max_left _ _
    · exact Nat.le_trans (ih hf) (Nat.le_max_right _ _)

end Filter

/-! ### From the text to the lexemes -/

namespace Lexer

theorem lexemesFrom_lparen (cs : List Char) :
    lexemesFrom .normal ('(' :: cs) = .lparen :: lexemesFrom .normal cs :=
  lexemesFrom_of_scan (by decide) rfl

theorem lexemesFrom_rparen (cs : List Char) :
    lexemesFrom .normal (')' :: cs) = .rparen :: lexemesFrom .normal cs :=
  lexemesFrom_of_scan (by decide) rfl

theorem lexemesFrom_connective (c : Connective) (cs : List Char) :
    lexemesFrom .normal (' ' :: (c.word.toList ++ ' ' :: cs)) =
      .connective c :: lexemesFrom .normal cs := by
  have hword : lexemesFrom .normal (c.word.toList ++ ' ' :: cs) =
      .connective c :: lexemesFrom .normal (' ' :: cs) := by
    cases c <;> exact lexemesFrom_of_scan (by decide) rfl
  rw [lexemesFrom_blank (by decide), hword, lexemesFrom_blank (by decide)]

/-- The name of a field, up to a character that is none of a word. Without the condition on what
follows, the name would go on. -/
theorem lexemesFrom_field {name : String} (hname : IsFieldName name) {rest : List Char}
    (hrest : rest.head?.any isWordChar = false) :
    lexemesFrom .normal (name.toList ++ rest) = .field name :: lexemesFrom .normal rest := by
  have hword : ∀ c ∈ name.toList, isWordChar c = true := List.all_eq_true.1 hname.word
  have hscan := scanNormal_word (by simpa using hname.ne_empty) hword hrest
  rw [ofWord_toList hname] at hscan
  obtain ⟨c, cs, hcs⟩ : ∃ c cs, name.toList = c :: cs :=
    List.exists_cons_of_ne_nil (by simpa using hname.ne_empty)
  have hblank := isBlank_of_isWordChar (hword c (by simp [hcs]))
  rw [hcs, List.cons_append] at hscan
  rw [hcs, List.cons_append]
  exact lexemesFrom_of_scan hblank hscan

/-- A value in quotes, behind a comparison sign. -/
theorem lexemesFrom_value {value : String} (hvalue : QuoteFree value) (cs : List Char) :
    lexemesFrom .value (quotedValue value ++ cs) = .value value :: lexemesFrom .normal cs := by
  have hscan : scan .value ('\x27' :: (value.toList ++ '\x27' :: cs)) = _ :=
    congrArg some (scanQuoted_value hvalue)
  have h := lexemesFrom_of_scan (by decide) hscan
  simpa [quotedValue, Mode.after] using h

/-- A value in quotes, in a list. -/
theorem lexemesFrom_item {value : String} (hvalue : QuoteFree value) (cs : List Char) :
    lexemesFrom .list (quotedValue value ++ cs) = .value value :: lexemesFrom .list cs := by
  have hscan : scan .list ('\x27' :: (value.toList ++ '\x27' :: cs)) = _ :=
    congrArg some (scanQuoted_value hvalue)
  have h := lexemesFrom_of_scan (by decide) hscan
  simpa [quotedValue, Mode.after] using h

/-- The values of a list, up to its end. -/
theorem lexemesFrom_items {values : List String} (hvalues : ∀ value ∈ values, QuoteFree value)
    (cs : List Char) :
    lexemesFrom .list (", ".toList.intercalate (values.map quotedValue) ++ ']' :: cs) =
      [.comma].intercalate (values.map ([.value ·])) ++ .rbracket :: lexemesFrom .normal cs := by
  have hend : lexemesFrom .list (']' :: cs) = .rbracket :: lexemesFrom .normal cs :=
    lexemesFrom_of_scan (by decide) rfl
  have hcomma : ∀ cs, lexemesFrom .list (", ".toList ++ cs) = .comma :: lexemesFrom .list cs := by
    intro cs
    have h : lexemesFrom .list (", ".toList ++ cs) = .comma :: lexemesFrom .list (' ' :: cs) :=
      lexemesFrom_of_scan (by decide) rfl
    rw [h, lexemesFrom_blank (by decide)]
  induction values with
  | nil => exact hend
  | cons value values ih =>
    obtain ⟨hvalue, hvalues⟩ := List.forall_mem_cons.1 hvalues
    have ih := ih hvalues
    cases values with
    | nil =>
      simp only [List.map_cons, List.map_nil, List.intercalate_singleton]
      rw [lexemesFrom_item hvalue, hend]
      rfl
    | cons next values =>
      simp only [List.map_cons, List.intercalate_cons_cons, List.append_assoc] at ih ⊢
      rw [lexemesFrom_item hvalue, hcomma, ih]
      rfl

/-- A whole leaf. -/
theorem lexemesFrom_leaf {name : String} {test : Test} (h : (⟨name, test⟩ : Leaf).IsCanonical)
    (cs : List Char) :
    lexemesFrom .normal ((⟨name, test⟩ : Leaf).render ++ cs) =
      (⟨name, test⟩ : Leaf).lexemes ++ lexemesFrom .normal cs := by
  cases test with
  | compare op value =>
    have hsign : lexemesFrom .normal (op.sign.toList ++ (quotedValue value ++ cs)) =
        .comparison op :: lexemesFrom .value (quotedValue value ++ cs) := by
      cases op <;> exact lexemesFrom_of_scan (by decide) rfl
    simp only [Leaf.render, List.append_assoc]
    rw [lexemesFrom_field h.field, hsign, lexemesFrom_value h.test]
    · rfl
    · cases op <;> rfl
  | member op values =>
    have hword : ∀ cs, lexemesFrom .normal (op.word.toList ++ (" [".toList ++ cs)) =
        .membership op :: lexemesFrom .listStart (" [".toList ++ cs) := by
      cases op <;> exact fun cs => lexemesFrom_of_scan (by decide) rfl
    have hbracket : ∀ cs, lexemesFrom .listStart (" [".toList ++ cs) =
        .lbracket :: lexemesFrom .list cs := by
      intro cs
      have h : lexemesFrom .listStart ('[' :: cs) = .lbracket :: lexemesFrom .list cs :=
        lexemesFrom_of_scan (by decide) rfl
      exact (lexemesFrom_blank (by decide)).trans h
    simp only [Leaf.render, List.append_assoc, List.cons_append]
    rw [lexemesFrom_field h.field rfl, lexemesFrom_blank (by decide), hword, hbracket,
      List.nil_append, lexemesFrom_items h.test.2]
    simp [Leaf.lexemes, Test.lexemes]

end Lexer

namespace Filter

theorem joined_singleton (c : Connective) (text : List Char) :
    joined c [text] = '(' :: (text ++ [')']) := by
  simp [joined]

theorem joined_cons_cons (c : Connective) (text next : List Char) (texts : List (List Char)) :
    joined c (text :: next :: texts) =
      '(' :: (text ++ ')' :: ' ' :: (c.word.toList ++ ' ' :: joined c (next :: texts))) := by
  simp [joined, List.intercalate_cons_cons]

theorem joinedLexemes_singleton (c : Connective) (part : List Lexeme) :
    joinedLexemes c [part] = .lparen :: (part ++ [.rparen]) := by
  simp [joinedLexemes]

theorem joinedLexemes_cons_cons (c : Connective) (part next : List Lexeme)
    (parts : List (List Lexeme)) :
    joinedLexemes c (part :: next :: parts) =
      .lparen :: (part ++ .rparen :: .connective c :: joinedLexemes c (next :: parts)) := by
  simp [joinedLexemes, List.intercalate_cons_cons]

/-- Operands are read one after the other, whatever stands behind the last. The hypothesis is the
main result for each operand, again with anything behind it, since a parenthesis and more operands
are what comes. -/
theorem lexemesFrom_joined (c : Connective) {operands : List Filter}
    (h : ∀ f ∈ operands, ∀ cs, Lexer.lexemesFrom .normal (f.render ++ cs) =
      f.lexemes ++ Lexer.lexemesFrom .normal cs) (cs : List Char) :
    Lexer.lexemesFrom .normal (joined c (renderList operands) ++ cs) =
      joinedLexemes c (lexemesList operands) ++ Lexer.lexemesFrom .normal cs := by
  induction operands with
  | nil => rfl
  | cons f fs ih =>
    obtain ⟨hf, hfs⟩ := List.forall_mem_cons.1 h
    have ih := ih hfs
    cases fs with
    | nil =>
      simp only [renderList, lexemesList, joined_singleton, joinedLexemes_singleton,
        List.cons_append, List.append_assoc, List.nil_append]
      rw [Lexer.lexemesFrom_lparen, hf, Lexer.lexemesFrom_rparen]
    | cons g gs =>
      simp only [renderList, lexemesList, joined_cons_cons, joinedLexemes_cons_cons,
        List.cons_append, List.append_assoc] at ih ⊢
      rw [Lexer.lexemesFrom_lparen, hf, Lexer.lexemesFrom_rparen, Lexer.lexemesFrom_connective, ih]

/-- **The lexemes of the canonical text** are those that it was written with, and what stands behind
it is read as at the start of a text. -/
theorem lexemesFrom_render {f : Filter} (hf : f.IsCanonical) (cs : List Char) :
    Lexer.lexemesFrom .normal (f.render ++ cs) = f.lexemes ++ Lexer.lexemesFrom .normal cs := by
  induction hf generalizing cs with
  | leaf h => exact Lexer.lexemesFrom_leaf h cs
  | group _ _ ih => exact lexemesFrom_joined _ ih cs

theorem map_lexeme_tokenize_toText {f : Filter} (hf : f.IsCanonical) :
    (tokenize f.toText).map (·.lexeme) = f.lexemes := by
  have h := lexemesFrom_render hf []
  rw [List.append_nil, Lexer.lexemesFrom_nil, List.append_nil] at h
  rw [map_lexeme_tokenize, toText, String.toList_ofList, h]

/-! ### From the lexemes to the filter -/

/-- The runs of the chain that a group writes: for an `and` all of its operands are one run, for an
`or` each is a run of its own. -/
def runsOf : Connective → List Filter → List (List Filter)
  | .and, operands => [operands]
  | .or, operands => operands.map ([·])

theorem collapse_of_two_le (c : Connective) {fs : List Filter} (h : 2 ≤ fs.length) :
    collapse c fs = .group c fs := by
  match fs, h with
  | _ :: _ :: _, _ => rfl

theorem ofChain_runsOf (c : Connective) {operands : List Filter} (h : 2 ≤ operands.length) :
    ofChain (runsOf c operands) = .group c operands := by
  cases c with
  | and => exact collapse_of_two_le .and h
  | or =>
    have hmap : (operands.map ([·])).map (collapse .and) = operands := by
      simp [Function.comp_def, collapse]
    rw [runsOf, ofChain, hmap, collapse_of_two_le .or h]

/-- The lexemes of a group derive its runs, if those of its operands do. The induction is on the
operands, as the grammar puts each of them in front of a chain. -/
theorem derives_joinedLexemes {n : Nat} (c : Connective) {operands : List Filter}
    (hne : operands ≠ [])
    (h : ∀ f ∈ operands, ∃ runs, Derives n f.lexemes runs ∧ ofChain runs = f) :
    Derives (n + 1) (joinedLexemes c (lexemesList operands)) (runsOf c operands) := by
  induction operands with
  | nil => exact absurd rfl hne
  | cons f fs ih =>
    obtain ⟨⟨runs, hruns, hf⟩, hfs⟩ := List.forall_mem_cons.1 h
    cases fs with
    | nil =>
      have hrun : runsOf c [f] = [[ofChain runs]] := by
        rw [hf]
        cases c <;> rfl
      rw [hrun, lexemesList, lexemesList, joinedLexemes_singleton]
      exact .group hruns
    | cons g gs =>
      have ih := ih (List.cons_ne_nil g gs) hfs
      simp only [lexemesList, joinedLexemes_cons_cons] at ih ⊢
      cases c with
      | and =>
        have hall := Derives.and hruns ih
        rwa [hf] at hall
      | or =>
        have hall := Derives.or hruns ih
        rwa [hf] at hall

/-- **The canonical text writes the filter**: its lexemes derive a chain of which it is the
filter. -/
theorem derives_lexemes {f : Filter} (hf : f.IsCanonical) :
    ∃ runs, Derives f.parenDepth f.lexemes runs ∧ ofChain runs = f := by
  induction hf with
  | leaf h => exact ⟨_, .condition h.condition_lexemes, rfl⟩
  | @group c operands hmany _ ih =>
    have hne : operands ≠ [] := List.ne_nil_of_length_pos (by omega)
    -- Operands may differ in depth; the deepest decides what is allowed to all of them.
    have hoperands : ∀ f ∈ operands, ∃ runs,
        Derives (parenDepthMax operands) f.lexemes runs ∧ ofChain runs = f := by
      intro f hf
      obtain ⟨runs, hruns, heq⟩ := ih f hf
      exact ⟨runs, hruns.mono (parenDepth_le_parenDepthMax hf), heq⟩
    refine ⟨runsOf c operands, ?_, ofChain_runsOf c hmany⟩
    rw [parenDepth, Nat.add_comm]
    exact derives_joinedLexemes c hne hoperands

theorem nests_joinedLexemes (c : Connective) {operands : List Filter} (hne : operands ≠ [])
    (h : ∀ f ∈ operands, Nests f.lexemes f.parenDepth) :
    Nests (joinedLexemes c (lexemesList operands)) (parenDepthMax operands + 1) := by
  induction operands with
  | nil => exact absurd rfl hne
  | cons f fs ih =>
    obtain ⟨hf, hfs⟩ := List.forall_mem_cons.1 h
    cases fs with
    | nil =>
      rw [lexemesList, lexemesList, joinedLexemes_singleton, parenDepthMax, parenDepthMax,
        Nat.max_zero]
      exact hf.group
    | cons g gs =>
      have ih := ih (List.cons_ne_nil g gs) hfs
      rw [lexemesList, lexemesList, joinedLexemes_cons_cons, ← lexemesList, parenDepthMax,
        ← Nat.add_max_add_right]
      exact hf.join ih c

/-- **The canonical text is nested as deep as the tree**, neither deeper nor less deep. That it is
not deeper would be enough for reading it, but the limit could then not be told exactly. -/
theorem nests_lexemes {f : Filter} (hf : f.IsCanonical) : Nests f.lexemes f.parenDepth := by
  induction hf with
  | leaf h => exact h.condition_lexemes.nests
  | @group c operands hmany _ ih =>
    rw [parenDepth, Nat.add_comm]
    exact nests_joinedLexemes c (List.ne_nil_of_length_pos (by omega)) ih

/-! ### What is read is canonical -/

theorem isCanonical_collapse (c : Connective) {fs : List Filter} (hne : fs ≠ [])
    (h : ∀ f ∈ fs, f.IsCanonical) : (collapse c fs).IsCanonical := by
  match fs, hne with
  | [f], _ => exact h f (List.mem_singleton_self f)
  | f :: g :: gs, _ =>
    rw [collapse_of_two_le c (by simp)]
    exact .group (by simp) h

theorem isCanonical_ofChain {runs : List (List Filter)} (hne : runs ≠ [])
    (h : ∀ run ∈ runs, run ≠ [] ∧ ∀ f ∈ run, f.IsCanonical) : (ofChain runs).IsCanonical := by
  refine isCanonical_collapse .or (by simpa using hne) ?_
  intro f hf
  obtain ⟨run, hrun, rfl⟩ := List.mem_map.1 hf
  exact isCanonical_collapse .and (h run hrun).1 (h run hrun).2

end Filter

/-- A condition of well formed lexemes is canonical. -/
theorem Condition.isCanonical {ls : List Lexeme} {l : Leaf} (h : Condition ls l)
    (hls : ∀ x ∈ ls, x.WellFormed) : l.IsCanonical := by
  cases h with
  | compare name op value => exact ⟨hls (.field name) (by simp), hls (.value value) (by simp)⟩
  | member name op value values =>
    refine ⟨hls (.field name) (by simp), List.cons_ne_nil _ _, fun v hv => ?_⟩
    refine hls (.value v) ?_
    rcases List.mem_cons.1 hv with rfl | hv
    · simp
    · have hmem : Lexeme.value v ∈ furtherValues values :=
        List.mem_flatMap.2 ⟨v, hv, by simp⟩
      simp [hmem]

/-- So is every filter of a chain that is derived from well formed lexemes. -/
theorem Derives.isCanonical {n : Nat} {ls : List Lexeme} {runs : List (List Filter)}
    (h : Derives n ls runs) (hls : ∀ x ∈ ls, x.WellFormed) :
    ∀ run ∈ runs, run ≠ [] ∧ ∀ f ∈ run, f.IsCanonical := by
  induction h with
  | condition h => simpa using Filter.IsCanonical.leaf (h.isCanonical hls)
  | group h ih =>
    have hruns := Filter.isCanonical_ofChain h.ne_nil (ih fun x hx => hls x (by simp [hx]))
    simpa using hruns
  | and h _ ih ihmore =>
    have hruns := Filter.isCanonical_ofChain h.ne_nil (ih fun x hx => hls x (by simp [hx]))
    obtain ⟨hrun, hmore⟩ := List.forall_mem_cons.1 (ihmore fun x hx => hls x (by simp [hx]))
    have hjoined := List.forall_mem_cons.2 ⟨hruns, hrun.2⟩
    exact List.forall_mem_cons.2 ⟨⟨List.cons_ne_nil _ _, hjoined⟩, hmore⟩
  | or h _ ih ihmore =>
    have hruns := Filter.isCanonical_ofChain h.ne_nil (ih fun x hx => hls x (by simp [hx]))
    have hmore := ihmore fun x hx => hls x (by simp [hx])
    exact List.forall_mem_cons.2 ⟨⟨List.cons_ne_nil _ _, by simpa using hruns⟩, hmore⟩

namespace Filter

/-- **Every filter that is read is canonical.** The lexemes of a text are well formed, and the
grammar makes groups of two filters or more only. -/
theorem isCanonical_of_parse {s : String} {f : Filter} (h : Filter.parse s = .ok f) :
    f.IsCanonical := by
  obtain ⟨runs, hruns, rfl⟩ := ofTokens_eq_ok_iff.1 h
  refine isCanonical_ofChain hruns.ne_nil (hruns.isCanonical fun x hx => ?_)
  rw [map_lexeme_tokenize] at hx
  exact Lexer.wellFormed_of_mem_lexemesFrom hx

/-- The canonical text of a canonical filter is read if its parentheses may be nested, and only
then. It is read as that filter or not at all. -/
theorem parse_toText_iff_parenDepth_le {f : Filter} (hf : f.IsCanonical) :
    Filter.parse f.toText = .ok f ↔ f.parenDepth ≤ maxNesting := by
  rw [Filter.parse, ofTokens_eq_ok_iff, map_lexeme_tokenize_toText hf]
  constructor
  · rintro ⟨runs, hruns, -⟩
    -- The nesting of a text is one number, read off its derivation or off the tree.
    obtain ⟨d, hd, -, hnests⟩ := hruns.exists_nests
    rwa [← hnests.nestingFrom_eq, (nests_lexemes hf).nestingFrom_eq] at hd
  · intro hdepth
    obtain ⟨runs, hruns, heq⟩ := derives_lexemes hf
    exact ⟨runs, hruns.mono hdepth, heq.symm⟩

/-- **Reading inverts printing exactly where it can.** The canonical text of a filter is read
as that filter exactly if the filter is canonical and nests no more than
`NestedFilter.maxNesting` parentheses; and whatever text is read, the filter is canonical. -/
theorem parse_toText_iff :
    (∀ f : Filter, Filter.parse f.toText = .ok f ↔
      f.IsCanonical ∧ f.parenDepth ≤ maxNesting) ∧
    ∀ (s : String) (f : Filter), Filter.parse s = .ok f → f.IsCanonical := by
  refine ⟨fun f => ⟨fun h => ?_, fun h => ?_⟩, fun s f h => isCanonical_of_parse h⟩
  · have hf := isCanonical_of_parse h
    exact ⟨hf, (parse_toText_iff_parenDepth_le hf).1 h⟩
  · exact (parse_toText_iff_parenDepth_le h.1).2 h.2

/-- Values may be empty, hold blanks or be of any script. -/
theorem parse_toText_iff_values :
    IsCanonical (.group .and [.leaf ⟨"team.name", .member .notIn ["a b", ""]⟩,
      .leaf ⟨"cost", .compare .greaterOrEqual "é["⟩]) ∧
    Filter.parse (toText (.group .and [.leaf ⟨"team.name", .member .notIn ["a b", ""]⟩,
      .leaf ⟨"cost", .compare .greaterOrEqual "é["⟩])) =
      .ok (.group .and [.leaf ⟨"team.name", .member .notIn ["a b", ""]⟩,
        .leaf ⟨"cost", .compare .greaterOrEqual "é["⟩]) :=
  have hteam : IsCanonical (.leaf ⟨"team.name", .member .notIn ["a b", ""]⟩) :=
    .leaf ⟨⟨by decide, by decide, by decide⟩, by decide, by simp [QuoteFree]⟩
  have hcost : IsCanonical (.leaf ⟨"cost", .compare .greaterOrEqual "é["⟩) :=
    .leaf ⟨⟨by decide, by decide, by decide⟩, by simp [Test.IsCanonical, QuoteFree]⟩
  have hboth : IsCanonical (.group .and [_, _]) := .group (by simp) (by simp [hteam, hcost])
  have hread := (parse_toText_iff.1 _).2 ⟨hboth, by simp [parenDepth, parenDepthMax, maxNesting]⟩
  ⟨parse_toText_iff.2 _ _ hread, hread⟩

end Filter

end NestedFilter
