import Mathlib.Data.List.TakeWhile
import NestedFilter.Token.Lexer

/-!
# The lexemes of a text

What a text says depends on its lexemes and not on where they stand.
`NestedFilter.Lexer.lexemesFrom` reads them off a text without counting bytes, and
`NestedFilter.map_lexeme_tokenize` says that they are those of the tokens. It takes the mode
as an argument, so what is left of a text in the middle of it can be spoken of as well: behind
some lexemes the mode is `NestedFilter.Lexer.Mode.afterAll` of them.

The rest of the file is about single lexemes, in three parts.

* What a text has to start with for a word, a sign or a value in quotes to be its first lexeme.
  These are equations with arbitrary text behind, under a condition on its first character at
  most, and they are what the canonical text is read with.
* The four ways in which pieces are cut off in whatever mode (`NestedFilter.Lexer.Cut`). Each
  mode has its own function in the lexer, but these differ only in which characters may start
  a value and in what becomes of the others. With the four ways named, a fact about all
  pieces is proved in four cases instead of once for every mode, and
  `NestedFilter.Lexer.Cut.scan_eq` gives the function back.
* What every lexeme of a text satisfies (`NestedFilter.Lexer.wellFormed_of_mem_lexemesFrom`): a
  field is a word that is no keyword, and no value holds a quote. The second is what makes
  quotes without escapes enough for writing any filter that was read.

Sequences of lexemes are not looked into here; which of them write a filter is the matter of
the grammar.
-/

namespace NestedFilter

/-! ### Names and values -/

/-- The text is the name of a field: a word, and no keyword. Dots are characters of words, so they
may stand anywhere in a name, at its ends and next to each other too. -/
structure IsFieldName (name : String) : Prop where
  /-- There is a character in it. -/
  ne_empty : name ≠ ""
  /-- All its characters are those of words. -/
  word : name.toList.all Lexer.isWordChar = true
  /-- It means nothing else. -/
  not_keyword : name ∉ ["and", "or", "in", "not_in"]

/-- The text can stand in quotes: as there are no escapes, the first quote in it would end it. -/
def QuoteFree (value : String) : Prop :=
  '\x27' ∉ value.toList

/-- What can be said of a lexeme by itself, if some text has it. Of signs, keywords and what is
illegal there is nothing to say. -/
def Lexeme.WellFormed : Lexeme → Prop
  | .field name => IsFieldName name
  | .value text => QuoteFree text
  | _ => True

namespace Lexer

/-- The mode behind lexemes that are read one after the other. Of the text nothing else
decides it. -/
def Mode.afterAll (m : Mode) (ls : List Lexeme) : Mode :=
  ls.foldl Mode.after m

@[simp] theorem Mode.afterAll_nil (m : Mode) : m.afterAll [] = m := rfl

@[simp] theorem Mode.afterAll_cons (m : Mode) (x : Lexeme) (ls : List Lexeme) :
    m.afterAll (x :: ls) = (m.after x).afterAll ls := rfl

@[simp] theorem Mode.afterAll_append (m : Mode) (ls ms : List Lexeme) :
    m.afterAll (ls ++ ms) = (m.afterAll ls).afterAll ms := List.foldl_append

/-! ### Lexemes without places -/

/-- The lexemes of a text that is read in the mode `m`. This goes along the text as the lexer does,
but keeps no offset. -/
def lexemesFrom (m : Mode) (cs : List Char) : List Lexeme :=
  match _h : scan m (cs.dropWhile Text.isBlank) with
  | none => []
  | some p => p.lexeme :: lexemesFrom (m.after p.lexeme) p.rest
termination_by cs.length
decreasing_by
  exact Nat.lt_of_lt_of_le (scan_rest_length_lt _h)
    (List.dropWhile_sublist Text.isBlank).length_le

variable {m : Mode} {cs rest : List Char} {p : Piece}

theorem lexemesFrom_of_scan_eq_none (h : scan m (cs.dropWhile Text.isBlank) = none) :
    lexemesFrom m cs = [] := by
  rw [lexemesFrom]
  split <;> simp_all

theorem lexemesFrom_of_scan_eq_some (h : scan m (cs.dropWhile Text.isBlank) = some p) :
    lexemesFrom m cs = p.lexeme :: lexemesFrom (m.after p.lexeme) p.rest := by
  rw [lexemesFrom]
  split <;> simp_all

/-- A text that is not empty has a piece at its start, in every mode: what fits nowhere is a piece
too. -/
theorem scan_eq_none_iff : scan m cs = none ↔ cs = [] := by
  cases cs with
  | nil => cases m <;> simp [scan, scanNormal, scanValue, scanItem, signs]
  | cons c cs =>
    have hnormal : scanNormal (c :: cs) ≠ none := by
      unfold scanNormal
      split
      · simp
      · dsimp only
        split <;> simp
    cases m with
    | normal => simpa [scan] using hnormal
    | listStart => simpa [scan] using hnormal
    | value =>
      simp only [scan, scanValue]
      repeat' split
      all_goals simp [hnormal]
    | list =>
      simp only [scan, scanItem]
      repeat' split
      all_goals simp

@[simp] theorem lexemesFrom_nil (m : Mode) : lexemesFrom m [] = [] := by
  cases m <;> exact lexemesFrom_of_scan_eq_none rfl

/-- The lexemes are those of the tokens, wherever the text starts. The offset of a lexer only goes
into places. -/
theorem map_lexeme_tokens (s : Lexer) : s.tokens.map (·.lexeme) = lexemesFrom s.mode s.rest := by
  induction s using tokens.induct with
  | case1 s h =>
    have hscan : scan s.mode (s.rest.dropWhile Text.isBlank) = none := by
      simpa [next?] using h
    rw [tokens, lexemesFrom_of_scan_eq_none hscan]
    split <;> simp_all
  | case2 s t next h ih =>
    obtain ⟨p, hscan, heq⟩ := Option.map_eq_some_iff.1 h
    obtain ⟨rfl, rfl⟩ := Prod.mk.inj heq
    rw [tokens, lexemesFrom_of_scan_eq_some hscan, ← ih]
    split <;> simp_all

/-! ### The first lexeme -/

/-- Blanks before a lexeme do not matter. -/
theorem lexemesFrom_blank {c : Char} (hc : Text.isBlank c = true) :
    lexemesFrom m (c :: cs) = lexemesFrom m cs := by
  rw [lexemesFrom, List.dropWhile_cons_of_pos hc, ← lexemesFrom]

theorem lexemesFrom_dropWhile (m : Mode) (cs : List Char) :
    lexemesFrom m (cs.dropWhile Text.isBlank) = lexemesFrom m cs := by
  induction cs with
  | nil => rfl
  | cons c cs ih =>
    by_cases hc : Text.isBlank c = true
    · rw [List.dropWhile_cons_of_pos hc, lexemesFrom_blank hc, ih]
    · rw [List.dropWhile_cons_of_neg hc]

/-- A piece at the start of a text gives its first lexeme, and what is left of the text gives the
others, in the mode behind it. -/
theorem lexemesFrom_of_scan {c : Char} {x : Lexeme} {text blanks : List Char}
    (hc : Text.isBlank c = false) (h : scan m (c :: cs) = some ⟨x, text, blanks, rest⟩) :
    lexemesFrom m (c :: cs) = x :: lexemesFrom (m.after x) rest := by
  have hdrop : (c :: cs).dropWhile Text.isBlank = c :: cs :=
    List.dropWhile_cons_of_neg (by simp [hc])
  exact lexemesFrom_of_scan_eq_some (hdrop ▸ h)

theorem lexemesFrom_cons {c : Char} {x : Lexeme} {text blanks : List Char} {ls : List Lexeme}
    (hc : Text.isBlank c = false) (h : scan m (c :: cs) = some ⟨x, text, blanks, rest⟩)
    (hrest : lexemesFrom (m.after x) rest = ls) : lexemesFrom m (c :: cs) = x :: ls := by
  rw [lexemesFrom_of_scan hc h, hrest]

/-- No character of a word is blank, so that blanks before a word can be told from it. -/
theorem isBlank_of_isWordChar {c : Char} (hc : isWordChar c = true) : Text.isBlank c = false := by
  rw [isWordChar, Bool.or_eq_true, Bool.or_eq_true, beq_iff_eq, beq_iff_eq] at hc
  rcases hc with (hc | rfl) | rfl
  · have hval : c.toNat = c.val.toNat := rfl
    -- Letters and digits by their codes, which no blank has.
    have hcodes : (decide (c.val ≥ 65 ∧ c.val ≤ 90) || c.val ≥ 97 && c.val ≤ 122 ||
        c.val ≥ 48 && c.val ≤ 57) = true := hc
    simp [UInt32.le_iff_toNat_le] at hcodes
    simp [Text.isBlank]
    omega
  · decide
  · decide

/-- A run at the start of a list ends before what does not go on with it. -/
theorem takeWhile_append_of_head? {α : Type} {q : α → Bool} (xs : List α) {ys : List α}
    (hys : ys.head?.any q = false) :
    (xs ++ ys).takeWhile q = xs.takeWhile q ∧ (xs ++ ys).dropWhile q = xs.dropWhile q ++ ys := by
  induction xs with
  | nil =>
    cases ys with
    | nil => simp
    | cons y ys =>
      have hy : q y = false := hys
      simp [hy]
  | cons x xs ih => by_cases hx : q x = true <;> simp [hx, ih]

/-- A list of characters of one kind is cut off as a whole, if something else follows. The condition
is on one character, so it can be checked whatever the rest of the text is. -/
theorem takeWhile_append_of_stop {α : Type} {q : α → Bool} {xs ys : List α}
    (hxs : ∀ x ∈ xs, q x = true) (hys : ys.head?.any q = false) :
    (xs ++ ys).takeWhile q = xs ∧ (xs ++ ys).dropWhile q = ys := by
  obtain ⟨htake, hdrop⟩ := takeWhile_append_of_head? xs hys
  rw [htake, hdrop, List.dropWhile_eq_nil_iff.2 hxs]
  exact ⟨List.takeWhile_eq_self_iff.2 hxs, List.nil_append ys⟩

/-- A list that begins another, and does not hold a member of it, ends before that member. -/
theorem isPrefix_of_notMem {α : Type} {xs ys zs : List α} {d : α} (hd : d ∉ xs)
    (h : xs <+: ys ++ d :: zs) : xs <+: ys := by
  rcases List.prefix_or_prefix_of_prefix h (List.prefix_append ys _) with hle | ⟨ws, rfl⟩
  · exact hle
  · rw [List.prefix_append_right_inj, List.prefix_cons_iff] at h
    rcases h with rfl | ⟨ws, rfl, -⟩
    · simp
    · exact absurd (by simp) hd

theorem not_isWordChar_of_mem_signs :
    ∀ sign ∈ signs, sign.1.head?.any isWordChar = false := by
  decide

theorem find?_signs_eq_none {c : Char} (hc : isWordChar c = true) :
    signs.find? (·.1.isPrefixOf (c :: cs)) = none := by
  rw [List.find?_eq_none]
  intro sign hsign hpre
  obtain ⟨d, ds, hd⟩ := List.exists_cons_of_ne_nil (signs_ne_nil sign hsign)
  have hword := not_isWordChar_of_mem_signs sign hsign
  rw [hd, List.isPrefixOf_cons_cons, Bool.and_eq_true, beq_iff_eq] at hpre
  rw [hd, List.head?_cons, Option.any_some, hpre.1, hc] at hword
  exact absurd hword (by simp)

/-- A word is read up to its end, and is a keyword or a field as a whole: a keyword at the start of
a longer word is no keyword. -/
theorem scanNormal_word {w : List Char} (hne : w ≠ []) (hw : ∀ c ∈ w, isWordChar c = true)
    (hrest : rest.head?.any isWordChar = false) :
    scanNormal (w ++ rest) = some ⟨ofWord w, w, [], rest⟩ := by
  -- No sign starts with a character of a word, so the text is not taken for a sign.
  obtain ⟨c, ds, rfl⟩ := List.exists_cons_of_ne_nil hne
  have hc : isWordChar c = true := hw c (List.mem_cons_self ..)
  obtain ⟨htake, hdrop⟩ := takeWhile_append_of_stop hw hrest
  simp only [List.cons_append] at htake hdrop ⊢
  simp only [scanNormal, find?_signs_eq_none hc, hc, htake, hdrop, if_true]

theorem lookup_keywords_eq_none_iff {w : List Char} :
    keywords.lookup w = none ↔ String.ofList w ∉ ["and", "or", "in", "not_in"] := by
  rw [List.lookup_eq_none_iff]
  simp [keywords, ← String.toList_inj]

/-- The name of a field is a word of its own. -/
theorem ofWord_toList {name : String} (hname : IsFieldName name) :
    ofWord name.toList = .field name := by
  have hlookup : keywords.lookup name.toList = none := by
    rw [lookup_keywords_eq_none_iff, String.ofList_toList]
    exact hname.not_keyword
  rw [ofWord, hlookup, Option.getD_none, String.ofList_toList]

/-- What follows an opening quote is read up to the quote that closes it. -/
theorem scanQuoted_closed {content : List Char} (h : '\x27' ∉ content) (rest : List Char) :
    scanQuoted (content ++ '\x27' :: rest) =
      ⟨.value (String.ofList content), '\x27' :: content ++ ['\x27'], [], rest⟩ := by
  have hopen : ∀ c ∈ content, (c != '\x27') = true :=
    fun c hc => bne_iff_ne.2 fun heq => h (heq ▸ hc)
  have hclosed : ('\x27' :: rest).head?.any (· != '\x27') = false := rfl
  obtain ⟨htake, hdrop⟩ := takeWhile_append_of_stop hopen hclosed
  simp only [scanQuoted, htake, hdrop]

/-- Without a quote that closes it, all there is follows. -/
theorem scanQuoted_unclosed {content : List Char} (h : '\x27' ∉ content) :
    scanQuoted content = ⟨.illegal, '\x27' :: content, [], []⟩ := by
  have hopen : ∀ c ∈ content, (c != '\x27') = true :=
    fun c hc => bne_iff_ne.2 fun heq => h (heq ▸ hc)
  simp only [scanQuoted, List.takeWhile_eq_self_iff.2 hopen, List.dropWhile_eq_nil_iff.2 hopen]

/-- A value is read up to the quote that closes it. -/
theorem scanQuoted_value {value : String} (hvalue : QuoteFree value) :
    scanQuoted (value.toList ++ '\x27' :: rest) =
      ⟨.value value, '\x27' :: value.toList ++ ['\x27'], [], rest⟩ := by
  rw [scanQuoted_closed hvalue, String.ofList_toList]

/-! ### How pieces are cut off -/

/-- The characters of a value without quotes, in the modes in which there are such values. Where
there are none no character is accepted. -/
def Mode.accepts : Mode → Char → Bool
  | .value => isValueChar
  | .list => isItemChar
  | .normal | .listStart => fun _ => false

/-- How a piece is cut off a text that starts with the character `c`. The conditions of the four
rules exclude each other, and one of them holds of every character in every mode. -/
inductive Cut : Mode → Char → List Char → Piece → Prop
  /-- A value in quotes, where values are expected. -/
  | quoted {m : Mode} {cs : List Char} (hm : m = .value ∨ m = .list) :
      Cut m '\x27' cs (scanQuoted cs)
  /-- A value without quotes. -/
  | run {m : Mode} {c : Char} {cs : List Char} (hc : m.accepts c = true) :
      Cut m c cs (scanRun m.accepts (c :: cs))
  /-- What is no value is read in one way everywhere; in a list this is only a comma, or the
  bracket that closes it. -/
  | plain {m : Mode} {c : Char} {cs : List Char} {p : Piece} (hlist : m = .list → c = ',' ∨ c = ']')
      (hquote : m = .value → c ≠ '\x27') (hc : m.accepts c = false)
      (h : scanNormal (c :: cs) = some p) : Cut m c cs p
  /-- A character that fits nowhere in a list. -/
  | stray {c : Char} {cs : List Char} (hsign : c ≠ ',' ∧ c ≠ ']') (hquote : c ≠ '\x27')
      (hc : isItemChar c = false) : Cut .list c cs ⟨.illegal, [c], [], cs⟩

/-- **Every piece is cut off in one of these ways.** Which one it is depends on the mode and on the
first character alone. -/
theorem cut_of_scan {c : Char} (h : scan m (c :: cs) = some p) : Cut m c cs p := by
  cases m with
  | normal => exact .plain (by simp) (by simp) rfl h
  | listStart => exact .plain (by simp) (by simp) rfl h
  | value =>
    simp only [scan, scanValue] at h
    split at h
    · next hc =>
      subst hc
      obtain rfl := Option.some.inj h
      exact .quoted (.inl rfl)
    split at h
    · next hc =>
      obtain rfl := Option.some.inj h
      exact .run hc
    · next hquote hc =>
      exact .plain (by simp) (fun _ => hquote) (Bool.eq_false_iff.2 hc) h
  | list =>
    simp only [scan, scanItem] at h
    split at h
    · next hc =>
      subst hc
      exact .plain (by simp) (by simp) rfl h
    split at h
    · next hc =>
      subst hc
      exact .plain (by simp) (by simp) rfl h
    split at h
    · next hc =>
      subst hc
      obtain rfl := Option.some.inj h
      exact .quoted (.inr rfl)
    split at h
    · next hc =>
      obtain rfl := Option.some.inj h
      exact .run hc
    · next hcomma hbracket hquote hc =>
      obtain rfl := Option.some.inj h
      exact .stray ⟨hcomma, hbracket⟩ hquote (Bool.eq_false_iff.2 hc)

theorem Cut.scan_eq {c : Char} (h : Cut m c cs p) : scan m (c :: cs) = some p := by
  cases h with
  | quoted hm => rcases hm with rfl | rfl <;> rfl
  | run hc =>
    -- No sign and no quote is among the characters of values.
    have hne : ∀ d, m.accepts d = false → c ≠ d := by
      rintro d hd rfl
      exact absurd (hc.symm.trans hd) (by simp)
    cases m with
    | normal | listStart => exact absurd hc (by simp [Mode.accepts])
    | value =>
      have hvalue : isValueChar c = true := hc
      simp only [scan, scanValue, hne '\x27' rfl, hvalue, if_true, if_false]
      rfl
    | list =>
      have hitem : isItemChar c = true := hc
      simp only [scan, scanItem, hne ',' rfl, hne ']' rfl, hne '\x27' rfl, hitem, if_true, if_false]
      rfl
  | plain hlist hquote hc h =>
    cases m with
    | normal | listStart => exact h
    | value =>
      have hvalue : isValueChar c = false := hc
      simpa [scan, scanValue, hquote, hvalue] using h
    | list => rcases hlist rfl with rfl | rfl <;> exact h
  | stray hsign hquote hc => simp [scan, scanItem, hsign, hquote, hc]

theorem Mode.accepts_quote (m : Mode) : m.accepts '\x27' = false := by
  cases m <;> rfl

/-! ### What holds of every lexeme -/

theorem wellFormed_of_mem_signs : ∀ sign ∈ signs, sign.2.WellFormed := by
  simp [signs, Lexeme.WellFormed]

theorem wellFormed_of_mem_keywords : ∀ word ∈ keywords, word.2.WellFormed := by
  simp [keywords, Lexeme.WellFormed]

/-- A word that is no keyword is the name of a field; of a keyword there is nothing to say. -/
theorem wellFormed_ofWord {w : List Char} (hne : w ≠ []) (hw : ∀ c ∈ w, isWordChar c = true) :
    (ofWord w).WellFormed := by
  rw [ofWord]
  cases hlookup : keywords.lookup w with
  | none => exact ⟨by simpa using hne, by simpa using hw, lookup_keywords_eq_none_iff.1 hlookup⟩
  | some lexeme =>
    obtain ⟨before, after, heq, -⟩ := List.lookup_eq_some_iff.1 hlookup
    exact wellFormed_of_mem_keywords (w, lexeme) (heq ▸ by simp)

theorem wellFormed_scanNormal (h : scanNormal cs = some p) : p.lexeme.WellFormed := by
  unfold scanNormal at h
  split at h
  · next sign lexeme hsign =>
    obtain rfl := Option.some.inj h
    exact wellFormed_of_mem_signs _ (List.mem_of_find?_eq_some hsign)
  split at h
  · exact absurd h (by simp)
  split at h
  · next hc =>
    obtain rfl := Option.some.inj h
    exact wellFormed_ofWord (by simp [hc]) fun d hd => List.mem_takeWhile_imp hd
  · obtain rfl := Option.some.inj h
    exact trivial

theorem wellFormed_scanQuoted (cs : List Char) : (scanQuoted cs).lexeme.WellFormed := by
  unfold scanQuoted
  split
  · exact trivial
  · intro hquote
    rw [String.toList_ofList] at hquote
    exact absurd (List.mem_takeWhile_imp hquote) (by simp)

/-- A value without quotes holds none, as they are not among its characters. -/
theorem wellFormed_scanRun {accept : Char → Bool} (haccept : accept '\x27' = false)
    (cs : List Char) : (scanRun accept cs).lexeme.WellFormed := by
  intro hquote
  rw [String.toList_ofList] at hquote
  -- Only blanks are cut off the run, so what is in the value is in the run.
  have hmem : '\x27' ∈ cs.takeWhile accept := by
    rw [← Text.splitTrailing_append Text.isBlank (cs.takeWhile accept)]
    exact List.mem_append_left _ hquote
  exact absurd (List.mem_takeWhile_imp hmem) (by simp [haccept])

theorem wellFormed_of_scan (h : scan m cs = some p) : p.lexeme.WellFormed := by
  cases cs with
  | nil => exact absurd h (by simp [scan_eq_none_iff.2])
  | cons c cs =>
    cases cut_of_scan h with
    | quoted _ => exact wellFormed_scanQuoted cs
    | run _ => exact wellFormed_scanRun m.accepts_quote _
    | plain _ _ _ h => exact wellFormed_scanNormal h
    | stray _ _ _ => exact trivial

/-- **Every lexeme of a text is well formed**, also behind one that is illegal. -/
theorem wellFormed_of_mem_lexemesFrom {x : Lexeme} (hx : x ∈ lexemesFrom m cs) :
    x.WellFormed := by
  induction m, cs using lexemesFrom.induct with
  | case1 m cs h =>
    rw [lexemesFrom_of_scan_eq_none h] at hx
    exact absurd hx List.not_mem_nil
  | case2 m cs p h ih =>
    rw [lexemesFrom_of_scan_eq_some h, List.mem_cons] at hx
    rcases hx with rfl | hx
    · exact wellFormed_of_scan h
    · exact ih hx

end Lexer

theorem map_lexeme_tokenize (s : String) :
    (tokenize s).map (·.lexeme) = Lexer.lexemesFrom .normal s.toList :=
  Lexer.map_lexeme_tokens _

end NestedFilter
