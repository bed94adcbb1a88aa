import Mathlib.Data.List.Find
import NestedFilter.Proofs.Tiling
import NestedFilter.Proofs.Viable

/-!
# What a change in a text leaves as it was

Characters that are put into a text change what is read only where they stand. That has a
reason in each of the two halves of reading.

* A token is decided by its own characters and by little more: by whether what follows lets it
  go on. Where two texts stop whatever is read before them alike
  (`NestedFilter.Lexer.StopsAlike`), a token before the one is a token before the other
  (`NestedFilter.Lexer.Reads.replace`). A quote or a blank that is put in anywhere behind the
  token makes such a text (`NestedFilter.Lexer.stopsAlike_cons`).
* The parser looks at the lexemes of tokens and only shows their places
  (`NestedFilter.Reading.run_mapSpan`), so texts with the same lexemes are read as the same
  filter, or refused in the same words (`NestedFilter.Filter.parse_congr`).

The first comparison is between two texts and not with a list of characters that separate,
since there is no such list: what may stand behind a token depends on its kind and on the mode.
Two things do not fit into it. A quote that is never closed takes all there is, and what is put
in behind it becomes part of the token (`NestedFilter.Lexer.Unclosed`). And a value without
quotes reads on over spaces, to give them back if nothing comes that belongs to it; so a space
stops it just where the text behind the space does.

A text is read as its tokens and as no others (`NestedFilter.Lexer.lexes_iff`), so the tokens of
a changed text are found by following those of the text, one by one. For the parser the places
are changed by any map of spans at all (`NestedFilter.Token.mapSpan`): moving a text is one such
map, cutting off what stands around it another, and setting all places to the same one shows
that the places do not matter.
-/

namespace NestedFilter

/-- The token, so many bytes further on. -/
def Token.movedBy (k : Nat) (t : Token) : Token :=
  ⟨t.lexeme, ⟨t.span.start + k, t.span.stop + k⟩⟩

@[simp] theorem Token.movedBy_start (k : Nat) (t : Token) :
    (t.movedBy k).span.start = t.span.start + k := rfl

@[simp] theorem Token.movedBy_stop (k : Nat) (t : Token) :
    (t.movedBy k).span.stop = t.span.stop + k := rfl

namespace Lexer

variable {m : Mode} {x : Lexeme} {c d : Char} {cs text tail tail' : List Char}
  {n : Nat} {ts : List Token}

/-! ### What ends a token -/

/-- Whatever ends before `tail` ends before `tail'` too. It need not be so the other way round: more
may end before the second, and of what is read before the first nothing is lost by that. -/
structure StopsAlike (tail tail' : List Char) : Prop where
  /-- Words. -/
  word : tail.head?.any isWordChar = false → tail'.head?.any isWordChar = false
  /-- Values without quotes, which may have spaces behind them. -/
  run : ∀ m : Mode, (tail.dropWhile (· == ' ')).head?.any m.accepts = false →
    (tail'.dropWhile (· == ' ')).head?.any m.accepts = false
  /-- Signs, of which the longest is read. -/
  sign : ∀ sign ∈ signs, ∀ text, sign.1 <+: text ++ tail' → sign.1 <+: text ++ tail

/-- No sign holds a quote or a blank, so no sign can reach into what was put in. -/
theorem notMem_of_mem_signs : ∀ sign ∈ signs, ∀ c ∈ sign.1,
    c ≠ '\x27' ∧ Text.isBlank c = false := by
  have hall : signs.all (·.1.all fun c => c != '\x27' && !Text.isBlank c) = true := rfl
  intro sign hsign c hc
  simpa using List.all_eq_true.1 (List.all_eq_true.1 hall sign hsign) c hc

theorem StopsAlike.refl (tail : List Char) : StopsAlike tail tail where
  word := id
  run := fun _ => id
  sign := fun _ _ _ => id

/-- The same characters may be put in front of two texts that stop alike. In this way the fact is
carried from the place of the change to the tokens before it. -/
theorem StopsAlike.append_left (h : StopsAlike tail tail') (cs : List Char) :
    StopsAlike (cs ++ tail) (cs ++ tail') where
  word := by
    cases cs with
    | nil => exact h.word
    | cons c cs => exact id
  run := by
    intro m hstop
    induction cs with
    | nil => exact h.run m hstop
    | cons c cs ih =>
      by_cases hc : c = ' '
      · subst hc
        exact ih hstop
      · rw [List.cons_append, List.dropWhile_cons_of_neg (by simpa using hc)] at hstop ⊢
        exact hstop
  sign := by
    intro sign hsign text hbegins
    rw [← List.append_assoc] at hbegins ⊢
    exact h.sign sign hsign (text ++ cs) hbegins

/-- **A quote or a blank stops what another text stops**. What stands behind it does not matter,
unless it is a space, which a value without quotes may go on with. -/
theorem stopsAlike_cons (hd : d = '\x27' ∨ Text.isBlank d = true)
    (hspace : d = ' ' → tail' = tail) : StopsAlike tail (d :: tail') where
  word := by
    have hword : isWordChar d = false := by
      rcases hd with rfl | hd
      · rfl
      · refine Bool.eq_false_iff.2 fun hword => ?_
        rw [isBlank_of_isWordChar hword] at hd
        exact absurd hd (by simp)
    exact fun _ => hword
  run := by
    intro m hstop
    by_cases hds : d = ' '
    · subst hds
      rwa [hspace rfl, List.dropWhile_cons_of_pos rfl]
    · have haccepts : m.accepts d = false := by
        rcases hd with rfl | hd
        · exact m.accepts_quote
        · refine Bool.eq_false_iff.2 fun haccepts => hds ?_
          rw [isBlank_of_accepts haccepts] at hd
          exact eq_of_beq hd
      rwa [List.dropWhile_cons_of_neg (by simpa using hds)]
  sign := by
    intro sign hsign text hbegins
    have hnot : d ∉ sign.1 := by
      intro hmem
      obtain ⟨hquote, hblank⟩ := notMem_of_mem_signs sign hsign d hmem
      rcases hd with hd | hd
      · exact hquote hd
      · rw [hblank] at hd
        exact absurd hd (by simp)
    exact (isPrefix_of_notMem hnot hbegins).trans (List.prefix_append _ _)

/-! ### Signs and words -/

theorem LongestRun.any_head?_eq_false {accept : Char → Bool} {after : List Char}
    (h : LongestRun accept text after) : after.head?.any accept = false := by
  cases hhead : after.head? with
  | none => rfl
  | some d => exact h.stops d hhead

/-- The same sign is found, if none that is longer stood there: a longer one would have to reach
into what follows, and whatever it found there now it would have found before. -/
theorem find?_signs_replace (hstop : StopsAlike tail tail')
    (hle : ∀ sign ∈ signs, sign.1 <+: text ++ tail → sign.1.length ≤ text.length) :
    signs.find? (·.1.isPrefixOf (text ++ tail')) = signs.find? (·.1.isPrefixOf (text ++ tail)) := by
  refine List.find?_congr fun sign hsign => ?_
  rw [Bool.eq_iff_iff, List.isPrefixOf_iff_prefix, List.isPrefixOf_iff_prefix]
  constructor
  · exact hstop.sign sign hsign text
  · intro hbegins
    have hlength := hle sign hsign hbegins
    exact (List.prefix_of_prefix_length_le hbegins (List.prefix_append text tail) hlength).trans
      (List.prefix_append text tail')

theorem scanNormal_replace {p : Piece} (h : scanNormal cs = some p)
    (hsplit : p.text ++ tail = cs) (hstop : StopsAlike tail tail') :
    scanNormal (p.text ++ tail') = some ⟨p.lexeme, p.text, [], tail'⟩ := by
  unfold scanNormal at h
  split at h
  · next sign x hsign =>
    obtain rfl := Option.some.inj h
    have hfind := find?_signs_replace hstop fun other hother hbegins =>
      length_le_of_find?_signs hsign hother (hsplit ▸ hbegins)
    rw [hsplit, hsign] at hfind
    simp only [scanNormal, hfind, List.drop_left]
  · next hnone =>
    split at h
    · exact absurd h (by simp)
    next c cs =>
    split at h
    · next hc =>
      obtain rfl := Option.some.inj h
      obtain rfl : tail = (c :: cs).dropWhile isWordChar := by
        rw [← List.append_cancel_left_eq, hsplit, List.takeWhile_append_dropWhile]
      have hrun := longestRun_takeWhile isWordChar (c :: cs)
      exact scanNormal_word (by simp [hc]) hrun.all (hstop.word hrun.any_head?_eq_false)
    · next hc =>
      obtain rfl := Option.some.inj h
      -- What is no sign with one thing behind it is none with the other.
      have hfind := find?_signs_replace hstop fun sign hsign hbegins => by
        have hnot := List.find?_eq_none.1 hnone sign hsign
        rw [← hsplit] at hnot
        exact absurd (List.isPrefixOf_iff_prefix.2 hbegins) hnot
      rw [hsplit, hnone] at hfind
      have hnone' : signs.find? (·.1.isPrefixOf (c :: tail')) = none := hfind
      simp only [scanNormal, List.cons_append, List.nil_append, hnone', hc]
      rfl

/-! ### Values without quotes -/

theorem ne_value_of_mem_signs (value : String) : ∀ sign ∈ signs, sign.2 ≠ .value value := by
  simp [signs]

theorem ne_value_of_mem_keywords (value : String) : ∀ word ∈ keywords, word.2 ≠ .value value := by
  simp [keywords]

/-- **Where `after` follows, the value stands there without quotes.** -/
structure Bare (m : Mode) (value : String) (after : List Char) : Prop where
  /-- It does not end in a blank. -/
  last : ∀ c ∈ value.toList.getLast?, Text.isBlank c = false
  /-- With the spaces behind it, it is a longest run. -/
  run : LongestRun m.accepts (value.toList ++ after.takeWhile (· == ' '))
    (after.dropWhile (· == ' '))

theorem isBlank_of_mem_takeWhile (h : c ∈ cs.takeWhile (· == ' ')) : Text.isBlank c = true := by
  obtain rfl : c = ' ' := by simpa using List.mem_takeWhile_imp h
  rfl

/-- There are two ways to write a value, without quotes where the run of its characters ends with
it, and in quotes if it holds none. -/
theorem Spelled.value_cases {value : String} {after : List Char}
    (h : Spelled m (.value value) text after) :
    (text = value.toList ∧ Bare m value after) ∨
      (text = '\x27' :: value.toList ++ ['\x27'] ∧ QuoteFree value) := by
  cases h with
  | sign hsign _ => exact absurd rfl (ne_value_of_mem_signs value _ hsign)
  | keyword hkeyword _ => exact absurd rfl (ne_value_of_mem_keywords value _ hkeyword)
  | run _ _ hlast hrun => exact .inl ⟨rfl, hlast, hrun⟩
  | quoted hvalue => exact .inr ⟨rfl, hvalue⟩

/-- A value that stands without quotes is read up to its end, and with it the spaces behind, which
belong to the run though not to the value. -/
theorem Bare.scanRun_eq {value : String} {after : List Char} (h : Bare m value after) :
    scanRun m.accepts (value.toList ++ after) = ⟨.value value, value.toList,
      after.takeWhile (· == ' '), after.dropWhile (· == ' ')⟩ := by
  obtain ⟨htake, hdrop⟩ := takeWhile_append_of_stop h.run.all h.run.any_head?_eq_false
  rw [List.append_assoc, List.takeWhile_append_dropWhile] at htake hdrop
  have hblanks : ∀ c ∈ after.takeWhile (· == ' '), Text.isBlank c = true :=
    fun c hc => isBlank_of_mem_takeWhile hc
  rw [scanRun, htake, hdrop, Text.splitTrailing_eq h.last hblanks]
  exact congrArg (fun v => Piece.mk (.value v) _ _ _) String.ofList_toList

/-- Where such a value may start, one stands there: the run that starts there, less the spaces at
its end. -/
theorem exists_bare_of_accepts (hc : m.accepts c = true) (hblank : Text.isBlank c = false)
    (cs : List Char) :
    ∃ (value : String) (after : List Char), c :: cs = value.toList ++ after ∧
      Bare m value after := by
  have hpiece : (scanRun m.accepts (c :: cs)).SpelledIn m := spelledIn_scanRun hc hblank
  have hsplit := scanRun_split m.accepts (c :: cs)
  rw [List.append_assoc] at hsplit
  rcases hpiece.spelled.value_cases with ⟨htext, hbare⟩ | ⟨htext, -⟩
  · rw [htext] at hsplit
    exact ⟨_, _, hsplit.symm, hbare⟩
  · rw [htext] at hsplit
    obtain ⟨rfl, -⟩ := List.cons.inj hsplit
    exact absurd (hc.symm.trans m.accepts_quote) (by simp)

theorem Bare.replace {value : String} (h : Bare m value tail) (hc : m.accepts c = true)
    (hstop : StopsAlike tail tail') : Bare m value tail' where
  last := h.last
  run := by
    refine ⟨List.forall_mem_append.2 ⟨(List.forall_mem_append.1 h.run.all).1, ?_⟩, ?_⟩
    · intro d hd
      obtain rfl : d = ' ' := by simpa using List.mem_takeWhile_imp hd
      exact accepts_space hc
    · have hstops := hstop.run m h.run.any_head?_eq_false
      intro d hd
      rwa [Option.mem_def.1 hd] at hstops

/-! ### Tokens of every kind -/

/-- The token is a quote that is never closed. It is the one kind of token that ends for want of
text, and so the one that grows with whatever is put behind it. -/
structure Unclosed (m : Mode) (text : List Char) : Prop where
  /-- It opens a value. -/
  mode : m = .value ∨ m = .list
  /-- No other quote stands in the token. -/
  exists_content : ∃ content, text = '\x27' :: content ∧ '\x27' ∉ content

/-- Where a token may end before something else, it is cut off in the same way. The blanks that are
read with it may be others, as these are already part of what follows. -/
theorem Cut.replace {p : Piece} (h : Cut m c cs p) (hblank : Text.isBlank c = false)
    (htext : p.text = c :: text) (hsplit : text ++ tail = cs) (hstop : StopsAlike tail tail')
    (hopen : ¬Unclosed m p.text) :
    ∃ blanks rest, tail' = blanks ++ rest ∧ (∀ d ∈ blanks, Text.isBlank d = true) ∧
      Cut m c (text ++ tail') ⟨p.lexeme, p.text, blanks, rest⟩ := by
  cases h with
  | quoted hm =>
    by_cases hquote : '\x27' ∈ cs
    · obtain ⟨content, rest, rfl, hfree⟩ := List.eq_append_cons_of_mem hquote
      rw [scanQuoted_closed hfree] at htext ⊢
      obtain rfl : content ++ ['\x27'] = text := by simpa using htext
      have hcut : Cut m '\x27' (content ++ '\x27' :: tail') _ := .quoted hm
      rw [scanQuoted_closed hfree] at hcut
      exact ⟨[], tail', rfl, by simp, by simpa using hcut⟩
    · rw [scanQuoted_unclosed hquote] at hopen
      exact absurd ⟨hm, cs, rfl, hquote⟩ hopen
  | run hc =>
    obtain ⟨value, after, heq, hbare⟩ := exists_bare_of_accepts hc hblank cs
    rw [heq, hbare.scanRun_eq] at htext ⊢
    obtain rfl : after = tail := by
      rw [← hsplit, ← List.cons_append, ← htext] at heq
      exact (List.append_cancel_left heq).symm
    have hcut : Cut m c (text ++ tail') _ := .run hc
    rw [← List.cons_append, ← htext, (hbare.replace hc hstop).scanRun_eq] at hcut
    refine ⟨_, _, (List.takeWhile_append_dropWhile (p := (· == ' '))).symm, ?_, hcut⟩
    exact fun d hd => isBlank_of_mem_takeWhile hd
  | plain hlist hquote hc h =>
    refine ⟨[], tail', rfl, by simp, .plain hlist hquote hc ?_⟩
    rw [← List.cons_append, ← htext]
    exact scanNormal_replace h (by rw [htext, ← hsplit, List.cons_append]) hstop
  | stray hsign hquote hc =>
    obtain rfl : text = [] := by simpa using htext.symm
    exact ⟨[], tail', rfl, by simp, .stray hsign hquote hc⟩

/-- **A token is the same where something else follows**, as long as it may end there. Neither its
lexeme nor its characters change. -/
theorem Reads.replace (h : Reads m x text tail) (hstop : StopsAlike tail tail')
    (hopen : ¬Unclosed m text) : Reads m x text tail' := by
  obtain ⟨⟨c, cs, rfl, hblank⟩, blanks, rest, -, -, hscan⟩ := h
  obtain ⟨blanks', rest', htail, hblanks, hcut⟩ :=
    (cut_of_scan hscan).replace hblank rfl rfl hstop hopen
  exact ⟨⟨c, cs, rfl, hblank⟩, blanks', rest', htail, hblanks, hcut.scan_eq⟩

theorem reads_quoted (hm : m = .value ∨ m = .list) {value : String} (hvalue : QuoteFree value) :
    Reads m (.value value) ('\x27' :: value.toList ++ ['\x27']) tail := by
  have hscan : scan m ('\x27' :: (value.toList ++ '\x27' :: tail)) = _ := (Cut.quoted hm).scan_eq
  rw [scanQuoted_value hvalue] at hscan
  exact ⟨⟨'\x27', _, rfl, rfl⟩, [], tail, rfl, by simp, by simpa using hscan⟩

theorem Unclosed.reads (h : Unclosed m text) : Reads m .illegal text [] := by
  obtain ⟨hm, content, rfl, hcontent⟩ := h
  have hscan : scan m ('\x27' :: content) = _ := (Cut.quoted hm).scan_eq
  rw [scanQuoted_unclosed hcontent] at hscan
  exact ⟨⟨'\x27', content, rfl, rfl⟩, [], [], rfl, by simp, by simpa using hscan⟩

/-- Behind a quote that is never closed nothing is left. -/
theorem Unclosed.eq_of_reads (h : Unclosed m text) (hreads : Reads m x text tail) :
    x = .illegal ∧ tail = [] := by
  obtain ⟨hm, content, rfl, hcontent⟩ := h
  obtain ⟨-, blanks, rest, -, -, hscan⟩ := hreads
  have hcut : scan m ('\x27' :: (content ++ tail)) = _ := (Cut.quoted hm).scan_eq
  by_cases hquote : '\x27' ∈ tail
  · -- The next quote would have ended the token.
    obtain ⟨more, rest, rfl, hmore⟩ := List.eq_append_cons_of_mem hquote
    have hfree : '\x27' ∉ content ++ more := by
      simp [hcontent, hmore]
    have hclosed := scanQuoted_closed hfree rest
    rw [List.append_assoc] at hclosed
    rw [hclosed, ← List.cons_append, hscan] at hcut
    have hlength := congrArg (fun p => p.text.length) (Option.some.inj hcut)
    simp at hlength
  · rw [scanQuoted_unclosed (by simp [hcontent, hquote]), ← List.cons_append, hscan] at hcut
    obtain ⟨hx, htail, -⟩ : x = .illegal ∧ tail = [] ∧ blanks = [] ∧ rest = [] := by
      simpa using hcut
    exact ⟨hx, htail⟩

/-! ### The tokens of a text -/

theorem next?_blanks_append {blanks : List Char} (hblanks : ∀ c ∈ blanks, Text.isBlank c = true)
    (m : Mode) (n : Nat) (cs : List Char) :
    (⟨blanks ++ cs, n, m⟩ : Lexer).next? =
      (⟨cs, n + Text.byteLength blanks, m⟩ : Lexer).next? := by
  simp only [next?, List.takeWhile_append_of_pos hblanks, List.dropWhile_append_of_pos hblanks,
    Text.byteLength_append, Nat.add_assoc]

theorem tokens_blanks_append {blanks : List Char} (hblanks : ∀ c ∈ blanks, Text.isBlank c = true)
    (m : Mode) (n : Nat) (cs : List Char) :
    (⟨blanks ++ cs, n, m⟩ : Lexer).tokens =
      (⟨cs, n + Text.byteLength blanks, m⟩ : Lexer).tokens := by
  have hnext := next?_blanks_append hblanks m n cs
  cases h : (⟨cs, n + Text.byteLength blanks, m⟩ : Lexer).next? with
  | none => rw [tokens_of_next?_eq_none h, tokens_of_next?_eq_none (hnext.trans h)]
  | some found => rw [tokens_of_next?_eq_some h, tokens_of_next?_eq_some (hnext.trans h)]

/-- A text is read as no other tokens than its own: blanks and tokens follow each other in one way
only, as no token starts with a blank and each is cut off by a function. -/
theorem Lexes.tokens_eq (h : Lexes m n cs ts) : (⟨cs, n, m⟩ : Lexer).tokens = ts := by
  induction h with
  | nil hblank =>
    exact tokens_of_next?_eq_none (next?_eq_none_iff.2 (List.dropWhile_eq_nil_iff.2 hblank))
  | @cons m n t leading text tail ts hleading hstart hstop hreads _ ih =>
    obtain ⟨⟨c, cs, rfl, hc⟩, blanks, rest, rfl, hblanks, hscan⟩ := hreads
    have hnext : (⟨c :: cs ++ (blanks ++ rest), t.span.start, m⟩ : Lexer).next? =
        some (t, ⟨rest, t.span.stop + Text.byteLength blanks, m.after t.lexeme⟩) := by
      obtain ⟨x, start, stop⟩ := t
      obtain rfl : stop = start + Text.byteLength (c :: cs) := hstop
      rw [List.cons_append] at hscan ⊢
      simp [next?, hc, hscan]
    rw [List.append_assoc, tokens_blanks_append hleading, ← hstart, tokens_of_next?_eq_some hnext,
      ← tokens_blanks_append hblanks, ih]

/-- **A text is read as its tokens**, and as no others. To find the tokens of a text it is enough to
give tokens that it is read as. -/
theorem lexes_iff : Lexes .normal 0 cs ts ↔ tokenize (String.ofList cs) = ts := by
  rw [tokenize, String.toList_ofList]
  exact ⟨Lexes.tokens_eq, fun h => h ▸ lexes_tokens (ofChars cs)⟩

/-- Where nothing is left there is no token. -/
theorem Lexes.eq_nil (h : Lexes m n [] ts) : ts = [] :=
  h.tokens_eq.symm.trans (tokens_of_next?_eq_none (next?_eq_none_iff.2 rfl))

/-! ### Blanks at the end -/

/-- A quote that is never closed takes the blanks that are put behind it. -/
theorem Unclosed.append_blanks {blanks : List Char}
    (hblanks : ∀ c ∈ blanks, Text.isBlank c = true) (h : Unclosed m text) :
    Unclosed m (text ++ blanks) := by
  obtain ⟨hm, content, rfl, hcontent⟩ := h
  have hquote : '\x27' ∉ blanks := fun hmem => absurd (hblanks _ hmem) (by decide)
  exact ⟨hm, content ++ blanks, rfl, by simp [hcontent, hquote]⟩

/-! ### Tokens that are moved -/

/-- No token starts before the text does, so all places in it are behind its offset. -/
theorem Lexes.le_start (h : Lexes m n cs ts) : ∀ t ∈ ts, n ≤ t.span.start := by
  induction h with
  | nil => simp
  | cons _ hstart hstop _ _ ih =>
    refine List.forall_mem_cons.2 ⟨by omega, fun t ht => ?_⟩
    have := ih t ht
    omega

/-- A text has the same tokens wherever it starts, but for their places. -/
theorem Lexes.movedBy (h : Lexes m n cs ts) (k : Nat) :
    Lexes m (n + k) cs (ts.map (Token.movedBy k)) := by
  induction h with
  | nil hblank => exact .nil hblank
  | @cons m n t leading text tail ts hleading hstart hstop hreads _ ih =>
    refine .cons hleading ?_ ?_ hreads ih
    · rw [Token.movedBy_start]
      omega
    · rw [Token.movedBy_stop, Token.movedBy_start]
      omega

end Lexer

/-! ### What is read from tokens -/

/-- The token at another place, by a map of places that need not keep anything of them, neither
their order nor their width. -/
def Token.mapSpan (g : Span → Span) (t : Token) : Token :=
  ⟨t.lexeme, g t.span⟩

@[simp] theorem Token.mapSpan_lexeme (g : Span → Span) (t : Token) :
    (t.mapSpan g).lexeme = t.lexeme := rfl

theorem Token.mapSpan_eq_self_iff {g : Span → Span} {t : Token} :
    t.mapSpan g = t ↔ g t.span = t.span := by
  obtain ⟨x, span⟩ := t
  simp [mapSpan]

/-- The error with another place for the token that it names. An error at the end of the tokens
names none and stays as it is. -/
def ParseError.mapSpan (g : Span → Span) : ParseError → ParseError
  | .unexpected wanted found => .unexpected wanted (found.mapSpan g)
  | .missing wanted => .missing wanted
  | .missingOperator field => .missingOperator field
  | .noOperator found => .noOperator (found.mapSpan g)
  | .tooDeep found => .tooDeep (found.mapSpan g)
  | .trailing found => .trailing (found.mapSpan g)

/-- What an error says of a token it says of its lexeme. -/
@[simp] theorem ParseError.message_mapSpan (g : Span → Span) (e : ParseError) :
    (e.mapSpan g).message = e.message := by
  cases e <;> rfl

/-- An error is the same if it tells no place, or the same place. -/
theorem ParseError.mapSpan_eq_self_iff {g : Span → Span} {e : ParseError} :
    e.mapSpan g = e ↔ ∀ span, e.span? = some span → g span = span := by
  cases e <;> simp [mapSpan, span?, found?, Token.mapSpan_eq_self_iff]

/-- The fault with another place for the token that it names. -/
def Fault.mapSpan (g : Span → Span) (fault : Fault) : Fault :=
  ⟨fault.error.mapSpan g, fault.consumed⟩

namespace Reading

variable {s : Reading} {t : Token} {ts ts' : List Token} (g : Span → Span)

theorem takeOpening_mapSpan :
    s.takeOpening (t.mapSpan g) = (s.takeOpening t).mapError (Fault.mapSpan g) := by
  rw [takeOpening, takeOpening, Token.mapSpan_lexeme]
  split
  · split <;> rfl
  · rfl
  · rfl

theorem takeClosing_mapSpan :
    s.takeClosing (t.mapSpan g) = (s.takeClosing t).mapError (Fault.mapSpan g) := by
  rw [takeClosing, takeClosing, Token.mapSpan_lexeme]
  split
  · rfl
  · split <;> rfl

/-- The machine looks at the lexeme of a token, and only an error tells its place. So a step to
another state is the same, and a fault differs in the place of the token that it is about. -/
theorem step_mapSpan : s.step (t.mapSpan g) = (s.step t).mapError (Fault.mapSpan g) := by
  have hopening := takeOpening_mapSpan (s := s) (t := t) g
  have hclosing := takeClosing_mapSpan (s := s) (t := t) g
  rw [step, step, Token.mapSpan_lexeme]
  split
  case h_1 => exact hopening
  case h_8 => exact hclosing
  -- Within a condition a token is taken for its lexeme, or refused.
  all_goals
    split
    all_goals first
      | rfl
      | exact hclosing

/-- **Tokens at other places are read alike**, and an error is at the other place of its token. -/
theorem run_mapSpan :
    (s.run (ts.map (Token.mapSpan g))).1 = (s.run ts).1.mapError (ParseError.mapSpan g) := by
  induction ts generalizing s with
  | nil =>
    have hfinish : s.finish.mapError (ParseError.mapSpan g) = s.finish := by
      rw [finish]
      repeat' split
      all_goals rfl
    rw [List.map_nil, run]
    cases h : s.finish with
    | ok f => rfl
    | error e =>
      rw [h] at hfinish
      exact hfinish.symm
  | cons t ts ih =>
    have hstep := step_mapSpan (s := s) (t := t) g
    rw [List.map_cons]
    cases h : s.step t with
    | ok next =>
      rw [h] at hstep
      rw [run_of_step_ok h, run_of_step_ok hstep, ih]
    | error fault =>
      rw [h] at hstep
      rw [run_of_step_error h, run_of_step_error hstep]
      rfl

end Reading

/-- A filter does not depend on the places of its tokens. -/
theorem Filter.ofTokens_mapSpan (g : Span → Span) (ts : List Token) :
    Filter.ofTokens (ts.map (Token.mapSpan g)) =
      (Filter.ofTokens ts).mapError (ParseError.mapSpan g) :=
  Reading.run_mapSpan g

/-- **Texts with the same lexemes are read alike**, or refused in the same words. The places that
the errors tell may be as different as the texts. -/
theorem Filter.parse_congr {s s' : String}
    (h : (tokenize s).map (·.lexeme) = (tokenize s').map (·.lexeme)) :
    (Filter.parse s).mapError ParseError.message =
      (Filter.parse s').mapError ParseError.message := by
  -- Tokens that are all at one place are told apart by their lexemes only.
  let g : Span → Span := fun _ => ⟨0, 0⟩
  have hplace (ts : List Token) :
      ts.map (Token.mapSpan g) = Reading.unplaced (ts.map (·.lexeme)) := by
    rw [Reading.unplaced, List.map_map]
    rfl
  have hmessage (ts : List Token) : (Filter.ofTokens ts).mapError ParseError.message =
      (Filter.ofTokens (ts.map (Token.mapSpan g))).mapError ParseError.message := by
    rw [Filter.ofTokens_mapSpan]
    cases Filter.ofTokens ts <;> simp [Except.mapError]
  rw [Filter.parse, Filter.parse, hmessage, hplace, h, ← hplace, ← hmessage]

end NestedFilter
