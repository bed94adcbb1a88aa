import NestedFilter.Proofs.Lexemes
import NestedFilter.Proofs.Trimming

/-!
# Tokens tile the text

The tokens of a text stand in it one behind the other, each over at least one character, and
whatever lies between them, before the first or behind the last is blank. What the characters
of a token look like is said by `NestedFilter.Lexer.Spelled`, class by class: each of signs,
words and values without quotes goes on for as long as it can, a value in quotes ends at the
next quote, and what is illegal is one character, or a quote that is never closed.

The main result, `NestedFilter.tokenize_tiling`, is that this holds of every text. The way goes
by two relations, both of which cut a text into blanks, a token, and what is left.

* `NestedFilter.Lexer.Lexes` follows the lexer from token to token
  (`NestedFilter.Lexer.lexes_tokens`), and says of each what the lexer does there. Facts about
  what is read of a changed text start from here.
* `NestedFilter.Lexer.Tiles` says nothing of the lexer, only how the token is spelled and where
  it stands. A piece that is cut off is spelled as its lexeme asks
  (`NestedFilter.Lexer.spelledIn_of_scan`), so what has been followed is tiled. The four facts
  about places are read off the tiles by induction.

Places are counted in bytes, from the start of the text. So a tile carries what stands before
it, and its span is the length of this, with and without the token: there is no adding up of
lengths, and the end of a span is between two characters by its form.

A lexer may also be asked for one token at a time, in states that its own answers lead to. It
answers with the tokens of the text one by one and then with none, however often it is asked
(`NestedFilter.Lexer.answer_eq_getElem?`).
-/

namespace NestedFilter

namespace Lexer

/-! ### How lexemes are spelled -/

/-- Where `after` follows, `text` is the longest run of characters in `accept`. It may be empty,
which those who speak of it have to exclude. -/
structure LongestRun (accept : Char → Bool) (text after : List Char) : Prop where
  /-- All its characters are accepted. -/
  all : ∀ c ∈ text, accept c = true
  /-- The character behind it is not. -/
  stops : ∀ c ∈ after.head?, accept c = false

/-- **How lexemes are spelled**: read in the given mode, where `after` follows, the lexeme is
written `text`. What follows is part of it because some tokens are as long as can be, and nothing
in the token itself tells that it is at its end. -/
inductive Spelled : Mode → Lexeme → List Char → List Char → Prop
  /-- A sign, and no longer sign is written there. -/
  | sign {m : Mode} {x : Lexeme} {text after : List Char} (hsign : (text, x) ∈ signs)
      (hlongest : ∀ other ∈ signs, other.1 <+: text ++ after → other.1.length ≤ text.length) :
      Spelled m x text after
  /-- A keyword, which is a whole word. -/
  | keyword {m : Mode} {x : Lexeme} {text after : List Char} (hkeyword : (text, x) ∈ keywords)
      (hrun : LongestRun isWordChar text after) : Spelled m x text after
  /-- A field, which is a whole word as well. -/
  | field {m : Mode} {name : String} {after : List Char} (hname : IsFieldName name)
      (hrun : LongestRun isWordChar name.toList after) :
      Spelled m (.field name) name.toList after
  /-- A value without quotes: with the blanks right behind it, it is a longest run, and no
  blank stands at either of its ends. -/
  | run {m : Mode} {value : String} {after : List Char} (hne : value ≠ "")
      (hhead : ∀ c ∈ value.toList.head?, Text.isBlank c = false)
      (hlast : ∀ c ∈ value.toList.getLast?, Text.isBlank c = false)
      (hrun : LongestRun m.accepts (value.toList ++ after.takeWhile (· == ' '))
        (after.dropWhile (· == ' '))) :
      Spelled m (.value value) value.toList after
  /-- A value in quotes, of which the second is the next behind the first. -/
  | quoted {m : Mode} {value : String} {after : List Char} (hvalue : QuoteFree value) :
      Spelled m (.value value) ('\x27' :: value.toList ++ ['\x27']) after
  /-- A quote that is never closed: everything up to the end of the text. -/
  | unclosed {m : Mode} {content : List Char} (hcontent : '\x27' ∉ content) :
      Spelled m .illegal ('\x27' :: content) []
  /-- A character that fits nowhere. -/
  | stray {m : Mode} {c : Char} {after : List Char} : Spelled m .illegal [c] after

variable {m : Mode} {x : Lexeme} {cs text after rest : List Char} {p : Piece}

theorem Spelled.ne_nil (h : Spelled m x text after) : text ≠ [] := by
  cases h with
  | sign hsign _ => exact signs_ne_nil _ hsign
  | keyword hkeyword _ =>
    have hne : ∀ word ∈ keywords, word.1 ≠ [] := by decide
    exact hne _ hkeyword
  | field hname _ => simpa using hname.ne_empty
  | run hne _ _ _ => simpa using hne
  | quoted _ => simp
  | unclosed _ => simp
  | stray => simp

/-- A piece is spelled as its lexeme asks, and what was read with it is blank. -/
structure Piece.SpelledIn (m : Mode) (p : Piece) : Prop where
  /-- The characters of the token are a spelling of the lexeme. -/
  spelled : Spelled m p.lexeme p.text (p.blanks ++ p.rest)
  /-- The characters behind them belong to no token. -/
  blank : ∀ c ∈ p.blanks, Text.isBlank c = true

/-! ### Pieces are spelled as their lexemes ask -/

/-- No sign begins one that is listed behind it. So to look through the list for the first that fits
is to look for the longest. -/
theorem pairwise_signs : signs.Pairwise fun sign other => ¬sign.1 <+: other.1 := by
  decide

/-- The sign that is found is the longest of those that the text starts with. -/
theorem length_le_of_find?_signs {sign : List Char}
    (h : signs.find? (·.1.isPrefixOf cs) = some (sign, x)) {other : List Char × Lexeme}
    (hother : other ∈ signs) (hbegins : other.1 <+: cs) : other.1.length ≤ sign.length := by
  obtain ⟨hsign, before, behind, hsigns, hbefore⟩ := List.find?_eq_some_iff_append.1 h
  rw [hsigns, List.mem_append, List.mem_cons] at hother
  rcases hother with hother | rfl | hother
  · have hnot := hbefore other hother
    rw [List.isPrefixOf_iff_prefix.2 hbegins] at hnot
    exact absurd hnot (by simp)
  · exact Nat.le_refl _
  · -- Both begin the text, so the shorter would begin the longer.
    have hpairwise := pairwise_signs
    rw [hsigns, List.pairwise_append, List.pairwise_cons] at hpairwise
    have hnot := hpairwise.2.1.1 other hother
    by_contra hlt
    exact hnot (List.prefix_of_prefix_length_le (List.isPrefixOf_iff_prefix.1 hsign) hbegins
      (by simpa using Nat.le_of_not_le hlt))

theorem longestRun_takeWhile (accept : Char → Bool) (cs : List Char) :
    LongestRun accept (cs.takeWhile accept) (cs.dropWhile accept) where
  all := fun _ hc => List.mem_takeWhile_imp hc
  stops := by
    intro c hc
    have := List.head?_dropWhile_not accept cs
    rw [Option.mem_def.1 hc] at this
    simpa using this

theorem spelled_ofWord (hne : text ≠ []) (hrun : LongestRun isWordChar text after) :
    Spelled m (ofWord text) text after := by
  have hwell := wellFormed_ofWord hne hrun.all
  rw [ofWord] at hwell ⊢
  cases hlookup : keywords.lookup text with
  | some lexeme =>
    obtain ⟨before, behind, heq, -⟩ := List.lookup_eq_some_iff.1 hlookup
    exact .keyword (by rw [heq]; simp) hrun
  | none =>
    rw [hlookup] at hwell
    have hrun' : LongestRun isWordChar (String.ofList text).toList after := by
      rwa [String.toList_ofList]
    have h : Spelled m _ _ after := .field hwell hrun'
    rwa [String.toList_ofList] at h

theorem spelledIn_of_scanNormal (h : scanNormal cs = some p) : p.SpelledIn m := by
  unfold scanNormal at h
  split at h
  · next sign lexeme hsign =>
    obtain ⟨tail, htail⟩ := isPrefixOf_of_find?_signs hsign
    obtain rfl := Option.some.inj h
    refine ⟨.sign (List.mem_of_find?_eq_some hsign) fun other hother hbegins => ?_, by simp⟩
    refine length_le_of_find?_signs hsign hother ?_
    simpa [← htail] using hbegins
  split at h
  · exact absurd h (by simp)
  split at h
  · next hc =>
    obtain rfl := Option.some.inj h
    exact ⟨spelled_ofWord (by simp [hc]) (longestRun_takeWhile isWordChar _), by simp⟩
  · obtain rfl := Option.some.inj h
    exact ⟨.stray, by simp⟩

theorem spelledIn_scanQuoted (cs : List Char) : (scanQuoted cs).SpelledIn m := by
  by_cases hquote : '\x27' ∈ cs
  · obtain ⟨content, rest, rfl, hfree⟩ := List.eq_append_cons_of_mem hquote
    have hvalue : QuoteFree (String.ofList content) := by
      rwa [QuoteFree, String.toList_ofList]
    have h : Spelled m _ _ rest := .quoted hvalue
    rw [String.toList_ofList] at h
    rw [scanQuoted_closed hfree]
    exact ⟨h, by simp⟩
  · rw [scanQuoted_unclosed hquote]
    exact ⟨.unclosed hquote, by simp⟩

/-- Of all blanks only the space may stand in a value without quotes, which is why spaces alone are
cut off at its end. -/
theorem isBlank_of_accepts {c : Char} (hc : m.accepts c = true) :
    Text.isBlank c = (c == ' ') := by
  have halnum : c.isAlphanum = true → Text.isBlank c = (c == ' ') := by
    intro h
    have hblank := isBlank_of_isWordChar (c := c) (by simp [isWordChar, h])
    rw [hblank, eq_comm, beq_eq_false_iff_ne]
    rintro rfl
    exact absurd h (by decide)
  have hlist : (" _-%.:\\*?+\x7b\x7d[]".toList ++ "_.-: ".toList).all
      (fun d => Text.isBlank d == (d == ' ')) = true := rfl
  have hmem := fun d hd => eq_of_beq (List.all_eq_true.1 hlist d hd)
  cases m with
  | normal | listStart => simp [Mode.accepts] at hc
  | value =>
    simp only [Mode.accepts, isValueChar, Bool.or_eq_true] at hc
    rcases hc with hc | hc
    · exact halnum hc
    · exact hmem c (List.mem_append_left _ (by simpa using hc))
  | list =>
    simp only [Mode.accepts, isItemChar, Bool.or_eq_true] at hc
    rcases hc with hc | hc
    · exact halnum hc
    · exact hmem c (List.mem_append_right _ (by simpa using hc))

/-- A value without quotes may hold spaces wherever there may be such a value. -/
theorem accepts_space {c : Char} (hc : m.accepts c = true) : m.accepts ' ' = true := by
  cases m <;> first | rfl | exact hc

theorem spelledIn_scanRun {c : Char} (hc : m.accepts c = true)
    (hblank : Text.isBlank c = false) : (scanRun m.accepts (c :: cs)).SpelledIn m := by
  have hspace := accepts_space hc
  have hrun := longestRun_takeWhile m.accepts (c :: cs)
  obtain ⟨kept, tail, hsplit⟩ : ∃ kept tail, Text.splitTrailing Text.isBlank
      ((c :: cs).takeWhile m.accepts) = (kept, tail) := ⟨_, _, rfl⟩
  have happend := Text.splitTrailing_append Text.isBlank ((c :: cs).takeWhile m.accepts)
  have htail := Text.all_splitTrailing_snd Text.isBlank ((c :: cs).takeWhile m.accepts)
  have hlast : ∀ d ∈ (Text.splitTrailing Text.isBlank
      ((c :: cs).takeWhile m.accepts)).1.getLast?, Text.isBlank d = false :=
    fun d hd => Text.not_of_mem_getLast?_splitTrailing hd
  rw [hsplit] at happend htail hlast
  rw [← happend] at hrun
  rw [List.takeWhile_cons_of_pos hc] at happend
  -- The first character is no blank, so it is kept.
  obtain ⟨ks, rfl⟩ : ∃ ks, kept = c :: ks := by
    cases kept with
    | nil =>
      rw [List.nil_append] at happend
      rw [happend, List.all_cons, hblank] at htail
      exact absurd htail (by simp)
    | cons d ks => exact ⟨ks, by rw [(List.cons.inj happend).1]⟩
  have hspaces : ∀ d ∈ tail, (d == ' ') = true := by
    intro d hd
    rw [← isBlank_of_accepts (hrun.all d (List.mem_append_right _ hd))]
    exact List.all_eq_true.1 htail d hd
  have hstop : ((c :: cs).dropWhile m.accepts).head?.any (· == ' ') = false := by
    cases hrest : ((c :: cs).dropWhile m.accepts).head? with
    | none => rfl
    | some d =>
      have hd := hrun.stops d hrest
      rw [Option.any_some, beq_eq_false_iff_ne]
      rintro rfl
      exact absurd (hspace.symm.trans hd) (by simp)
  obtain ⟨htake, hdrop⟩ := takeWhile_append_of_stop hspaces hstop
  have hpiece : scanRun m.accepts (c :: cs) = ⟨.value (String.ofList (c :: ks)), c :: ks, tail,
      (c :: cs).dropWhile m.accepts⟩ := by
    rw [scanRun, hsplit]
  have h : Spelled m (.value (String.ofList (c :: ks))) _
      (tail ++ (c :: cs).dropWhile m.accepts) :=
    .run (by simp) (by simpa using hblank) (by simpa using hlast)
      (by rwa [htake, hdrop, String.toList_ofList])
  rw [String.toList_ofList] at h
  rw [hpiece]
  exact ⟨h, List.all_eq_true.1 htail⟩

/-- **A piece is spelled as its lexeme asks**, and what was read with it behind the token is blank.
There is one case for each way in which pieces are cut off. -/
theorem spelledIn_of_scan {c : Char} (hblank : Text.isBlank c = false)
    (h : scan m (c :: cs) = some p) : p.SpelledIn m := by
  cases cut_of_scan h with
  | quoted _ => exact spelledIn_scanQuoted cs
  | run hc => exact spelledIn_scanRun hc hblank
  | plain _ _ _ h => exact spelledIn_of_scanNormal h
  | stray _ _ _ => exact ⟨.stray, by simp⟩

/-! ### From token to token -/

variable {c : Char} {tail : List Char} {n : Nat} {ts : List Token}

/-- In the mode `m`, where `tail` follows, the characters `text` are a token, and it is `x`. -/
structure Reads (m : Mode) (x : Lexeme) (text tail : List Char) : Prop where
  /-- Blanks before a token are no part of it. -/
  head : ∃ c cs, text = c :: cs ∧ Text.isBlank c = false
  /-- The token is cut off, with blanks behind it perhaps. -/
  scan : ∃ blanks rest, tail = blanks ++ rest ∧ (∀ c ∈ blanks, Text.isBlank c = true) ∧
    scan m (text ++ tail) = some ⟨x, text, blanks, rest⟩

theorem Reads.spelled (h : Reads m x text tail) : Spelled m x text tail := by
  obtain ⟨⟨c, cs, rfl, hc⟩, blanks, rest, rfl, -, hscan⟩ := h
  exact (spelledIn_of_scan hc hscan).spelled

theorem reads_of_scan (hc : Text.isBlank c = false)
    (h : scan m (c :: cs) = some p) : Reads m p.lexeme p.text (p.blanks ++ p.rest) := by
  have hp := spelledIn_of_scan hc h
  have hsplit := scan_split h
  rw [List.append_assoc] at hsplit
  obtain ⟨d, ds, htext⟩ := List.exists_cons_of_ne_nil hp.spelled.ne_nil
  refine ⟨⟨d, ds, htext, ?_⟩, p.blanks, p.rest, rfl, hp.blank, by rwa [hsplit]⟩
  rw [htext, List.cons_append] at hsplit
  rwa [(List.cons.inj hsplit).1]

/-- **The text is read as the tokens**, in the mode `m` and from the offset `n` on: blanks, a
token, and so on; behind the last token there are only blanks. -/
inductive Lexes : Mode → Nat → List Char → List Token → Prop
  /-- No token is left. -/
  | nil {m : Mode} {n : Nat} {cs : List Char} (hblank : ∀ c ∈ cs, Text.isBlank c = true) :
      Lexes m n cs []
  /-- Blanks, and then a token. -/
  | cons {m : Mode} {n : Nat} {t : Token} {leading text tail : List Char} {ts : List Token}
      (hleading : ∀ c ∈ leading, Text.isBlank c = true)
      (hstart : t.span.start = n + Text.byteLength leading)
      (hstop : t.span.stop = t.span.start + Text.byteLength text)
      (hreads : Reads m t.lexeme text tail) (h : Lexes (m.after t.lexeme) t.span.stop tail ts) :
      Lexes m n (leading ++ text ++ tail) (t :: ts)

/-- Blanks may be put in front, if the offset is that of the first of them. -/
theorem Lexes.blanks_append {blanks : List Char} (hblanks : ∀ c ∈ blanks, Text.isBlank c = true)
    (h : Lexes m (n + Text.byteLength blanks) cs ts) : Lexes m n (blanks ++ cs) ts := by
  cases h with
  | nil hblank => exact .nil (List.forall_mem_append.2 ⟨hblanks, hblank⟩)
  | cons hleading hstart hstop hreads h =>
    rw [Nat.add_assoc, ← Text.byteLength_append] at hstart
    rw [← List.append_assoc, ← List.append_assoc]
    exact .cons (List.forall_mem_append.2 ⟨hblanks, hleading⟩) hstart hstop hreads h

theorem tokens_of_next?_eq_none {s : Lexer} (h : s.next? = none) : s.tokens = [] := by
  rw [tokens]
  split <;> simp_all

theorem tokens_of_next?_eq_some {s next : Lexer} {t : Token} (h : s.next? = some (t, next)) :
    s.tokens = t :: next.tokens := by
  rw [tokens]
  split <;> simp_all

/-- No token is left exactly if only blanks are, in whatever mode. -/
theorem next?_eq_none_iff {s : Lexer} : s.next? = none ↔ s.rest.dropWhile Text.isBlank = [] := by
  rw [next?, Option.map_eq_none_iff, scan_eq_none_iff]

/-- What a lexer reads: blanks, and then a piece of a text that starts with none. Its next offset is
behind the blanks that were read with the piece, though these are no part of the token. -/
theorem exists_scan_of_next? {s next : Lexer} {t : Token} (h : s.next? = some (t, next)) :
    ∃ leading c cs p, s.rest = leading ++ c :: cs ∧ (∀ d ∈ leading, Text.isBlank d = true) ∧
      Text.isBlank c = false ∧ scan s.mode (c :: cs) = some p ∧
      t = ⟨p.lexeme, ⟨s.offset + Text.byteLength leading,
        s.offset + Text.byteLength leading + Text.byteLength p.text⟩⟩ ∧
      next = ⟨p.rest, s.offset + Text.byteLength leading + Text.byteLength p.text +
        Text.byteLength p.blanks, s.mode.after p.lexeme⟩ := by
  obtain ⟨p, hscan, heq⟩ := Option.map_eq_some_iff.1 h
  obtain ⟨rfl, rfl⟩ := Prod.mk.inj heq
  have hsplit := List.takeWhile_append_dropWhile (p := Text.isBlank) (l := s.rest)
  have hrun := longestRun_takeWhile Text.isBlank s.rest
  cases hrest : s.rest.dropWhile Text.isBlank with
  | nil => exact absurd (hrest ▸ hscan) (by simp [scan_eq_none_iff.2])
  | cons c cs =>
    rw [hrest] at hscan hsplit hrun
    exact ⟨_, c, cs, p, hsplit.symm, hrun.all, hrun.stops c rfl, hscan, rfl, rfl⟩

/-- **From anywhere on, the rest of a text is read as the tokens that are left.** The blanks that
were read with a token are put in front of the next, where they are blanks like any others. -/
theorem lexes_tokens (s : Lexer) : Lexes s.mode s.offset s.rest s.tokens := by
  induction s using tokens.induct with
  | case1 s h =>
    rw [tokens_of_next?_eq_none h]
    exact .nil (List.dropWhile_eq_nil_iff.1 (next?_eq_none_iff.1 h))
  | case2 s t next h ih =>
    rw [tokens_of_next?_eq_some h]
    obtain ⟨leading, c, cs, p, hrest, hblanks, hc, hscan, rfl, rfl⟩ := exists_scan_of_next? h
    have hsplit : s.rest = leading ++ p.text ++ (p.blanks ++ p.rest) := by
      rw [hrest, ← scan_split hscan]
      simp
    rw [hsplit]
    exact .cons hblanks rfl rfl (reads_of_scan hc hscan)
      (ih.blanks_append (spelledIn_of_scan hc hscan).blank)

/-! ### Tiles -/

/-- Behind `before`, in the given mode, the tokens tile the text `cs`: blanks, a token that is
spelled as it should, and so on; behind the last token there are only blanks. -/
inductive Tiles : List Char → Mode → List Char → List Token → Prop
  /-- No token is left. -/
  | nil {before cs : List Char} {m : Mode} (hblank : ∀ c ∈ cs, Text.isBlank c = true) :
      Tiles before m cs []
  /-- Blanks, and then a token. -/
  | cons {before blanks text after : List Char} {m : Mode} {t : Token} {ts : List Token}
      (hblanks : ∀ c ∈ blanks, Text.isBlank c = true)
      (hspan : t.span = ⟨Text.byteLength (before ++ blanks),
        Text.byteLength (before ++ blanks ++ text)⟩)
      (hspelled : Spelled m t.lexeme text after)
      (h : Tiles (before ++ blanks ++ text) (m.after t.lexeme) after ts) :
      Tiles before m (blanks ++ text ++ after) (t :: ts)

/-- **What is read as tokens is tiled by them.** -/
theorem Lexes.tiles {before : List Char} (h : Lexes m n cs ts)
    (hoffset : n = Text.byteLength before) : Tiles before m cs ts := by
  induction h generalizing before with
  | nil hblank => exact .nil hblank
  | @cons m n t leading text tail ts hleading hstart hstop hreads _ ih =>
    rw [hoffset, ← Text.byteLength_append] at hstart
    rw [hstart, ← Text.byteLength_append] at hstop
    have hspan : t.span = ⟨Text.byteLength (before ++ leading),
        Text.byteLength (before ++ leading ++ text)⟩ := by
      rw [← hstart, ← hstop]
    exact .cons hleading hspan hreads.spelled (ih hstop)

/-- The tokens from anywhere on tile the rest of the text, if the offset is right. -/
theorem tiles_tokens (s : Lexer) {before : List Char}
    (hoffset : s.offset = Text.byteLength before) : Tiles before s.mode s.rest s.tokens :=
  (lexes_tokens s).tiles hoffset

/-! ### What tiles imply -/

variable {before : List Char}

/-- Each token takes a character at least, so there are no more of them than characters. -/
theorem Tiles.length_le (h : Tiles before m cs ts) : ts.length ≤ cs.length := by
  induction h with
  | nil => exact Nat.zero_le _
  | cons _ _ hspelled _ ih =>
    have := List.length_pos_iff.2 hspelled.ne_nil
    simp only [List.length_cons, List.length_append]
    omega

/-- Each token stands where its span says, and is spelled there as it should be, in the mode that
the tokens before it lead to. -/
theorem Tiles.exists_spelled {earlier later : List Token} {t : Token}
    (h : Tiles before m cs (earlier ++ t :: later)) :
    ∃ first text after, before ++ cs = first ++ text ++ after ∧
      t.span = ⟨Text.byteLength first, Text.byteLength (first ++ text)⟩ ∧
      Spelled (m.afterAll (earlier.map (·.lexeme))) t.lexeme text after := by
  induction earlier generalizing before m cs with
  | nil =>
    cases h with
    | cons _ hspan hspelled _ => exact ⟨_, _, _, by simp, hspan, hspelled⟩
  | cons u earlier ih =>
    cases h with
    | cons _ _ _ h =>
      obtain ⟨first, text, after, heq, hspan, hspelled⟩ := ih h
      exact ⟨first, text, after, by simpa using heq, hspan, hspelled⟩

/-- No token starts before the place from which on the tokens tile the text. -/
theorem Tiles.le_start (h : Tiles before m cs ts) :
    ∀ t ∈ ts, Text.byteLength before ≤ t.span.start := by
  induction h with
  | nil => simp
  | cons _ hspan _ _ ih =>
    simp only [Text.byteLength_append] at hspan ih
    refine List.forall_mem_cons.2 ⟨?_, fun u hu => ?_⟩
    · rw [hspan]
      exact Nat.le_add_right _ _
    · have := ih u hu
      omega

/-- Tokens do not overlap: the span of each ends where that of every later one starts, or before. -/
theorem Tiles.pairwise_stop_le_start (h : Tiles before m cs ts) :
    ts.Pairwise fun t u => t.span.stop ≤ u.span.start := by
  induction h with
  | nil => exact .nil
  | cons _ hspan _ h ih =>
    refine List.pairwise_cons.2 ⟨fun u hu => ?_, ih⟩
    rw [hspan]
    exact h.le_start u hu

/-- A character of two texts in a row belongs to the first or to the second. -/
theorem append_eq_append_cons_cases {xs ys b a : List Char} {c : Char}
    (h : xs ++ ys = b ++ c :: a) :
    (∃ a', xs = b ++ c :: a') ∨ ∃ b', b = xs ++ b' ∧ ys = b' ++ c :: a := by
  rcases List.append_eq_append_iff.1 h with ⟨b', hb, hys⟩ | ⟨as, hxs, hcons⟩
  · exact .inr ⟨b', hb, hys⟩
  · rcases List.cons_eq_append_iff.1 hcons with ⟨rfl, hys⟩ | ⟨a', rfl, -⟩
    · exact .inr ⟨[], by simpa using hxs.symm, by simpa using hys⟩
    · exact .inl ⟨a', hxs⟩

/-- What stands outside all tokens is blank. The character may be between two tokens, before the
first or behind the last; a place within a span is excluded by the hypothesis. -/
theorem Tiles.isBlank_of_outside (h : Tiles before m cs ts) {first after : List Char} {c : Char}
    (hcs : cs = first ++ c :: after)
    (houtside : ∀ t ∈ ts, Text.byteLength (before ++ first) < t.span.start ∨
      t.span.stop ≤ Text.byteLength (before ++ first)) : Text.isBlank c = true := by
  induction h generalizing first with
  | nil hblank => exact hblank c (by simp [hcs])
  | @cons before blanks text rest m t ts hblanks hspan _ _ ih =>
    rw [List.append_assoc] at hcs
    rcases append_eq_append_cons_cases hcs with ⟨as, rfl⟩ | ⟨first, rfl, htoken⟩
    · exact hblanks c (by simp)
    rcases append_eq_append_cons_cases htoken with ⟨as, rfl⟩ | ⟨first, rfl, hrest⟩
    · -- A character of the token stands within its span.
      have hpos := c.utf8Size_pos
      have hplace := houtside t List.mem_cons_self
      simp only [hspan, Text.byteLength_append, Text.byteLength_cons] at hplace
      omega
    · refine ih hrest fun u hu => ?_
      simpa using houtside u (List.mem_cons_of_mem _ hu)

/-! ### Asking for tokens -/

/-- Ask a lexer for a token: the token, or none if only blanks are left, and the lexer that
is asked next. -/
def ask (s : Lexer) : Option Token × Lexer :=
  match s.next? with
  | some (t, next) => (some t, next)
  | none => (none, ⟨s.rest.dropWhile Text.isBlank,
      s.offset + Text.byteLength (s.rest.takeWhile Text.isBlank),
      if s.mode = .value then .normal else s.mode⟩)

/-- What a lexer answers when it has been asked so many times before, each time in the state that
the answer before has left. -/
def answer (s : Lexer) : Nat → Option Token
  | 0 => s.ask.1
  | n + 1 => s.ask.2.answer n

/-- **A lexer answers with its tokens**, and with none ever after. Once it has none, it has no text
left either, so to be asked again changes nothing. -/
theorem answer_eq_getElem? (s : Lexer) (n : Nat) : s.answer n = s.tokens[n]? := by
  induction n generalizing s with
  | zero =>
    rw [answer, ask]
    cases h : s.next? with
    | none => simp [tokens_of_next?_eq_none h]
    | some found => simp [tokens_of_next?_eq_some h]
  | succ n ih =>
    rw [answer, ih, ask]
    cases h : s.next? with
    | some found => simp [tokens_of_next?_eq_some h]
    | none =>
      -- What is left is no text at all, in whatever mode.
      have hend : ∀ (offset : Nat) (m : Mode), (⟨[], offset, m⟩ : Lexer).tokens = [] :=
        fun offset m => tokens_of_next?_eq_none (next?_eq_none_iff.2 rfl)
      simp [tokens_of_next?_eq_none h, next?_eq_none_iff.1 h, hend]

end Lexer

/-! ### Texts -/

/-- The tokens lie in the text without a gap but for blanks. -/
structure Tiling (s : String) (ts : List Token) : Prop where
  /-- There are no more tokens than characters. -/
  length_le : ts.length ≤ s.length
  /-- A token stands between two characters and two others, over one or more, which spell its
  lexeme, in the mode that the tokens before it lead to. -/
  spelled : ∀ earlier t later, ts = earlier ++ t :: later →
    ∃ before text after, s.toList = before ++ text ++ after ∧ text ≠ [] ∧
      t.span = ⟨Text.byteLength before, Text.byteLength (before ++ text)⟩ ∧
      Lexer.Spelled (.afterAll .normal (earlier.map (·.lexeme))) t.lexeme text after
  /-- A token starts where those before it have ended, or behind. -/
  increasing : ts.Pairwise fun t u => t.span.stop ≤ u.span.start
  /-- A character at a place that no span covers is blank. -/
  blank : ∀ before c after, s.toList = before ++ c :: after →
    (∀ t ∈ ts, Text.byteLength before < t.span.start ∨ t.span.stop ≤ Text.byteLength before) →
      Text.isBlank c = true

/-- **The tokens of a text tile it**, and a lexer that is asked time and again answers with
them one by one, and then with none, however often it is asked. -/
theorem tokenize_tiling (s : String) :
    Tiling s (tokenize s) ∧
      ∀ n, (Lexer.ofChars s.toList).answer n = (tokenize s)[n]? := by
  have h : Lexer.Tiles [] .normal s.toList (tokenize s) :=
    Lexer.tiles_tokens (Lexer.ofChars s.toList) rfl
  refine ⟨⟨?_, ?_, h.pairwise_stop_le_start, ?_⟩, fun n => Lexer.answer_eq_getElem? _ n⟩
  · rw [← String.length_toList]
    exact h.length_le
  · intro earlier t later hts
    rw [hts] at h
    obtain ⟨before, text, after, heq, hspan, hspelled⟩ := h.exists_spelled
    exact ⟨before, text, after, heq, hspelled.ne_nil, hspan, hspelled⟩
  · intro before c after heq houtside
    exact h.isBlank_of_outside heq houtside

end NestedFilter
