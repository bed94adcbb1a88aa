import NestedFilter.Proofs.Edits

/-!
# Blanks between tokens make no difference

A blank that is put into a text, of whatever kind, leaves its tokens as they are, if it stands
in none of them: those behind it are moved (`NestedFilter.Token.movedFrom`), and what is read
is the same (`NestedFilter.Filter.parse_insert_blank`). This is so although a space may be part of
a value without quotes and other blanks may not: behind a value there are only blanks before
something ends it, and a space among them does not change where it ends, as the value is freed of
the spaces at its end.

There is one exception. A quote that is never closed takes all that is left of the text, so a
blank at the end of the text becomes part of it (`NestedFilter.Lexer.LastGrows`). Its lexeme is
the same all the same, and so is what is read.

A place is inside of a token if it stands behind its start and before its end. So the blank may
stand right between two tokens that have none between them, and at both ends of the text. In
the induction the place is either before the end of the blanks that come first, where it only
moves what follows (`NestedFilter.Lexer.Lexes.insert_front`), or behind the first token, and then
this token has to be the same with the blank somewhere behind it
(`NestedFilter.Lexer.before_or_behind`).
-/

namespace NestedFilter

/-- The token once `k` more bytes stand at the offset `place`. -/
def Token.movedFrom (place k : Nat) (t : Token) : Token :=
  if place ≤ t.span.start then t.movedBy k else t

@[simp] theorem Token.movedFrom_lexeme (place k : Nat) (t : Token) :
    (t.movedFrom place k).lexeme = t.lexeme := by
  rw [movedFrom]
  split <;> rfl

namespace Lexer

variable {m : Mode} {w : Char} {before after cs text tail : List Char} {n k place : Nat}
  {ts ts' : List Token}

/-- Where the text `before`, from the offset `n` on, ends in a quote that is never closed, the
last token takes `k` more bytes. -/
def LastGrows (n : Nat) (before : List Char) (k : Nat) (ts ts' : List Token) : Prop :=
  ∃ first content earlier, before = first ++ '\x27' :: content ∧ '\x27' ∉ content ∧
    ts = earlier ++ [⟨.illegal, ⟨n + Text.byteLength first, n + Text.byteLength before⟩⟩] ∧
    ts' = earlier ++ [⟨.illegal, ⟨n + Text.byteLength first, n + Text.byteLength before + k⟩⟩]

theorem LastGrows.cons (h : LastGrows (n + Text.byteLength cs) before k ts ts') (t : Token) :
    LastGrows n (cs ++ before) k (t :: ts) (t :: ts') := by
  obtain ⟨first, content, earlier, rfl, hcontent, rfl, rfl⟩ := h
  refine ⟨cs ++ first, content, t :: earlier, by simp, hcontent, ?_, ?_⟩ <;>
    simp [Text.byteLength_append, Nat.add_assoc]

theorem LastGrows.map_lexeme_eq (h : LastGrows n before k ts ts') :
    ts'.map (·.lexeme) = ts.map (·.lexeme) := by
  obtain ⟨first, content, earlier, -, -, rfl, rfl⟩ := h
  simp

theorem Unclosed.lastGrows {leading : List Char} {t : Token} (h : Unclosed m text)
    (hillegal : t.lexeme = .illegal) (hstart : t.span.start = n + Text.byteLength leading)
    (hstop : t.span.stop = t.span.start + Text.byteLength text) (k : Nat) :
    LastGrows n (leading ++ text) k [t] [⟨.illegal, ⟨t.span.start, t.span.stop + k⟩⟩] := by
  obtain ⟨-, content, rfl, hcontent⟩ := h
  obtain ⟨x, start, stop⟩ := t
  obtain rfl : x = .illegal := hillegal
  obtain rfl : stop = start + Text.byteLength ('\x27' :: content) := hstop
  obtain rfl : start = n + Text.byteLength leading := hstart
  refine ⟨leading, content, [], rfl, hcontent, ?_, ?_⟩ <;>
    simp [Text.byteLength_append, Nat.add_assoc]

/-- A blank that is put in front of all tokens moves them all. -/
theorem Lexes.insert_front (hw : Text.isBlank w = true)
    (hbefore : ∀ c ∈ before, Text.isBlank c = true)
    (h : Lexes m (n + Text.byteLength before) cs ts) :
    Lexes m n (before ++ w :: cs)
      (ts.map (Token.movedFrom (n + Text.byteLength before) w.utf8Size)) := by
  have hmoved : ts.map (Token.movedFrom (n + Text.byteLength before) w.utf8Size) =
      ts.map (Token.movedBy w.utf8Size) :=
    List.map_congr_left fun t ht => if_pos (h.le_start t ht)
  have hlexes := h.movedBy w.utf8Size
  have hoffset : n + Text.byteLength before + w.utf8Size =
      n + Text.byteLength (before ++ [w]) := by
    rw [Text.byteLength_append, Text.byteLength_cons, Text.byteLength_nil]
    omega
  rw [hoffset] at hlexes
  rw [hmoved, List.append_cons]
  exact hlexes.blanks_append (List.forall_mem_append.2 ⟨hbefore, by simpa using hw⟩)

/-- A place that is in no token stands before it, among the blanks perhaps, or behind it. -/
theorem before_or_behind {leading : List Char} {t : Token}
    (hstart : t.span.start = n + Text.byteLength leading)
    (hstop : t.span.stop = t.span.start + Text.byteLength text)
    (hplace : ¬(t.span.start < n + Text.byteLength before ∧
      n + Text.byteLength before < t.span.stop))
    (hcs : leading ++ text ++ tail = before ++ after) :
    (∃ blanks, leading = before ++ blanks ∧ after = blanks ++ text ++ tail) ∨
      ∃ more, before = leading ++ text ++ more ∧ tail = more ++ after := by
  rcases List.append_eq_append_iff.1 hcs with ⟨more, hbefore, htail⟩ | ⟨rest, hfront, rfl⟩
  · exact .inr ⟨more, hbefore, htail⟩
  rcases List.append_eq_append_iff.1 hfront with ⟨first, rfl, rfl⟩ | ⟨blanks, rfl, rfl⟩
  · -- The place is one in the token, so it is the start or the end of it.
    rw [Text.byteLength_append] at hstop hplace
    cases first with
    | nil => exact .inl ⟨[], by simp, by simp⟩
    | cons c first =>
      cases rest with
      | nil => exact .inr ⟨[], by simp, by simp⟩
      | cons d rest =>
        have hc := c.utf8Size_pos
        have hd := d.utf8Size_pos
        simp only [Text.byteLength_cons] at hstop hplace
        omega
  · exact .inl ⟨blanks, rfl, rfl⟩

/-- **A blank outside of tokens only moves those behind it**, but for a quote at the end that is
never closed. -/
theorem Lexes.insert_blank (hw : Text.isBlank w = true) (h : Lexes m n cs ts)
    (hcs : cs = before ++ after) (hoffset : n + Text.byteLength before = place)
    (hplace : ∀ t ∈ ts, ¬(t.span.start < place ∧ place < t.span.stop)) :
    ∃ ts', Lexes m n (before ++ w :: after) ts' ∧
      (ts' = ts.map (Token.movedFrom place w.utf8Size) ∨
        after = [] ∧ LastGrows n before w.utf8Size ts ts') := by
  induction h generalizing before with
  | nil hblank =>
    rw [hcs] at hblank
    obtain ⟨hbefore, hafter⟩ := List.forall_mem_append.1 hblank
    exact ⟨[], .nil (List.forall_mem_append.2 ⟨hbefore, List.forall_mem_cons.2 ⟨hw, hafter⟩⟩),
      .inl rfl⟩
  | @cons m n t leading text tail ts hleading hstart hstop hreads hlexes ih =>
    obtain ⟨ht, hts⟩ := List.forall_mem_cons.1 hplace
    rw [← hoffset] at ht
    rcases before_or_behind hstart hstop ht hcs with
      ⟨blanks, rfl, rfl⟩ | ⟨more, rfl, rfl⟩
    · -- The blank is one of those before the token.
      obtain ⟨hbefore, hblanks⟩ := List.forall_mem_append.1 hleading
      rw [Text.byteLength_append, ← Nat.add_assoc] at hstart
      have hfront : Lexes m (n + Text.byteLength before) (blanks ++ text ++ tail) (t :: ts) :=
        .cons hblanks hstart hstop hreads hlexes
      exact ⟨_, hoffset ▸ hfront.insert_front hw hbefore, .inl rfl⟩
    rw [Text.byteLength_append, Text.byteLength_append] at hoffset
    by_cases hopen : Unclosed m text
    · -- The quote takes all there is, and the blank too.
      obtain ⟨hillegal, htail⟩ := hopen.eq_of_reads hreads
      obtain ⟨rfl, rfl⟩ := List.append_eq_nil_iff.1 htail
      obtain rfl := hlexes.eq_nil
      have hcons : Lexes m n (leading ++ (text ++ [w]) ++ [])
          [⟨.illegal, ⟨t.span.start, t.span.stop + w.utf8Size⟩⟩] := by
        have hgrown : Unclosed m (text ++ [w]) := hopen.append_blanks (by simpa using hw)
        refine .cons hleading hstart ?_ hgrown.reads (.nil (by simp))
        rw [Text.byteLength_append, Text.byteLength_cons, Text.byteLength_nil]
        simp only
        omega
      have hgrows := hopen.lastGrows hillegal hstart hstop w.utf8Size
      exact ⟨_, by simpa using hcons, .inr ⟨rfl, by simpa using hgrows⟩⟩
    · obtain ⟨ts', hlexes', hts'⟩ := ih rfl (by omega) hts
      have hreads' : Reads m t.lexeme text (more ++ w :: after) :=
        hreads.replace ((stopsAlike_cons (.inr hw) fun _ => rfl).append_left more) hopen
      have hcons : Lexes m n (leading ++ text ++ (more ++ w :: after)) (t :: ts') :=
        .cons hleading hstart hstop hreads' hlexes'
      rw [← List.append_assoc] at hcons
      refine ⟨t :: ts', hcons, ?_⟩
      rcases hts' with rfl | ⟨hafter, hgrows⟩
      · have hlt : ¬place ≤ t.span.start := by
          obtain ⟨c, cs, rfl, -⟩ := hreads.head
          have hc := c.utf8Size_pos
          rw [Text.byteLength_cons] at hoffset
          omega
        exact .inl (by rw [List.map_cons, Token.movedFrom, if_neg hlt])
      · refine .inr ⟨hafter, LastGrows.cons ?_ t⟩
        rwa [Text.byteLength_append, ← Nat.add_assoc, ← hstart, ← hstop]

end Lexer

namespace Filter

/-- **Blanks between tokens make no difference.** Let a blank be put into a text at a place that is
not inside of a token. The tokens behind the place are moved by the bytes of the blank and the
others stay as they are, or else the place is the end of the text, and the last token, a quote
that is never closed, takes the blank. In both cases the lexemes are the same, and the text is
read as the same filter or refused in the same words. -/
theorem parse_insert_blank {before after : List Char} {w : Char} (hw : Text.isBlank w = true)
    (hplace : ∀ t ∈ tokenize (String.ofList (before ++ after)),
      ¬(t.span.start < Text.byteLength before ∧ Text.byteLength before < t.span.stop)) :
    let s := String.ofList (before ++ after)
    let s' := String.ofList (before ++ w :: after)
    (tokenize s' = (tokenize s).map (Token.movedFrom (Text.byteLength before) w.utf8Size) ∨
        after = [] ∧ Lexer.LastGrows 0 before w.utf8Size (tokenize s) (tokenize s')) ∧
      (tokenize s').map (·.lexeme) = (tokenize s).map (·.lexeme) ∧
      (Filter.parse s').mapError ParseError.message =
        (Filter.parse s).mapError ParseError.message := by
  intro s s'
  have hlexes : Lexer.Lexes .normal 0 (before ++ after) (tokenize s) := Lexer.lexes_iff.2 rfl
  obtain ⟨ts', hlexes', hts'⟩ := hlexes.insert_blank hw rfl (Nat.zero_add _) hplace
  have heq : tokenize s' = ts' := Lexer.lexes_iff.1 hlexes'
  rw [heq]
  have hlexemes : ts'.map (·.lexeme) = (tokenize s).map (·.lexeme) := by
    rcases hts' with rfl | ⟨-, hgrows⟩
    · simp
    · exact hgrows.map_lexeme_eq
  exact ⟨hts', hlexemes, parse_congr (by rw [heq, hlexemes])⟩

/-- A tabulator may stand among the spaces behind a value, though not among those within. -/
theorem parse_insert_blank_tabulator :
    tokenize (String.ofList ("(a=b ".toList ++ '\t' :: " )".toList)) =
      (tokenize (String.ofList ("(a=b ".toList ++ " )".toList))).map (Token.movedFrom 5 1) :=
  (@parse_insert_blank "(a=b ".toList " )".toList '\t' (by decide)
    (by decide +kernel)).1.resolve_right (by simp)

/-- A space behind a quote that is never closed is part of the last token. -/
example : tokenize "a='b" =
      [⟨.field "a", ⟨0, 1⟩⟩, ⟨.comparison .equal, ⟨1, 2⟩⟩, ⟨.illegal, ⟨2, 4⟩⟩] ∧
    tokenize "a='b " =
      [⟨.field "a", ⟨0, 1⟩⟩, ⟨.comparison .equal, ⟨1, 2⟩⟩, ⟨.illegal, ⟨2, 5⟩⟩] := by
  decide +kernel

end Filter

end NestedFilter
