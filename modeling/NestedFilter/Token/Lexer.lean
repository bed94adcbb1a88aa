import NestedFilter.Text.Blank
import NestedFilter.Text.Bytes
import NestedFilter.Token

/-!
# From a text to tokens

What a stretch of text means depends on what stands before it: after a comparison sign
comes a value, after `in` or `not_in` a bracket that opens a list, and between the
brackets values and commas; everywhere else words are fields or keywords. The lexer
therefore has four modes (`NestedFilter.Lexer.Mode`), and the lexeme just read decides
the next one (`NestedFilter.Lexer.Mode.after`).

In each mode one function looks at the rest of the text and cuts a piece off
(`NestedFilter.Lexer.Piece`): the characters of the token, the blanks behind it that
were read with it, and what is left. Pieces lose nothing
(`NestedFilter.Lexer.scan_split`) and are never empty, so `NestedFilter.Lexer.tokens`
ends. A character that fits nowhere is a token as well, and reading goes on behind it.
-/

namespace NestedFilter

namespace Lexer

/-! ### Classes of characters -/

/-- The characters of fields and keywords. -/
def isWordChar (c : Char) : Bool :=
  c.isAlphanum || c == '_' || c == '.'

/-- The characters of a value outside lists that stands without quotes. -/
def isValueChar (c : Char) : Bool :=
  c.isAlphanum || " _-%.:\\*?+\x7b\x7d[]".toList.contains c

/-- The characters of a value in a list that stands without quotes. -/
def isItemChar (c : Char) : Bool :=
  c.isAlphanum || "_.-: ".toList.contains c

/-! ### Fixed spellings -/

/-- The signs and what they are. Of two signs that start alike the longer is listed
first, so that the first sign a text starts with is the longest. -/
def signs : List (List Char × Lexeme) :=
  [("=~".toList, .comparison .matching), ("!=".toList, .comparison .notEqual),
    ("<=".toList, .comparison .lessOrEqual), (">=".toList, .comparison .greaterOrEqual),
    ("=".toList, .comparison .equal), ("<".toList, .comparison .less),
    (">".toList, .comparison .greater), ("(".toList, .lparen), (")".toList, .rparen),
    ("[".toList, .lbracket), ("]".toList, .rbracket), (",".toList, .comma)]

/-- The words that are no fields, and what they are. Case matters. -/
def keywords : List (List Char × Lexeme) :=
  [("and".toList, .connective .and), ("or".toList, .connective .or),
    ("in".toList, .membership .isIn), ("not_in".toList, .membership .notIn)]

/-- What a word is: a keyword, or else a field. It is looked at as a whole. -/
def ofWord (word : List Char) : Lexeme :=
  (keywords.lookup word).getD (.field (String.ofList word))

/-! ### Pieces -/

/-- A piece cut off the front of a text. -/
structure Piece where
  /-- What was read. -/
  lexeme : Lexeme
  /-- The characters of the token. -/
  text : List Char
  /-- Blanks behind the token that were read with it and belong to none. -/
  blanks : List Char
  /-- What is left of the text. -/
  rest : List Char
deriving Inhabited

/-- A value without quotes: the longest run of the characters in `accept`, less the
blanks at its end. -/
def scanRun (accept : Char → Bool) (cs : List Char) : Piece :=
  let (text, blanks) := Text.splitTrailing Text.isBlank (cs.takeWhile accept)
  ⟨.value (String.ofList text), text, blanks, cs.dropWhile accept⟩

/-- A value whose opening quote has been read: everything up to the next quote, without
escapes. A value that is never closed is illegal as a whole. -/
def scanQuoted (cs : List Char) : Piece :=
  let content := cs.takeWhile (· != '\x27')
  match cs.dropWhile (· != '\x27') with
  | [] => ⟨.illegal, '\x27' :: content, [], []⟩
  | quote :: rest =>
    ⟨.value (String.ofList content), '\x27' :: content ++ [quote], [], rest⟩

/-- A sign, a keyword, a field, or a character that is none of these. -/
def scanNormal (cs : List Char) : Option Piece :=
  match signs.find? (·.1.isPrefixOf cs) with
  | some (sign, lexeme) => some ⟨lexeme, sign, [], cs.drop sign.length⟩
  | none =>
    match cs with
    | [] => none
    | c :: rest =>
      if isWordChar c then
        some ⟨ofWord (cs.takeWhile isWordChar), cs.takeWhile isWordChar, [],
          cs.dropWhile isWordChar⟩
      else some ⟨.illegal, [c], [], rest⟩

/-- The value behind a comparison sign. What cannot start a value is read as everywhere
else. -/
def scanValue (cs : List Char) : Option Piece :=
  match cs with
  | [] => none
  | c :: rest =>
    if c = '\x27' then some (scanQuoted rest)
    else if isValueChar c then some (scanRun isValueChar cs)
    else scanNormal cs

/-- A value in a list, the comma behind it, or the bracket that closes the list. -/
def scanItem (cs : List Char) : Option Piece :=
  match cs with
  | [] => none
  | c :: rest =>
    if c = ',' then some ⟨.comma, [c], [], rest⟩
    else if c = ']' then some ⟨.rbracket, [c], [], rest⟩
    else if c = '\x27' then some (scanQuoted rest)
    else if isItemChar c then some (scanRun isItemChar cs)
    else some ⟨.illegal, [c], [], rest⟩

/-! ### Modes -/

/-- What the lexer expects. -/
inductive Mode where
  /-- Fields, keywords and signs. -/
  | normal
  /-- The value behind a comparison sign. -/
  | value
  /-- The bracket behind `in` or `not_in`. -/
  | listStart
  /-- What stands between brackets. -/
  | list
deriving DecidableEq, Repr, Inhabited

/-- Cut the next piece off a text that starts with no blank. Behind `in` or `not_in` the text is
read as everywhere, though the bracket there has a meaning of its own. -/
def scan : Mode → List Char → Option Piece
  | .normal => scanNormal
  | .value => scanValue
  | .listStart => scanNormal
  | .list => scanItem

/-- The mode behind a lexeme. Only a bracket right behind `in` or `not_in` opens a list,
and in its place an operator does not count as one. -/
def Mode.after : Mode → Lexeme → Mode
  | .listStart, lexeme => if lexeme = .lbracket then .list else .normal
  | .list, lexeme => if lexeme = .rbracket then .normal else .list
  | _, .comparison _ => .value
  | _, .membership _ => .listStart
  | _, _ => .normal

/-! ### Pieces lose nothing -/

theorem scanRun_split (accept : Char → Bool) (cs : List Char) :
    (scanRun accept cs).text ++ (scanRun accept cs).blanks ++ (scanRun accept cs).rest = cs := by
  simp only [scanRun, Text.splitTrailing_append, List.takeWhile_append_dropWhile]

theorem scanQuoted_split (cs : List Char) :
    (scanQuoted cs).text ++ (scanQuoted cs).blanks ++ (scanQuoted cs).rest = '\x27' :: cs := by
  have h := List.takeWhile_append_dropWhile (p := (· != '\x27')) (l := cs)
  unfold scanQuoted
  split
  · next hd => simpa [hd] using h
  · next hd => simpa [hd] using h

theorem isPrefixOf_of_find?_signs {cs sign : List Char} {lexeme : Lexeme}
    (h : signs.find? (·.1.isPrefixOf cs) = some (sign, lexeme)) : sign <+: cs := by
  have := List.find?_some h
  exact List.isPrefixOf_iff_prefix.1 this

theorem scanNormal_split {cs : List Char} {p : Piece} (h : scanNormal cs = some p) :
    p.text ++ p.blanks ++ p.rest = cs := by
  unfold scanNormal at h
  split at h
  · next sign lexeme hf =>
    obtain ⟨tail, rfl⟩ := isPrefixOf_of_find?_signs hf
    obtain rfl := Option.some.inj h
    simp
  · split at h
    · exact absurd h (by simp)
    · split at h <;> obtain rfl := Option.some.inj h
      · simp [List.takeWhile_append_dropWhile]
      · simp

/-- **Nothing is lost**: a piece and what is left of the text make up the text. -/
theorem scan_split {m : Mode} {cs : List Char} {p : Piece} (h : scan m cs = some p) :
    p.text ++ p.blanks ++ p.rest = cs := by
  cases m with
  | normal => exact scanNormal_split h
  | listStart => exact scanNormal_split h
  | value =>
    simp only [scan, scanValue] at h
    split at h
    · exact absurd h (by simp)
    · split at h
      · next hc => obtain rfl := Option.some.inj h; rw [scanQuoted_split, hc]
      · split at h
        · obtain rfl := Option.some.inj h; exact scanRun_split _ _
        · exact scanNormal_split h
  | list =>
    simp only [scan, scanItem] at h
    split at h
    · exact absurd h (by simp)
    · repeat' split at h
      all_goals obtain rfl := Option.some.inj h
      · simp
      · simp
      · next hc => rw [scanQuoted_split, hc]
      · exact scanRun_split _ _
      · simp

/-! ### Pieces are not empty -/

theorem length_dropWhile_lt {p : Char → Bool} {c : Char} {cs : List Char} (h : p c = true) :
    ((c :: cs).dropWhile p).length < (c :: cs).length := by
  rw [List.dropWhile_cons_of_pos h]
  exact Nat.lt_succ_of_le (List.dropWhile_sublist p).length_le

theorem signs_ne_nil : ∀ sign ∈ signs, sign.1 ≠ [] := by decide

theorem scanQuoted_rest_length_lt (cs : List Char) :
    (scanQuoted cs).rest.length < ('\x27' :: cs).length := by
  have h := congrArg List.length (scanQuoted_split cs)
  have hpos : 0 < (scanQuoted cs).text.length := by
    unfold scanQuoted
    split <;> simp
  simp only [List.length_append] at h
  omega

theorem scanNormal_rest_length_lt {cs : List Char} {p : Piece} (h : scanNormal cs = some p) :
    p.rest.length < cs.length := by
  unfold scanNormal at h
  split at h
  · next sign lexeme hf =>
    have hne := signs_ne_nil _ (List.mem_of_find?_eq_some hf)
    obtain ⟨tail, rfl⟩ := isPrefixOf_of_find?_signs hf
    obtain rfl := Option.some.inj h
    have := List.length_pos_iff.2 hne
    simp at this ⊢
    omega
  · split at h
    · exact absurd h (by simp)
    · split at h
      · next hc => obtain rfl := Option.some.inj h; exact length_dropWhile_lt hc
      · obtain rfl := Option.some.inj h; simp

/-- What is left behind a piece is shorter than the text, so that reading comes to an end. -/
theorem scan_rest_length_lt {m : Mode} {cs : List Char} {p : Piece} (h : scan m cs = some p) :
    p.rest.length < cs.length := by
  cases m with
  | normal => exact scanNormal_rest_length_lt h
  | listStart => exact scanNormal_rest_length_lt h
  | value =>
    simp only [scan, scanValue] at h
    split at h
    · exact absurd h (by simp)
    · split at h
      · next hc =>
        obtain rfl := Option.some.inj h
        rw [hc]
        exact scanQuoted_rest_length_lt _
      · split at h
        · next hc => obtain rfl := Option.some.inj h; exact length_dropWhile_lt hc
        · exact scanNormal_rest_length_lt h
  | list =>
    simp only [scan, scanItem] at h
    split at h
    · exact absurd h (by simp)
    · repeat' split at h
      all_goals obtain rfl := Option.some.inj h
      · simp
      · simp
      · next hc => rw [hc]; exact scanQuoted_rest_length_lt _
      · next hc => exact length_dropWhile_lt hc
      · simp

end Lexer

/-! ### The lexer -/

/-- A lexer part way through a text. -/
structure Lexer where
  /-- What is left of the text. -/
  rest : List Char
  /-- The offset, in bytes, of what is left. -/
  offset : Nat
  /-- What is expected there. -/
  mode : Lexer.Mode
deriving Repr, Inhabited

namespace Lexer

/-- A lexer at the start of a text. -/
def ofChars (cs : List Char) : Lexer :=
  ⟨cs, 0, .normal⟩

/-- The next token, which starts at the first character that is not blank, and the lexer
behind it; `none` if only blanks are left. -/
def next? (s : Lexer) : Option (Token × Lexer) :=
  let start := s.offset + Text.byteLength (s.rest.takeWhile Text.isBlank)
  (scan s.mode (s.rest.dropWhile Text.isBlank)).map fun piece =>
    let stop := start + Text.byteLength piece.text
    (⟨piece.lexeme, ⟨start, stop⟩⟩,
      ⟨piece.rest, stop + Text.byteLength piece.blanks, s.mode.after piece.lexeme⟩)

/-- A token takes at least a character. -/
theorem next?_rest_length_lt {s s' : Lexer} {t : Token} (h : s.next? = some (t, s')) :
    s'.rest.length < s.rest.length := by
  obtain ⟨piece, hscan, heq⟩ := Option.map_eq_some_iff.1 h
  have hlt := scan_rest_length_lt hscan
  have hle := (List.dropWhile_sublist Text.isBlank (l := s.rest)).length_le
  have hrest : piece.rest = s'.rest := congrArg (fun x => x.2.rest) heq
  rw [← hrest]
  exact Nat.lt_of_lt_of_le hlt hle

/-- All tokens that are left, up to the end of the text: nothing in it makes the lexer stop. -/
def tokens (s : Lexer) : List Token :=
  match _h : s.next? with
  | none => []
  | some (token, next) => token :: next.tokens
termination_by s.rest.length
decreasing_by exact next?_rest_length_lt _h

end Lexer

/-- The tokens of a text. -/
def tokenize (s : String) : List Token :=
  (Lexer.ofChars s.toList).tokens

end NestedFilter
