import NestedFilter.Proofs.Lexemes
import NestedFilter.Proofs.Trimming
import NestedFilter.Request

/-!
# What specifies a sort order

A text specifies a sort order if it is, but for blanks around it, a word with at most one sign
in front (`NestedFilter.SortSpec.Specifies`); what is written between two signs, or between a
sign and the word, is no part of a word and spoils it. Exactly these texts are read
(`NestedFilter.SortSpec.ofText_eq_ok_iff`), and of any other the error shows the whole text, with
the blanks around it (`NestedFilter.SortSpec.ofText_eq_error_iff`).

The sign is taken off before anything is known of what stands behind it, so `+` alone, or two
signs in a row, are only found out by what is left. It is a word or it is not, and a word starts
with no sign (`NestedFilter.SortSpec.splitSign_word`); hence there is one way at most in which a
text can be read (`NestedFilter.SortSpec.signed_iff`). Words are those of filters, but here the
keywords are words like any other.

Descending order is written with its sign and ascending order with none. So the text of a sort
order is a normal form of what specifies it: it is read as that sort order
(`NestedFilter.SortSpec.ofText_toText`), and to read and write it once more changes nothing. A
sort order that was put together by hand has a text too, though one that is not read if the field
is no word.
-/

namespace NestedFilter

/-- The text is a word: there are characters in it, and all of them are those of words. -/
structure IsWord (name : String) : Prop where
  /-- There is a character in it. -/
  ne_empty : name ≠ ""
  /-- All its characters are those of words. -/
  word : ∀ c ∈ name.toList, Lexer.isWordChar c = true

theorem isWord_ofList_iff {name : List Char} :
    IsWord (String.ofList name) ↔ (!name.isEmpty && name.all Lexer.isWordChar) = true := by
  rw [Bool.and_eq_true, Bool.not_eq_true', List.isEmpty_eq_false_iff, List.all_eq_true]
  constructor
  · rintro ⟨hne, hword⟩
    exact ⟨by simpa using hne, by simpa using hword⟩
  · rintro ⟨hne, hword⟩
    exact ⟨by simpa using hne, by simpa using hword⟩

namespace SortSpec

/-- A word with at most one sign in front, and the sort order that it stands for. -/
inductive Signed : List Char → SortSpec → Prop
  /-- No sign: the smallest first. -/
  | unsigned {name : String} (h : IsWord name) : Signed name.toList ⟨name, .ascending⟩
  /-- A plus changes nothing. -/
  | plus {name : String} (h : IsWord name) : Signed ('+' :: name.toList) ⟨name, .ascending⟩
  /-- A minus: the greatest first. -/
  | minus {name : String} (h : IsWord name) : Signed ('-' :: name.toList) ⟨name, .descending⟩

/-- **The text specifies the sort order**: it is a word with at most one sign in front, with
blanks around it perhaps. -/
def Specifies (s : String) (spec : SortSpec) : Prop :=
  ∃ body, Text.Trims s.toList body ∧ Signed body spec

variable {s : String} {spec : SortSpec} {cs : List Char}

/-! ### Signs -/

/-- A word starts with no sign. -/
theorem splitSign_word (h : IsWord s) : splitSign s.toList = (.ascending, s.toList) := by
  unfold splitSign
  split
  case h_1 heq =>
    exact absurd (h.word '-' (by simp [heq])) (by decide)
  case h_2 heq =>
    exact absurd (h.word '+' (by simp [heq])) (by decide)
  case h_3 => rfl

/-- The sign tells the direction, and what stands behind it has to be a word. -/
theorem signed_iff :
    Signed cs spec ↔ IsWord spec.field ∧ splitSign cs = (spec.order, spec.field.toList) := by
  constructor
  · intro h
    cases h with
    | unsigned h => exact ⟨h, splitSign_word h⟩
    | plus h => exact ⟨h, rfl⟩
    | minus h => exact ⟨h, rfl⟩
  · obtain ⟨name, order⟩ := spec
    rintro ⟨hword, hsplit⟩
    unfold splitSign at hsplit
    split at hsplit
    all_goals
      obtain ⟨rfl, rfl⟩ := Prod.mk.inj hsplit
    · exact .minus hword
    · exact .plus hword
    · exact .unsigned hword

/-- There is no blank in a word and its sign. -/
theorem Signed.not_isBlank (h : Signed cs spec) : ∀ c ∈ cs, Text.isBlank c = false := by
  have hword {name : String} (h : IsWord name) : ∀ c ∈ name.toList, Text.isBlank c = false :=
    fun c hc => Lexer.isBlank_of_isWordChar (h.word c hc)
  cases h with
  | unsigned h => exact hword h
  | plus h => exact List.forall_mem_cons.2 ⟨rfl, hword h⟩
  | minus h => exact List.forall_mem_cons.2 ⟨rfl, hword h⟩

/-! ### Reading -/

theorem specifies_iff : Specifies s spec ↔ Signed (Text.trim s.toList) spec := by
  simp only [Specifies, ← Text.trim_eq_iff, exists_eq_left']

theorem parse?_eq_some_iff : parse? s = some spec ↔ Specifies s spec := by
  rw [specifies_iff, signed_iff, parse?]
  obtain ⟨order, name⟩ := splitSign (Text.trim s.toList)
  dsimp only
  rw [Prod.mk.injEq]
  constructor
  · intro h
    split at h
    · next hword =>
      obtain rfl := Option.some.inj h
      exact ⟨isWord_ofList_iff.2 hword, rfl, String.toList_ofList.symm⟩
    · exact absurd h (by simp)
  · rintro ⟨hword, rfl, rfl⟩
    rw [String.ofList_toList, if_pos]
    rwa [← isWord_ofList_iff, String.ofList_toList]

/-- **Just what specifies a sort order is read as it.** -/
theorem ofText_eq_ok_iff : ofText s = .ok spec ↔ Specifies s spec := by
  rw [← parse?_eq_some_iff, ofText]
  cases parse? s <;> simp

/-- **Any other text is refused**, and shown as it stands. -/
theorem ofText_eq_error_iff {e : RequestError} :
    ofText s = .error e ↔ e = .invalidSort s ∧ ¬∃ spec, Specifies s spec := by
  simp only [← parse?_eq_some_iff, ofText]
  cases parse? s <;> simp [eq_comm]

/-! ### Writing -/

/-- A text that is read names a word. -/
theorem Specifies.isWord (h : Specifies s spec) : IsWord spec.field :=
  (signed_iff.1 (specifies_iff.1 h)).1

theorem signed_toText (h : IsWord spec.field) : Signed spec.toText.toList spec := by
  obtain ⟨name, order⟩ := spec
  cases order with
  | ascending => exact .unsigned h
  | descending =>
    have htext : (toText ⟨name, .descending⟩).toList = '-' :: name.toList := String.toList_append
    rw [htext]
    exact .minus h

/-- **The text of a sort order specifies it.** -/
theorem ofText_toText (h : IsWord spec.field) : ofText spec.toText = .ok spec := by
  have hsigned := signed_toText h
  have htrim : Text.trim spec.toText.toList = spec.toText.toList :=
    Text.trim_eq_self (fun c hc => hsigned.not_isBlank c (List.mem_of_mem_head? hc))
      (fun c hc => hsigned.not_isBlank c (List.mem_of_mem_getLast? hc))
  rw [ofText_eq_ok_iff, specifies_iff, htrim]
  exact hsigned

/-- **Sort orders are read from what specifies them and written back.** Just the texts that are,
but for blanks around them, a word with at most one sign in front are read, and as what they
specify; any other is refused, and shown as it stands. The field of a sort order that is read is
a word. The text of every sort order whose field is a word is read as that sort order. So reading
and writing a text leads to a normal form, which reading and writing leaves as it is. -/
theorem ofText_reads_signed :
    (∀ s spec, ofText s = .ok spec ↔ Specifies s spec) ∧
    (∀ s e, ofText s = .error e ↔ e = .invalidSort s ∧ ¬∃ spec, Specifies s spec) ∧
    (∀ s spec, ofText s = .ok spec → IsWord spec.field) ∧
    (∀ spec : SortSpec, IsWord spec.field → ofText spec.toText = .ok spec) ∧
    ∀ s normal, (ofText s).map toText = .ok normal → (ofText normal).map toText = .ok normal := by
  refine ⟨fun s spec => ofText_eq_ok_iff, fun s e => ofText_eq_error_iff, fun s spec h => ?_,
    fun spec h => ofText_toText h, fun s normal h => ?_⟩
  · exact (ofText_eq_ok_iff.1 h).isWord
  · cases hspec : ofText s with
    | error e => simp [hspec, Except.map] at h
    | ok spec =>
      obtain rfl : spec.toText = normal := by simpa [hspec, Except.map] using h
      rw [ofText_toText (ofText_eq_ok_iff.1 hspec).isWord]
      rfl

/-- A word may be a keyword of filters, and the blanks around it of any kind. -/
theorem ofText_reads_signed_keyword :
    ofText "\u3000-not_in\t" = .ok ⟨"not_in", .descending⟩ ∧ IsWord "not_in" ∧
      ofText (toText ⟨"not_in", .descending⟩) = .ok ⟨"not_in", .descending⟩ := by
  have h : ofText "\u3000-not_in\t" = .ok ⟨"not_in", .descending⟩ := by rfl
  obtain ⟨-, -, hword, hround, -⟩ := ofText_reads_signed
  exact ⟨h, hword _ _ h, hround _ (hword _ _ h)⟩

/-- Neither a second sign nor a blank behind the sign is part of a word. -/
example : ofText "+-a" = .error (.invalidSort "+-a") ∧
    ofText " - a" = .error (.invalidSort " - a") := by
  decide

end SortSpec

end NestedFilter
