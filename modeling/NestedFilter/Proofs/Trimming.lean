import Mathlib.Data.List.TakeWhile
import NestedFilter.Text.Blank

/-!
# Texts without the blanks around them

What `NestedFilter.Text.trim` leaves of a text is said without the function by
`NestedFilter.Text.Trims`: the text is that with blanks around it, and it has none at its own
ends. There is just one such part of a text (`NestedFilter.Text.trim_eq_iff`), so it is of no
consequence how it is found, and a text that has been freed of blanks once has none to lose
(`NestedFilter.Text.trim_trim`). Nothing is left exactly of the texts that are blank all over
(`NestedFilter.Text.trim_eq_nil_iff`).

The function cuts off the start first and then the end. That the second cut does not spoil the
first is not seen from the two by themselves: what is left after the end has been cut off may be
nothing, or else it starts as before (`NestedFilter.Text.trims_trim`). From there on only the
property is used. What is cut off in front is all the blanks that the text starts with, which is
needed where places are counted (`NestedFilter.Text.exists_trailing`).
-/

namespace NestedFilter

namespace Text

/-! ### Where a list is cut -/

section Cut

variable {α : Type} {p : α → Bool}

/-- What is kept of a list does not end in what is cut off. -/
theorem not_of_mem_getLast?_splitTrailing {xs : List α} {x : α}
    (hx : x ∈ (splitTrailing p xs).1.getLast?) : p x = false := by
  induction xs with
  | nil => simp at hx
  | cons y ys ih =>
    rw [splitTrailing_cons] at hx
    split at hx
    · simp at hx
    · next hcut =>
      cases hkept : (splitTrailing p ys).1 with
      | nil =>
        -- The first member was kept although nothing behind it was, so it is not cut off.
        rw [hkept] at hx hcut
        obtain rfl : y = x := by simpa using hx
        simpa using hcut
      | cons z zs =>
        rw [hkept] at hx ih
        exact ih (by simpa [List.getLast?_cons_cons] using hx)

/-- A list whose tail satisfies `p`, and no more of it than the tail, is cut there. -/
theorem splitTrailing_eq {kept tail : List α}
    (hlast : ∀ x ∈ kept.getLast?, p x = false) (htail : ∀ x ∈ tail, p x = true) :
    splitTrailing p (kept ++ tail) = (kept, tail) := by
  have hall : splitTrailing p tail = ([], tail) := by
    induction tail with
    | nil => rfl
    | cons x tail ih =>
      obtain ⟨hx, htail⟩ := List.forall_mem_cons.1 htail
      rw [splitTrailing_cons, ih htail]
      simp [hx]
  induction kept with
  | nil => exact hall
  | cons x kept ih =>
    cases kept with
    | nil =>
      have hx : p x = false := hlast x rfl
      rw [List.cons_append, List.nil_append, splitTrailing_cons, hall]
      simp [hx]
    | cons y kept =>
      rw [List.cons_append, splitTrailing_cons, ih (by simpa using hlast)]
      simp

end Cut

/-! ### What is left of a text -/

/-- The text `cs` is `body` with blanks around it, all the blanks that there are. -/
structure Trims (cs body : List Char) : Prop where
  /-- There are only blanks around it, if anything. -/
  around : ∃ leading trailing, cs = leading ++ body ++ trailing ∧
    (∀ c ∈ leading, isBlank c = true) ∧ ∀ c ∈ trailing, isBlank c = true
  /-- It does not start with a blank. -/
  head : ∀ c ∈ body.head?, isBlank c = false
  /-- It does not end in a blank. -/
  last : ∀ c ∈ body.getLast?, isBlank c = false

variable {cs body : List Char}

/-- What is cut off at the start are all the blanks that a text starts with, and at the end there
are only blanks cut off. -/
theorem exists_trailing (cs : List Char) : ∃ trailing,
    cs = cs.takeWhile isBlank ++ trim cs ++ trailing ∧ ∀ c ∈ trailing, isBlank c = true := by
  refine ⟨(splitTrailing isBlank (cs.dropWhile isBlank)).2, ?_,
    List.all_eq_true.1 (all_splitTrailing_snd _ _)⟩
  rw [List.append_assoc, trim, trimEnd, splitTrailing_append, List.takeWhile_append_dropWhile]

theorem trims_trim (cs : List Char) : Trims cs (trim cs) where
  around := by
    obtain ⟨trailing, hsplit, htrailing⟩ := exists_trailing cs
    exact ⟨_, trailing, hsplit, fun c hc => List.mem_takeWhile_imp hc, htrailing⟩
  head := by
    intro c hc
    -- The text that is left starts as it does before its end is cut off.
    have hkept : (splitTrailing isBlank (cs.dropWhile isBlank)).1.head? = some c := hc
    have hfirst := List.head?_dropWhile_not isBlank cs
    rw [← splitTrailing_append isBlank (cs.dropWhile isBlank), List.head?_append, hkept] at hfirst
    simpa using hfirst
  last := fun _ hc => not_of_mem_getLast?_splitTrailing hc

theorem Trims.trim_eq (h : Trims cs body) : trim cs = body := by
  obtain ⟨leading, trailing, rfl, hleading, htrailing⟩ := h.around
  rw [trim, List.append_assoc, List.dropWhile_append_of_pos hleading]
  cases body with
  | nil => rw [List.nil_append, List.dropWhile_eq_nil_iff.2 htrailing]; rfl
  | cons c cs =>
    have hc : ¬isBlank c = true := by simp [h.head c rfl]
    rw [List.cons_append, List.dropWhile_cons_of_neg hc, ← List.cons_append, trimEnd,
      splitTrailing_eq h.last htrailing]

/-- **What is left is the part that has blanks around it and none at its ends.** -/
theorem trim_eq_iff : trim cs = body ↔ Trims cs body :=
  ⟨fun h => h ▸ trims_trim cs, Trims.trim_eq⟩

/-- A text without blanks at its ends is left as it is. -/
theorem trim_eq_self (hhead : ∀ c ∈ cs.head?, isBlank c = false)
    (hlast : ∀ c ∈ cs.getLast?, isBlank c = false) : trim cs = cs :=
  trim_eq_iff.2 ⟨⟨[], [], by simp, by simp, by simp⟩, hhead, hlast⟩

/-- What is left has nothing to lose. -/
theorem trim_trim (cs : List Char) : trim (trim cs) = trim cs :=
  trim_eq_self (trims_trim cs).head (trims_trim cs).last

/-- Nothing is left of a text that is blank all over, and of no other. -/
theorem trim_eq_nil_iff : trim cs = [] ↔ ∀ c ∈ cs, isBlank c = true := by
  rw [trim_eq_iff]
  constructor
  · intro h
    obtain ⟨leading, trailing, rfl, hleading, htrailing⟩ := h.around
    simpa using List.forall_mem_append.2 ⟨hleading, htrailing⟩
  · intro hblank
    exact ⟨⟨cs, [], by simp, hblank, by simp⟩, by simp, by simp⟩

end Text

/-- There is nothing but blanks in the text, if there is anything. -/
def IsBlank (s : String) : Prop :=
  ∀ c ∈ s.toList, Text.isBlank c = true

theorem toList_trimmed (s : String) : (trimmed s).toList = Text.trim s.toList :=
  String.toList_ofList

theorem trimmed_eq_empty_iff {s : String} : trimmed s = "" ↔ IsBlank s := by
  rw [← String.toList_eq_nil_iff, toList_trimmed, Text.trim_eq_nil_iff, IsBlank]

/-- A text that was freed of blanks stays as it is. -/
theorem trimmed_ofList_trim (cs : List Char) :
    trimmed (String.ofList (Text.trim cs)) = String.ofList (Text.trim cs) := by
  rw [trimmed, String.toList_ofList, Text.trim_trim]

end NestedFilter
