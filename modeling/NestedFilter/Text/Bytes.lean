/-!
# Places counted in bytes

Places in a text are counted in the bytes of its UTF-8 form, while the text itself is a list
of characters. A place lies between two characters or it cuts one:
`NestedFilter.Text.splitBytes?` cuts a text at the places of the first kind, and only there
(`NestedFilter.Text.splitBytes?_eq_some_iff`).
-/

namespace NestedFilter

namespace Text

/-- The number of bytes that characters take in UTF-8. -/
def byteLength (cs : List Char) : Nat :=
  cs.foldr (fun c n => c.utf8Size + n) 0

@[simp] theorem byteLength_nil : byteLength [] = 0 := rfl

@[simp] theorem byteLength_cons (c : Char) (cs : List Char) :
    byteLength (c :: cs) = c.utf8Size + byteLength cs := rfl

theorem byteLength_append (cs ds : List Char) :
    byteLength (cs ++ ds) = byteLength cs + byteLength ds := by
  induction cs with
  | nil => simp
  | cons c cs ih => rw [List.cons_append, byteLength_cons, byteLength_cons, ih, Nat.add_assoc]

/-- Cut a text behind so many bytes; `none` if this cuts a character, or if there are not so
many. -/
def splitBytes? : List Char → Nat → Option (List Char × List Char)
  | cs, 0 => some ([], cs)
  | [], _ + 1 => none
  | c :: cs, n + 1 =>
    if c.utf8Size ≤ n + 1 then
      (splitBytes? cs (n + 1 - c.utf8Size)).map fun (first, rest) => (c :: first, rest)
    else none

/-- **The two parts are the text, and the first has the bytes that were asked for.** -/
theorem splitBytes?_eq_some_iff {cs first rest : List Char} {n : Nat} :
    splitBytes? cs n = some (first, rest) ↔ cs = first ++ rest ∧ byteLength first = n := by
  induction cs, n using splitBytes?.induct generalizing first with
  | case1 cs =>
    cases first with
    | nil => simp [splitBytes?, eq_comm]
    | cons c first =>
      have := c.utf8Size_pos
      simp only [splitBytes?, byteLength_cons]
      grind
  | case2 n => cases first <;> simp [splitBytes?]
  | case3 c cs n hle ih =>
    cases first with
    | nil => simp [splitBytes?, hle]
    | cons d first =>
      have := d.utf8Size_pos
      simp only [splitBytes?, hle, if_true, byteLength_cons, Option.map_eq_some_iff]
      grind
  | case4 c cs n hlt =>
    cases first with
    | nil => simp [splitBytes?, hlt]
    | cons d first =>
      simp only [splitBytes?, hlt, if_false, byteLength_cons]
      grind

end Text

end NestedFilter
