/-!
# Blanks

White space, and how a text is freed of it at its ends. `NestedFilter.Text.isBlank` is
Unicode's property `White_Space`; `NestedFilter.Text.splitTrailing` cuts a text in front
of its trailing blanks and loses nothing
(`NestedFilter.Text.splitTrailing_append`).
-/

namespace NestedFilter

namespace Text

/-- White space: the characters with Unicode's property `White_Space`. -/
def isBlank (c : Char) : Bool :=
  let n := c.toNat
  (0x09 ≤ n && n ≤ 0x0D) || n == 0x20 || n == 0x85 || n == 0xA0 || n == 0x1680 ||
    (0x2000 ≤ n && n ≤ 0x200A) || n == 0x2028 || n == 0x2029 || n == 0x202F ||
    n == 0x205F || n == 0x3000

/-! ### Cutting off what trails -/

/-- Cut a list in two in front of the longest tail whose members all satisfy `p`. -/
def splitTrailing {α : Type} (p : α → Bool) (xs : List α) : List α × List α :=
  xs.foldr (fun x (kept, tail) =>
    if kept.isEmpty && p x then ([], x :: tail) else (x :: kept, tail)) ([], [])

@[simp] theorem splitTrailing_nil {α : Type} (p : α → Bool) :
    splitTrailing p [] = ([], []) := rfl

theorem splitTrailing_cons {α : Type} (p : α → Bool) (x : α) (xs : List α) :
    splitTrailing p (x :: xs) =
      if (splitTrailing p xs).1.isEmpty && p x then ([], x :: (splitTrailing p xs).2)
      else (x :: (splitTrailing p xs).1, (splitTrailing p xs).2) := rfl

/-- Nothing is lost by the cut. -/
theorem splitTrailing_append {α : Type} (p : α → Bool) (xs : List α) :
    (splitTrailing p xs).1 ++ (splitTrailing p xs).2 = xs := by
  induction xs with
  | nil => rfl
  | cons x xs ih =>
    rw [splitTrailing_cons]
    split
    · next h =>
      have hnil : (splitTrailing p xs).1 = [] := by simp_all
      rw [hnil, List.nil_append] at ih
      simp [ih]
    · simp [ih]

/-- What is cut off satisfies `p`. -/
theorem all_splitTrailing_snd {α : Type} (p : α → Bool) (xs : List α) :
    (splitTrailing p xs).2.all p = true := by
  induction xs with
  | nil => rfl
  | cons x xs ih =>
    rw [splitTrailing_cons]
    split
    · next h => simp_all
    · exact ih

/-! ### Trimming -/

/-- The text without its trailing blanks. -/
def trimEnd (cs : List Char) : List Char :=
  (splitTrailing isBlank cs).1

/-- The text without the blanks at either end. -/
def trim (cs : List Char) : List Char :=
  trimEnd (cs.dropWhile isBlank)

end Text

/-- A text without the blanks at either end. -/
def trimmed (s : String) : String :=
  String.ofList (Text.trim s.toList)

end NestedFilter
