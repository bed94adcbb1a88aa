/-!
# Ranges of characters

A property of characters given as a table of closed ranges of code points, as the
standard lists it, and the test that reads such a table. The tables themselves stand
beside the properties: `NestedFilter.Text.isGraphic`, `NestedFilter.Text.extendsGrapheme`
and `NestedFilter.Text.BreakClass.ofChar`.
-/

namespace NestedFilter

namespace Text

/-- Some range of the table holds the code point of the character. -/
def inRanges (table : Array (Nat × Nat)) (c : Char) : Bool :=
  table.any fun (first, last) => first ≤ c.toNat && c.toNat ≤ last

end Text

end NestedFilter
