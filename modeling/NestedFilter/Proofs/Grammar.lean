import NestedFilter.Filter

/-!
# The grammar of filters

What a filter may be written as, apart from any way to read it. A chain is derived from
lexemes by the rules of `NestedFilter.Derives`: it is a condition, or a chain in
parentheses, alone or followed by a connective and the rest of the chain.

    chain     := condition | "(" chain ")" (("and" | "or") chain)?
    condition := field comparison value
               | field membership "[" value ("," value)* "]"

A chain is given by its runs, which an `or` sets apart and an `and` joins, so the rules say
which of the two binds stronger: a filter before an `and` is put in front of the first run of
what comes behind, one before an `or` is a run of its own. There is no rule for a condition
without parentheses before a connective.

How many parentheses may be open at once is an index of a derivation, as the language has a
limit for it. `NestedFilter.Derives.exists_nests` says that it bounds what can be counted in the
lexemes themselves (`NestedFilter.nestingFrom`), and that a derivation can always be had with
just as many as are counted. What is counted of lexemes is said with others behind them
(`NestedFilter.Nests`), since the count of a stretch alone does not show whether it closes all
that it opens.
-/

namespace NestedFilter

/-! ### Conditions -/

/-- The values in a list behind the first, each with the comma before it. -/
def furtherValues (values : List String) : List Lexeme :=
  values.flatMap fun value => [.comma, .value value]

@[simp] theorem furtherValues_nil : furtherValues [] = [] := rfl

@[simp] theorem furtherValues_cons (value : String) (values : List String) :
    furtherValues (value :: values) = .comma :: .value value :: furtherValues values := rfl

/-- The lexemes write the test of a field. A list has one value at least, and no comma behind the
last. -/
inductive Condition : List Lexeme → Leaf → Prop
  /-- A field, a comparison and a value. -/
  | compare (name : String) (op : Comparison) (value : String) :
      Condition [.field name, .comparison op, .value value] ⟨name, .compare op value⟩
  /-- A field, a membership test and a list of one value or more. -/
  | member (name : String) (op : Membership) (value : String) (values : List String) :
      Condition
        (.field name :: .membership op :: .lbracket :: .value value ::
          (furtherValues values ++ [.rbracket]))
        ⟨name, .member op (value :: values)⟩

theorem Condition.exists_field {ls : List Lexeme} {l : Leaf} (h : Condition ls l) :
    ∃ name ms, ls = .field name :: ms := by
  cases h <;> exact ⟨_, _, rfl⟩

/-! ### Chains -/

/-- **The rules of the grammar**: the lexemes derive a chain, given by its runs, with at most
`n` parentheses open at once. A filter in parentheses has one less to open than the chain that it
stands in, and what follows behind it has as many again. -/
inductive Derives : Nat → List Lexeme → List (List Filter) → Prop
  /-- A condition without parentheses ends a chain. -/
  | condition {n : Nat} {ls : List Lexeme} {l : Leaf} (h : Condition ls l) :
      Derives n ls [[.leaf l]]
  /-- So does a chain in parentheses. -/
  | group {n : Nat} {ls : List Lexeme} {runs : List (List Filter)} (h : Derives n ls runs) :
      Derives (n + 1) (.lparen :: (ls ++ [.rparen])) [[.ofChain runs]]
  /-- What stands before an `and` joins the first run of what stands behind it. -/
  | and {n : Nat} {ls ms : List Lexeme} {runs more : List (List Filter)} {run : List Filter}
      (h : Derives n ls runs) (hmore : Derives (n + 1) ms (run :: more)) :
      Derives (n + 1) (.lparen :: (ls ++ .rparen :: .connective .and :: ms))
        ((.ofChain runs :: run) :: more)
  /-- What stands before an `or` is a run of its own. -/
  | or {n : Nat} {ls ms : List Lexeme} {runs more : List (List Filter)}
      (h : Derives n ls runs) (hmore : Derives (n + 1) ms more) :
      Derives (n + 1) (.lparen :: (ls ++ .rparen :: .connective .or :: ms))
        ([.ofChain runs] :: more)

theorem Derives.ne_nil {n : Nat} {ls : List Lexeme} {runs : List (List Filter)}
    (h : Derives n ls runs) : runs ≠ [] := by
  cases h <;> simp

theorem Derives.lexemes_ne_nil {n : Nat} {ls : List Lexeme} {runs : List (List Filter)}
    (h : Derives n ls runs) : ls ≠ [] := by
  cases h with
  | condition h => cases h <;> simp
  | group | and | or => simp

/-- More parentheses may be allowed than are used, so the number of a derivation is a bound and not
a count. -/
theorem Derives.mono {n m : Nat} {ls : List Lexeme} {runs : List (List Filter)}
    (h : Derives n ls runs) (hnm : n ≤ m) : Derives m ls runs := by
  induction h generalizing m with
  | condition h => exact .condition h
  | group _ ih =>
    obtain ⟨m, rfl⟩ := Nat.exists_eq_add_one_of_ne_zero (Nat.ne_zero_of_lt hnm)
    exact .group (ih (Nat.le_of_succ_le_succ hnm))
  | and _ _ ih ihmore =>
    obtain ⟨m, rfl⟩ := Nat.exists_eq_add_one_of_ne_zero (Nat.ne_zero_of_lt hnm)
    exact .and (ih (Nat.le_of_succ_le_succ hnm)) (ihmore hnm)
  | or _ _ ih ihmore =>
    obtain ⟨m, rfl⟩ := Nat.exists_eq_add_one_of_ne_zero (Nat.ne_zero_of_lt hnm)
    exact .or (ih (Nat.le_of_succ_le_succ hnm)) (ihmore hnm)

/-! ### Nesting -/

/-- The greatest number of parentheses open at once, if `k` are open before. It can be counted in
any lexemes, whether they close what they open or not. -/
def nestingFrom (k : Nat) : List Lexeme → Nat
  | [] => k
  | .lparen :: ls => nestingFrom (k + 1) ls
  | .rparen :: ls => max k (nestingFrom (k - 1) ls)
  | _ :: ls => nestingFrom k ls

@[simp] theorem nestingFrom_lparen (k : Nat) (ls : List Lexeme) :
    nestingFrom k (.lparen :: ls) = nestingFrom (k + 1) ls := rfl

@[simp] theorem nestingFrom_rparen (k : Nat) (ls : List Lexeme) :
    nestingFrom k (.rparen :: ls) = max k (nestingFrom (k - 1) ls) := rfl

@[simp] theorem nestingFrom_connective (k : Nat) (c : Connective) (ls : List Lexeme) :
    nestingFrom k (.connective c :: ls) = nestingFrom k ls := rfl

theorem le_nestingFrom (k : Nat) (ls : List Lexeme) : k ≤ nestingFrom k ls := by
  induction ls generalizing k with
  | nil => exact Nat.le_refl k
  | cons x ls ih =>
    cases x
    case lparen => exact Nat.le_of_succ_le (ih (k + 1))
    case rparen => exact Nat.le_max_left _ _
    all_goals exact ih k

/-- The lexemes close every parenthesis they open, and have `d` open at once at most. What follows
them is counted as if they were not there. -/
def Nests (ls : List Lexeme) (d : Nat) : Prop :=
  ∀ k rest, nestingFrom k (ls ++ rest) = max (k + d) (nestingFrom k rest)

theorem Nests.nestingFrom_eq {ls : List Lexeme} {d : Nat} (h : Nests ls d) :
    nestingFrom 0 ls = d := by
  simpa [nestingFrom] using h 0 []

theorem Nests.group {ls : List Lexeme} {d : Nat} (h : Nests ls d) :
    Nests (.lparen :: (ls ++ [.rparen])) (d + 1) := by
  intro k rest
  have := le_nestingFrom k rest
  simp only [List.cons_append, List.append_assoc, List.nil_append, nestingFrom_lparen, h _ _,
    nestingFrom_rparen, Nat.add_sub_cancel]
  omega

theorem Nests.join {ls ms : List Lexeme} {d e : Nat} (h : Nests ls d) (hms : Nests ms e)
    (c : Connective) :
    Nests (.lparen :: (ls ++ .rparen :: .connective c :: ms)) (max (d + 1) e) := by
  intro k rest
  have := le_nestingFrom k rest
  simp only [List.cons_append, List.append_assoc, nestingFrom_lparen, h _ _, nestingFrom_rparen,
    Nat.add_sub_cancel, nestingFrom_connective, hms _ _]
  omega

theorem nestingFrom_furtherValues (k : Nat) (values : List String) (rest : List Lexeme) :
    nestingFrom k (furtherValues values ++ rest) = nestingFrom k rest := by
  induction values with
  | nil => rfl
  | cons value values ih => exact ih

/-- A condition opens no parentheses. -/
theorem Condition.nests {ls : List Lexeme} {l : Leaf} (h : Condition ls l) : Nests ls 0 := by
  intro k rest
  rw [Nat.add_zero, Nat.max_eq_right (le_nestingFrom k rest)]
  cases h with
  | compare name op value => rfl
  | member name op value values =>
    change nestingFrom k (furtherValues values ++ [.rbracket] ++ rest) = _
    rw [List.append_assoc, nestingFrom_furtherValues]
    rfl

/-- **The bound of a derivation is about nesting**: a derivation closes every parenthesis it
opens, and it can do with as many open at once as its lexemes have. -/
theorem Derives.exists_nests {n : Nat} {ls : List Lexeme} {runs : List (List Filter)}
    (h : Derives n ls runs) : ∃ d ≤ n, Derives d ls runs ∧ Nests ls d := by
  induction h with
  | condition h => exact ⟨0, Nat.zero_le _, .condition h, h.nests⟩
  | group _ ih =>
    obtain ⟨d, hd, hls, hnests⟩ := ih
    exact ⟨d + 1, Nat.succ_le_succ hd, .group hls, hnests.group⟩
  | and _ _ ih ihmore =>
    -- The rule wants bounds for its parts that differ by one, so each is raised to what the
    -- other asks for.
    obtain ⟨d, hd, hls, hnests⟩ := ih
    obtain ⟨e, he, hms, hmnests⟩ := ihmore
    have hmax : max (d + 1) e = max d (e - 1) + 1 := by omega
    refine ⟨max (d + 1) e, by omega, ?_, hnests.join hmnests .and⟩
    rw [hmax]
    exact .and (hls.mono (by omega)) (hms.mono (by omega))
  | or _ _ ih ihmore =>
    obtain ⟨d, hd, hls, hnests⟩ := ih
    obtain ⟨e, he, hms, hmnests⟩ := ihmore
    have hmax : max (d + 1) e = max d (e - 1) + 1 := by omega
    refine ⟨max (d + 1) e, by omega, ?_, hnests.join hmnests .or⟩
    rw [hmax]
    exact .or (hls.mono (by omega)) (hms.mono (by omega))

end NestedFilter
