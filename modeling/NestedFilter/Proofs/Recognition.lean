import NestedFilter.Filter.Parser
import NestedFilter.Proofs.Grammar

/-!
# The machine reads the grammar

The main result, `NestedFilter.Filter.ofTokens_reads_grammar`, is that the machine accepts
exactly the tokens from which some chain is derived, and returns the filter of that chain.

The machine takes one token at a time and the grammar whole stretches, so the two meet in
what a state of the machine still accepts (`NestedFilter.Reading.Accepts`):

| where the machine stands | what is accepted |
|---|---|
| within a condition | the lexemes that complete it (`NestedFilter.Phase.Completes`) |
| where a filter may start | a derivation of more of the chain |
| behind a parenthesis that closes | no more, or a connective and more (`NestedFilter.Follows`) |
| behind a condition | no more of the chain |

and behind that, for every chain that waits for its parenthesis, that parenthesis and the rest
of the chain (`NestedFilter.Closes`).

A step of the machine takes the first lexeme off what is accepted
(`NestedFilter.Reading.advances_of_depth_le`). This is an equivalence for one token, so the
result is a single induction on the tokens: the machine is sound and complete at once, and
neither direction has to find a derivation or a run by itself. It needs the number of open
parentheses to be within its bound, since the machine asks whether the bound is *met* and the
grammar whether there is room; that the bound is kept is a fact about two adjacent states
(`NestedFilter.Reading.adjacent_of_step`).

Chains are read from the left, newest first, and derived from the right. What joins the two is
the chain extended by runs (`NestedFilter.Chain.extend`), of which the first goes on with the
run that is being read.
-/

namespace NestedFilter

/-! ### Chains being read -/

namespace Chain

/-- The chain with runs behind it; the first of them goes on with the run being read. What the
machine has read of a chain and what the grammar derives of the rest of it meet in this. -/
def extend (c : Chain) : List (List Filter) → Chain
  | [] => c
  | [run] => run.foldl push c
  | run :: next :: more => (run.foldl push c).split.extend (next :: more)

@[simp] theorem extend_singleton (c : Chain) (f : Filter) : c.extend [[f]] = c.push f := rfl

theorem extend_cons_cons (c : Chain) (f : Filter) (run : List Filter)
    (more : List (List Filter)) :
    c.extend ((f :: run) :: more) = (c.push f).extend (run :: more) := by
  cases more <;> rfl

theorem extend_singleton_cons (c : Chain) (f : Filter) {more : List (List Filter)}
    (hmore : more ≠ []) : c.extend ([f] :: more) = (c.push f).split.extend more := by
  cases more with
  | nil => exact absurd rfl hmore
  | cons next more => rfl

theorem foldl_push (c : Chain) (run : List Filter) :
    run.foldl push c = ⟨c.ended, run.reverse ++ c.current⟩ := by
  induction run generalizing c with
  | nil => rfl
  | cons f run ih => simp [ih, push]

/-- The runs of a chain, and behind them those that extend it. The last run of the one and the first
run of the others are a single one. -/
theorem runs_extend (c : Chain) (run : List Filter) (more : List (List Filter)) :
    (c.extend (run :: more)).runs =
      (c.ended.map List.reverse).reverse ++ (c.current.reverse ++ run) :: more := by
  induction more generalizing c run with
  | nil => simp [extend, runs, foldl_push]
  | cons next more ih => simp [extend, ih, split, foldl_push]

/-- A chain that is read from the start is the chain of its runs, if there are any. -/
theorem toFilter_extend_empty {runs : List (List Filter)} (h : runs ≠ []) :
    (empty.extend runs).toFilter = .ofChain runs := by
  cases runs with
  | nil => exact absurd rfl h
  | cons run more => rw [toFilter, runs_extend]; rfl

end Chain

/-! ### What is still accepted -/

/-- The lexemes stand between a parenthesis that closes and the end of the chain, and take
the chain from `c` to `c'`. -/
inductive Follows (n : Nat) : List Lexeme → Chain → Chain → Prop
  /-- The parenthesis was the end of the chain. -/
  | nil {c : Chain} : Follows n [] c c
  /-- The rest of the chain goes on with its last run. -/
  | and {ls : List Lexeme} {runs : List (List Filter)} {c : Chain} (h : Derives n ls runs) :
      Follows n (.connective .and :: ls) c (c.extend runs)
  /-- The rest of the chain starts with a new run. -/
  | or {ls : List Lexeme} {runs : List (List Filter)} {c : Chain} (h : Derives n ls runs) :
      Follows n (.connective .or :: ls) c (c.split.extend runs)

/-- A derivation that starts with a parenthesis, in one piece: a chain in parentheses and
what follows it. -/
theorem Follows.derives {n : Nat} {ls ms : List Lexeme} {runs : List (List Filter)}
    {c c' : Chain} (h : Derives n ls runs) (hms : Follows (n + 1) ms (c.push (.ofChain runs)) c') :
    ∃ runs', Derives (n + 1) (.lparen :: (ls ++ .rparen :: ms)) runs' ∧ c' = c.extend runs' := by
  cases hms with
  | nil => exact ⟨_, .group h, rfl⟩
  | @and _ more _ hmore =>
    obtain ⟨run, more, rfl⟩ := List.exists_cons_of_ne_nil hmore.ne_nil
    exact ⟨_, .and h hmore, (c.extend_cons_cons ..).symm⟩
  | or hmore => exact ⟨_, .or h hmore, (c.extend_singleton_cons _ hmore.ne_nil).symm⟩

/-- Every derivation is that of a condition, or starts with a parenthesis. In the second case the
three rules with a parenthesis are one, and what they differ in is what follows when it closes. -/
theorem Derives.inversion {n : Nat} {ls : List Lexeme} {runs : List (List Filter)}
    (h : Derives n ls runs) (c : Chain) :
    (∃ l, Condition ls l ∧ runs = [[.leaf l]]) ∨
      ∃ m ms ns inner, n = m + 1 ∧ ls = .lparen :: (ms ++ .rparen :: ns) ∧ Derives m ms inner ∧
        Follows n ns (c.push (.ofChain inner)) (c.extend runs) := by
  cases h with
  | condition h => exact .inl ⟨_, h, rfl⟩
  | group h => exact .inr ⟨_, _, [], _, rfl, rfl, h, .nil⟩
  | and h hmore =>
    refine .inr ⟨_, _, _, _, rfl, rfl, h, ?_⟩
    rw [Chain.extend_cons_cons]
    exact .and hmore
  | or h hmore =>
    refine .inr ⟨_, _, _, _, rfl, rfl, h, ?_⟩
    rw [Chain.extend_singleton_cons _ _ hmore.ne_nil]
    exact .or hmore

/-- The lexemes end the chain `c`, and then, one by one, the chains around it, and the
outermost chain writes the filter `f`. Each chain around has the filter of the one within as its
next, and may go on behind the parenthesis with as many more as it likes. -/
def Closes (base : Nat) : List Chain → Chain → List Lexeme → Filter → Prop
  | [], c, ls, f => ls = [] ∧ f = c.toFilter
  | outer :: enclosing, c, ls, f => ∃ ms rest c',
      ls = .rparen :: (ms ++ rest) ∧
      Follows (maxNesting - (base + enclosing.length)) ms (outer.push c.toFilter) c' ∧
      Closes base enclosing c' rest f

/-- The lexemes complete the condition that has been begun. Of a list the values before are part of
the state, newest first, and come out in the order of the text. -/
def Phase.Completes (ls : List Lexeme) (l : Leaf) : Phase → Prop
  | .operator name => Condition (.field name :: ls) l
  | .scalar name op => ∃ value, ls = [.value value] ∧ l = ⟨name, .compare op value⟩
  | .listStart name op => ∃ value values,
      ls = .lbracket :: .value value :: (furtherValues values ++ [.rbracket]) ∧
      l = ⟨name, .member op (value :: values)⟩
  | .listItem name op before => ∃ value values,
      ls = .value value :: (furtherValues values ++ [.rbracket]) ∧
      l = ⟨name, .member op (before.reverse ++ value :: values)⟩
  | .listNext name op before => ∃ values,
      ls = furtherValues values ++ [.rbracket] ∧
      l = ⟨name, .member op (before.reverse ++ values)⟩
  | .operand | .closed | .ended => False

namespace Reading

/-- The number of parentheses that may still be opened. It is what bounds the derivation of the rest
of the chain that is being read. -/
def room (s : Reading) : Nat :=
  maxNesting - s.depth

/-- **What a state accepts**: with these lexemes the machine gets from the state to the
filter `f`. -/
def Accepts (s : Reading) (ls : List Lexeme) (f : Filter) : Prop :=
  match s.phase with
  | .operand => ∃ ms rest runs, ls = ms ++ rest ∧ Derives s.room ms runs ∧
      Closes s.base s.enclosing (s.chain.extend runs) rest f
  | .closed => ∃ ms rest c', ls = ms ++ rest ∧ Follows s.room ms s.chain c' ∧
      Closes s.base s.enclosing c' rest f
  | .ended => Closes s.base s.enclosing s.chain ls f
  | phase => ∃ ms rest l, ls = ms ++ rest ∧ phase.Completes ms l ∧
      Closes s.base s.enclosing (s.chain.push (.leaf l)) rest f

/-! ### One token -/

/-- The state takes a token exactly if the token is the first of what it accepts, and the
state behind the token accepts the rest. -/
def Advances (s : Reading) : Prop :=
  ∀ t ls f, s.Accepts (t.lexeme :: ls) f ↔ ∃ s', s.step t = .ok s' ∧ s'.Accepts ls f

variable {s s' : Reading} {t : Token} {ls : List Lexeme} {f : Filter}
variable {base : Nat} {enclosing : List Chain} {c : Chain} {name : String}

/-- Behind the end of a chain. -/
theorem closes_cons_iff : Closes s.base s.enclosing s.chain (t.lexeme :: ls) f ↔
    ∃ s', s.takeClosing t = .ok s' ∧ s'.Accepts ls f := by
  obtain ⟨base, enclosing, c, phase⟩ := s
  cases enclosing with
  | nil => simp [Closes, takeClosing]
  | cons outer enclosing =>
    constructor
    · rintro ⟨ms, rest, c', heq, hms, hrest⟩
      obtain ⟨hparen, rfl⟩ := List.cons.inj heq
      exact ⟨⟨base, enclosing, outer.push c.toFilter, .closed⟩, by simp [takeClosing, hparen],
        ms, rest, c', rfl, hms, hrest⟩
    · rintro ⟨s', hstep, haccepts⟩
      simp only [takeClosing] at hstep
      split at hstep
      · next hparen =>
        obtain rfl := Except.ok.inj hstep
        obtain ⟨ms, rest, c', rfl, hms, hrest⟩ := haccepts
        exact ⟨ms, rest, c', by rw [hparen], hms, hrest⟩
      · exact absurd hstep (by simp [refuse])

/-- What ends a chain starts with no connective. So behind a parenthesis that closes, a connective
tells that the chain goes on, and everything else that it has ended. -/
theorem not_closes_connective {d : Connective} :
    ¬Closes base enclosing c (.connective d :: ls) f := by
  cases enclosing <;> simp [Closes]

/-- Behind a parenthesis that closes. -/
theorem advances_closed : (⟨base, enclosing, c, .closed⟩ : Reading).Advances := by
  intro t ls f
  constructor
  · rintro ⟨ms, rest, c', heq, hms, hrest⟩
    cases hms with
    | nil =>
      -- The chain has ended, so what stands here is no connective and closes the parenthesis.
      obtain rfl : t.lexeme :: ls = rest := heq
      obtain ⟨s', hstep, haccepts⟩ := closes_cons_iff.1 hrest
      refine ⟨s', ?_, haccepts⟩
      simp only [step]
      split
      · next hand => exact absurd (hand ▸ hrest) not_closes_connective
      · next hor => exact absurd (hor ▸ hrest) not_closes_connective
      · exact hstep
    | and h =>
      obtain ⟨hand, rfl⟩ := List.cons.inj heq
      exact ⟨⟨base, enclosing, c, .operand⟩, by simp [step, hand], _, _, _, rfl, h, hrest⟩
    | or h =>
      obtain ⟨hor, rfl⟩ := List.cons.inj heq
      exact ⟨⟨base, enclosing, c.split, .operand⟩, by simp [step, hor], _, _, _, rfl, h, hrest⟩
  · rintro ⟨s', hstep, haccepts⟩
    simp only [step] at hstep
    split at hstep
    · next hand =>
      obtain rfl := Except.ok.inj hstep
      obtain ⟨ms, rest, runs, rfl, hms, hrest⟩ := haccepts
      exact ⟨_, rest, _, by rw [hand]; rfl, .and hms, hrest⟩
    · next hor =>
      obtain rfl := Except.ok.inj hstep
      obtain ⟨ms, rest, runs, rfl, hms, hrest⟩ := haccepts
      exact ⟨_, rest, _, by rw [hor]; rfl, .or hms, hrest⟩
    · exact ⟨[], _, c, rfl, .nil, closes_cons_iff.2 ⟨s', hstep, haccepts⟩⟩

/-- What is accepted behind a parenthesis that opens: a chain, the parenthesis that closes,
and what follows it. -/
theorem accepts_opened_iff {n : Nat}
    (hn : maxNesting - (base + enclosing.length) = n + 1) :
    (⟨base, c :: enclosing, .empty, .operand⟩ : Reading).Accepts ls f ↔
      ∃ ms ns rest inner c', ls = ms ++ .rparen :: (ns ++ rest) ∧ Derives n ms inner ∧
        Follows (n + 1) ns (c.push (.ofChain inner)) c' ∧ Closes base enclosing c' rest f := by
  have hroom : (⟨base, c :: enclosing, .empty, .operand⟩ : Reading).room = n := by
    simp only [room, depth, List.length_cons]
    omega
  constructor
  · rintro ⟨ms, _, inner, rfl, hms, ns, rest, c', rfl, hns, hrest⟩
    rw [Chain.toFilter_extend_empty hms.ne_nil, hn] at hns
    exact ⟨ms, ns, rest, inner, c', rfl, hroom ▸ hms, hns, hrest⟩
  · rintro ⟨ms, ns, rest, inner, c', rfl, hms, hns, hrest⟩
    rw [← Chain.toFilter_extend_empty hms.ne_nil, ← hn] at hns
    exact ⟨ms, _, inner, rfl, hroom.symm ▸ hms, ns, rest, c', rfl, hns, hrest⟩

/-- Where a filter starts, it is a parenthesis or a field that may come, and nothing else. This is
the one place where the number of open parentheses counts. -/
theorem advances_operand (hdepth : base + enclosing.length ≤ maxNesting) :
    (⟨base, enclosing, c, .operand⟩ : Reading).Advances := by
  intro t ls f
  constructor
  · rintro ⟨ms, rest, runs, heq, hms, hrest⟩
    rcases hms.inversion c with ⟨l, hl, rfl⟩ | ⟨n, ms, ns, inner, hn, rfl, hms, hns⟩
    · obtain ⟨name, ms, rfl⟩ := hl.exists_field
      obtain ⟨hfield, rfl⟩ := List.cons.inj heq
      exact ⟨⟨base, enclosing, c, .operator name⟩, by simp [step, takeOpening, hfield],
        ms, rest, l, rfl, hl, hrest⟩
    · obtain ⟨hparen, rfl⟩ := List.cons.inj heq
      -- A derivation with a parenthesis needs room for one, and so does the machine.
      have hfull : base + enclosing.length ≠ maxNesting := by
        intro hfull
        rw [room, depth, hfull, Nat.sub_self] at hn
        exact Nat.succ_ne_zero n hn.symm
      refine ⟨⟨base, c :: enclosing, .empty, .operand⟩,
        by simp [step, takeOpening, hparen, depth, hfull], (accepts_opened_iff hn).2 ?_⟩
      exact ⟨ms, ns, rest, inner, _, by simp, hms, hn ▸ hns, hrest⟩
  · rintro ⟨s', hstep, haccepts⟩
    simp only [step, takeOpening] at hstep
    split at hstep
    · next hparen =>
      split at hstep
      · exact absurd hstep (by simp)
      next hfull =>
      obtain rfl := Except.ok.inj hstep
      obtain ⟨n, hn⟩ : ∃ n, maxNesting - (base + enclosing.length) = n + 1 :=
        Nat.exists_eq_add_one_of_ne_zero (Nat.sub_ne_zero_of_lt (Nat.lt_of_le_of_ne hdepth hfull))
      obtain ⟨ms, ns, rest, inner, c', rfl, hms, hns, hrest⟩ := (accepts_opened_iff hn).1 haccepts
      obtain ⟨runs, hruns, rfl⟩ := Follows.derives hms hns
      exact ⟨_, rest, runs, by simp [hparen], hn.symm ▸ hruns, hrest⟩
    · next name hfield =>
      obtain rfl := Except.ok.inj hstep
      obtain ⟨ms, rest, l, rfl, hms, hrest⟩ := haccepts
      exact ⟨_, rest, _, by rw [hfield]; rfl, .condition hms, hrest⟩
    · exact absurd hstep (by simp [refuse])

theorem accepts_finishLeaf_iff {test : Test} :
    (s.finishLeaf name test).Accepts ls f ↔
      Closes s.base s.enclosing (s.chain.push (.leaf ⟨name, test⟩)) ls f :=
  Iff.rfl

/-- Within a condition, behind its field. -/
theorem advances_operator :
    (⟨base, enclosing, c, .operator name⟩ : Reading).Advances := by
  intro t ls f
  constructor
  · rintro ⟨ms, rest, l, heq, hl, hrest⟩
    cases hl with
    | compare _ op value =>
      obtain ⟨hop, rfl⟩ := List.cons.inj heq
      exact ⟨⟨base, enclosing, c, .scalar name op⟩, by simp [step, hop],
        _, rest, _, rfl, ⟨value, rfl, rfl⟩, hrest⟩
    | member _ op value values =>
      obtain ⟨hop, rfl⟩ := List.cons.inj heq
      exact ⟨⟨base, enclosing, c, .listStart name op⟩, by simp [step, hop],
        _, rest, _, rfl, ⟨value, values, rfl, rfl⟩, hrest⟩
  · rintro ⟨s', hstep, haccepts⟩
    simp only [step] at hstep
    split at hstep
    · next op hop =>
      obtain rfl := Except.ok.inj hstep
      obtain ⟨ms, rest, l, rfl, ⟨value, rfl, rfl⟩, hrest⟩ := haccepts
      exact ⟨_, rest, _, by rw [hop]; rfl, .compare name op value, hrest⟩
    · next op hop =>
      obtain rfl := Except.ok.inj hstep
      obtain ⟨ms, rest, l, rfl, ⟨value, values, rfl, rfl⟩, hrest⟩ := haccepts
      exact ⟨_, rest, _, by rw [hop]; rfl, .member name op value values, hrest⟩
    · exact absurd hstep (by simp)

theorem advances_scalar {op : Comparison} :
    (⟨base, enclosing, c, .scalar name op⟩ : Reading).Advances := by
  intro t ls f
  constructor
  · rintro ⟨ms, rest, l, heq, ⟨value, rfl, rfl⟩, hrest⟩
    obtain ⟨hvalue, rfl⟩ := List.cons.inj heq
    exact ⟨_, by simp only [step, hvalue], accepts_finishLeaf_iff.2 hrest⟩
  · rintro ⟨s', hstep, haccepts⟩
    simp only [step] at hstep
    split at hstep
    · next value hvalue =>
      obtain rfl := Except.ok.inj hstep
      exact ⟨[.value value], ls, _, by rw [hvalue]; rfl, ⟨value, rfl, rfl⟩,
        accepts_finishLeaf_iff.1 haccepts⟩
    · exact absurd hstep (by simp [refuse])

theorem advances_listStart {op : Membership} :
    (⟨base, enclosing, c, .listStart name op⟩ : Reading).Advances := by
  intro t ls f
  constructor
  · rintro ⟨ms, rest, l, heq, ⟨value, values, rfl, rfl⟩, hrest⟩
    obtain ⟨hbracket, rfl⟩ := List.cons.inj heq
    exact ⟨⟨base, enclosing, c, .listItem name op []⟩, by simp [step, hbracket],
      _, rest, _, rfl, ⟨value, values, rfl, rfl⟩, hrest⟩
  · rintro ⟨s', hstep, haccepts⟩
    simp only [step] at hstep
    split at hstep
    · next hbracket =>
      obtain rfl := Except.ok.inj hstep
      obtain ⟨ms, rest, l, rfl, ⟨value, values, rfl, rfl⟩, hrest⟩ := haccepts
      exact ⟨_, rest, _, by rw [hbracket]; rfl, ⟨value, values, rfl, rfl⟩, hrest⟩
    · exact absurd hstep (by simp [refuse])

theorem advances_listItem {op : Membership} {before : List String} :
    (⟨base, enclosing, c, .listItem name op before⟩ : Reading).Advances := by
  intro t ls f
  constructor
  · rintro ⟨ms, rest, l, heq, ⟨value, values, rfl, rfl⟩, hrest⟩
    obtain ⟨hvalue, rfl⟩ := List.cons.inj heq
    exact ⟨⟨base, enclosing, c, .listNext name op (value :: before)⟩, by simp [step, hvalue],
      _, rest, _, rfl, ⟨values, rfl, by simp⟩, hrest⟩
  · rintro ⟨s', hstep, haccepts⟩
    simp only [step] at hstep
    split at hstep
    · next value hvalue =>
      obtain rfl := Except.ok.inj hstep
      obtain ⟨ms, rest, l, rfl, ⟨values, rfl, rfl⟩, hrest⟩ := haccepts
      exact ⟨_, rest, _, by rw [hvalue]; rfl, ⟨value, values, rfl, by simp⟩, hrest⟩
    · exact absurd hstep (by simp [refuse])

theorem advances_listNext {op : Membership} {before : List String} :
    (⟨base, enclosing, c, .listNext name op before⟩ : Reading).Advances := by
  intro t ls f
  constructor
  · rintro ⟨ms, rest, l, heq, ⟨values, rfl, rfl⟩, hrest⟩
    -- Whether a comma or the bracket comes next depends on whether values are left.
    cases values with
    | nil =>
      obtain ⟨hbracket, rfl⟩ := List.cons.inj heq
      rw [List.append_nil] at hrest
      exact ⟨_, by simp only [step, hbracket], accepts_finishLeaf_iff.2 hrest⟩
    | cons value values =>
      obtain ⟨hcomma, rfl⟩ := List.cons.inj heq
      exact ⟨⟨base, enclosing, c, .listItem name op before⟩, by simp [step, hcomma],
        _, rest, _, rfl, ⟨value, values, rfl, rfl⟩, hrest⟩
  · rintro ⟨s', hstep, haccepts⟩
    simp only [step] at hstep
    split at hstep
    · next hcomma =>
      obtain rfl := Except.ok.inj hstep
      obtain ⟨ms, rest, l, rfl, ⟨value, values, rfl, rfl⟩, hrest⟩ := haccepts
      exact ⟨_, rest, _, by rw [hcomma]; rfl, ⟨value :: values, rfl, rfl⟩, hrest⟩
    · next hbracket =>
      obtain rfl := Except.ok.inj hstep
      refine ⟨[.rbracket], ls, _, by rw [hbracket]; rfl, ⟨[], rfl, rfl⟩, ?_⟩
      rw [List.append_nil]
      exact accepts_finishLeaf_iff.1 haccepts
    · exact absurd hstep (by simp [refuse])

/-- **A step of the machine takes the first lexeme off what is accepted.** The lemmas above
say so phase by phase; the bound is for the one in which a filter may start. -/
theorem advances_of_depth_le (hdepth : s.depth ≤ maxNesting) : s.Advances := by
  obtain ⟨base, enclosing, c, phase⟩ := s
  cases phase with
  | operand => exact advances_operand hdepth
  | operator => exact advances_operator
  | scalar => exact advances_scalar
  | listStart => exact advances_listStart
  | listItem => exact advances_listItem
  | listNext => exact advances_listNext
  | closed => exact advances_closed
  | ended => exact fun t ls f => closes_cons_iff

/-! ### All tokens -/

/-- Where a chain may end, nothing may follow if no chain is left around it. -/
theorem closes_nil_iff :
    Closes base enclosing c [] f ↔ enclosing = [] ∧ f = c.toFilter := by
  cases enclosing <;> simp [Closes]

/-- A state accepts that nothing follows if the machine may end in it, and with the filter that it
then returns. -/
theorem accepts_nil_iff : s.Accepts [] f ↔ s.finish = .ok f := by
  obtain ⟨base, enclosing, c, phase⟩ := s
  have hclosed : Closes base enclosing c [] f ↔
      (⟨base, enclosing, c, .ended⟩ : Reading).finish = .ok f := by
    rw [closes_nil_iff]
    cases enclosing <;> simp [finish, eq_comm]
  cases phase with
  | ended => exact hclosed
  | closed =>
    refine Iff.trans ⟨?_, fun h => ⟨[], [], c, rfl, .nil, h⟩⟩ hclosed
    rintro ⟨ms, rest, c', heq, hms, hrest⟩
    obtain ⟨rfl, rfl⟩ := List.append_eq_nil_iff.1 heq.symm
    cases hms
    exact hrest
  | operand =>
    refine iff_of_false ?_ (by simp [finish])
    rintro ⟨ms, rest, runs, heq, hms, hrest⟩
    obtain ⟨rfl, rfl⟩ := List.append_eq_nil_iff.1 heq.symm
    exact absurd rfl hms.lexemes_ne_nil
  | operator name =>
    refine iff_of_false ?_ (by simp [finish])
    rintro ⟨ms, rest, l, heq, hl, hrest⟩
    obtain ⟨rfl, rfl⟩ := List.append_eq_nil_iff.1 heq.symm
    cases hl
  | scalar | listStart | listItem | listNext =>
    refine iff_of_false ?_ (by simp [finish])
    rintro ⟨ms, rest, l, heq, hl, hrest⟩
    obtain ⟨rfl, rfl⟩ := List.append_eq_nil_iff.1 heq.symm
    simp [Phase.Completes] at hl

/-- How the open parentheses of two states differ that are a token apart: one has been opened,
for which there was room, or the innermost has been closed, or they are the same. -/
structure Adjacent (s s' : Reading) : Prop where
  /-- What counted as open before the tokens still does. -/
  base_eq : s'.base = s.base
  /-- The chains around the one being read. -/
  enclosing_cases : (s.depth ≠ maxNesting ∧ s'.enclosing = s.chain :: s.enclosing) ∨
    (∃ outer, s.enclosing = outer :: s'.enclosing) ∨ s'.enclosing = s.enclosing

theorem adjacent_of_takeOpening (hstep : s.takeOpening t = .ok s') : s.Adjacent s' := by
  simp only [takeOpening, refuse] at hstep
  split at hstep
  · split at hstep
    · exact absurd hstep (by simp)
    · next hfull =>
      obtain rfl := Except.ok.inj hstep
      exact ⟨rfl, .inl ⟨hfull, rfl⟩⟩
  · obtain rfl := Except.ok.inj hstep
    exact ⟨rfl, .inr (.inr rfl)⟩
  · exact absurd hstep (by simp)

theorem adjacent_of_takeClosing (hstep : s.takeClosing t = .ok s') : s.Adjacent s' := by
  simp only [takeClosing, refuse] at hstep
  split at hstep
  · exact absurd hstep (by simp)
  next outer enclosing henclosing =>
  split at hstep
  · obtain rfl := Except.ok.inj hstep
    exact ⟨rfl, .inr (.inl ⟨outer, henclosing⟩)⟩
  · exact absurd hstep (by simp)

/-- **A token opens one parenthesis or closes one at most.** -/
theorem adjacent_of_step (hstep : s.step t = .ok s') : s.Adjacent s' := by
  cases hs : s.phase <;> simp only [step, hs, refuse] at hstep
  case operand => exact adjacent_of_takeOpening hstep
  case ended => exact adjacent_of_takeClosing hstep
  case closed =>
    split at hstep
    · obtain rfl := Except.ok.inj hstep
      exact ⟨rfl, .inr (.inr rfl)⟩
    · obtain rfl := Except.ok.inj hstep
      exact ⟨rfl, .inr (.inr rfl)⟩
    · exact adjacent_of_takeClosing hstep
  -- Within a condition no parenthesis is opened or closed.
  all_goals
    split at hstep <;> first
      | (obtain rfl := Except.ok.inj hstep; exact ⟨rfl, .inr (.inr rfl)⟩)
      | exact absurd hstep (by simp)

/-- Taking a token keeps the number of open parentheses within its bound, since one is only opened
where the bound is not met. -/
theorem depth_le_of_step (hstep : s.step t = .ok s') (hdepth : s.depth ≤ maxNesting) :
    s'.depth ≤ maxNesting := by
  obtain ⟨hbase, ⟨hroom, henclosing⟩ | ⟨outer, henclosing⟩ | henclosing⟩ := adjacent_of_step hstep
  all_goals
    simp only [depth, hbase, henclosing, List.length_cons] at *
    omega

/-- The machine reads what its state accepts: by induction on the tokens, each of which is taken off
what is accepted, until none is left. -/
theorem run_eq_ok_iff {ts : List Token} (hdepth : s.depth ≤ maxNesting) :
    (s.run ts).1 = .ok f ↔ s.Accepts (ts.map (·.lexeme)) f := by
  induction ts generalizing s with
  | nil =>
    rw [List.map_nil, accepts_nil_iff, run]
    split <;> simp [*]
  | cons t ts ih =>
    rw [List.map_cons, advances_of_depth_le hdepth, run]
    split
    · next s' hstep => simp [hstep, ih (depth_le_of_step hstep hdepth)]
    · next fault hstep => simp [hstep]

end Reading

/-- What is left of the tokens is read as the filter of a chain that is derived from it, with no
more parentheses open at once than may still be opened. -/
theorem Parser.parse_eq_ok_iff {p : Parser} {f : Filter} (hdepth : p.depth ≤ maxNesting) :
    p.parse.1 = .ok f ↔
      ∃ runs, Derives (maxNesting - p.depth) (p.rest.map (·.lexeme)) runs ∧ f = .ofChain runs := by
  have hstart : (Reading.start p.depth).depth ≤ maxNesting := hdepth
  rw [parse, Reading.run_eq_ok_iff hstart]
  constructor
  · rintro ⟨ms, rest, runs, heq, hms, rfl, rfl⟩
    obtain rfl : p.rest.map (·.lexeme) = ms := heq.trans (List.append_nil ms)
    exact ⟨runs, hms, Chain.toFilter_extend_empty hms.ne_nil⟩
  · rintro ⟨runs, hruns, rfl⟩
    exact ⟨_, [], runs, (List.append_nil _).symm, hruns, rfl,
      (Chain.toFilter_extend_empty hruns.ne_nil).symm⟩

/-- Tokens are read as the filter of a chain that is derived from them, by a parser that has not
been called before. -/
theorem Filter.ofTokens_eq_ok_iff {ts : List Token} {f : Filter} :
    Filter.ofTokens ts = .ok f ↔
      ∃ runs, Derives maxNesting (ts.map (·.lexeme)) runs ∧ f = .ofChain runs :=
  Parser.parse_eq_ok_iff (Nat.zero_le maxNesting)

/-- **The machine reads the grammar.** Tokens are read as a filter exactly if a chain is
derived from them with no more than `NestedFilter.maxNesting` parentheses open at once, and
the filter is that of the chain; so all chains derived from the same tokens have one and the
same filter. -/
theorem Filter.ofTokens_reads_grammar (ts : List Token) :
    (∀ f, Filter.ofTokens ts = .ok f ↔
      ∃ runs, Derives maxNesting (ts.map (·.lexeme)) runs ∧ f = .ofChain runs) ∧
    ∀ runs runs', Derives maxNesting (ts.map (·.lexeme)) runs →
      Derives maxNesting (ts.map (·.lexeme)) runs' → Filter.ofChain runs = .ofChain runs' := by
  refine ⟨fun f => ofTokens_eq_ok_iff, fun runs runs' hruns hruns' => ?_⟩
  have h := ofTokens_eq_ok_iff.2 ⟨runs, hruns, rfl⟩
  have h' := ofTokens_eq_ok_iff.2 ⟨runs', hruns', rfl⟩
  exact Except.ok.inj (h.symm.trans h')

/-- In a chain of both connectives it is the `or` that splits. -/
theorem Filter.ofTokens_reads_grammar_both_connectives :
    Derives maxNesting [.lparen, .field "a", .comparison .equal, .value "1", .rparen,
        .connective .and, .lparen, .field "b", .comparison .equal, .value "2", .rparen,
        .connective .or, .field "c", .membership .isIn, .lbracket, .value "3", .comma, .value "4",
        .rbracket]
      [[.leaf ⟨"a", .compare .equal "1"⟩, .leaf ⟨"b", .compare .equal "2"⟩],
        [.leaf ⟨"c", .member .isIn ["3", "4"]⟩]] ∧
    Filter.ofTokens ([.lparen, .field "a", .comparison .equal, .value "1", .rparen,
        .connective .and, .lparen, .field "b", .comparison .equal, .value "2", .rparen,
        .connective .or, .field "c", .membership .isIn, .lbracket, .value "3", .comma, .value "4",
        .rbracket].map (⟨·, ⟨0, 0⟩⟩)) =
      .ok (.group .or [.group .and [.leaf ⟨"a", .compare .equal "1"⟩,
        .leaf ⟨"b", .compare .equal "2"⟩], .leaf ⟨"c", .member .isIn ["3", "4"]⟩]) :=
  have h : Derives (127 + 1) _ _ :=
    .and (.condition (.compare "a" .equal "1"))
      (.or (.condition (.compare "b" .equal "2")) (.condition (.member "c" .isIn "3" ["4"])))
  ⟨h, ((ofTokens_reads_grammar _).1 _).2 ⟨_, h, rfl⟩⟩

end NestedFilter
