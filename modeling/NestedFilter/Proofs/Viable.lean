import NestedFilter.Filter.Parser

/-!
# Errors show at the first token that can be no part of a filter

Tokens are *viable* if more tokens behind them can complete a filter
(`NestedFilter.Viable`). An error names the first token with which they cease to be, and no
token if they never do (`NestedFilter.Filter.ofTokens_error_earliest`).

The machine has the property because it never goes astray: every state can still be led to a
filter (`NestedFilter.Reading.exists_completion`). A condition that has been begun is completed
with some value, and then the parentheses are closed one by one. The limit on parentheses is no
exception: where no more may be opened a condition can still stand, and all that are open can be
closed.

So the tokens that the machine takes are the viable ones (`NestedFilter.viable_iff_takes`), and
what is left to see is that an error arises where the machine refuses a token, and names that
token (`NestedFilter.Reading.takes_of_run_eq_error`). There are two kinds of errors then:

| error | tokens | what it names |
|---|---|---|
| at a token that is refused | viable up to this token, not with it | the token |
| at the end of the tokens | all of them viable | nothing |

The completion is found from the state alone. It does not matter how the state was reached, nor
whether it can be reached at all: the facts here hold of every state of the machine, and the
relation between states that tokens lead from and to (`NestedFilter.Reading.Takes`) is what
later files speak of the middle of a call with.
-/

namespace NestedFilter

/-- Tokens that some tokens behind them, or none, complete to a filter. The places of the tokens do
not matter for it. -/
def Viable (ts : List Token) : Prop :=
  ∃ more f, Filter.ofTokens (ts ++ more) = .ok f

namespace Reading

variable {s s' : Reading} {t : Token} {ts : List Token} {fault : Fault} {e : ParseError}

/-! ### Taking tokens one after the other -/

/-- The machine takes all the tokens and gets from one state to another. -/
inductive Takes : Reading → List Token → Reading → Prop
  /-- No token is left. -/
  | nil {s : Reading} : Takes s [] s
  /-- One token is taken, then the others. -/
  | cons {s next s' : Reading} {t : Token} {ts : List Token} (hstep : s.step t = .ok next)
      (h : Takes next ts s') : Takes s (t :: ts) s'

theorem run_of_step_ok (hstep : s.step t = .ok s') : s.run (t :: ts) = s'.run ts := by
  rw [run, hstep]

theorem run_of_step_error (hstep : s.step t = .error fault) :
    (s.run (t :: ts)).1 = .error fault.error := by
  rw [run, hstep]

/-- Tokens that are taken leave the rest to the state that they lead to: nothing else is kept of
them. -/
theorem Takes.run_append (h : Takes s ts s') (more : List Token) :
    s.run (ts ++ more) = s'.run more := by
  induction h with
  | nil => rfl
  | cons hstep _ ih => rw [List.cons_append, run_of_step_ok hstep, ih]

/-- Only tokens that are taken can be read as a filter with others behind them, so tokens are viable
only if the machine takes them. -/
theorem exists_takes_of_run_eq_ok {more : List Token} {f : Filter}
    (h : (s.run (ts ++ more)).1 = .ok f) : ∃ s', Takes s ts s' := by
  induction ts generalizing s with
  | nil => exact ⟨s, .nil⟩
  | cons t ts ih =>
    rw [List.cons_append] at h
    cases hstep : s.step t with
    | ok next =>
      rw [run_of_step_ok hstep] at h
      obtain ⟨s', htakes⟩ := ih h
      exact ⟨s', .cons hstep htakes⟩
    | error fault =>
      rw [run_of_step_error hstep] at h
      exact absurd h (by simp)

/-! ### Every state can be led to a filter -/

/-- The lexemes, as tokens that stand nowhere in particular. -/
def unplaced (ls : List Lexeme) : List Token :=
  ls.map fun x => ⟨x, ⟨0, 0⟩⟩

/-- Where a chain may end, the parentheses around it are closed one by one. Behind each of them the
chain that it stands in may end as well. -/
theorem exists_completion_of_enclosing (base : Nat) (enclosing : List Chain) (c : Chain)
    {phase : Phase} (hphase : phase = .closed ∨ phase = .ended) :
    ∃ more f, ((⟨base, enclosing, c, phase⟩ : Reading).run more).1 = .ok f := by
  induction enclosing generalizing c phase with
  | nil =>
    refine ⟨[], c.toFilter, ?_⟩
    rcases hphase with rfl | rfl <;> rfl
  | cons outer enclosing ih =>
    obtain ⟨more, f, hmore⟩ := ih (outer.push c.toFilter) (.inl rfl)
    refine ⟨⟨.rparen, ⟨0, 0⟩⟩ :: more, f, ?_⟩
    rw [← hmore]
    rcases hphase with rfl | rfl <;> rfl

/-- **The machine never goes astray**: from every state some tokens lead to a filter, however
many parentheses are open. -/
theorem exists_completion (s : Reading) : ∃ more f, (s.run more).1 = .ok f := by
  obtain ⟨base, enclosing, c, phase⟩ := s
  have hended (l : Leaf) := exists_completion_of_enclosing base enclosing (c.push (.leaf l))
    (.inr rfl : Phase.ended = .closed ∨ Phase.ended = .ended)
  -- What has been begun is completed with some value, and then all that is open is closed.
  cases phase with
  | closed => exact exists_completion_of_enclosing base enclosing c (.inl rfl)
  | ended => exact exists_completion_of_enclosing base enclosing c (.inr rfl)
  | operand =>
    obtain ⟨more, f, hmore⟩ := hended ⟨"a", .compare .equal "1"⟩
    exact ⟨unplaced [.field "a", .comparison .equal, .value "1"] ++ more, f, hmore⟩
  | operator field =>
    obtain ⟨more, f, hmore⟩ := hended ⟨field, .compare .equal "1"⟩
    exact ⟨unplaced [.comparison .equal, .value "1"] ++ more, f, hmore⟩
  | scalar field op =>
    obtain ⟨more, f, hmore⟩ := hended ⟨field, .compare op "1"⟩
    exact ⟨unplaced [.value "1"] ++ more, f, hmore⟩
  | listStart field op =>
    obtain ⟨more, f, hmore⟩ := hended ⟨field, .member op ["1"]⟩
    exact ⟨unplaced [.lbracket, .value "1", .rbracket] ++ more, f, hmore⟩
  | listItem field op values =>
    obtain ⟨more, f, hmore⟩ := hended ⟨field, .member op ("1" :: values).reverse⟩
    exact ⟨unplaced [.value "1", .rbracket] ++ more, f, hmore⟩
  | listNext field op values =>
    obtain ⟨more, f, hmore⟩ := hended ⟨field, .member op values.reverse⟩
    exact ⟨unplaced [.rbracket] ++ more, f, hmore⟩

/-! ### Where errors arise -/

theorem found?_of_takeOpening_eq_error (h : s.takeOpening t = .error fault) :
    fault.error.found? = some t := by
  simp only [takeOpening, refuse] at h
  split at h
  · split at h
    · obtain rfl := Except.error.inj h
      rfl
    · exact absurd h (by simp)
  · exact absurd h (by simp)
  · obtain rfl := Except.error.inj h
    rfl

theorem found?_of_takeClosing_eq_error (h : s.takeClosing t = .error fault) :
    fault.error.found? = some t := by
  simp only [takeClosing, refuse] at h
  split at h
  · obtain rfl := Except.error.inj h
    rfl
  · split at h
    · exact absurd h (by simp)
    · obtain rfl := Except.error.inj h
      rfl

/-- A token that is refused is the one that the error names, for all causes there are. -/
theorem found?_of_step_eq_error (hstep : s.step t = .error fault) :
    fault.error.found? = some t := by
  cases hs : s.phase <;> simp only [step, hs, refuse] at hstep
  case operand => exact found?_of_takeOpening_eq_error hstep
  case ended => exact found?_of_takeClosing_eq_error hstep
  case closed =>
    split at hstep
    · exact absurd hstep (by simp)
    · exact absurd hstep (by simp)
    · exact found?_of_takeClosing_eq_error hstep
  -- Within a condition each phase takes one or two kinds of lexemes and refuses all others.
  all_goals
    split at hstep <;> first
      | (obtain rfl := Except.error.inj hstep; rfl)
      | exact absurd hstep (by simp)

/-- An error at the end of the tokens names none. -/
theorem found?_of_finish_eq_error (h : s.finish = .error e) : e.found? = none := by
  simp only [finish] at h
  split at h
  case h_7 | h_8 =>
    split at h
    · exact absurd h (by simp)
    · obtain rfl := Except.error.inj h
      rfl
  all_goals
    obtain rfl := Except.error.inj h
    rfl

/-- **Where an error arises**: behind the last token, and then it names none, or at the first
token that is refused, and then it names that one. -/
theorem takes_of_run_eq_error (h : (s.run ts).1 = .error e) :
    (e.found? = none ∧ ∃ s', Takes s ts s') ∨
      ∃ before t after next fault, ts = before ++ t :: after ∧ Takes s before next ∧
        next.step t = .error fault ∧ e.found? = some t := by
  induction ts generalizing s with
  | nil =>
    rw [run] at h
    cases hfinish : s.finish with
    | ok f =>
      rw [hfinish] at h
      exact absurd h (by simp)
    | error e' =>
      rw [hfinish] at h
      obtain rfl := Except.error.inj h
      exact .inl ⟨found?_of_finish_eq_error hfinish, s, .nil⟩
  | cons t ts ih =>
    cases hstep : s.step t with
    | error fault =>
      rw [run_of_step_error hstep] at h
      obtain rfl := Except.error.inj h
      exact .inr ⟨[], t, ts, s, fault, rfl, .nil, hstep, found?_of_step_eq_error hstep⟩
    | ok next =>
      rw [run_of_step_ok hstep] at h
      rcases ih h with ⟨hnone, s', htakes⟩ | ⟨before, u, after, last, fault, rfl, htakes, hlast, hu⟩
      · exact .inl ⟨hnone, s', .cons hstep htakes⟩
      · exact .inr ⟨t :: before, u, after, last, fault, rfl, .cons hstep htakes, hlast, hu⟩

end Reading

/-! ### Viable tokens -/

variable {ts : List Token}

/-- **The viable tokens are those that the machine takes.** -/
theorem viable_iff_takes : Viable ts ↔ ∃ s, Reading.Takes (.start 0) ts s := by
  constructor
  · rintro ⟨more, f, h⟩
    exact Reading.exists_takes_of_run_eq_ok h
  · rintro ⟨s, htakes⟩
    obtain ⟨more, f, hmore⟩ := s.exists_completion
    refine ⟨more, f, ?_⟩
    rw [Filter.ofTokens, Parser.parse]
    exact (congrArg Prod.fst (htakes.run_append more)).trans hmore

/-- Where the machine refuses a token, no tokens behind it can help, as it never comes to them. -/
theorem not_viable_of_step_eq_error {before : List Token} {t : Token} {s : Reading}
    {fault : Fault} (htakes : Reading.Takes (.start 0) before s)
    (hstep : s.step t = .error fault) : ¬Viable (before ++ [t]) := by
  rintro ⟨more, f, h⟩
  rw [Filter.ofTokens, Parser.parse, List.append_assoc] at h
  have hrun : ((Reading.start 0).run (before ++ ([t] ++ more))).1 = .error fault.error := by
    rw [htakes.run_append]
    exact Reading.run_of_step_error hstep
  exact absurd (hrun.symm.trans h) (by simp)

/-- The first tokens of viable tokens are viable. -/
theorem Viable.of_append {before after : List Token} (h : Viable (before ++ after)) :
    Viable before := by
  obtain ⟨more, f, h⟩ := h
  exact ⟨after ++ more, f, by rwa [← List.append_assoc]⟩

namespace Filter

/-- **Errors are found as early as can be.** If tokens are no filter, then either the error has
no place, and the tokens are viable, they only end too early; or the error has the place of a
token up to which the tokens are viable, while with it they are not. That is the token that
the error names. -/
theorem ofTokens_error_earliest {e : ParseError} (h : Filter.ofTokens ts = .error e) :
    (e.span? = none ↔ Viable ts) ∧
    ∀ span, e.span? = some span →
      ∃ (i : Nat) (hi : i < ts.length), ts[i].span = span ∧ e.found? = some ts[i] ∧
        Viable (ts.take i) ∧ ¬Viable (ts.take (i + 1)) := by
  rcases Reading.takes_of_run_eq_error h with
    ⟨hnone, s, htakes⟩ | ⟨before, t, after, s, fault, rfl, htakes, hstep, hfound⟩
  · have hspan : e.span? = none := by rw [ParseError.span?, hnone, Option.map_none]
    exact ⟨iff_of_true hspan (viable_iff_takes.2 ⟨s, htakes⟩), by simp [hspan]⟩
  · have hspan : e.span? = some t.span := by rw [ParseError.span?, hfound, Option.map_some]
    have hrefused := not_viable_of_step_eq_error htakes hstep
    have hsplit : before ++ t :: after = before ++ [t] ++ after := by simp
    refine ⟨iff_of_false (by simp [hspan]) fun hviable => ?_, ?_⟩
    · exact hrefused (Viable.of_append (hsplit ▸ hviable))
    · intro span heq
      obtain rfl := Option.some.inj (hspan.symm.trans heq)
      refine ⟨before.length, by simp, by simp, by simpa using hfound, ?_, ?_⟩
      · rw [List.take_left]
        exact viable_iff_takes.2 ⟨s, htakes⟩
      · rw [hsplit, List.take_left' (by simp)]
        exact hrefused

/-- Parentheses that open one after the other, each a byte wide. -/
def openings (n : Nat) : List Token :=
  (List.range n).map fun i => ⟨.lparen, ⟨i, i + 1⟩⟩

/-- Of 130 parentheses that open, 128 can be part of a filter, and the error is at the next. -/
theorem ofTokens_error_earliest_openings :
    Filter.ofTokens (openings 130) = .error (.tooDeep ⟨.lparen, ⟨128, 129⟩⟩) ∧
      ∃ (i : Nat) (hi : i < (openings 130).length), (openings 130)[i].span = ⟨128, 129⟩ ∧
        Viable ((openings 130).take i) ∧ ¬Viable ((openings 130).take (i + 1)) := by
  have h : Filter.ofTokens (openings 130) = .error (.tooDeep ⟨.lparen, ⟨128, 129⟩⟩) := by
    rfl
  obtain ⟨i, hi, hspan, -, hviable⟩ := (ofTokens_error_earliest h).2 ⟨128, 129⟩ rfl
  exact ⟨h, i, hi, hspan, hviable⟩

end Filter

end NestedFilter
