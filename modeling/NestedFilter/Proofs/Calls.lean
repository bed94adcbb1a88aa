import Mathlib.Data.List.Infix
import NestedFilter.Proofs.Recognition
import NestedFilter.Proofs.Viable

/-!
# A parser that is called again

A parser keeps its place in the tokens and the number of parentheses that count as open, so it
can be called any number of times, behind filters and behind errors
(`NestedFilter.Parser.after`). Within a call it is a state of the machine, behind the tokens
that have been taken (`NestedFilter.Reading.Takes`), and there are three ways in which a call
ends (`NestedFilter.Reading.Ends`).

**What becomes of the two numbers.** The place never moves back, and no more parentheses count
as open than may be nested, in the middle of a call and behind errors too
(`NestedFilter.Parser.calls_stay_in_bounds`). The limit rests on this, as it is a test for
equality: a number that had got past it would never meet it again.

**How such a parser differs from a fresh one** over the tokens that are left. What an error
leaves open stays open, so later calls may open less; but for that limit nothing is different
(`NestedFilter.Parser.parse_after_eq_fresh_iff`). The two are compared within a call, as one
machine on two numbers of parentheses that were open before (`NestedFilter.Reading.onBase`):
they take the same steps as long as the one with more open has room for one more.

That they come to different ends where it has none still has to be shown. The other one opens
this parenthesis, and reads on; why should it not end in the very same error at the next one?
It may well name an equal token, but then it has used up that token too, so that fewer tokens
are left than the first has left (`NestedFilter.Reading.run_onBase_ne`). With both, error and
tokens left, there is an equivalence, and `NestedFilter.Parser.deepBehindError` is a list of tokens
on which one fails and the other reads a filter.
-/

namespace NestedFilter

namespace Reading

variable {s s' : Reading} {t u : Token} {ts taken rest : List Token} {fault : Fault}
  {f : Filter} {e : ParseError} {b : Nat}

/-! ### Within a call -/

/-- What counted as open before a call does so throughout it: a token changes what the call
itself has opened, and nothing else. -/
theorem Takes.base_eq (h : Takes s taken s') : s'.base = s.base := by
  induction h with
  | nil => rfl
  | cons hstep _ ih => rw [ih, (adjacent_of_step hstep).base_eq]

/-- **Tokens that are taken keep to the bound.** One step does, since a parenthesis is only taken
where the bound is not met yet; so any number of steps do. -/
theorem Takes.depth_le (h : Takes s taken s') (hdepth : s.depth ≤ maxNesting) :
    s'.depth ≤ maxNesting := by
  induction h with
  | nil => exact hdepth
  | cons hstep _ ih => exact ih (depth_le_of_step hstep hdepth)

/-- What an error leaves open lies between what was open before the call and what is open. It is
less than the latter only where a chain may end, as the parenthesis around it then counts as
closed already. -/
theorem base_le_depthLeft_le (s : Reading) : s.base ≤ s.depthLeft ∧ s.depthLeft ≤ s.depth := by
  have htail : s.enclosing.tail.length ≤ s.enclosing.length := by simp
  cases hs : s.phase <;> simp only [depthLeft, hs, depth] <;> omega

/-- **How a call ends** in a state, where the given tokens are left: with a filter, with an error
as there are no more tokens, or with an error at a token that is refused. -/
inductive Ends (s : Reading) : List Token → Except ParseError Filter × Parser → Prop
  /-- A filter, which takes all tokens. -/
  | filter {f : Filter} (h : s.finish = .ok f) : Ends s [] (.ok f, ⟨[], s.base⟩)
  /-- The tokens end too early. -/
  | early {e : ParseError} (h : s.finish = .error e) : Ends s [] (.error e, ⟨[], s.depthLeft⟩)
  /-- A token is refused, and may be used up all the same. -/
  | refused {t : Token} {rest : List Token} {fault : Fault} (h : s.step t = .error fault) :
      Ends s (t :: rest)
        (.error fault.error, ⟨if fault.consumed then rest else t :: rest, s.depthLeft⟩)

/-- **A call takes tokens, and then it ends.** All that follows about whole calls is said of the
three ways in which they end, once the tokens that were taken have been dealt with. -/
theorem exists_takes_ends (s : Reading) (ts : List Token) :
    ∃ taken left s', ts = taken ++ left ∧ Takes s taken s' ∧ Ends s' left (s.run ts) := by
  induction ts generalizing s with
  | nil =>
    refine ⟨[], [], s, rfl, .nil, ?_⟩
    rw [run]
    split
    · next hfinish => exact .filter hfinish
    · next hfinish => exact .early hfinish
  | cons t ts ih =>
    rw [run]
    split
    · next next hstep =>
      obtain ⟨taken, left, s', rfl, htakes, hends⟩ := ih next
      exact ⟨t :: taken, left, s', rfl, .cons hstep htakes, hends⟩
    · next hstep => exact ⟨[], t :: ts, s, rfl, .nil, .refused hstep⟩

variable {outcome : Except ParseError Filter × Parser}

theorem Ends.rest_suffix (h : Ends s ts outcome) : outcome.2.rest <:+ ts := by
  cases h with
  | filter | early => exact List.suffix_refl _
  | refused _ =>
    split
    · exact List.suffix_cons _ _
    · exact List.suffix_refl _

/-- A call leaves no more open than may be nested, and no less than was open before it. -/
theorem Ends.depth_le (h : Ends s ts outcome) (hdepth : s.depth ≤ maxNesting) :
    s.base ≤ outcome.2.depth ∧ outcome.2.depth ≤ maxNesting := by
  obtain ⟨hbase, hleft⟩ := s.base_le_depthLeft_le
  cases h with
  | filter => exact ⟨Nat.le_refl _, hbase.trans (hleft.trans hdepth)⟩
  | early | refused => exact ⟨hbase, hleft.trans hdepth⟩

/-- Only where no token is left a call ends with a filter, and then it has closed all that it
has opened. -/
theorem Ends.eq_of_ok (h : Ends s ts outcome) (hok : outcome.1 = .ok f) :
    outcome.2 = ⟨[], s.base⟩ := by
  cases h with
  | filter _ => rfl
  | early _ | refused _ => exact absurd hok (by simp)

theorem rest_suffix_run (s : Reading) (ts : List Token) : (s.run ts).2.rest <:+ ts := by
  obtain ⟨taken, left, s', rfl, -, hends⟩ := s.exists_takes_ends ts
  exact hends.rest_suffix.trans (List.suffix_append _ _)

/-! ### Another number of open parentheses -/

/-- The state, had `b` parentheses counted as open before the call. The chains around the one being
read are the same, so it is the number of open parentheses that differs, by the same amount
throughout the call. -/
def onBase (s : Reading) (b : Nat) : Reading :=
  { s with base := b }

theorem takeClosing_onBase (s : Reading) (b : Nat) (t : Token) :
    (s.onBase b).takeClosing t = (s.takeClosing t).map (·.onBase b) := by
  obtain ⟨base, enclosing, c, phase⟩ := s
  cases enclosing with
  | nil => rfl
  | cons outer enclosing =>
    simp only [onBase, takeClosing, refuse]
    split <;> rfl

/-- What counted as open before matters only where one more parenthesis is opened. -/
theorem step_onBase (h : ¬(s.phase = .operand ∧ t.lexeme = .lparen)) :
    (s.onBase b).step t = (s.step t).map (·.onBase b) := by
  obtain ⟨base, enclosing, c, phase⟩ := s
  cases phase with
  | ended => exact takeClosing_onBase _ b t
  | closed =>
    have hclosing := takeClosing_onBase ⟨base, enclosing, c, .closed⟩ b t
    simp only [onBase, step] at hclosing ⊢
    split <;> first | rfl | exact hclosing
  | operand =>
    simp only [onBase, step, takeOpening, refuse]
    split
    · next hparen => exact absurd ⟨rfl, hparen⟩ h
    · rfl
    · rfl
  | operator | scalar | listStart | listItem | listNext =>
    simp only [onBase, step, refuse]
    split <;> rfl

/-- There is either room for a parenthesis or not, and that is the whole difference. -/
theorem step_opening (hs : s.phase = .operand) (ht : t.lexeme = .lparen) :
    s.step t = if s.depth = maxNesting then .error ⟨.tooDeep t, true⟩
      else .ok
        { s with enclosing := s.chain :: s.enclosing, chain := .empty, phase := .operand } := by
  rw [step, hs]
  simp only [takeOpening, ht]

/-- **With less open, the machine takes the same step**, unless there was no room for one more
parenthesis. In every other case the number is not looked at, or there is room in both. -/
theorem step_onBase_or_tooDeep (hb : b ≤ s.base) (hdepth : s.depth ≤ maxNesting) (t : Token) :
    (s.onBase b).step t = (s.step t).map (·.onBase b) ∨ s.step t = .error ⟨.tooDeep t, true⟩ := by
  by_cases hopening : s.phase = .operand ∧ t.lexeme = .lparen
  · obtain ⟨hs, ht⟩ := hopening
    rw [step_opening hs ht, step_opening (s := s.onBase b) hs ht]
    by_cases hfull : s.depth = maxNesting
    · exact .inr (if_pos hfull)
    · have hroom : (s.onBase b).depth ≠ maxNesting := by
        simp only [depth, onBase] at hdepth hfull ⊢
        omega
      rw [if_neg hfull, if_neg hroom]
      exact .inl rfl
  · exact .inl (step_onBase hopening)

/-- **With less open, the machine reads the same**, unless it comes to a parenthesis for which
there is no room. The same are the outcome and the tokens that are left; the numbers that are
left differ as they did before. -/
theorem run_onBase_or_tooDeep (hb : b ≤ s.base) (hdepth : s.depth ≤ maxNesting) :
    (((s.onBase b).run ts).1 = (s.run ts).1 ∧ ((s.onBase b).run ts).2.rest = (s.run ts).2.rest) ∨
      ∃ t, (s.run ts).1 = .error (.tooDeep t) := by
  induction ts generalizing s with
  | nil =>
    have hfinish : (s.onBase b).finish = s.finish := rfl
    rw [run, run, hfinish]
    split <;> exact .inl ⟨rfl, rfl⟩
  | cons t ts ih =>
    rcases step_onBase_or_tooDeep hb hdepth t with heq | hdeep
    · cases hstep : s.step t with
      | error fault =>
        rw [hstep] at heq
        rw [run, run, hstep, heq]
        exact .inl ⟨rfl, rfl⟩
      | ok s' =>
        rw [hstep] at heq
        rw [run_of_step_ok hstep, run_of_step_ok heq]
        refine ih ?_ (depth_le_of_step hstep hdepth)
        rwa [(adjacent_of_step hstep).base_eq]
    · exact .inr ⟨t, by rw [run_of_step_error hdeep]⟩

/-- Only a parenthesis that opens is found to be nested too deep. -/
theorem opening_of_tooDeep (hstep : s.step t = .error fault) (hdeep : fault.error = .tooDeep u) :
    s.phase = .operand ∧ t.lexeme = .lparen := by
  cases hs : s.phase <;> simp only [step, hs, takeOpening, takeClosing, refuse] at hstep
  all_goals
    repeat' split at hstep
    all_goals first
      | exact ⟨rfl, ‹_›⟩
      | (obtain rfl := Except.error.inj hstep; exact absurd hdeep (by simp))
      | exact absurd hstep (by simp)

/-- Such a parenthesis is used up, and with less open there is room for it: behind it the one
machine has come to its end, and the other reads on. -/
theorem eq_of_tooDeep (hstep : s.step t = .error fault) (hdeep : fault.error = .tooDeep u) :
    fault.consumed = true ∧ ∀ b < s.base, ∃ s', (s.onBase b).step t = .ok s' := by
  obtain ⟨hs, ht⟩ := opening_of_tooDeep hstep hdeep
  rw [step_opening hs ht] at hstep
  split at hstep
  · next hfull =>
    obtain rfl := Except.error.inj hstep
    refine ⟨rfl, fun b hb => ?_⟩
    have hroom : (s.onBase b).depth ≠ maxNesting := by
      simp only [depth, onBase] at hfull ⊢
      omega
    rw [step_opening (s := s.onBase b) hs ht, if_neg hroom]
    exact ⟨_, rfl⟩
  · exact absurd hstep (by simp)

theorem Ends.length_rest_lt (h : Ends s ts outcome) (hdeep : outcome.1 = .error (.tooDeep u)) :
    outcome.2.rest.length < ts.length := by
  cases h with
  | filter _ => exact absurd hdeep (by simp)
  | early hfinish =>
    have hnone := found?_of_finish_eq_error hfinish
    rw [Except.error.inj hdeep] at hnone
    exact absurd hnone (by simp [ParseError.found?])
  | refused hstep =>
    obtain ⟨hconsumed, -⟩ := eq_of_tooDeep hstep (Except.error.inj hdeep)
    simp [hconsumed]

theorem length_rest_lt_of_tooDeep (h : (s.run ts).1 = .error (.tooDeep u)) :
    (s.run ts).2.rest.length < ts.length := by
  obtain ⟨taken, left, s', hsplit, -, hends⟩ := s.exists_takes_ends ts
  have hlt := hends.length_rest_lt h
  rw [hsplit, List.length_append]
  exact hsplit ▸ Nat.lt_of_lt_of_le hlt (Nat.le_add_left _ _)

/-- **With less open, the machine gets past such a parenthesis**, so it does not end there with
the same error. -/
theorem run_onBase_ne (hb : b < s.base) (hdepth : s.depth ≤ maxNesting)
    (h : (s.run ts).1 = .error (.tooDeep u)) :
    ¬(((s.onBase b).run ts).1 = (s.run ts).1 ∧
      ((s.onBase b).run ts).2.rest = (s.run ts).2.rest) := by
  induction ts generalizing s with
  | nil => exact absurd (length_rest_lt_of_tooDeep h) (Nat.not_lt_zero _)
  | cons t ts ih =>
    cases hstep : s.step t with
    | ok s' =>
      have heq :=
        (step_onBase_or_tooDeep (Nat.le_of_lt hb) hdepth t).resolve_right (by simp [hstep])
      rw [hstep] at heq
      rw [run_of_step_ok hstep] at h ⊢
      rw [run_of_step_ok heq]
      refine ih ?_ (depth_le_of_step hstep hdepth) h
      rwa [(adjacent_of_step hstep).base_eq]
    | error fault =>
      have herror := h
      rw [run_of_step_error hstep] at herror
      obtain ⟨hconsumed, hroom⟩ := eq_of_tooDeep hstep (Except.error.inj herror)
      obtain ⟨s', hstep'⟩ := hroom b hb
      have hleft : (s.run (t :: ts)).2.rest = ts := by
        rw [run, hstep]
        exact if_pos hconsumed
      rw [run_of_step_ok hstep', hleft]
      rintro ⟨hsame, hrest⟩
      -- Such an error behind the parenthesis would leave less.
      have hlt := length_rest_lt_of_tooDeep (hsame.trans h)
      rw [hrest] at hlt
      exact Nat.lt_irrefl _ hlt

end Reading

namespace Parser

variable {p : Parser}

/-! ### One call -/

theorem rest_suffix_parse (p : Parser) : p.parse.2.rest <:+ p.rest :=
  (Reading.start p.depth).rest_suffix_run p.rest

/-- **A call keeps to the bound** and closes nothing that was open before it. -/
theorem depth_le_parse (hdepth : p.depth ≤ maxNesting) :
    p.depth ≤ p.parse.2.depth ∧ p.parse.2.depth ≤ maxNesting := by
  have hstart : (Reading.start p.depth).depth ≤ maxNesting := hdepth
  obtain ⟨taken, left, s, -, htakes, hends⟩ := (Reading.start p.depth).exists_takes_ends p.rest
  have h := hends.depth_le (htakes.depth_le hstart)
  rwa [htakes.base_eq] at h

/-- A call that returns a filter has taken all tokens and closed all that it has opened. -/
theorem parse_snd_of_eq_ok {f : Filter} (h : p.parse.1 = .ok f) : p.parse.2 = ⟨[], p.depth⟩ := by
  obtain ⟨taken, left, s, -, htakes, hends⟩ := (Reading.start p.depth).exists_takes_ends p.rest
  have hend := hends.eq_of_ok h
  rwa [htakes.base_eq] at hend

/-! ### Any number of calls -/

/-- The parser behind a number of calls. -/
def after (p : Parser) : Nat → Parser
  | 0 => p
  | n + 1 => p.parse.2.after n

theorem after_succ (p : Parser) (n : Nat) : p.after (n + 1) = (p.after n).parse.2 := by
  induction n generalizing p with
  | zero => rfl
  | succ n ih => exact ih p.parse.2

/-- A call finds the parser as the calls before it have left it. -/
theorem parseTimes_eq_map (p : Parser) (n : Nat) :
    p.parseTimes n = (List.range n).map fun i => (p.after i).parse.1 := by
  induction n generalizing p with
  | zero => rfl
  | succ n ih =>
    change p.parse.1 :: p.parse.2.parseTimes n = _
    rw [ih, List.range_succ_eq_map, List.map_cons, List.map_map]
    rfl

/-- **Any number of calls keep to the bound.** A fresh parser has nothing open, and a call that
starts within the bound ends within it, with whatever outcome. -/
theorem depth_after_le (ts : List Token) (n : Nat) :
    ((ofTokens ts).after n).depth ≤ maxNesting := by
  induction n with
  | zero => exact Nat.zero_le maxNesting
  | succ n ih =>
    rw [after_succ]
    exact (depth_le_parse ih).2

theorem rest_suffix_after (ts : List Token) (n : Nat) : ((ofTokens ts).after n).rest <:+ ts := by
  induction n with
  | zero => exact List.suffix_refl ts
  | succ n ih =>
    rw [after_succ]
    exact (rest_suffix_parse _).trans ih

/-- The place in the tokens `ts` at which `rest` is left of them, as the number of tokens that have
been taken or used up. -/
def place (ts rest : List Token) : Nat :=
  ts.length - rest.length

theorem place_le_place {ts rest rest' : List Token} (h : rest' <:+ rest) :
    place ts rest ≤ place ts rest' :=
  Nat.sub_le_sub_left h.length_le _

/-- Some tokens are left at a place, and a number of parentheses counts as open. -/
structure InBounds (ts rest : List Token) (depth : Nat) : Prop where
  /-- The place is one in the tokens. -/
  place_le : place ts rest ≤ ts.length
  /-- What stands there and behind it is left. -/
  rest_eq : rest = ts.drop (place ts rest)
  /-- No more parentheses count as open than may be nested. -/
  depth_le : depth ≤ maxNesting

theorem inBounds_of_suffix {ts rest : List Token} {depth : Nat} (hrest : rest <:+ ts)
    (hdepth : depth ≤ maxNesting) : InBounds ts rest depth where
  place_le := Nat.sub_le _ _
  rest_eq := List.suffix_iff_eq_drop.1 hrest
  depth_le := hdepth

/-- What a call on the parser `p`, of which the tokens were `ts` at the start, keeps to. -/
structure CallInBounds (ts : List Token) (p : Parser) : Prop where
  /-- The parser is in bounds before the call. -/
  before : InBounds ts p.rest p.depth
  /-- So it is behind the call. -/
  behind : InBounds ts p.parse.2.rest p.parse.2.depth
  /-- So it is in the middle of the call, behind whatever tokens. Where a chain ends, the
  parenthesis around it counts as closed before it is read; no more than that is closed. -/
  within : ∀ taken rest s, p.rest = taken ++ rest → Reading.Takes (.start p.depth) taken s →
    InBounds ts rest s.depth ∧ p.depth ≤ s.depthLeft ∧ s.depthLeft ≤ s.depth
  /-- The chains around the one being read, which are the calls that wait for others within this
  one, are no more than the parentheses that may still be opened. -/
  levels : ∀ taken rest s, p.rest = taken ++ rest → Reading.Takes (.start p.depth) taken s →
    s.enclosing.length ≤ maxNesting - p.depth
  /-- The place does not move back, neither up to the middle of the call nor from there on. -/
  forward : ∀ taken rest s, p.rest = taken ++ rest → Reading.Takes (.start p.depth) taken s →
    place ts p.rest ≤ place ts rest ∧ place ts rest ≤ place ts p.parse.2.rest
  /-- With a filter the call has closed all that it has opened, and no token is left. -/
  filter : ∀ f, p.parse.1 = .ok f →
    p.parse.2.depth = p.depth ∧ place ts p.parse.2.rest = ts.length
  /-- With an error it has closed nothing that was open before. -/
  error : ∀ e, p.parse.1 = .error e → p.depth ≤ p.parse.2.depth

/-- **However often a parser is called, it stays in bounds**, before and behind each call, in the
middle of it, and behind errors. -/
theorem calls_stay_in_bounds (ts : List Token) (n : Nat) :
    CallInBounds ts ((ofTokens ts).after n) := by
  obtain ⟨p, hp⟩ : ∃ p, (ofTokens ts).after n = p := ⟨_, rfl⟩
  have hdepth : p.depth ≤ maxNesting := hp ▸ depth_after_le ts n
  have hrest : p.rest <:+ ts := hp ▸ rest_suffix_after ts n
  have hwithin : ∀ taken s, Reading.Takes (.start p.depth) taken s → s.depth ≤ maxNesting :=
    fun taken s htakes =>
      htakes.depth_le (show (Reading.start p.depth).depth ≤ maxNesting from hdepth)
  rw [hp]
  refine ⟨inBounds_of_suffix hrest hdepth,
    inBounds_of_suffix ((rest_suffix_parse p).trans hrest) (depth_le_parse hdepth).2, ?_, ?_, ?_,
    ?_, fun e _ => (depth_le_parse hdepth).1⟩
  · intro taken rest s hsplit htakes
    have hleft := s.base_le_depthLeft_le
    rw [htakes.base_eq] at hleft
    have hsuffix : rest <:+ p.rest := ⟨taken, hsplit.symm⟩
    exact ⟨inBounds_of_suffix (hsuffix.trans hrest) (hwithin taken s htakes), hleft⟩
  · intro taken rest s hsplit htakes
    have hle := hwithin taken s htakes
    rw [Reading.depth, htakes.base_eq] at hle
    exact Nat.le_sub_of_add_le' hle
  · intro taken rest s hsplit htakes
    have hend : p.parse.2.rest = (s.run rest).2.rest := by
      rw [parse, hsplit, htakes.run_append]
    refine ⟨place_le_place ⟨taken, hsplit.symm⟩, place_le_place ?_⟩
    rw [hend]
    exact s.rest_suffix_run rest
  · intro f hok
    rw [parse_snd_of_eq_ok hok]
    exact ⟨rfl, Nat.sub_zero _⟩

/-! ### A fresh parser over what is left -/

/-- What a parser reads nests no deeper than it may with what counts as open already. Reading is
derivation, for the parser with less room than for a fresh one, and a derivation can do with as
much room as its lexemes nest. -/
theorem parse_eq_ok_iff_fresh (hdepth : p.depth ≤ maxNesting) (f : Filter) :
    p.parse.1 = .ok f ↔ (ofTokens p.rest).parse.1 = .ok f ∧
      nestingFrom p.depth (p.rest.map (·.lexeme)) ≤ maxNesting := by
  have hfresh := parse_eq_ok_iff (p := ofTokens p.rest) (f := f) (Nat.zero_le maxNesting)
  rw [parse_eq_ok_iff hdepth, hfresh]
  have hnesting : ∀ {d}, Nests (p.rest.map (·.lexeme)) d →
      nestingFrom p.depth (p.rest.map (·.lexeme)) = p.depth + d := by
    intro d hnests
    have h := hnests p.depth []
    rwa [List.append_nil, nestingFrom, Nat.max_eq_left (Nat.le_add_right _ _)] at h
  constructor
  · rintro ⟨runs, hruns, rfl⟩
    obtain ⟨d, hd, -, hnests⟩ := hruns.exists_nests
    refine ⟨⟨runs, hruns.mono (Nat.sub_le_sub_left (Nat.zero_le _) _), rfl⟩, ?_⟩
    rw [hnesting hnests]
    omega
  · rintro ⟨⟨runs, hruns, rfl⟩, hle⟩
    obtain ⟨d, -, hd, hnests⟩ := hruns.exists_nests
    rw [hnesting hnests] at hle
    exact ⟨runs, hd.mono (Nat.le_sub_of_add_le' hle), rfl⟩

/-- A parser reads as a fresh one does over the tokens that are left, unless nothing but the
number of parentheses that count as open keeps it from opening another. -/
theorem parse_eq_fresh_iff (hdepth : p.depth ≤ maxNesting) :
    (p.parse.1 = (ofTokens p.rest).parse.1 ∧
        p.parse.2.rest = (ofTokens p.rest).parse.2.rest) ↔
      p.depth = 0 ∨ ∀ t, p.parse.1 ≠ .error (.tooDeep t) := by
  have hstart : (Reading.start p.depth).depth ≤ maxNesting := hdepth
  constructor
  · rintro ⟨houtcome, hrest⟩
    rcases Nat.eq_zero_or_pos p.depth with hzero | hpos
    · exact .inl hzero
    · refine .inr fun t hdeep => ?_
      exact Reading.run_onBase_ne hpos hstart hdeep ⟨houtcome.symm, hrest.symm⟩
  · rintro (hzero | hnot)
    · have hp : p = ofTokens p.rest := by
        rw [ofTokens, ← hzero]
      rw [← hp]
      exact ⟨rfl, rfl⟩
    · rcases Reading.run_onBase_or_tooDeep (Nat.zero_le _) hstart with hsame | ⟨t, hdeep⟩
      · exact ⟨hsame.1.symm, hsame.2.symm⟩
      · exact absurd hdeep (hnot t)

/-- **A parser that has been called before, and a fresh one over the tokens that are left.** The
next of its calls is the same, filter or error and the tokens that it leaves, exactly if no
parenthesis has been left open or the call does not come to one that is nested too deep. What it
reads is what a fresh one reads and what nests no deeper than `NestedFilter.maxNesting`, with the
parentheses counted that have been left open. -/
theorem parse_after_eq_fresh_iff (ts : List Token) (n : Nat) :
    let p := (ofTokens ts).after n
    ((ofTokens ts).parseTimes (n + 1))[n]? = some p.parse.1 ∧
    ((p.parse.1 = (ofTokens p.rest).parse.1 ∧
        p.parse.2.rest = (ofTokens p.rest).parse.2.rest) ↔
      p.depth = 0 ∨ ∀ t, p.parse.1 ≠ .error (.tooDeep t)) ∧
    ∀ f, p.parse.1 = .ok f ↔ (ofTokens p.rest).parse.1 = .ok f ∧
      nestingFrom p.depth (p.rest.map (·.lexeme)) ≤ maxNesting := by
  have hdepth := depth_after_le ts n
  refine ⟨?_, parse_eq_fresh_iff hdepth, parse_eq_ok_iff_fresh hdepth⟩
  rw [parseTimes_eq_map]
  simp

/-- A field in a parenthesis without an operator, and behind it a condition in as many
parentheses as may be nested. -/
def deepBehindError : List Token :=
  Reading.unplaced ([.lparen, .field "a", .field "a"] ++ List.replicate maxNesting .lparen ++
    [.field "a", .comparison .equal, .value "1"] ++ List.replicate maxNesting .rparen)

/-- The error leaves its parenthesis open, and with it the condition is nested too deep. -/
theorem not_forall_parse_after_eq_fresh :
    ¬∀ ts n, ((ofTokens ts).after n).parse.1 =
      (ofTokens ((ofTokens ts).after n).rest).parse.1 := by
  intro h
  have hagain : ((ofTokens deepBehindError).after 1).parse.1 =
      .error (.tooDeep ⟨.lparen, ⟨0, 0⟩⟩) := by
    decide +kernel
  have hfresh : (ofTokens ((ofTokens deepBehindError).after 1).rest).parse.1 =
      .ok (.leaf ⟨"a", .compare .equal "1"⟩) := by
    decide +kernel
  have heq := h deepBehindError 1
  rw [hagain, hfresh] at heq
  exact absurd heq (by simp)

end Parser

end NestedFilter
