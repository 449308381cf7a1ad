import ChangelogParameters.Proofs.Tag.Beginnings
import Mathlib.Data.List.Infix

/-!
# Unbalanced parentheses

Parentheses are blamed where one closes that was not opened, and in open parentheses wherever the
stages of reading cannot go on behind a complete operand.  `unbalancedParentheses_iff` says which
places these are: the end of the text is one of them, but so is every operand that directly follows
another one inside parentheses, although the parentheses of such a text can pair up.
-/

namespace ChangelogParameters

namespace Expr

/-! ### Where parentheses are blamed -/

/-- The tokens end where a parenthesis could close. -/
def EndsOpen (ts : List Token) : Prop :=
  IsViable (ts ++ [.rightParen])

/-- A parenthesis closes directly behind a sentence. -/
def ClosesUnopened (ts : List Token) : Prop :=
  ∃ before rest, ts = before ++ .rightParen :: rest ∧ IsSentence before

/-- An operand begins where a parenthesis could close. -/
def AdjoinsInside (ts : List Token) : Prop :=
  ∃ before t rest, ts = before ++ t :: rest ∧ BeginsOperand t ∧ IsViable (before ++ [.rightParen])

namespace Stage

/-- No operand begins directly behind a complete one. -/
lemma next?_complete_of_beginsOperand {t : Token} (ht : BeginsOperand t) (depth : Nat) :
    (complete depth).next? t = none := by
  cases ht <;> cases depth <;> rfl

/-- Parentheses are blamed outside of them for one that closes, and inside of them for
the end of the text and for whatever begins an operand. -/
lemma fault_eq_unbalancedParentheses_iff {stage : Stage} {next : Option Token}
    (hstuck : ∀ t, next = some t → stage.next? t = none) :
    stage.fault next = .unbalancedParentheses ∧ ¬ (next = none ∧ stage = complete 0) ↔
      stage = complete 0 ∧ next = some .rightParen ∨
        (∃ depth, stage = complete (depth + 1)) ∧
          (next = none ∨ ∃ t, next = some t ∧ BeginsOperand t) := by
  cases next with
  | none => cases stage with
    | due after depth => simp [fault]
    | complete depth => cases depth <;> simp [fault]
  | some t =>
    have hnone := hstuck t rfl
    match stage with
    | .due after depth => cases t <;> simp [fault]
    | .complete 0 => cases t <;> simp [next?] at hnone <;> simp [fault]
    | .complete (depth + 1) =>
      cases t <;> simp [next?] at hnone <;> simp [beginsOperand_iff]

end Stage

/-- When the stages blame the parentheses. -/
lemma failure?_unbalancedParentheses_iff {ts : List Token} :
    (∃ rest, Stage.start.failure? ts = some ⟨.unbalancedParentheses, rest⟩) ↔
      EndsOpen ts ∨ ClosesUnopened ts ∨ AdjoinsInside ts := by
  constructor
  · rintro ⟨rest, hfailure⟩
    obtain ⟨k, stage, hplace⟩ := Stage.start.exists_stuckAt ts
    have hrun := hplace.run
    obtain ⟨hfault, -, hnot⟩ := hplace.failure?_eq_some_iff.1 hfailure
    have hsplit : ∀ {t}, ts[k]? = some t → ts = ts.take k ++ t :: ts.drop (k + 1) := by
      intro t ht
      obtain ⟨hlt, rfl⟩ := List.getElem?_eq_some_iff.1 ht
      rw [← List.drop_eq_getElem_cons hlt, List.take_append_drop]
    rcases (Stage.fault_eq_unbalancedParentheses_iff hplace.stuck).1 ⟨hfault, hnot⟩ with
      ⟨rfl, hclose⟩ | ⟨⟨depth, rfl⟩, hend | ⟨t, ht, hbegins⟩⟩
    · exact .inr (.inl ⟨_, _, hsplit hclose, exists_phrase_iff_run?.2 hrun⟩)
    · rw [List.take_of_length_le (List.getElem?_eq_none_iff.1 hend)] at hrun
      exact .inl (isViable_append_rightParen_iff.2 ⟨depth, hrun⟩)
    · exact .inr (.inr ⟨_, t, _, hsplit ht, hbegins,
        isViable_append_rightParen_iff.2 ⟨depth, hrun⟩⟩)
  · rintro (hopen | ⟨before, rest, rfl, hsentence⟩ | ⟨before, t, rest, rfl, hbegins, hviable⟩)
    · obtain ⟨depth, hrun⟩ := isViable_append_rightParen_iff.1 hopen
      refine ⟨[], ?_⟩
      rw [← List.append_nil ts, Stage.failure?_append hrun]
      rfl
    · refine ⟨.rightParen :: rest, ?_⟩
      rw [Stage.failure?_append (exists_phrase_iff_run?.1 hsentence)]
      rfl
    · obtain ⟨depth, hrun⟩ := isViable_append_rightParen_iff.1 hviable
      refine ⟨t :: rest, ?_⟩
      rw [Stage.failure?_append hrun, Stage.failure?_cons_of_eq_none
        (Stage.next?_complete_of_beginsOperand hbegins _), Stage.fault_complete_succ]

/-! ### Parentheses that pair up -/

/-- The parentheses of a text pair up: none closes that was not opened, and all are closed. -/
def ParenthesesPair (s : String) : Prop :=
  (∀ before, before <+: s.toList → before.count ')' ≤ before.count '(') ∧
    s.toList.count '(' = s.toList.count ')'

namespace Stage

/-- The number of open parentheses. -/
def depth : Stage → Nat
  | due _ depth => depth
  | complete depth => depth

/-- A run opens and closes parentheses one by one. -/
lemma count_add_depth {stage stage' : Stage} {ts : List Token} (h : stage.run? ts = some stage') :
    ts.count .leftParen + stage.depth = ts.count .rightParen + stage'.depth := by
  induction ts generalizing stage with
  | nil =>
    cases h
    rfl
  | cons t ts ih =>
    rw [run?_cons] at h
    obtain ⟨next, hnext, hrun⟩ := Option.bind_eq_some_iff.1 h
    have hrest := ih hrun
    have hstep : [t].count .leftParen + stage.depth = [t].count .rightParen + next.depth := by
      cases stage with
      | due _ d => cases t <;> cases hnext <;> simp [depth]; omega
      | complete d => cases d <;> cases t <;> cases hnext <;> simp [depth]; omega
    rw [← List.singleton_append, List.count_append, List.count_append]
    omega

end Stage

/-- The parentheses of a text are those among its tokens. -/
lemma count_of_lexes {cs : List Char} {ts : List Token} (h : Token.Lexes cs ts) :
    cs.count '(' = ts.count .leftParen ∧ cs.count ')' = ts.count .rightParen := by
  induction h with
  | nil => exact ⟨rfl, rfl⟩
  | @blank c cs ts hc _ ih =>
    have hopen : c ≠ '(' := by
      rintro rfl
      cases hc
    have hclose : c ≠ ')' := by
      rintro rfl
      cases hc
    simpa [hopen, hclose] using ih
  | @delimiter c t cs ts hc _ ih => cases hc <;> simpa using ih
  | @word w cs t ts _ hw _ ht _ ih =>
    have hopen : w.count '(' = 0 :=
      List.count_eq_zero.2 fun hmem => (hw _ hmem).2 _ .leftParen
    have hclose : w.count ')' = 0 :=
      List.count_eq_zero.2 fun hmem => (hw _ hmem).2 _ .rightParen
    rw [List.count_append, List.count_append, hopen, hclose]
    generalize String.ofList (Text.lowerChars w) = lowered at ht
    cases ht <;> simpa using ih

/-- If a parenthesis is open at the end, or closes without having been opened, then the parentheses
of the text do not pair up. -/
lemma not_parenthesesPair {s : String}
    (h : EndsOpen (Token.scan s) ∨ ClosesUnopened (Token.scan s)) : ¬ ParenthesesPair s := by
  have hlexes : Token.Lexes s.toList (Token.scan s) := Token.lexes_iff_scan.2 rfl
  rintro ⟨hbegin, htotal⟩
  rcases h with hopen | ⟨before, rest, hsplit, hsentence⟩
  · obtain ⟨depth, hrun⟩ := isViable_append_rightParen_iff.1 hopen
    obtain ⟨hleft, hright⟩ := count_of_lexes hlexes
    have hdepth := Stage.count_add_depth hrun
    simp only [Stage.depth, Stage.start] at hdepth
    omega
  · -- the beginning of the text up to this parenthesis has one more that closes
    have happend : Token.scan s = (before ++ [.rightParen]) ++ rest := by rw [hsplit]; simp
    rw [happend] at hlexes
    obtain ⟨cs₁, cs₂, hcs, hbefore, -⟩ := hlexes.exists_append
    obtain ⟨hleft, hright⟩ := count_of_lexes hbefore
    have hle := hbegin cs₁ ⟨cs₂, hcs⟩
    have hdepth := Stage.count_add_depth (exists_phrase_iff_run?.1 hsentence)
    have hnone : [Token.rightParen].count .leftParen = 0 := rfl
    have hone : [Token.rightParen].count .rightParen = 1 := rfl
    rw [List.count_append, hnone] at hleft
    rw [List.count_append, hone] at hright
    simp only [Stage.depth, Stage.start] at hdepth
    omega

/-- **When the parentheses are blamed.**  A text is rejected for its parentheses if one is open at its
end, if one closes directly behind a sentence, or if an operand begins inside parentheses where one
could close; and for no other reason.  In the first two cases the parentheses of the text do not
pair up. -/
theorem unbalancedParentheses_iff (s : String) :
    (∀ source, parse s = .error ⟨.unbalancedParentheses, source⟩ ↔
      source = s ∧ (EndsOpen (Token.scan s) ∨ ClosesUnopened (Token.scan s) ∨
        AdjoinsInside (Token.scan s))) ∧
      (EndsOpen (Token.scan s) ∨ ClosesUnopened (Token.scan s) → ¬ ParenthesesPair s) := by
  refine ⟨fun source => ?_, not_parenthesesPair⟩
  rw [parse_eq_error_iff, ← failure?_unbalancedParentheses_iff]
  refine and_congr_right fun _ => and_iff_right_of_imp ?_
  rintro ⟨rest, hfailure⟩ hnil
  rw [hnil] at hfailure
  cases hfailure

/-- A text with paired parentheses is blamed for them as well: `b` directly follows `a` inside. -/
theorem not_unpaired_of_unbalancedParentheses :
    ¬ ∀ s source, parse s = .error ⟨.unbalancedParentheses, source⟩ → ¬ ParenthesesPair s := by
  intro h
  have hparse : parse "(a b)" = .error ⟨.unbalancedParentheses, "(a b)"⟩ :=
    parse_eq_error_iff.2 ⟨rfl, by decide +kernel, [.word "b", .rightParen], by decide +kernel⟩
  have hbegin : ∀ before ∈ "(a b)".toList.inits, before.count ')' ≤ before.count '(' := by
    decide
  refine h "(a b)" "(a b)" hparse ⟨fun before hbefore => ?_, rfl⟩
  exact hbegin before ((List.mem_inits _ _).2 hbefore)

end Expr

end ChangelogParameters
