import ChangelogParameters.Proofs.Tag.Stages
import Mathlib.Data.List.Induction
import Mathlib.Order.Bounds.Basic

/-!
# Beginnings of sentences

What a sentence of the grammar can begin with are the sequences of tokens that lead from one stage
of reading to the next: every stage can be closed, by a tag name where an operand is due and by the
parentheses that are still missing.

So the longest beginning of a sequence of tokens with which a sentence can begin ends where the
stages cannot go on, or with the sequence (`Stage.StuckAt.longestViable`), and its stage alone
decides what is wrong behind it (`Stage.StuckAt.parse_eq_error_iff`).
-/

namespace ChangelogParameters

namespace Expr

/-! ### Beginnings of sentences -/

/-- The sentences of the grammar are the texts of its lists. -/
def IsSentence (ts : List Token) : Prop :=
  ∃ p : Phrase .list, p.tokens = ts

/-- What a sentence can begin with. -/
def IsViable (ts : List Token) : Prop :=
  ∃ more, IsSentence (ts ++ more)

/-- An operand is due where a tag name can come next. -/
def AwaitsOperand (ts : List Token) : Prop :=
  ∃ n, IsViable (ts ++ [.word n])

/-- The tokens with which operands begin. -/
inductive BeginsOperand : Token → Prop
  | name (n : String) : BeginsOperand (.word n)
  | group : BeginsOperand .leftParen
  | not : BeginsOperand .not

lemma beginsOperand_iff {t : Token} :
    BeginsOperand t ↔ (∃ n, t = .word n) ∨ t = .leftParen ∨ t = .not := by
  constructor
  · rintro (⟨n⟩ | _ | _)
    · exact .inl ⟨n, rfl⟩
    · exact .inr (.inl rfl)
    · exact .inr (.inr rfl)
  · rintro (⟨n, rfl⟩ | rfl | rfl)
    · exact .name n
    · exact .group
    · exact .not

/-- The number of tokens in the longest beginning with which a sentence can begin. -/
def LongestViable (ts : List Token) (k : Nat) : Prop :=
  IsGreatest {n | n ≤ ts.length ∧ IsViable (ts.take n)} k

/-! ### Beginnings and stages -/

namespace Stage

/-- Tokens that complete an operand outside all parentheses. -/
def closing : Stage → List Token
  | due _ depth => .word "" :: List.replicate depth .rightParen
  | complete depth => List.replicate depth .rightParen

lemma run?_replicate_rightParen (depth : Nat) :
    (complete depth).run? (List.replicate depth .rightParen) = some (complete 0) := by
  induction depth with
  | zero => rfl
  | succ depth ih =>
    rw [List.replicate_succ, run?_cons, next?_rightParen, Option.bind_some, ih]

/-- Every stage can be closed. -/
lemma run?_closing (stage : Stage) : stage.run? stage.closing = some (complete 0) := by
  cases stage with
  | due after depth => exact run?_replicate_rightParen depth
  | complete depth => exact run?_replicate_rightParen depth

/-- What is due is remembered with the token before. -/
lemma eq_some_of_next?_eq_due {stage : Stage} {t : Token} {after : Option Token} {depth : Nat}
    (h : stage.next? t = some (due after depth)) : after = some t := by
  cases stage with
  | due _ _ => cases t <;> cases h <;> rfl
  | complete d => cases d <;> cases t <;> cases h <;> rfl

/-- The token before an operand that is due is the last one of the run. -/
lemma eq_getLast?_of_run?_eq_due {ts : List Token} {after : Option Token} {depth : Nat}
    (h : start.run? ts = some (due after depth)) : after = ts.getLast? := by
  induction ts using List.reverseRecOn with
  | nil =>
    cases h
    rfl
  | append_singleton ts t _ =>
    rw [run?_append] at h
    obtain ⟨stage, -, hstep⟩ := Option.bind_eq_some_iff.1 h
    obtain ⟨next, hnext, hrun⟩ := Option.bind_eq_some_iff.1 hstep
    cases hrun
    rw [eq_some_of_next?_eq_due hnext, List.getLast?_concat]

end Stage

/-- The beginnings of sentences are the runs. -/
lemma isViable_iff_run? {ts : List Token} :
    IsViable ts ↔ ∃ stage, Stage.start.run? ts = some stage := by
  constructor
  · rintro ⟨more, hsentence⟩
    rw [IsSentence, exists_phrase_iff_run?, Stage.run?_append] at hsentence
    obtain ⟨stage, hstage, -⟩ := Option.bind_eq_some_iff.1 hsentence
    exact ⟨stage, hstage⟩
  · rintro ⟨stage, hstage⟩
    refine ⟨stage.closing, exists_phrase_iff_run?.2 ?_⟩
    rw [Stage.run?_append_of_eq_some hstage, stage.run?_closing]

/-- What begins a beginning of a sentence begins the sentence too. -/
lemma IsViable.of_beginning {ts ts' : List Token} (h : IsViable ts') (hbegin : ts <+: ts') :
    IsViable ts := by
  obtain ⟨more, rfl⟩ := hbegin
  obtain ⟨more', hsentence⟩ := h
  exact ⟨more ++ more', by rwa [← List.append_assoc]⟩

/-- One more token can follow where the stage has a next one. -/
lemma isViable_append_iff {ts : List Token} {t : Token} :
    IsViable (ts ++ [t]) ↔ ∃ stage next, Stage.start.run? ts = some stage ∧
      stage.next? t = some next := by
  rw [isViable_iff_run?, Stage.run?_append]
  constructor
  · rintro ⟨next, h⟩
    obtain ⟨stage, hstage, hnext⟩ := Option.bind_eq_some_iff.1 h
    obtain ⟨next', hnext', -⟩ := Option.bind_eq_some_iff.1 hnext
    exact ⟨stage, next', hstage, hnext'⟩
  · rintro ⟨stage, next, hstage, hnext⟩
    exact ⟨next, by rw [hstage, Option.bind_some, Stage.run?_cons, hnext]; rfl⟩

lemma awaitsOperand_iff_run? {ts : List Token} :
    AwaitsOperand ts ↔ ∃ after depth, Stage.start.run? ts = some (.due after depth) := by
  constructor
  · rintro ⟨n, hviable⟩
    obtain ⟨stage, next, hstage, hnext⟩ := isViable_append_iff.1 hviable
    cases stage with
    | due after depth => exact ⟨after, depth, hstage⟩
    | complete depth => cases depth <;> cases hnext
  · rintro ⟨after, depth, hstage⟩
    exact ⟨"", isViable_append_iff.2 ⟨_, _, hstage, rfl⟩⟩

/-- A parenthesis can close where an operand is complete inside one. -/
lemma isViable_append_rightParen_iff {ts : List Token} :
    IsViable (ts ++ [.rightParen]) ↔
      ∃ depth, Stage.start.run? ts = some (.complete (depth + 1)) := by
  rw [isViable_append_iff]
  constructor
  · rintro ⟨stage, next, hstage, hnext⟩
    match stage with
    | .due _ _ | .complete 0 => cases hnext
    | .complete (depth + 1) => exact ⟨depth, hstage⟩
  · rintro ⟨depth, hstage⟩
    exact ⟨_, _, hstage, rfl⟩

/-! ### The place of a fault -/

namespace Stage

/-- The first tokens lead from one stage to another, where the next token cannot stand or the tokens
end. -/
structure StuckAt (stage : Stage) (ts : List Token) (k : Nat) (stage' : Stage) : Prop where
  /-- The place is among the tokens or at their end. -/
  le : k ≤ ts.length
  /-- The tokens before it are a run. -/
  run : stage.run? (ts.take k) = some stage'
  /-- No token that stands there goes on with the run. -/
  stuck : ∀ t, ts[k]? = some t → stage'.next? t = none

/-- Every sequence of tokens has such a place. -/
lemma exists_stuckAt (stage : Stage) (ts : List Token) :
    ∃ k stage', stage.StuckAt ts k stage' := by
  induction ts generalizing stage with
  | nil => exact ⟨0, stage, Nat.le_refl _, rfl, by simp⟩
  | cons t ts ih =>
    cases hnext : stage.next? t with
    | none => exact ⟨0, stage, Nat.zero_le _, rfl, by simpa using hnext⟩
    | some next =>
      obtain ⟨k, stage', hk, hrun, hstuck⟩ := ih next
      refine ⟨k + 1, stage', Nat.succ_le_succ hk, ?_, by simpa using hstuck⟩
      rw [List.take_succ_cons, run?_cons, hnext, Option.bind_some, hrun]

namespace StuckAt

variable {stage stage' : Stage} {ts : List Token} {k : Nat}

/-- What is wrong at such a place. -/
lemma failure?_eq_some_iff (h : stage.StuckAt ts k stage') {fault : Fault} {rest : List Token} :
    stage.failure? ts = some ⟨fault, rest⟩ ↔
      stage'.fault ts[k]? = fault ∧ ts.drop k = rest ∧
        ¬ (ts[k]? = none ∧ stage' = complete 0) := by
  have hstuck := h.stuck
  have hsplit : stage.failure? ts = stage'.failure? (ts.drop k) := by
    rw [← failure?_append h.run, List.take_append_drop]
  rw [hsplit, ← List.head?_drop] at *
  generalize ts.drop k = left at *
  cases left with
  | nil => by_cases hzero : stage' = complete 0 <;> simp [failure?, hzero]
  | cons t left => simp [failure?_cons_of_eq_none (hstuck t rfl)]

/-- The longest beginning with which a sentence can begin ends at such a place. -/
lemma longestViable (h : start.StuckAt ts k stage) : LongestViable ts k := by
  refine ⟨⟨h.le, isViable_iff_run?.2 ⟨stage, h.run⟩⟩, ?_⟩
  rintro n ⟨hn, hviable⟩
  by_contra hlt
  -- a longer beginning goes on with the token that cannot stand at the place
  have hlonger : k + 1 ≤ n := Nat.not_le.1 hlt
  have ht : ts[k]? = some ts[k] := List.getElem?_eq_getElem (by omega)
  have htake : ts.take (k + 1) = ts.take k ++ [ts[k]] := by
    rw [List.take_add_one, ht, Option.toList_some]
  have hnext := hviable.of_beginning (List.take_prefix_take_left hlonger)
  rw [htake] at hnext
  obtain ⟨stage', next, hstage', hnext⟩ := isViable_append_iff.1 hnext
  rw [h.run, Option.some.injEq] at hstage'
  rw [← hstage', h.stuck _ ht] at hnext
  cases hnext

/-- The fault of a text is that of the place where the stages cannot go on. -/
lemma parse_eq_error_iff {s source : String} {fault : Fault}
    (h : start.StuckAt (Token.scan s) k stage) :
    parse s = .error ⟨fault, source⟩ ↔
      source = s ∧ Token.scan s ≠ [] ∧ stage.fault (Token.scan s)[k]? = fault ∧
        ¬ ((Token.scan s)[k]? = none ∧ stage = complete 0) := by
  rw [Expr.parse_eq_error_iff]
  simp only [h.failure?_eq_some_iff]
  constructor
  · rintro ⟨hsource, hne, rest, hfault, -, hnot⟩
    exact ⟨hsource, hne, hfault, hnot⟩
  · rintro ⟨hsource, hne, hfault, hnot⟩
    exact ⟨hsource, hne, _, hfault, rfl, hnot⟩

end StuckAt

end Stage

end Expr

end ChangelogParameters
