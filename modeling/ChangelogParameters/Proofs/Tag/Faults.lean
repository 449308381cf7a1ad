import ChangelogParameters.Proofs.Tag.Beginnings

/-!
# Missing operands and unexpected tokens

A text that is no tag expression has a first token that cannot stand where it does, or it ends too
early.  What stands before that place is the longest beginning of its tokens with which a sentence
of the grammar can begin, and the fault is named after the place alone.

`missingOperand_and_unexpectedToken_iff` says where an operand is missing, which tokens are
unexpected, and what is named.
-/

namespace ChangelogParameters

namespace Expr

/-! ### Which fault -/

namespace Stage

/-- An operand is missing where it is due and the text ends or a parenthesis closes. -/
lemma fault_eq_missingOperand_iff {stage : Stage} {next after : Option Token} :
    stage.fault next = .missingOperand after ↔
      (∃ depth, stage = due after depth) ∧ (next = none ∨ next = some .rightParen) := by
  cases stage with
  | due after' depth =>
    cases next with
    | none => simp [fault, eq_comm]
    | some t => cases t <;> simp [fault, eq_comm]
  | complete depth =>
    cases depth <;> cases next with
    | none => simp [fault]
    | some t => cases t <;> simp [fault]

/-- A token is unexpected where an operand is due and the token is a joint, or where none is and
the token begins one outside all parentheses. -/
lemma fault_eq_unexpectedToken_iff {stage : Stage} {next : Option Token} {t : Token}
    (hstuck : ∀ t, next = some t → stage.next? t = none) :
    stage.fault next = .unexpectedToken t ↔
      next = some t ∧
        ((∃ after depth, stage = due after depth) ∧ (t = .comma ∨ t = .and ∨ t = .or) ∨
          stage = complete 0 ∧ BeginsOperand t) := by
  cases next with
  | none => cases stage with
    | due after depth => simp [fault]
    | complete depth => cases depth <;> simp [fault]
  | some t' =>
    have hnone := hstuck t' rfl
    match stage with
    | .due after depth =>
      cases t' <;> simp [next?] at hnone <;> simp [fault, beginsOperand_iff, eq_comm] <;>
        rintro rfl <;> simp
    | .complete 0 =>
      cases t' <;> simp [next?] at hnone <;> simp [fault, beginsOperand_iff, eq_comm] <;>
        rintro rfl <;> simp
    | .complete (depth + 1) => simp

end Stage

/-! ### Missing operands and unexpected tokens -/

/-- The last of the first tokens is the one before their place. -/
lemma getLast?_take_of_le {ts : List Token} {k : Nat} (hk : k ≤ ts.length) :
    (ts.take k).getLast? = if k = 0 then none else ts[k - 1]? := by
  rw [List.getLast?_take]
  split
  case isTrue => rfl
  case isFalse hpos =>
    rw [List.getElem?_eq_getElem (by omega)]
    rfl

/-- Behind so many tokens an operand is missing: one is due, but the tokens end or a parenthesis
closes. -/
def OperandMissingAt (ts : List Token) (k : Nat) : Prop :=
  AwaitsOperand (ts.take k) ∧ (ts[k]? = none ∨ ts[k]? = some .rightParen)

/-- Behind so many tokens stands one that is out of place: a joint where an operand is due, or what
begins an operand directly behind a sentence. -/
def OutOfPlaceAt (ts : List Token) (k : Nat) (t : Token) : Prop :=
  ts[k]? = some t ∧
    (AwaitsOperand (ts.take k) ∧ (t = .comma ∨ t = .and ∨ t = .or) ∨
      IsSentence (ts.take k) ∧ BeginsOperand t)

/-- How a message names what stands before a place: by the text of the token, or as the start. -/
def nameBefore (ts : List Token) (k : Nat) : String :=
  if k = 0 then "start" else ((ts[k - 1]?).map Token.text).getD ""

namespace Stage.StuckAt

variable {s : String} {k : Nat} {stage : Stage}

/-- An operand is reported as missing where it is. -/
lemma parse_eq_missingOperand_iff (h : start.StuckAt (Token.scan s) k stage)
    {after : Option Token} {source : String} :
    parse s = .error ⟨.missingOperand after, source⟩ ↔
      source = s ∧ Token.scan s ≠ [] ∧ OperandMissingAt (Token.scan s) k ∧
        after = if k = 0 then none else (Token.scan s)[k - 1]? := by
  rw [h.parse_eq_error_iff, fault_eq_missingOperand_iff, OperandMissingAt,
    awaitsOperand_iff_run?, ← getLast?_take_of_le h.le, h.run]
  constructor
  · rintro ⟨hsource, hne, ⟨⟨depth, rfl⟩, hnext⟩, -⟩
    exact ⟨hsource, hne, ⟨⟨after, depth, rfl⟩, hnext⟩, eq_getLast?_of_run?_eq_due h.run⟩
  · rintro ⟨hsource, hne, ⟨⟨after', depth, hstage⟩, hnext⟩, hafter⟩
    obtain rfl : stage = .due after' depth := Option.some.inj hstage
    obtain rfl : after = after' := by rw [hafter, eq_getLast?_of_run?_eq_due h.run]
    exact ⟨hsource, hne, ⟨⟨depth, rfl⟩, hnext⟩, by simp⟩

/-- A token is reported as unexpected where it is out of place. -/
lemma parse_eq_unexpectedToken_iff (h : start.StuckAt (Token.scan s) k stage) {t : Token}
    {source : String} :
    parse s = .error ⟨.unexpectedToken t, source⟩ ↔
      source = s ∧ OutOfPlaceAt (Token.scan s) k t := by
  rw [h.parse_eq_error_iff, fault_eq_unexpectedToken_iff h.stuck, OutOfPlaceAt,
    awaitsOperand_iff_run?, IsSentence, exists_phrase_iff_run?, h.run]
  constructor
  · rintro ⟨hsource, -, ⟨hnext, hplace⟩, -⟩
    exact ⟨hsource, hnext, by simpa using hplace⟩
  · rintro ⟨hsource, hnext, hplace⟩
    refine ⟨hsource, ?_, ⟨hnext, by simpa using hplace⟩, ?_⟩
    · intro hnil
      rw [hnil] at hnext
      cases hnext
    · rintro ⟨hnone, -⟩
      rw [hnext] at hnone
      cases hnone

end Stage.StuckAt

/-- A missing operand is told by what stands before its place. -/
lemma message_missingOperand {ts : List Token} {k : Nat} (hk : k ≤ ts.length) (s : String) :
    ParseError.message ⟨.missingOperand (if k = 0 then none else ts[k - 1]?), s⟩ =
      "missing operand after '" ++ nameBefore ts k ++ "' in expression: '" ++ s ++ "'" := by
  by_cases hzero : k = 0
  · rw [nameBefore, if_pos hzero, if_pos hzero]
    rfl
  · rw [nameBefore, if_neg hzero, if_neg hzero, List.getElem?_eq_getElem (by omega)]
    rfl

/-- **The place of a fault.**  Let `k` be the length of the longest beginning of a text's tokens with
which a sentence can begin.  An operand is reported as missing exactly if it is missing behind these
tokens, and the last of them is named, or the start if there are none.  A token is reported as
unexpected exactly if it is the one behind these tokens and out of place there.  The text is reported
as it was given. -/
theorem missingOperand_and_unexpectedToken_iff (s : String) :
    ∃ k, LongestViable (Token.scan s) k ∧
      (∀ after source, parse s = .error ⟨.missingOperand after, source⟩ ↔
        source = s ∧ Token.scan s ≠ [] ∧ OperandMissingAt (Token.scan s) k ∧
          after = if k = 0 then none else (Token.scan s)[k - 1]?) ∧
      (∀ after, parse s = .error ⟨.missingOperand after, s⟩ →
        ParseError.message ⟨.missingOperand after, s⟩ =
          "missing operand after '" ++ nameBefore (Token.scan s) k ++ "' in expression: '" ++
            s ++ "'") ∧
      (∀ t source, parse s = .error ⟨.unexpectedToken t, source⟩ ↔
        source = s ∧ OutOfPlaceAt (Token.scan s) k t) := by
  obtain ⟨k, stage, hplace⟩ := Stage.start.exists_stuckAt (Token.scan s)
  refine ⟨k, hplace.longestViable, fun _ _ => hplace.parse_eq_missingOperand_iff, ?_,
    fun _ _ => hplace.parse_eq_unexpectedToken_iff⟩
  intro after h
  obtain ⟨-, -, -, rfl⟩ := hplace.parse_eq_missingOperand_iff.1 h
  exact message_missingOperand hplace.le s

end Expr

end ChangelogParameters
