import ChangelogParameters.Proofs.Store.Calls
import ChangelogParameters.Proofs.Tag.Reading

/-!
# Registrations that fail

Two things can go wrong when a parameter is registered: the condition on contexts may be malformed,
and a local parameter may lack a position.  The condition is read first, so if both go wrong it is
the condition that is reported.  Nothing else makes a registration fail, and one that fails has not
touched the store: not even the bucket has been opened that the parameter was meant for.
-/

namespace ChangelogParameters

/-- Restrictions are malformed only in the condition on contexts. -/
lemma Restrictions.parse_eq_error_iff {contexts labels databases : String}
    {cause : Expr.ParseError} :
    parse contexts labels databases = .error cause ↔ Expr.parse contexts = .error cause := by
  rw [parse, Condition.parse]
  cases Expr.parse contexts with
  | error cause' => simp [Except.map]
  | ok e => simp [Except.map]

namespace Store

/-- The scope of a parameter that is meant for all changelogs, or else for the one at a
position. -/
def Scope.choose (everywhere : Bool) (position : Option Position) : Scope :=
  if everywhere then .everywhere else .within position

/-- A scope fails to have a place exactly if it is local and has no position. -/
lemma Scope.failure?_eq_some_iff {scope : Scope} {key : String} {e : RegistrationError} :
    scope.failure? key = some e ↔ scope = .within none ∧ e = .missingChangelog key := by
  rcases scope with _ | _ | position <;> simp [failure?, place?, eq_comm]

lemma Scope.failure?_eq_none_iff {scope : Scope} {key : String} :
    scope.failure? key = none ↔ scope ≠ .within none := by
  rcases scope with _ | _ | position <;> simp [failure?, place?]

lemma Scope.choose_eq_within_none_iff {everywhere : Bool} {position : Option Position} :
    choose everywhere position = .within none ↔ everywhere = false ∧ position = none := by
  cases everywhere <;> simp [choose]

namespace Operation

/-- An operation fails with an error and leaves the store as it was. -/
def FailsWith (operation : Operation) (store : Store) (e : RegistrationError) : Prop :=
  operation.procedure.run store = .error e store

/-- An operation succeeds. -/
def Succeeds (operation : Operation) (store : Store) : Prop :=
  ∃ after, operation.procedure.run store = .ok () after

/-- An operation that ends with an error fails for its own reason and has not changed the store. -/
lemma run_eq_error_iff {operation : Operation} {store after : Store} {e : RegistrationError} :
    operation.procedure.run store = .error e after ↔
      operation.failure? = some e ∧ after = store := by
  rw [run_procedure, perform_eq]
  cases operation.failure? <;> simp [ending, eq_comm]

lemma failsWith_iff {operation : Operation} {store : Store} {e : RegistrationError} :
    operation.FailsWith store e ↔ operation.failure? = some e := by
  simp [FailsWith, run_eq_error_iff]

lemma succeeds_iff {operation : Operation} {store : Store} :
    operation.Succeeds store ↔ operation.failure? = none := by
  rw [Succeeds, run_procedure, perform_eq]
  cases operation.failure? <;> simp [ending]

/-- A property with a malformed condition fails for this reason, whatever its scope. -/
lemma failure?_of_malformed {key contexts : String} {value : Value} {cause : Expr.ParseError}
    (h : Expr.parse contexts = .error cause) (labels databases : String) (scope : Scope) :
    (setProperty key value contexts labels databases scope).failure? =
      some (.invalidRestriction cause) := by
  simp [failure?, Restrictions.parse_eq_error_iff.2 h]

/-- A property with a well-formed condition fails if its scope does. -/
lemma failure?_of_not_malformed {key contexts : String} {value : Value}
    (h : ¬ Expr.Malformed contexts) (labels databases : String) (scope : Scope) :
    (setProperty key value contexts labels databases scope).failure? = scope.failure? key := by
  rw [failure?]
  cases hparse : Restrictions.parse contexts labels databases with
  | error cause =>
    exact absurd (Expr.malformed_iff.2 ⟨cause, Restrictions.parse_eq_error_iff.1 hparse⟩) h
  | ok restrictions => rfl

end Operation

/-- **When registrations fail.**  Whatever operation ends with an error, the store is as it was
before.  A parameter for a scope is refused exactly if the scope is local and has no position.  A
property is refused for its condition exactly if the condition is malformed, also if there is no
position; it is refused for the lack of a position, under its own key, exactly if the condition is
well formed and the property is local without a position; otherwise it is registered.  What its
labels and databases are makes no difference to this. -/
theorem registration_failures (store : Store) (key : String) (value : Value) :
    (∀ (operation : Operation) (e : RegistrationError) (after : Store),
      operation.procedure.run store = .error e after → after = store) ∧
    (∀ (restrictions : Restrictions) (scope : Scope),
      let operation := Operation.register key value restrictions scope
      (∀ e, operation.FailsWith store e ↔ scope = .within none ∧ e = .missingChangelog key) ∧
        (operation.Succeeds store ↔ scope ≠ .within none)) ∧
    (∀ position : Option Position,
      let operation := Operation.setLocal key value position
      (∀ e, operation.FailsWith store e ↔ position = none ∧ e = .missingChangelog key) ∧
        (operation.Succeeds store ↔ position ≠ none)) ∧
    ∀ (contexts labels databases : String) (everywhere : Bool) (position : Option Position),
      let operation := Operation.setProperty key value contexts labels databases
        (.choose everywhere position)
      (∀ cause, operation.FailsWith store (.invalidRestriction cause) ↔
        Expr.parse contexts = .error cause) ∧
      ((∃ cause, operation.FailsWith store (.invalidRestriction cause)) ↔
        Expr.Malformed contexts) ∧
      (∀ asked, operation.FailsWith store (.missingChangelog asked) ↔
        ¬ Expr.Malformed contexts ∧ everywhere = false ∧ position = none ∧ asked = key) ∧
      (operation.Succeeds store ↔
        ¬ Expr.Malformed contexts ∧ ¬ (everywhere = false ∧ position = none)) := by
  refine ⟨?_, ?_, ?_, ?_⟩
  · intro operation e after h
    exact (Operation.run_eq_error_iff.1 h).2
  · intro restrictions scope operation
    exact ⟨fun e => Operation.failsWith_iff.trans Scope.failure?_eq_some_iff,
      Operation.succeeds_iff.trans Scope.failure?_eq_none_iff⟩
  · intro position operation
    have hscope : Scope.within position = .within none ↔ position = none := by simp
    constructor
    · intro e
      rw [Operation.failsWith_iff, ← hscope]
      exact Scope.failure?_eq_some_iff
    · rw [Operation.succeeds_iff, ne_eq, ← hscope]
      exact Scope.failure?_eq_none_iff
  · intro contexts labels databases everywhere position operation
    simp only [Operation.failsWith_iff, Operation.succeeds_iff]
    -- Malformed or not, the reason is known, and each part can be read off it.
    by_cases hmalformed : Expr.Malformed contexts
    · obtain ⟨cause, hcause⟩ := Expr.malformed_iff.1 hmalformed
      have hfailure : operation.failure? = some (.invalidRestriction cause) :=
        Operation.failure?_of_malformed hcause labels databases _
      simp [hfailure, hcause, hmalformed]
    · have hfailure : operation.failure? = (Scope.choose everywhere position).failure? key :=
        Operation.failure?_of_not_malformed hmalformed labels databases _
      have hparse : ∀ cause, Expr.parse contexts ≠ .error cause :=
        fun cause h => hmalformed (Expr.malformed_iff.2 ⟨cause, h⟩)
      simp [hfailure, hparse, hmalformed, Scope.failure?_eq_some_iff,
        Scope.failure?_eq_none_iff, Scope.choose_eq_within_none_iff, and_assoc]

end Store

end ChangelogParameters
