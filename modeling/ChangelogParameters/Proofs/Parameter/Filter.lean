import ChangelogParameters.Parameter.Filter
import Mathlib.Tactic.Lemma

/-!
# What filters accept

A filter checks the three kinds of restrictions one by one.  A restriction that is not there
passes every check, so a parameter without restrictions is accepted by every filter.

This is why the filter may leave out the checks for such parameters, and for targets that name no
database.  `accepts_eq_checks` says that it would accept the same if it always made them all.
-/

namespace ChangelogParameters

/-- A condition that says nothing holds over every set of names. -/
lemma Condition.matchesNames_of_isEmpty {condition : Condition} (h : condition.isEmpty = true)
    (names : Names) : condition.matchesNames names = true := by
  have hexpr : condition.expr = none := Option.isNone_iff_eq_none.1 h
  rw [matchesNames, hexpr]

/-- Every condition holds over the empty set of names. -/
lemma Condition.matchesNames_of_names_isEmpty (condition : Condition) {names : Names}
    (h : names.isEmpty = true) : condition.matchesNames names = true := by
  unfold matchesNames
  split
  · rfl
  · rw [h, Bool.true_or]

namespace Filter

/-- A filter passes what carries no labels. -/
lemma allowsLabels_of_isEmpty (filter : Filter) {labels : Names} (h : labels.isEmpty = true) :
    filter.allowsLabels labels = true := by
  unfold allowsLabels
  split
  · rfl
  · exact Condition.matchesNames_of_names_isEmpty _ h

/-- A filter passes what has no condition on the contexts. -/
lemma allowsContexts_of_isEmpty (filter : Filter) {condition : Condition}
    (h : condition.isEmpty = true) : filter.allowsContexts condition = true := by
  unfold allowsContexts
  split
  · rfl
  · exact Condition.matchesNames_of_isEmpty h _

/-- A filter passes what names no databases. -/
lemma allowsDatabase_of_not_isRestricted (filter : Filter) {targets : Targets}
    (h : targets.isRestricted = false) : filter.allowsDatabase targets = true := by
  unfold allowsDatabase
  split
  · rfl
  · rw [h, Bool.not_false, Bool.true_or]

/-- What carries no restrictions passes all checks. -/
lemma checks_of_not_isRestricted (filter : Filter) {r : Restrictions} (h : r.isRestricted = false) :
    (filter.allowsLabels r.labels && filter.allowsContexts r.contexts &&
      filter.allowsDatabase r.databases) = true := by
  obtain ⟨⟨hcontexts, hlabels⟩, hdatabases⟩ :
      (r.contexts.isEmpty = true ∧ r.labels.isEmpty = true) ∧ r.databases.isRestricted = false := by
    simpa [Restrictions.isRestricted] using h
  rw [filter.allowsLabels_of_isEmpty hlabels, filter.allowsContexts_of_isEmpty hcontexts,
    filter.allowsDatabase_of_not_isRestricted hdatabases]
  rfl

/-- The short cut for what carries no restrictions makes no difference. -/
lemma accepts_eq_and (filter : Filter) (parameter : Parameter) :
    filter.accepts parameter =
      (filter.allowsLabels parameter.restrictions.labels &&
        filter.allowsContexts parameter.restrictions.contexts &&
        filter.allowsDatabase parameter.restrictions.databases) := by
  unfold accepts
  dsimp only
  split
  case isTrue hshort =>
    have hnone : parameter.restrictions.isRestricted = false := by
      simp only [Bool.and_eq_true, Bool.not_eq_true'] at hshort
      exact hshort.2
    exact (filter.checks_of_not_isRestricted hnone).symm
  case isFalse => rfl

/-- Every filter accepts a parameter without restrictions. -/
theorem accepts_of_not_isRestricted (filter : Filter) {parameter : Parameter}
    (h : parameter.restrictions.isRestricted = false) : filter.accepts parameter = true := by
  rw [accepts_eq_and, filter.checks_of_not_isRestricted h]

/-! ### The checks without short cuts -/

/-- What restrictions have to be for a run with a filter: each part that is set agrees with its
counterpart. -/
structure Passes (filter : Filter) (r : Restrictions) : Prop where
  labels : ∀ condition ∈ filter.labels, condition.matchesNames r.labels = true
  contexts : ∀ active ∈ filter.contexts, r.contexts.matchesNames active = true
  database : ∀ database ∈ filter.database, r.databases.accepts database = true

lemma allowsLabels_iff {filter : Filter} {labels : Names} :
    filter.allowsLabels labels = true ↔
      ∀ condition ∈ filter.labels, condition.matchesNames labels = true := by
  unfold allowsLabels
  cases filter.labels <;> simp

lemma allowsContexts_iff {filter : Filter} {condition : Condition} :
    filter.allowsContexts condition = true ↔
      ∀ active ∈ filter.contexts, condition.matchesNames active = true := by
  unfold allowsContexts
  cases filter.contexts <;> simp

/-- Targets that name no database accept every one, so nothing has to be asked before. -/
lemma allowsDatabase_iff {filter : Filter} {targets : Targets} :
    filter.allowsDatabase targets = true ↔
      ∀ database ∈ filter.database, targets.accepts database = true := by
  have hguard : ∀ database, (!targets.isRestricted || targets.accepts database) =
      targets.accepts database := by
    intro database
    rw [Targets.isRestricted, Bool.not_not, Targets.accepts, ← Bool.or_assoc, Bool.or_self]
  unfold allowsDatabase
  cases filter.database <;> simp [hguard]

/-- **Short cuts make no difference.**  What a filter accepts is what passes its three checks,
that is, what agrees with each part of the filter that is set.  Parameters that differ only in
whether the filter applies without restrictions are treated alike, and a parameter without
restrictions is accepted by every filter. -/
theorem accepts_eq_checks (filter : Filter) (parameter : Parameter) :
    filter.accepts parameter =
        (filter.allowsLabels parameter.restrictions.labels &&
          filter.allowsContexts parameter.restrictions.contexts &&
          filter.allowsDatabase parameter.restrictions.databases) ∧
      (filter.accepts parameter = true ↔ filter.Passes parameter.restrictions) ∧
      (∀ filterable : Bool, filter.accepts { parameter with filterable := filterable } =
        filter.accepts parameter) ∧
      (parameter.restrictions.isRestricted = false → filter.accepts parameter = true) := by
  refine ⟨filter.accepts_eq_and parameter, ?_, ?_, filter.accepts_of_not_isRestricted⟩
  · rw [accepts_eq_and, Bool.and_eq_true, Bool.and_eq_true, allowsLabels_iff, allowsContexts_iff,
      allowsDatabase_iff]
    constructor
    · rintro ⟨⟨hlabels, hcontexts⟩, hdatabase⟩
      exact ⟨hlabels, hcontexts, hdatabase⟩
    · rintro ⟨hlabels, hcontexts, hdatabase⟩
      exact ⟨⟨hlabels, hcontexts⟩, hdatabase⟩
  · intro filterable
    rw [accepts_eq_and, accepts_eq_and]

/-- A list of targets that is empty, as it may have been stored, restricts nothing: a filter with
all its parts set accepts the parameter, though it does not leave out the checks for it. -/
theorem accepts_eq_checks_only_nil :
    let filter : Filter := ⟨some (.ofList ["dev"]), some ⟨"v1", some (.name "v1")⟩, some "h2"⟩
    let parameter : Parameter := ⟨"k", .null, ⟨.always, .empty, .only []⟩, true⟩
    parameter.restrictions.isRestricted = false ∧ filter.accepts parameter = true := by
  intro filter parameter
  obtain ⟨-, -, -, haccepts⟩ := filter.accepts_eq_checks parameter
  exact ⟨rfl, haccepts rfl⟩

end Filter

end ChangelogParameters
