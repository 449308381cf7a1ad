import ChangelogParameters.Proofs.Store.Resolution
import ChangelogParameters.Store.Explanation
import Mathlib.Data.List.Forall2

/-!
# Explanations and look-ups

An explanation finds its winner on a way of its own: it collects all entries that have the key
and takes the first one that is accepted, whereas a look-up stops at the first entry that has the
key and is accepted.  This file shows that both ways lead to the same value, in the store of every
history, and that the candidates of an explanation describe exactly the entries of the history
that have the key, in the order of look-up.
-/

namespace ChangelogParameters

namespace Store

/-! ### Candidates -/

/-- What a candidate has to say about an entry, for a filter and the key that is looked up. -/
structure Candidate.Describes (c : Candidate) (filter : Filter) (asked : String)
    (entry : Entry) : Prop where
  tier : c.tier = entry.tier
  scope : c.scope = entry.scope
  key : c.key = entry.parameter.key
  matched : keyMatches c.key asked = true
  value : c.value = entry.parameter.value
  contexts : c.contexts = entry.parameter.restrictions.contexts.source
  labels : c.labels = entry.parameter.restrictions.labels.text
  databases : c.databases = entry.parameter.restrictions.databases.text
  filterable : c.filterable = entry.parameter.filterable
  accepted : c.accepted = filter.accepts entry.parameter

/-- The candidates of a look-up describe, one by one, the entries that have the key. -/
lemma describes_candidates (store : Store) (key : String) (position : Option Position) :
    List.Forall₂ (fun c entry => Candidate.Describes c store.filter key entry)
      (store.candidates key position)
      ((store.entries position).filter fun entry => keyMatches entry.parameter.key key) := by
  unfold candidates Parameter.answersTo
  rw [List.forall₂_map_left_iff, List.forall₂_same]
  intro entry hentry
  have hkey : keyMatches entry.parameter.key key = true := (List.mem_filter.1 hentry).2
  exact ⟨rfl, rfl, rfl, hkey, rfl, rfl, rfl, rfl, rfl, rfl⟩

/-! ### The winner -/

/-- Without an execution value, the first accepted candidate wins. -/
lemma winner_eq_findIdx? (store : Store) {key : String} {position : Option Position}
    (h : executionValue? key position = none) :
    (store.explain key position).winner =
      (store.candidates key position).findIdx? (·.accepted) := by
  simp [explain, h]

/-- Without an execution value, a look-up yields the value of the first accepted candidate. -/
lemma resolve_eq_find?_candidates (store : Store) {key : String} {position : Option Position}
    (h : executionValue? key position = none) :
    store.resolve key position =
      ((store.candidates key position).find? (·.accepted)).map (·.value) := by
  rw [store.resolve_eq_map_find? h, find?_eq_find?_filter, candidates, List.find?_map,
    Option.map_map]
  rfl

/-- A candidate wins a look-up if it is the first one that is accepted and its value is the one
that is found. -/
structure Explanation.Wins (e : Explanation) (value : Option Value) (i : Nat) : Prop where
  exists_candidate : ∃ c, e.candidates[i]? = some c ∧ c.accepted = true ∧ value = some c.value
  least : ∀ j c, j < i → e.candidates[j]? = some c → c.accepted = false

/-- Without an execution value, the winner of an explanation wins the look-up. -/
lemma wins_of_winner (store : Store) {key : String} {position : Option Position}
    (h : executionValue? key position = none) {i : Nat}
    (hwinner : (store.explain key position).winner = some i) :
    (store.explain key position).Wins (store.resolve key position) i := by
  have hindex : (store.candidates key position).findIdx? (·.accepted) = some i :=
    (store.winner_eq_findIdx? h).symm.trans hwinner
  obtain ⟨hi, haccepted, hleast⟩ := List.findIdx?_eq_some_iff_getElem.1 hindex
  refine ⟨⟨_, List.getElem?_eq_getElem hi, haccepted, ?_⟩, ?_⟩
  · rw [store.resolve_eq_find?_candidates h, List.find?_eq_bind_findIdx?_getElem?, hindex]
    simp [hi]
  · intro j c hj hc
    obtain ⟨hlt, rfl⟩ := List.getElem?_eq_some_iff.1 hc
    exact Bool.eq_false_iff.2 (hleast j hj)

/-- Without an execution value, there is a winner exactly if a value is found. -/
lemma winner_isSome_iff (store : Store) {key : String} {position : Option Position}
    (h : executionValue? key position = none) :
    (store.explain key position).winner.isSome ↔ (store.resolve key position).isSome := by
  rw [store.winner_eq_findIdx? h, store.resolve_eq_find?_candidates h, List.findIdx?_isSome,
    Option.isSome_map, List.find?_isSome, List.any_eq_true]

namespace History

/-- **Explanations agree with look-ups.**  In the store of every history the value of an
explanation is the one that a look-up finds; its execution value is there exactly if there is a
position and the key names one, and then nothing wins; otherwise there is a winner exactly if a
value is found, which is the first accepted candidate and has that value; and the candidates
describe the entries of the history that have the key, one by one and in the order of look-up. -/
theorem explain_store (h : History) (key : String) (position : Option Position) :
    let e := h.store.explain key position
    let found := h.store.resolve key position
    e.value = found ∧
      (∀ execution, e.execution = some execution ↔
        position.isSome ∧ ExecutionValue.ofName? key = some execution) ∧
      (e.execution.isSome → e.winner = none) ∧
      (e.execution = none →
        (e.winner.isSome ↔ found.isSome) ∧ ∀ i, e.winner = some i → e.Wins found i) ∧
      List.Forall₂ (fun c entry => Candidate.Describes c h.filter key entry) e.candidates
        ((h.entries position).filter fun entry => keyMatches entry.parameter.key key) := by
  intro e found
  refine ⟨rfl, ?_, ?_, ?_, ?_⟩
  · intro execution
    cases position <;> simp [e, explain, executionValue?]
  · intro hexecution
    exact if_pos hexecution
  · intro hnone
    exact ⟨h.store.winner_isSome_iff hnone, fun i hi => h.store.wins_of_winner hnone hi⟩
  · rw [← h.store_filter, ← h.entries_store]
    exact h.store.describes_candidates key position

end History

end Store

end ChangelogParameters
