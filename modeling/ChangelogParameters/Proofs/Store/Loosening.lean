import ChangelogParameters.Proofs.Parameter.Filter
import ChangelogParameters.Proofs.Store.Answers
import ChangelogParameters.Proofs.Store.Explanation
import ChangelogParameters.Proofs.Tag.Reading
import ChangelogParameters.Store.Operation

/-!
# Loosening the filter

A part of a filter is loosened if it is unset, or if it is replaced by a setting that is idle: a set
of contexts without members, or a condition on labels that says nothing.  An idle setting demands
nothing, although it is set.

A loosened filter accepts all that was accepted before (`Filter.Loosened.accepts`).  The entries and
their order do not depend on the filter, so the first accepted entry can only come earlier, and
nothing that was found gets lost (`isSome_resolve_of_loosened`).
-/

namespace ChangelogParameters

/-- A blank text is the text of a condition that says nothing. -/
lemma Condition.parse_of_isBlankText {s : String} (h : Text.isBlankText s = true) :
    parse s = .ok ⟨Text.trim s, none⟩ := by
  have hscan : Token.scan s = [] := Token.scanFrom_blanks (List.all_eq_true.1 h)
  rw [parse, Expr.parse_eq_ok_iff.2 (Expr.ofTokens_eq_none_iff.2 hscan)]
  rfl

namespace Filter

/-! ### Loosened filters -/

/-- The ways in which a part of a filter is loosened, or left alone. -/
inductive LoosenedPart {α : Type} (idle : α → Prop) (part : Option α) : Option α → Prop
  /-- It stays as it is. -/
  | kept : LoosenedPart idle part part
  /-- It is unset. -/
  | unset : LoosenedPart idle part none
  /-- It is replaced by an idle setting. -/
  | idled {setting : α} (h : idle setting) : LoosenedPart idle part (some setting)

/-- The second filter is the first one with some of its parts loosened.  No setting of the database
is idle: it can only be unset. -/
structure Loosened (strict loose : Filter) : Prop where
  contexts : LoosenedPart (fun active => active.isEmpty = true) strict.contexts loose.contexts
  labels : LoosenedPart (fun condition => condition.isEmpty = true) strict.labels loose.labels
  database : LoosenedPart (fun _ => False) strict.database loose.database

/-- A demand that every setting of a part meets, as all idle ones do, is met by every setting of the
loosened part. -/
lemma LoosenedPart.forall_mem {α : Type} {idle demand : α → Prop} {part part' : Option α}
    (h : LoosenedPart idle part part') (hidle : ∀ setting, idle setting → demand setting)
    (hpart : ∀ setting ∈ part, demand setting) : ∀ setting ∈ part', demand setting := by
  cases h with
  | kept => exact hpart
  | unset => simp
  | idled hsetting => simpa using hidle _ hsetting

/-- A loosened filter accepts what was accepted before. -/
theorem Loosened.accepts {strict loose : Filter} (h : strict.Loosened loose)
    {parameter : Parameter} (haccepts : strict.accepts parameter = true) :
    loose.accepts parameter = true := by
  rw [accepts_eq_and, Bool.and_eq_true, Bool.and_eq_true, allowsLabels_iff, allowsContexts_iff,
    allowsDatabase_iff] at haccepts ⊢
  obtain ⟨⟨hlabels, hcontexts⟩, hdatabase⟩ := haccepts
  refine ⟨⟨h.labels.forall_mem ?_ hlabels, h.contexts.forall_mem ?_ hcontexts⟩,
    h.database.forall_mem ?_ hdatabase⟩
  · intro condition hidle
    exact Condition.matchesNames_of_isEmpty hidle _
  · intro active hidle
    exact parameter.restrictions.contexts.matchesNames_of_names_isEmpty hidle
  · intro database hidle
    exact hidle.elim

/-- Filters of which each is the other one loosened accept the same. -/
lemma Loosened.accepts_eq {f f' : Filter} (h : f.Loosened f') (h' : f'.Loosened f)
    (parameter : Parameter) : f.accepts parameter = f'.accepts parameter :=
  Bool.eq_iff_iff.2 ⟨h.accepts, h'.accepts⟩

end Filter

namespace Store

/-! ### Looking up with a loosened filter -/

/-- Without an execution value, the first accepted one of the entries that have the key wins. -/
lemma winner_setFilter (store : Store) (filter : Filter) {key : String}
    {position : Option Position} (h : executionValue? key position = none) :
    ((store.after (.setFilter filter)).explain key position).winner =
      ((store.entries position).filter (·.parameter.answersTo key)).findIdx?
        fun entry => filter.accepts entry.parameter := by
  rw [winner_eq_findIdx? _ h, candidates, List.findIdx?_map]
  rfl

variable {strict loose : Filter}

/-- The winner under a filter is found no later if the filter is loosened. -/
lemma exists_winner_le (store : Store) (h : strict.Loosened loose) {key : String}
    {position : Option Position} {i : Nat}
    (hi : ((store.after (.setFilter strict)).explain key position).winner = some i) :
    ∃ j ≤ i, ((store.after (.setFilter loose)).explain key position).winner = some j := by
  have hexecution : executionValue? key position = none := by
    by_contra hsome
    have hnone : ((store.after (.setFilter strict)).explain key position).winner = none :=
      if_pos (Option.isSome_iff_ne_none.2 hsome)
    rw [hnone] at hi
    cases hi
  rw [winner_setFilter _ _ hexecution] at hi ⊢
  refine List.findIdx?_eq_some_le_of_findIdx?_eq_some ?_ hi
  intro entry _ haccepts
  exact h.accepts haccepts

/-- What has a value under a filter has one if the filter is loosened. -/
lemma isSome_resolve_of_loosened (store : Store) (h : strict.Loosened loose) {key : String}
    {position : Option Position}
    (hsome : ((store.after (.setFilter strict)).resolve key position).isSome = true) :
    ((store.after (.setFilter loose)).resolve key position).isSome = true := by
  cases hexecution : executionValue? key position with
  | none =>
    rw [← winner_isSome_iff _ hexecution] at hsome ⊢
    obtain ⟨i, hi⟩ := Option.isSome_iff_exists.1 hsome
    obtain ⟨j, -, hj⟩ := store.exists_winner_le h hi
    exact Option.isSome_iff_exists.2 ⟨j, hj⟩
  | some execution =>
    cases position with
    | none => cases hexecution
    | some here =>
      simp only [resolve, hexecution] at hsome ⊢
      exact hsome

/-- Stores that differ only in their filters give the same answers if the filters accept the
same. -/
lemma sameAnswers_setFilter (store : Store) {f f' : Filter}
    (h : ∀ parameter, f.accepts parameter = f'.accepts parameter) :
    SameAnswers (store.after (.setFilter f)) (store.after (.setFilter f')) := by
  refine .of_answersTo rfl ?_
  intro key position
  exact store.sameAnswersTo_of_accepts (fun entry _ => h entry.parameter) key

/-- **Loosening hides nothing.**  If parts of a filter are unset or replaced by idle settings, then
every parameter that was accepted is still accepted, what had a value still has one, and the winner
of an explanation does not move back.  Contexts without members and a condition on labels that says
nothing, as a blank text does, give the same answers as if they were not set. -/
theorem answers_of_loosened (store : Store) :
    (∀ strict loose : Filter, strict.Loosened loose →
      (∀ parameter, strict.accepts parameter = true → loose.accepts parameter = true) ∧
      ∀ key position,
        (((store.after (.setFilter strict)).resolve key position).isSome = true →
          ((store.after (.setFilter loose)).resolve key position).isSome = true) ∧
        ∀ i, ((store.after (.setFilter strict)).explain key position).winner = some i →
          ∃ j ≤ i, ((store.after (.setFilter loose)).explain key position).winner = some j) ∧
    (∀ active : Names, active.isEmpty = true →
      SameAnswers (store.after (.setContexts (some active))) (store.after (.setContexts none))) ∧
    (∀ condition : Condition, condition.isEmpty = true →
      SameAnswers (store.after (.setLabels (some condition))) (store.after (.setLabels none))) ∧
    ∀ s, Text.isBlankText s = true →
      ∃ condition, Condition.parse s = .ok condition ∧ condition.isEmpty = true := by
  refine ⟨?_, ?_, ?_, ?_⟩
  · intro strict loose h
    refine ⟨fun parameter => h.accepts, fun key position => ⟨?_, fun i => ?_⟩⟩
    · exact store.isSome_resolve_of_loosened h
    · exact store.exists_winner_le h
  · intro active hactive
    let filter := { store.filter with contexts := some active }
    let unset := { store.filter with contexts := none }
    have hunset : filter.Loosened unset := ⟨.unset, .kept, .kept⟩
    have hset : unset.Loosened filter := ⟨.idled hactive, .kept, .kept⟩
    exact store.sameAnswers_setFilter (hunset.accepts_eq hset)
  · intro condition hcondition
    let filter := { store.filter with labels := some condition }
    let unset := { store.filter with labels := none }
    have hunset : filter.Loosened unset := ⟨.kept, .unset, .kept⟩
    have hset : unset.Loosened filter := ⟨.kept, .idled hcondition, .kept⟩
    exact store.sameAnswers_setFilter (hunset.accepts_eq hset)
  · intro s hblank
    exact ⟨_, Condition.parse_of_isBlankText hblank, rfl⟩

/-- A port for `prod` alone stands before one for all runs.  A run with the context `dev` takes the
second one; a run without contexts takes the first one, and a blank condition on labels does not
hide it. -/
theorem answers_of_loosened_port :
    let first := (build {}).after (.setProperty "port" (.ofInt 1) "prod" "v1" "" .everywhere)
    let store := first.after (.set "port" (.ofInt 2))
    let strict : Filter := ⟨some (.ofList ["dev"]), some ⟨"v1", some (.name "v1")⟩, some "h2"⟩
    let loose : Filter := ⟨some .empty, some ⟨"", none⟩, some "h2"⟩
    strict.Loosened loose ∧
      ((store.after (.setFilter strict)).resolve "port" none) = some (.ofInt 2) ∧
      ((store.after (.setFilter loose)).resolve "port" none).isSome = true ∧
      ((store.after (.setFilter strict)).explain "port" none).winner = some 1 ∧
      (∃ j ≤ 1, ((store.after (.setFilter loose)).explain "port" none).winner = some j) ∧
      (∃ condition, Condition.parse " " = .ok condition ∧ condition.isEmpty = true ∧
        SameAnswers (store.after (.setLabels (some condition))) (store.after (.setLabels none))) ∧
      SameAnswers (store.after (.setContexts (some .empty))) (store.after (.setContexts none)) := by
  intro first store strict loose
  obtain ⟨hloosened, hcontexts, hlabels, hblank⟩ := store.answers_of_loosened
  have h : strict.Loosened loose := ⟨.idled rfl, .idled rfl, .kept⟩
  have hresolve : (store.after (.setFilter strict)).resolve "port" none = some (.ofInt 2) := by
    decide +kernel
  have hwinner : ((store.after (.setFilter strict)).explain "port" none).winner = some 1 := by
    decide +kernel
  obtain ⟨-, hfound⟩ := hloosened strict loose h
  obtain ⟨hpresent, hearlier⟩ := hfound "port" none
  obtain ⟨condition, hparse, hempty⟩ := hblank " " (by decide)
  exact ⟨h, hresolve, hpresent (by rw [hresolve]; rfl), hwinner, hearlier 1 hwinner,
    ⟨condition, hparse, hempty, hlabels condition hempty⟩, hcontexts .empty rfl⟩

end Store

end ChangelogParameters
