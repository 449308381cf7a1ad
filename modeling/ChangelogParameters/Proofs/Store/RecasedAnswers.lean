import ChangelogParameters.Proofs.Store.Recasing
import ChangelogParameters.Store.Explanation

/-!
# Answers of recased runs

No look-up tells from its answer in which case the keys, the restrictions and the filter of a run
were written, nor in which case it was itself asked: the entries that are passed through correspond
one by one, with the same values, and they are found and accepted alike.

This is a property of pairs of runs.  It needs that every way on which a text comes into a run
lower-cases it, the operations (`History.Recased.store`) as well as the questions
(`Store.Recased.answers`).
-/

namespace ChangelogParameters

namespace Store

/-! ### Answers -/

/-- Two candidates with the same value from the same tier and bucket, under recased keys, of which
both are accepted or none is. -/
structure Candidate.Recased (c c' : Candidate) : Prop where
  tier : c.tier = c'.tier
  scope : c.scope = c'.scope
  key : Text.Recased c.key c'.key
  value : c.value = c'.value
  filterable : c.filterable = c'.filterable
  accepted : c.accepted = c'.accepted

/-- Two explanations that agree but for the case of keys. -/
structure Explanation.Recased (e e' : Explanation) : Prop where
  key : Text.Recased e.key e'.key
  execution : e.execution = e'.execution
  candidates : List.Forall₂ Candidate.Recased e.candidates e'.candidates
  winner : e.winner = e'.winner
  value : e.value = e'.value

/-- Two stores that give the same answers to a key and to a recased one. -/
structure RecasedAnswers (s s' : Store) (key key' : String) : Prop where
  resolve : ∀ position, s.resolve key position = s'.resolve key' position
  hasValue : ∀ position, s.hasValue key position = s'.hasValue key' position
  localValue : ∀ position, s.localValue key position = s'.localValue key' position
  explain : ∀ position, (s.explain key position).Recased (s'.explain key' position)

/-! ### Entries -/

/-- Two entries of recased parameters in one tier and bucket. -/
structure Entry.Recased (e e' : Entry) : Prop where
  tier : e.tier = e'.tier
  scope : e.scope = e'.scope
  parameter : e.parameter.Recased e'.parameter

/-- Entries that are made of recased parameters in one way are recased. -/
lemma entries_recased {ps ps' : List Parameter} (h : List.Forall₂ Parameter.Recased ps ps')
    (tier : Tier) (scope : Option String) :
    List.Forall₂ Entry.Recased (ps.map (Entry.mk tier scope)) (ps'.map (Entry.mk tier scope)) := by
  rw [List.forall₂_map_left_iff, List.forall₂_map_right_iff]
  exact h.imp fun _ _ hp => ⟨rfl, rfl, hp⟩

/-- A search that does not tell related elements apart finds related ones, or none. -/
lemma find?_rel {α : Type} {R : α → α → Prop} {p q : α → Bool}
    (hpq : ∀ x y, R x y → p x = q y) {xs ys : List α} (h : List.Forall₂ R xs ys) :
    Option.Rel R (xs.find? p) (ys.find? q) := by
  induction h with
  | nil => exact .none
  | @cons x y xs ys hxy _ ih =>
    rw [List.find?_cons, List.find?_cons, hpq x y hxy]
    cases q y with
    | true => exact .some hxy
    | false => exact ih

/-- What is read off related elements alike is the same, if there is anything to read. -/
lemma map_eq_of_rel {α β : Type} {R : α → α → Prop} {f : α → β} (hf : ∀ x y, R x y → f x = f y)
    {x y : Option α} (h : Option.Rel R x y) : x.map f = y.map f := by
  cases h with
  | none => rfl
  | some h => exact congrArg some (hf _ _ h)

/-- At every position recased keys name the same execution value. -/
lemma executionValue?_recased {key key' : String} (hkey : Text.Recased key key')
    (position : Option Position) :
    executionValue? key position = executionValue? key' position := by
  rw [executionValue?, executionValue?, ExecutionValue.ofName?_recased hkey]

namespace Recased

variable {s s' : Store} {key key' : String}

/-- From every position recased entries are seen. -/
lemma entries (h : s.Recased s') (position : Option Position) :
    List.Forall₂ Entry.Recased (s.entries position) (s'.entries position) := by
  have hbuckets : List.Forall₂ Entry.Recased ((levels position).flatMap s.bucketEntries)
      ((levels position).flatMap s'.bucketEntries) := by
    induction levels position with
    | nil => exact .nil
    | cons scope scopes ih =>
      have hbucket := List.forall₂_reverse_iff.2 (h.locals scope)
      rw [List.flatMap_cons, List.flatMap_cons]
      exact List.rel_append (entries_recased hbucket .locals (some scope)) ih
  have hsystem := entries_recased h.system .system none
  have hglobals := entries_recased h.globals .globals none
  exact List.rel_append (List.rel_append hsystem hglobals) hbuckets

/-- Recased filters accept recased parameters that have recased keys alike. -/
lemma selects_eq (h : s.Recased s') (hkey : Text.Recased key key') {p p' : Parameter}
    (hp : p.Recased p') :
    (p.answersTo key && s.filter.accepts p) = (p'.answersTo key' && s'.filter.accepts p') := by
  rw [hp.answersTo_eq hkey, h.filter.accepts_eq hp]

/-- Recased keys have the same values in recased stores. -/
lemma resolve_eq (h : s.Recased s') (hkey : Text.Recased key key') (position : Option Position) :
    s.resolve key position = s'.resolve key' position := by
  have hexecution := executionValue?_recased hkey position
  have hfound : Option.Rel Entry.Recased (s.find? key position) (s'.find? key' position) :=
    find?_rel (fun _ _ he => h.selects_eq hkey he.parameter) (h.entries position)
  unfold Store.resolve
  rw [hexecution, h.deploymentId, map_eq_of_rel (fun _ _ he => he.parameter.value) hfound]

/-- Recased keys have the same values in the buckets of recased stores. -/
lemma localValue_eq (h : s.Recased s') (hkey : Text.Recased key key') (position : Position) :
    s.localValue key position = s'.localValue key' position := by
  have hbucket := List.forall₂_reverse_iff.2 (h.locals position.scopeKey)
  have hfound := find?_rel (fun _ _ hp => h.selects_eq hkey hp) hbucket
  exact map_eq_of_rel (fun _ _ hp => hp.value) hfound

/-- Recased stores list recased candidates for recased keys. -/
lemma candidates (h : s.Recased s') (hkey : Text.Recased key key') (position : Option Position) :
    List.Forall₂ Candidate.Recased (s.candidates key position) (s'.candidates key' position) := by
  have hmatching : List.Forall₂ Entry.Recased
      ((s.entries position).filter (·.parameter.answersTo key))
      ((s'.entries position).filter (·.parameter.answersTo key')) := by
    refine List.rel_filter ?_ (h.entries position)
    intro e e' he
    dsimp only
    rw [he.parameter.answersTo_eq hkey]
  rw [Store.candidates, Store.candidates, List.forall₂_map_left_iff, List.forall₂_map_right_iff]
  refine hmatching.imp ?_
  intro e e' he
  exact ⟨he.tier, he.scope, he.parameter.key, he.parameter.value, he.parameter.filterable,
    h.filter.accepts_eq he.parameter⟩

/-- Explanations of recased keys by recased stores agree. -/
lemma explain (h : s.Recased s') (hkey : Text.Recased key key') (position : Option Position) :
    (s.explain key position).Recased (s'.explain key' position) := by
  have hexecution := executionValue?_recased hkey position
  have hcandidates := h.candidates hkey position
  have haccepted : (s.candidates key position).map (·.accepted) =
      (s'.candidates key' position).map (·.accepted) := by
    rw [← List.forall₂_eq_eq_eq, List.forall₂_map_left_iff, List.forall₂_map_right_iff]
    exact hcandidates.imp fun _ _ hc => hc.accepted
  have hfirst : (s.candidates key position).findIdx? (·.accepted) =
      (s'.candidates key' position).findIdx? (·.accepted) := by
    have hindex := congrArg (List.findIdx? id) haccepted
    rwa [List.findIdx?_map, List.findIdx?_map] at hindex
  refine ⟨hkey, hexecution, hcandidates, ?_, h.resolve_eq hkey position⟩
  rw [Store.explain, Store.explain, hexecution, hfirst]

/-- **Recased stores give the same answers to recased keys.** -/
theorem answers (h : s.Recased s') (hkey : Text.Recased key key') :
    RecasedAnswers s s' key key' where
  resolve := h.resolve_eq hkey
  hasValue position := by rw [hasValue, hasValue, h.resolve_eq hkey]
  localValue := h.localValue_eq hkey
  explain := h.explain hkey

end Recased

/-! ### Runs -/

namespace History

/-- The history as it was before an operation, counted from zero. -/
def before (h : History) (i : Nat) : History :=
  ⟨h.setup, h.operations.take i⟩

/-- What was before corresponding operations of recased histories is recased. -/
lemma Recased.before {h h' : History} (hrecased : h.Recased h') (i : Nat) :
    (h.before i).Recased (h'.before i) :=
  ⟨hrecased.setup, List.forall₂_take i hrecased.operations⟩

/-- Corresponding operations of recased histories are recased. -/
lemma Recased.operation {h h' : History} (hrecased : h.Recased h') {i : Nat}
    {operation operation' : Operation} (hi : h.operations[i]? = some operation)
    (hi' : h'.operations[i]? = some operation') : operation.Recased operation' := by
  obtain ⟨hlt, rfl⟩ := List.getElem?_eq_some_iff.1 hi
  obtain ⟨hlt', rfl⟩ := List.getElem?_eq_some_iff.1 hi'
  exact hrecased.operations.get hlt hlt'

/-- **Recased runs cannot be told apart.**  Let two runs do the same, with the same values and at
the same positions, but for the case of ASCII letters in keys, restrictions and filters.  Then
texts of conditions are read alike or have the same fault, corresponding operations succeed in both
runs or fail for the same reason, and in the end recased keys get the same answers. -/
theorem answers_recased {h h' : History} (hrecased : h.Recased h') :
    (∀ s s', Text.Recased s s' →
      Agree Expr.ParseError.Recased Condition.Recased (Condition.parse s) (Condition.parse s')) ∧
    (∀ (i : Nat) (operation operation' : Operation), h.operations[i]? = some operation →
      h'.operations[i]? = some operation' →
      Agree RegistrationError.Recased Store.Recased ((h.before i).store.perform operation)
        ((h'.before i).store.perform operation')) ∧
    ∀ key key', Text.Recased key key' → RecasedAnswers h.store h'.store key key' := by
  refine ⟨?_, ?_, ?_⟩
  · intro s s' hs
    exact Condition.parse_recased hs
  · intro i operation operation' hi hi'
    exact (hrecased.before i).store.perform (hrecased.operation hi hi')
  · intro key key' hkey
    exact hrecased.store.answers hkey

/-- A run that is written in capitals throughout and the same run in small letters: both skip a
parameter of another database and find the default. -/
theorem answers_recased_port :
    let h : History := ⟨{ systemValues := [("HOME", .string "/root")] },
      [.setProperty "PORT" (.string "80") "TEST AND NOT PROD" "DEV" "!H2" .everywhere,
        .setDefaults [("parameter.PORT", .string "81"), ("PORT", .string "82")],
        .setContexts (some (.parse "TEST")), .setDatabase (some "H2")]⟩
    let h' : History := ⟨{ systemValues := [("home", .string "/root")] },
      [.setProperty "port" (.string "80") "test and not prod" "dev" "!h2" .everywhere,
        .setDefaults [("parameter.port", .string "81"), ("port", .string "82")],
        .setContexts (some (.parse "test")), .setDatabase (some "h2")]⟩
    h.Recased h' ∧ Text.Recased "Port" "port" ∧
      h'.store.resolve "port" none = some (.string "81") ∧
      RecasedAnswers h.store h'.store "Port" "port" := by
  intro h h'
  have hport : Text.Recased "PORT" "port" := by decide
  have hrecased : h.Recased h' := by
    refine ⟨⟨rfl, .nil, .cons ⟨by decide, rfl⟩ .nil, rfl, rfl⟩, ?_⟩
    refine .cons (.setProperty _ _ hport (by decide) (by decide) (by decide)) ?_
    refine .cons (.setDefaults (.cons ⟨⟨by decide, rfl⟩, by decide⟩
      (.cons ⟨⟨hport, rfl⟩, by decide⟩ .nil))) ?_
    refine .cons (.setContexts (.some (.parse (by decide)))) ?_
    exact .cons (.setDatabase (.some (by decide))) .nil
  have hasked : Text.Recased "Port" "port" := by decide
  exact ⟨hrecased, hasked, by decide +kernel,
    (answers_recased hrecased).2.2 "Port" "port" hasked⟩

end History

end Store

end ChangelogParameters
