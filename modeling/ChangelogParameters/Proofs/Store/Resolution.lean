import ChangelogParameters.Proofs.Store.History
import ChangelogParameters.Store.Lookup

/-!
# Looking up after a history

The value of a key is a function of the history alone.  A position comes first: if the key names
an execution value there, the computed value is the answer, even if there is none.  Otherwise the
log is scanned, tier by tier, for the first parameter that has the key and that the filter in
force accepts.

`History.resolve_store` says that looking up a key in the store of a history follows this rule.
-/

namespace ChangelogParameters

namespace Store

/-- A look-up stops at the first accepted one of the entries that have the key. -/
lemma find?_eq_find?_filter (store : Store) (key : String) (position : Option Position) :
    store.find? key position =
      ((store.entries position).filter (·.parameter.answersTo key)).find?
        fun entry => store.filter.accepts entry.parameter := by
  simp [find?]

/-- Without an execution value, a look-up yields the value of the entry that it finds. -/
lemma resolve_eq_map_find? (store : Store) {key : String} {position : Option Position}
    (h : executionValue? key position = none) :
    store.resolve key position = (store.find? key position).map (·.parameter.value) := by
  unfold resolve
  cases position <;> simp [h]

namespace History

/-- The entries that a history leaves to be seen from a position, in the order of look-up: the
system tier and the global tier from the oldest on, then the bucket of every level from the
newest on. -/
def entries (h : History) (position : Option Position) : List Entry :=
  h.setup.system.map (⟨.system, none, ·⟩) ++
    (keptAt .everywhere h.log).map (⟨.globals, none, ·⟩) ++
    (levels position).flatMap fun scope =>
      (keptAt (.under scope) h.log).reverse.map (⟨.locals, some scope, ·⟩)

/-- The execution value that a key names, computed at the position; the outer option says whether
there is a position and the key names one. -/
def computed? (h : History) (key : String) (position : Option Position) :
    Option (Option String) :=
  position.bind fun here => (ExecutionValue.ofName? key).map fun execution =>
    execution.compute (h.setup.config.deploymentId.getD h.setup.generatedId) here

/-- The first entry of a history that has the key and that the filter in force accepts. -/
def find? (h : History) (key : String) (position : Option Position) : Option Entry :=
  (h.entries position).find? fun entry =>
    keyMatches entry.parameter.key key && h.filter.accepts entry.parameter

/-- The value that a history gives to a key at a position. -/
def valueOf (h : History) (key : String) (position : Option Position) : Option Value :=
  match h.computed? key position with
  | some value => value.map .string
  | none => (h.find? key position).map (·.parameter.value)

/-! ### The store agrees -/

/-- The entries that are seen in the store of a history are those that the history leaves. -/
lemma entries_store (h : History) (position : Option Position) :
    h.store.entries position = h.entries position := by
  have hbuckets : h.store.bucketEntries = fun scope =>
      (keptAt (.under scope) h.log).reverse.map (⟨.locals, some scope, ·⟩) := by
    funext scope
    rw [bucketEntries, store_locals_get]
  rw [Store.entries, entries, hbuckets, store_system, store_globals]

/-- The entry that is found in the store of a history is the one that the history selects. -/
lemma find?_store (h : History) (key : String) (position : Option Position) :
    h.store.find? key position = h.find? key position := by
  simp only [Store.find?, find?, entries_store, store_filter, Parameter.answersTo]

/-- Looking up a key in the store of a history yields the value that the history gives to it. -/
lemma resolve_eq_valueOf (h : History) (key : String) (position : Option Position) :
    h.store.resolve key position = h.valueOf key position := by
  unfold resolve valueOf computed? executionValue?
  rw [find?_store, store_deploymentId]
  cases position with
  | none => rfl
  | some here => cases ExecutionValue.ofName? key <;> simp

/-! ### Failed operations -/

/-- An operation that does not set a setting can be left out. -/
lemma lastSet_remove {α : Type} {setting : Operation → Option α} {operation : Operation}
    (h : setting operation = none) (initial : α) (earlier later : List Operation) :
    lastSet setting initial (earlier ++ operation :: later) =
      lastSet setting initial (earlier ++ later) := by
  simp [lastSet, h]

/-- Operations that fail leave no trace in the value of a key. -/
lemma valueOf_remove_failed {setup : Setup} {earlier later : List Operation}
    {operation : Operation} {e : RegistrationError} (h : operation.failure? = some e)
    (key : String) (position : Option Position) :
    (mk setup (earlier ++ operation :: later)).valueOf key position =
      (mk setup (earlier ++ later)).valueOf key position := by
  obtain ⟨hcontexts, hlabels, hdatabase, -⟩ := Operation.settings_of_failure h
  have hlog : (mk setup (earlier ++ operation :: later)).log =
      (mk setup (earlier ++ later)).log := by
    simp [log, Operation.registrations_of_failure h]
  have hfilter : (mk setup (earlier ++ operation :: later)).filter =
      (mk setup (earlier ++ later)).filter := by
    simp only [filter, lastSet_remove hcontexts, lastSet_remove hlabels, lastSet_remove hdatabase]
  simp only [valueOf, computed?, find?, entries, hlog, hfilter]

/-- **Looking up a key after a history.**  The value is the one that the history gives to the key
at the position, and operations that have failed count for nothing. -/
theorem resolve_store (h : History) (key : String) (position : Option Position) :
    h.store.resolve key position = h.valueOf key position ∧
      ∀ (earlier later : List Operation) (operation : Operation) (e : RegistrationError),
        h.operations = earlier ++ operation :: later →
        (mk h.setup earlier).store.perform operation = .error e →
        h.valueOf key position = (mk h.setup (earlier ++ later)).valueOf key position := by
  refine ⟨h.resolve_eq_valueOf key position, ?_⟩
  intro earlier later operation e hsplit hfails
  obtain ⟨setup, operations⟩ := h
  subst hsplit
  exact valueOf_remove_failed (failure?_of_perform hfails) key position

end History

end Store

end ChangelogParameters
