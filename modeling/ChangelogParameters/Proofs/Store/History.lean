import ChangelogParameters.Store.Operation
import Mathlib.Data.List.Induction

/-!
# Histories

A history is what a store has been through: the setup it was built from and the operations that
were performed on it afterwards, some of which may have failed.  This file reads off a history
what the store must hold in the end, without performing anything.

The *log* of a history lists the registrations that were made, in order and each with its place:
those of the database profile first, then those of the operations.  The tiers of the store are
the parts of the log by place, and every part of the filter is the last value that an operation
has given to it.  `History.store_eq` says that this is the whole store; it rests on
`after_eq`, which says once what a single operation can do.
-/

namespace ChangelogParameters

namespace Store

/-! ### Registrations -/

/-- Where a registered parameter is kept. -/
inductive Place where
  /-- In the global tier. -/
  | everywhere
  /-- In the bucket of a logical path. -/
  | under (scope : String)
deriving DecidableEq, Repr

/-- A parameter that has been registered, with the place where it is kept. -/
structure Registration where
  place : Place
  parameter : Parameter
deriving DecidableEq

/-- The place of a scope; a local scope without a position has none. -/
def Scope.place? : Scope → Option Place
  | everywhere => some .everywhere
  | within position => position.map fun p => .under p.scopeKey

/-- The registration of a parameter in a scope, if the scope has a place. -/
def Scope.registrations (scope : Scope) (key : String) (value : Value)
    (restrictions : Restrictions) : List Registration :=
  scope.place?.toList.map fun place => ⟨place, ⟨key, value, restrictions, true⟩⟩

/-- The registrations of parameters without restrictions in the global tier. -/
def globalRegistrations (entries : List (String × Value)) : List Registration :=
  entries.map fun (key, value) => ⟨.everywhere, ⟨key, value, .none, true⟩⟩

/-- The registrations that an operation makes, in order.  An operation that fails makes none. -/
def Operation.registrations : Operation → List Registration
  | set key value => globalRegistrations [(key, value)]
  | setGlobal key value restrictions => Scope.everywhere.registrations key value restrictions
  | setLocal key value position => (Scope.within position).registrations key value .none
  | register key value restrictions scope => scope.registrations key value restrictions
  | setProperty key value contexts labels databases scope =>
    match Restrictions.parse contexts labels databases with
    | .error _ => []
    | .ok restrictions => scope.registrations key value restrictions
  | setAll entries => globalRegistrations entries
  | setDefaults entries => globalRegistrations (defaultsParameters entries)
  | setFilter _ | setContexts _ | setLabels _ | setDatabase _ | setMissingMode _ => []

/-- Why a parameter cannot be registered in a scope. -/
def Scope.failure? (scope : Scope) (key : String) : Option RegistrationError :=
  if scope.place?.isSome then none else some (.missingChangelog key)

/-- Why an operation fails; none if it succeeds. -/
def Operation.failure? : Operation → Option RegistrationError
  | setLocal key _ position => (Scope.within position).failure? key
  | register key _ _ scope => scope.failure? key
  | setProperty key _ contexts labels databases scope =>
    match Restrictions.parse contexts labels databases with
    | .error cause => some (.invalidRestriction cause)
    | .ok _ => scope.failure? key
  | _ => none

/-- The parameters that a log registers at a place, oldest first. -/
def keptAt (place : Place) (log : List Registration) : List Parameter :=
  (log.filter fun r => r.place = place).map (·.parameter)

@[simp] lemma keptAt_nil (place : Place) : keptAt place [] = [] := rfl

/-- A registration is kept at its own place and at no other. -/
lemma keptAt_cons (place : Place) (r : Registration) (log : List Registration) :
    keptAt place (r :: log) =
      (if r.place = place then [r.parameter] else []) ++ keptAt place log := by
  by_cases h : r.place = place <;> simp [keptAt, h]

@[simp] lemma keptAt_append (place : Place) (log log' : List Registration) :
    keptAt place (log ++ log') = keptAt place log ++ keptAt place log' := by
  simp [keptAt]

/-! ### Settings -/

/-- The contexts that an operation gives to the filter, if it sets them. -/
def Operation.contexts? : Operation → Option (Option Names)
  | setFilter filter => some filter.contexts
  | setContexts contexts => some contexts
  | _ => none

/-- The condition on labels that an operation gives to the filter, if it sets it. -/
def Operation.labels? : Operation → Option (Option Condition)
  | setFilter filter => some filter.labels
  | setLabels labels => some labels
  | _ => none

/-- The database that an operation gives to the filter, if it sets it. -/
def Operation.database? : Operation → Option (Option String)
  | setFilter filter => some filter.database
  | setDatabase database => some database
  | _ => none

/-- The policy for missing values that an operation sets, if it sets one. -/
def Operation.missingMode? : Operation → Option MissingMode
  | setMissingMode mode => some mode
  | _ => none

/-- The last value that the operations give to a setting; `initial` if none of them sets it. -/
def lastSet {α : Type} (setting : Operation → Option α) (initial : α)
    (operations : List Operation) : α :=
  (operations.filterMap setting).getLast?.getD initial

@[simp] lemma lastSet_nil {α : Type} (setting : Operation → Option α) (initial : α) :
    lastSet setting initial [] = initial := rfl

/-- One more operation overrides a setting exactly if it sets it. -/
lemma lastSet_concat {α : Type} (setting : Operation → Option α) (initial : α)
    (operations : List Operation) (operation : Operation) :
    lastSet setting initial (operations ++ [operation]) =
      (setting operation).getD (lastSet setting initial operations) := by
  cases h : setting operation <;> simp [lastSet, h]

/-! ### Histories -/

/-- What a store has been through. -/
structure History where
  /-- What the store was built from. -/
  setup : Setup
  /-- What was done to it afterwards, whether or not it succeeded. -/
  operations : List Operation

namespace History

/-- The store in the end.  The stores of histories are the reachable ones. -/
def store (h : History) : Store :=
  (build h.setup).run h.operations

/-- The registrations of a history: those of the profile, then those of the operations. -/
def log (h : History) : List Registration :=
  globalRegistrations (h.setup.profile.elim [] Profile.parameters) ++
    h.operations.flatMap Operation.registrations

/-- The filter in force at the end of a history.  At first only the database is set, and only if
there is a profile. -/
def filter (h : History) : Filter where
  contexts := lastSet Operation.contexts? none h.operations
  labels := lastSet Operation.labels? none h.operations
  database := lastSet Operation.database? (h.setup.profile.map (·.shortName)) h.operations

/-- The policy for missing values at the end of a history. -/
def missingMode (h : History) : MissingMode :=
  lastSet Operation.missingMode? h.setup.config.missingMode h.operations

/-- The history with one more operation. -/
def snoc (h : History) (operation : Operation) : History :=
  ⟨h.setup, h.operations ++ [operation]⟩

/-- The history with more operations. -/
def append (h : History) (more : List Operation) : History :=
  ⟨h.setup, h.operations ++ more⟩

/-- Induction along a history, from the setup on. -/
@[elab_as_elim] lemma induction {motive : History → Prop} (start : ∀ setup, motive ⟨setup, []⟩)
    (step : ∀ h operation, motive h → motive (h.snoc operation)) (h : History) : motive h := by
  obtain ⟨setup, operations⟩ := h
  induction operations using List.reverseRecOn with
  | nil => exact start setup
  | append_singleton operations operation ih => exact step ⟨setup, operations⟩ operation ih

/-- A longer history ends in the store that the further operations make of the first one. -/
lemma store_append (h : History) (more : List Operation) :
    (h.append more).store = h.store.run more := by
  simp [append, store, run]

@[simp] lemma setup_append (h : History) (more : List Operation) :
    (h.append more).setup = h.setup := rfl

@[simp] lemma log_append (h : History) (more : List Operation) :
    (h.append more).log = h.log ++ more.flatMap Operation.registrations := by
  simp [append, log]

@[simp] lemma setup_snoc (h : History) (operation : Operation) :
    (h.snoc operation).setup = h.setup := rfl

@[simp] lemma store_snoc (h : History) (operation : Operation) :
    (h.snoc operation).store = h.store.after operation := by
  simp [snoc, store, run]

@[simp] lemma log_snoc (h : History) (operation : Operation) :
    (h.snoc operation).log = h.log ++ operation.registrations := by
  simp [snoc, log]

end History

/-! ### One operation -/

/-- The store with one more registration. -/
def add (store : Store) (r : Registration) : Store :=
  match r.place with
  | .everywhere => { store with globals := store.globals ++ [r.parameter] }
  | .under scope => { store with locals := store.locals.add scope r.parameter }

/-- The store with the registrations of a log, one after the other. -/
def addAll (store : Store) (log : List Registration) : Store :=
  log.foldl add store

@[simp] lemma addAll_nil (store : Store) : store.addAll [] = store := rfl

@[simp] lemma addAll_append (store : Store) (log log' : List Registration) :
    store.addAll (log ++ log') = (store.addAll log).addAll log' := by
  simp [addAll]

/-- What single registrations leave alone, the registrations of a log leave alone. -/
lemma addAll_frame {α : Type} (field : Store → α) (h : ∀ s r, field (add s r) = field s)
    (store : Store) (log : List Registration) : field (store.addAll log) = field store := by
  induction log generalizing store with
  | nil => rfl
  | cons r log ih => exact (ih (store.add r)).trans (h store r)

@[simp] lemma addAll_system (store : Store) (log : List Registration) :
    (store.addAll log).system = store.system :=
  addAll_frame (·.system) (fun _ ⟨place, _⟩ => by cases place <;> rfl) store log

@[simp] lemma addAll_filter (store : Store) (log : List Registration) :
    (store.addAll log).filter = store.filter :=
  addAll_frame (·.filter) (fun _ ⟨place, _⟩ => by cases place <;> rfl) store log

@[simp] lemma addAll_missingMode (store : Store) (log : List Registration) :
    (store.addAll log).missingMode = store.missingMode :=
  addAll_frame (·.missingMode) (fun _ ⟨place, _⟩ => by cases place <;> rfl) store log

@[simp] lemma addAll_deploymentId (store : Store) (log : List Registration) :
    (store.addAll log).deploymentId = store.deploymentId :=
  addAll_frame (·.deploymentId) (fun _ ⟨place, _⟩ => by cases place <;> rfl) store log

/-- The global tier is extended by what the log registers for all changelogs. -/
@[simp] lemma addAll_globals (store : Store) (log : List Registration) :
    (store.addAll log).globals = store.globals ++ keptAt .everywhere log := by
  induction log generalizing store with
  | nil => simp
  | cons r log ih =>
    obtain ⟨place, parameter⟩ := r
    change ((store.add ⟨place, parameter⟩).addAll log).globals = _
    rw [ih, keptAt_cons]
    cases place <;> simp [add]

/-- The bucket of a logical path is extended by what the log registers under the path. -/
@[simp] lemma addAll_locals_get (store : Store) (log : List Registration) (scope : String) :
    (store.addAll log).locals.get scope = store.locals.get scope ++ keptAt (.under scope) log := by
  induction log generalizing store with
  | nil => simp
  | cons r log ih =>
    obtain ⟨place, parameter⟩ := r
    change ((store.add ⟨place, parameter⟩).addAll log).locals.get scope = _
    rw [ih, keptAt_cons]
    cases place with
    | everywhere => simp [add]
    | under scope' => simp [add, Buckets.get_add, eq_comm]

/-- Registering parameters for all changelogs adds their registrations. -/
lemma setAll_eq_addAll (store : Store) (entries : List (String × Value)) :
    store.setAll entries = store.addAll (globalRegistrations entries) := by
  simp only [setAll, addAll, globalRegistrations, List.foldl_map]
  rfl

/-- The filter that an operation leaves behind. -/
def Operation.filterAfter (operation : Operation) (filter : Filter) : Filter where
  contexts := operation.contexts?.getD filter.contexts
  labels := operation.labels?.getD filter.labels
  database := operation.database?.getD filter.database

/-- The store with the settings of an operation in place of its own. -/
def adopt (store : Store) (operation : Operation) : Store :=
  { store with
    filter := operation.filterAfter store.filter
    missingMode := operation.missingMode?.getD store.missingMode }

/-- Registering in a scope adds the registration, unless the scope has no place for it. -/
lemma register_eq (store : Store) (key : String) (value : Value) (restrictions : Restrictions)
    (scope : Scope) :
    store.register key value restrictions scope = match scope.failure? key with
      | some e => .error e
      | none => .ok (store.addAll (scope.registrations key value restrictions)) := by
  rcases scope with _ | _ | position <;> rfl

/-- What an operation does to a store: if it does not fail it adds its registrations and puts its
settings in place, and nothing else. -/
theorem perform_eq (store : Store) (operation : Operation) :
    store.perform operation = match operation.failure? with
      | some e => .error e
      | none => .ok ((store.addAll operation.registrations).adopt operation) := by
  cases operation with
  | set key value => rfl
  | setGlobal key value restrictions => rfl
  | setLocal key value position => exact register_eq store key value .none (.within position)
  | register key value restrictions scope => exact register_eq store key value restrictions scope
  | setProperty key value contexts labels databases scope =>
    simp only [perform, setProperty, Operation.failure?, Operation.registrations]
    cases Restrictions.parse contexts labels databases with
    | error cause => rfl
    | ok restrictions => exact register_eq store key value restrictions scope
  | setAll entries => exact congrArg Except.ok (setAll_eq_addAll store entries)
  | setDefaults entries =>
    exact congrArg Except.ok (setAll_eq_addAll store (defaultsParameters entries))
  | setFilter filter => rfl
  | setContexts contexts => rfl
  | setLabels labels => rfl
  | setDatabase database => rfl
  | setMissingMode mode => rfl

/-- Whether an operation fails, and why, does not depend on the store. -/
lemma failure?_of_perform {store : Store} {operation : Operation} {e : RegistrationError}
    (h : store.perform operation = .error e) : operation.failure? = some e := by
  rw [perform_eq] at h
  cases hfailure : operation.failure? with
  | none => simp [hfailure] at h
  | some e' => simpa [hfailure] using h

/-- A scope without a place registers nothing. -/
lemma Scope.registrations_of_failure {scope : Scope} {key : String} {e : RegistrationError}
    (h : scope.failure? key = some e) (value : Value) (restrictions : Restrictions) :
    scope.registrations key value restrictions = [] := by
  cases hplace : scope.place? with
  | none => simp [registrations, hplace]
  | some place => simp [failure?, hplace] at h

/-- An operation that fails registers nothing. -/
lemma Operation.registrations_of_failure {operation : Operation} {e : RegistrationError}
    (h : operation.failure? = some e) : operation.registrations = [] := by
  cases operation with
  | setLocal key value position => exact Scope.registrations_of_failure h value .none
  | register key value restrictions scope =>
    exact Scope.registrations_of_failure h value restrictions
  | setProperty key value contexts labels databases scope =>
    simp only [failure?, registrations] at h ⊢
    cases hparse : Restrictions.parse contexts labels databases with
    | error cause => rfl
    | ok restrictions =>
      rw [hparse] at h
      exact Scope.registrations_of_failure h value restrictions
  | _ => cases h

/-- An operation that fails sets nothing. -/
lemma Operation.settings_of_failure {operation : Operation} {e : RegistrationError}
    (h : operation.failure? = some e) :
    operation.contexts? = none ∧ operation.labels? = none ∧ operation.database? = none ∧
      operation.missingMode? = none := by
  cases operation <;> first | exact ⟨rfl, rfl, rfl, rfl⟩ | cases h

/-- The filter applies to whatever is registered in a scope. -/
lemma Scope.filterable_of_mem {scope : Scope} {key : String} {value : Value}
    {restrictions : Restrictions} {r : Registration}
    (h : r ∈ scope.registrations key value restrictions) : r.parameter.filterable = true := by
  obtain ⟨place, -, rfl⟩ := List.mem_map.1 h
  rfl

/-- The filter applies to global parameters. -/
lemma filterable_of_mem_globalRegistrations {entries : List (String × Value)} {r : Registration}
    (h : r ∈ globalRegistrations entries) : r.parameter.filterable = true := by
  obtain ⟨entry, -, rfl⟩ := List.mem_map.1 h
  rfl

/-- The filter applies to whatever an operation registers. -/
lemma Operation.filterable_of_mem {operation : Operation} {r : Registration}
    (h : r ∈ operation.registrations) : r.parameter.filterable = true := by
  cases operation with
  | set key value => exact filterable_of_mem_globalRegistrations h
  | setGlobal key value restrictions => exact Scope.filterable_of_mem h
  | setLocal key value position => exact Scope.filterable_of_mem h
  | register key value restrictions scope => exact Scope.filterable_of_mem h
  | setProperty key value contexts labels databases scope =>
    simp only [registrations] at h
    split at h
    · cases h
    · exact Scope.filterable_of_mem h
  | setAll entries => exact filterable_of_mem_globalRegistrations h
  | setDefaults entries => exact filterable_of_mem_globalRegistrations h
  | setFilter | setContexts | setLabels | setDatabase | setMissingMode => cases h

/-- The store after an operation, whether or not it fails. -/
theorem after_eq (store : Store) (operation : Operation) :
    store.after operation = (store.addAll operation.registrations).adopt operation := by
  rw [after, perform_eq]
  cases h : operation.failure? with
  | none => rfl
  | some e =>
    obtain ⟨hcontexts, hlabels, hdatabase, hmode⟩ := Operation.settings_of_failure h
    simp [Operation.registrations_of_failure h, adopt, Operation.filterAfter, hcontexts, hlabels,
      hdatabase, hmode]

/-! ### The whole history -/

namespace History

@[simp] lemma filter_snoc (h : History) (operation : Operation) :
    (h.snoc operation).filter = operation.filterAfter h.filter := by
  simp only [snoc, filter, Operation.filterAfter, lastSet_concat]

@[simp] lemma missingMode_snoc (h : History) (operation : Operation) :
    (h.snoc operation).missingMode = operation.missingMode?.getD h.missingMode := by
  simp only [snoc, missingMode, lastSet_concat]

/-- Building a store registers the parameters of the profile and sets the filter for its
database. -/
lemma build_eq (setup : Setup) :
    build setup =
      { setup.bare.addAll (globalRegistrations (setup.profile.elim [] Profile.parameters)) with
        filter := { Filter.unset with database := setup.profile.map (·.shortName) } } := by
  unfold build
  cases setup.profile with
  | none => rfl
  | some profile => simp only [setAll_eq_addAll]; rfl

/-- Registrations do not depend on the settings of a store. -/
lemma addAll_settings (store : Store) (filter : Filter) (mode : MissingMode)
    (log : List Registration) :
    { store with filter := filter, missingMode := mode }.addAll log =
      { store.addAll log with filter := filter, missingMode := mode } := by
  induction log generalizing store with
  | nil => rfl
  | cons r log ih =>
    have hrest := ih (store.add r)
    obtain ⟨_ | scope, parameter⟩ := r <;> exact hrest

/-- **The store of a history.**  It is the bare store of the setup with the registrations of the
log, the filter in force and the policy in force. -/
theorem store_eq (h : History) :
    h.store =
      { h.setup.bare.addAll h.log with filter := h.filter, missingMode := h.missingMode } := by
  induction h using History.induction with
  | start setup =>
    change build setup = _
    rw [build_eq]
    simp [log, filter, missingMode, Setup.bare, Filter.unset]
  | step h operation ih =>
    rw [store_snoc, after_eq, ih, addAll_settings]
    simp [adopt]

@[simp] lemma store_system (h : History) : h.store.system = h.setup.system := by
  simp [store_eq, Setup.bare]

@[simp] lemma store_filter (h : History) : h.store.filter = h.filter := by
  simp [store_eq]

@[simp] lemma store_missingMode (h : History) : h.store.missingMode = h.missingMode := by
  simp [store_eq]

@[simp] lemma store_deploymentId (h : History) :
    h.store.deploymentId = h.setup.config.deploymentId.getD h.setup.generatedId := by
  simp [store_eq, Setup.bare]

/-- The global tier holds what the log registers for all changelogs, oldest first. -/
@[simp] lemma store_globals (h : History) : h.store.globals = keptAt .everywhere h.log := by
  simp [store_eq, Setup.bare]

/-- The bucket of a logical path holds what the log registers under the path, oldest first. -/
@[simp] lemma store_locals_get (h : History) (scope : String) :
    h.store.locals.get scope = keptAt (.under scope) h.log := by
  simp [store_eq, Setup.bare]

end History

end Store

end ChangelogParameters
