import ChangelogParameters.CommandLine.Session
import ChangelogParameters.Proofs.Store.Tiers
import ChangelogParameters.Proofs.Store.Unrestricted

/-!
# Sessions as histories

The store of a session is that of a history, which can be read off the options: first come the
definitions of the options and the parameters of the defaults file, then a filter, and last the
local parameters, all at the innermost changelog.  `start_eq_ok_iff` says so, and that there is a
session if the defaults file and the condition on labels can be read and local parameters come with
a changelog.

None of all this registers a restriction, so what is seen from the position of a session is what
counts; `seen_history` lists it.
-/

namespace ChangelogParameters

/-! ### Chains of changelogs -/

namespace Position

/-- The innermost position of a chain is that of the last file, with the others around it. -/
lemma chain?_concat (outer : List String) (file : String) :
    chain? (outer ++ [file]) = some ⟨.ofFile file, outer.reverse.map .ofFile⟩ := by
  induction outer using List.reverseRecOn generalizing file with
  | nil => rfl
  | append_singleton outer last ih =>
    have hstep : chain? (outer ++ [last] ++ [file]) =
        some (((chain? (outer ++ [last])).map (·.child file)).getD (root file)) := by
      simp [chain?]
    rw [hstep, ih]
    simp [child, ancestry]

/-- There is a position exactly if there is a file. -/
lemma chain?_eq_none_iff {files : List String} : chain? files = none ↔ files = [] := by
  rcases List.eq_nil_or_concat files with rfl | ⟨outer, file, rfl⟩
  · simp [chain?]
  · simp [chain?_concat]

/-- Local parameters of a chain are kept under the last file. -/
lemma map_scopeKey_chain? (files : List String) :
    (chain? files).map scopeKey = files.getLast? := by
  rcases List.eq_nil_or_concat files with rfl | ⟨outer, file, rfl⟩
  · rfl
  · simp [chain?_concat, scopeKey, Changelog.ofFile]

/-- From the position of a chain the buckets of all its files are seen, the last one first. -/
lemma levels_chain? (files : List String) : Store.levels (chain? files) = files.reverse := by
  rcases List.eq_nil_or_concat files with rfl | ⟨outer, file, rfl⟩
  · rfl
  · simp [chain?_concat, Store.levels, ancestry, Changelog.ofFile, Function.comp_def]

end Position

namespace CommandLine.Session

variable {options : Options} {around : Surroundings} {loaded : Defaults}
  {condition : Option Condition}

/-! ### The history of a session -/

/-- What is done to the store of a session after it has been built. -/
def operations (options : Options) (around : Surroundings) (loaded : Defaults)
    (condition : Option Condition) : List Store.Operation :=
  [.setAll (textValues options.definitions), .setDefaults loaded.entries,
    .setFilter (filter options condition (globalStore options around loaded))] ++
  (textValues options.localDefinitions).map fun (key, value) =>
    .setLocal key value (Position.chain? options.changelogs)

/-- What the store of a session goes through. -/
def history (options : Options) (around : Surroundings) (loaded : Defaults)
    (condition : Option Condition) : Store.History where
  setup := setup options around loaded
  operations := operations options around loaded condition

/-- Local parameters are added if there is a position for them. -/
lemma addLocals_eq_ok_iff {store after : Store} {position : Option Position}
    {entries : List (String × Value)} :
    addLocals store position entries = .ok after ↔
      (position = none → entries = []) ∧
        after = store.run (entries.map fun (key, value) => .setLocal key value position) := by
  cases position with
  | none =>
    cases entries with
    | nil => simp [addLocals, Store.run, eq_comm]
    | cons entry entries => simp [addLocals, Store.setLocal, Store.register]
  | some position =>
    induction entries generalizing store with
    | nil => simp [addLocals, Store.run, eq_comm]
    | cons entry entries ih =>
      have hstep : addLocals store (some position) (entry :: entries) =
          addLocals (store.setAt entry.1 entry.2 .none position) (some position) entries := rfl
      rw [hstep, ih]
      simp only [reduceCtorEq, false_implies, true_and]
      rfl

/-- The store of a session before its local parameters. -/
def filteredStore (options : Options) (around : Surroundings) (loaded : Defaults)
    (condition : Option Condition) : Store :=
  let globals := globalStore options around loaded
  { globals with filter := filter options condition globals }

/-- An outcome that is mapped succeeds with what its success is mapped to. -/
lemma map_eq_ok_iff {ε α β : Type} {f : α → β} {outcome : Except ε α} {b : β} :
    outcome.map f = .ok b ↔ ∃ a, outcome = .ok a ∧ f a = b := by
  cases outcome <;> simp [Except.map]

/-- Once the file and the condition are read, only the local parameters can fail. -/
lemma start_eq (hloaded : defaults options around = .ok loaded)
    (hcondition : labels options = .ok condition) :
    start options around =
      (addLocals (filteredStore options around loaded condition)
        (Position.chain? options.changelogs) (textValues options.localDefinitions)).map
          fun store => ⟨store, Position.chain? options.changelogs⟩ := by
  rw [start, hloaded, hcondition]
  rfl

/-- The history of a session leads through the store before the local parameters. -/
lemma store_history (options : Options) (around : Surroundings) (loaded : Defaults)
    (condition : Option Condition) :
    (history options around loaded condition).store =
      (filteredStore options around loaded condition).run
        ((textValues options.localDefinitions).map fun (key, value) =>
          .setLocal key value (Position.chain? options.changelogs)) := rfl

/-- **When there is a session.**  The defaults file and the condition on labels can be read, and
there is a changelog if there are local parameters.  The store of the session is that of its
history, and its position is the innermost changelog. -/
theorem start_eq_ok_iff {session : Session} :
    start options around = .ok session ↔
      ∃ loaded condition, defaults options around = .ok loaded ∧ labels options = .ok condition ∧
        (options.changelogs = [] → options.localDefinitions = []) ∧
        session = ⟨(history options around loaded condition).store,
          Position.chain? options.changelogs⟩ := by
  cases hloaded : defaults options around with
  | error e => simp [start, hloaded, bind, Except.bind]
  | ok loaded =>
    cases hcondition : labels options with
    | error e => simp [start, hloaded, hcondition, bind, Except.bind]
    | ok condition =>
      have hlocals : textValues options.localDefinitions = [] ↔ options.localDefinitions = [] :=
        List.map_eq_nil_iff
      rw [start_eq hloaded hcondition, map_eq_ok_iff]
      simp only [addLocals_eq_ok_iff, ← store_history, Position.chain?_eq_none_iff, hlocals]
      simp [eq_comm]

/-- Without a changelog the first local parameter is the one that is reported. -/
lemma start_eq_missingChangelog (hloaded : defaults options around = .ok loaded)
    (hcondition : labels options = .ok condition) (hchangelogs : options.changelogs = [])
    {key value : String} {rest : List (String × String)}
    (hlocals : options.localDefinitions = (key, value) :: rest) :
    start options around = .error (.changelog (.missingChangelog key)) := by
  rw [start_eq hloaded hcondition, hchangelogs, hlocals]
  rfl

/-! ### What is registered -/

/-- The entries of the global tier: the parameters of the database, the definitions of the options,
and the parameters of the defaults file. -/
def globalEntries (options : Options) (loaded : Defaults) : List (String × Value) :=
  loaded.database.elim [] Profile.parameters ++ textValues options.definitions ++
    Store.defaultsParameters loaded.entries

variable (options around loaded condition)

/-- The log of a session: the global tier first, and then the local parameters, if there is a place
for them. -/
lemma log_history :
    (history options around loaded condition).log =
      (globalEntries options loaded).map (fun entry => ⟨.everywhere, .free entry⟩) ++
        (textValues options.localDefinitions).flatMap fun entry =>
          (Store.Scope.within (Position.chain? options.changelogs)).registrations
            entry.1 entry.2 .none := by
  have hregistrations : (operations options around loaded condition).flatMap
      Store.Operation.registrations =
        Store.globalRegistrations (textValues options.definitions) ++
          (Store.globalRegistrations (Store.defaultsParameters loaded.entries) ++
            (textValues options.localDefinitions).flatMap fun entry =>
              (Store.Scope.within (Position.chain? options.changelogs)).registrations
                entry.1 entry.2 .none) := by
    rw [operations, List.flatMap_append, List.flatMap_map]
    simp [Store.Operation.registrations]
  rw [Store.History.log, history, hregistrations, globalEntries, List.map_append, List.map_append,
    List.append_assoc, List.append_assoc]
  rfl

/-- The system tier of a session is the environment, unless it is left out. -/
lemma seeded_setup :
    (setup options around loaded).seeded =
      if options.noEnvironment then [] else textValues around.environment := by
  cases h : options.noEnvironment <;> simp [setup, Store.Setup.seeded, textValues, h]

lemma globals_history :
    (history options around loaded condition).store.globals =
      (globalEntries options loaded).map .free := by
  rw [Store.History.store_globals, log_history, Store.keptAt_append, Store.keptAt_map,
    Store.keptAt_flatMap_within]
  simp

lemma locals_get_history (scope : String) :
    (history options around loaded condition).store.locals.get scope =
      if options.changelogs.getLast? = some scope then
        (textValues options.localDefinitions).map .free
      else [] := by
  rw [Store.History.store_locals_get, log_history, Store.keptAt_append, Store.keptAt_map,
    Store.keptAt_flatMap_within, ← Position.map_scopeKey_chain?]
  cases Position.chain? options.changelogs <;> simp

/-- Nothing in a session has restrictions. -/
lemma unrestricted_history :
    (history options around loaded condition).store.Unrestricted where
  system := by
    intro parameter h
    rw [Store.History.store_system, Store.Setup.system_eq_map_seeded] at h
    obtain ⟨entry, -, rfl⟩ := List.mem_map.1 h
    rfl
  globals := by
    intro parameter h
    rw [globals_history] at h
    obtain ⟨entry, -, rfl⟩ := List.mem_map.1 h
    rfl
  locals := by
    intro scope parameter h
    rw [locals_get_history] at h
    split at h
    · obtain ⟨entry, -, rfl⟩ := List.mem_map.1 h
      rfl
    · cases h

/-- What is seen from the position of a session: the environment, the global tier, and for every
changelog that is the last one the local parameters, the latest first. -/
lemma seen_history :
    (history options around loaded condition).store.seen (Position.chain? options.changelogs) =
      (if options.noEnvironment then [] else textValues around.environment) ++
        globalEntries options loaded ++
        options.changelogs.reverse.flatMap fun file =>
          if options.changelogs.getLast? = some file then
            (textValues options.localDefinitions).reverse
          else [] := by
  have hsystem : (history options around loaded condition).store.system.map Parameter.binding =
      if options.noEnvironment then [] else textValues around.environment := by
    rw [Store.History.store_system, Store.Setup.system_eq_map_seeded, ← seeded_setup, List.map_map]
    exact List.map_id _
  rw [Store.seen_eq, hsystem, globals_history, map_binding_free, Position.levels_chain?]
  have hbucket : ∀ scope,
      (((history options around loaded condition).store.locals.get scope).map
          Parameter.binding).reverse =
        if options.changelogs.getLast? = some scope then
          (textValues options.localDefinitions).reverse
        else [] := by
    intro scope
    rw [locals_get_history]
    split
    · rw [map_binding_free]
    · rfl
  simp only [hbucket]

end CommandLine.Session

end ChangelogParameters
