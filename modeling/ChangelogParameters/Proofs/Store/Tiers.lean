import ChangelogParameters.Proofs.Store.Calls

/-!
# What the tiers hold

The tiers of a store are filled in one way only.  The system tier is what the setup seeds it with,
and stays so.  A registration puts one parameter at the end of the global tier or of one bucket and
touches nothing else; a bucket is opened when the first parameter comes into it.  So buckets are
never empty, their paths stand in the order in which they were first registered for, and the number
of parameters is that of the successful registrations, with what the store was built with.

`Kept` is the invariant, `kept_after` the step and `kept_run` the run; `appends_add` says what a
single registration does, and `size_run` counts.
-/

namespace ChangelogParameters

/-! ### Buckets -/

namespace Buckets

/-- Adding a parameter opens a bucket behind the others if its path has none. -/
lemma map_fst_add (scope : String) (parameter : Parameter) (buckets : Buckets) :
    (add scope parameter buckets).map (·.1) =
      if scope ∈ buckets.map (·.1) then buckets.map (·.1) else buckets.map (·.1) ++ [scope] := by
  induction buckets with
  | nil => simp [add]
  | cons bucket rest ih =>
    obtain ⟨s, ps⟩ := bucket
    by_cases h : scope = s
    · simp [add, h]
    · simp only [add, h, if_false, List.map_cons, List.mem_cons, false_or, ih]
      split <;> rfl

/-- Adding a parameter makes one more. -/
lemma size_add (scope : String) (parameter : Parameter) (buckets : Buckets) :
    (add scope parameter buckets).size = buckets.size + 1 := by
  induction buckets with
  | nil => simp [add, size]
  | cons bucket rest ih =>
    obtain ⟨s, ps⟩ := bucket
    by_cases h : scope = s
    · simp only [add, h, if_true, size, List.length_append, List.length_singleton]
      omega
    · simp only [add, h, if_false, size, ih]
      omega

/-- After a parameter was added, a bucket is as it was before, or the parameter stands at its end
behind what the bucket has held. -/
lemma mem_add {scope : String} {parameter : Parameter} {buckets : Buckets}
    {bucket : String × List Parameter} (h : bucket ∈ add scope parameter buckets) :
    bucket ∈ buckets ∨ ∃ ps, bucket = (scope, ps ++ [parameter]) ∧
      (ps = [] ∨ (scope, ps) ∈ buckets) := by
  induction buckets with
  | nil => exact .inr ⟨[], by simpa [add] using h, .inl rfl⟩
  | cons first rest ih =>
    obtain ⟨s, ps⟩ := first
    by_cases hs : scope = s
    · subst hs
      rcases List.mem_cons.1 (by simpa [add] using h) with rfl | hrest
      · exact .inr ⟨ps, rfl, .inr List.mem_cons_self⟩
      · exact .inl (List.mem_cons_of_mem _ hrest)
    · rcases List.mem_cons.1 (by simpa [add, hs] using h) with rfl | hrest
      · exact .inl List.mem_cons_self
      · rcases ih hrest with hbefore | ⟨qs, hbucket, hqs⟩
        · exact .inl (List.mem_cons_of_mem _ hbefore)
        · exact .inr ⟨qs, hbucket, hqs.imp_right (List.mem_cons_of_mem _)⟩

end Buckets

namespace Store

/-! ### The invariant -/

/-- The parameters that the system tier is seeded with: the environment if it is asked for, and
then the others. -/
def Setup.seeded (setup : Setup) : List (String × Value) :=
  (if setup.config.seedEnvironment then
    setup.environment.map fun (key, value) => (key, .string value)
  else []) ++ setup.systemValues

/-- What the tiers of a store that was built from a setup keep to. -/
structure Kept (setup : Setup) (store : Store) : Prop where
  /-- The system tier holds what it was seeded with, out of reach of the filter. -/
  system : store.system = setup.seeded.map fun (key, value) => ⟨key, value, .none, false⟩
  system_free : ∀ parameter ∈ store.system,
    parameter.restrictions.isRestricted = false ∧ parameter.filterable = false
  globals_filterable : ∀ parameter ∈ store.globals, parameter.filterable = true
  locals_filterable : ∀ bucket ∈ store.locals, ∀ parameter ∈ bucket.2, parameter.filterable = true
  bucket_ne_nil : ∀ bucket ∈ store.locals, bucket.2 ≠ []
  scopes_nodup : store.scopes.Nodup

variable {setup : Setup} {store : Store}

/-- The system tier of a setup consists of its seeds. -/
lemma Setup.system_eq_map_seeded (setup : Setup) :
    setup.system = setup.seeded.map fun (key, value) => ⟨key, value, .none, false⟩ := by
  rw [Setup.system, seeded, List.map_append]
  split
  · rw [List.map_map]
    rfl
  · rfl

/-- A bare store keeps to the invariant. -/
lemma kept_bare (setup : Setup) : Kept setup setup.bare where
  system := setup.system_eq_map_seeded
  system_free := by
    intro parameter h
    rw [Setup.bare, setup.system_eq_map_seeded] at h
    obtain ⟨entry, -, rfl⟩ := List.mem_map.1 h
    exact ⟨rfl, rfl⟩
  globals_filterable := by simp [Setup.bare]
  locals_filterable := by simp [Setup.bare]
  bucket_ne_nil := by simp [Setup.bare]
  scopes_nodup := by simp [Setup.bare, scopes]

/-- A registration of a filterable parameter keeps to the invariant. -/
lemma Kept.add (h : Kept setup store) {r : Registration} (hr : r.parameter.filterable = true) :
    Kept setup (store.add r) := by
  obtain ⟨_ | scope, parameter⟩ := r
  · refine ⟨h.system, h.system_free, ?_, h.locals_filterable, h.bucket_ne_nil, h.scopes_nodup⟩
    intro p hp
    rcases List.mem_append.1 hp with hp | hp
    · exact h.globals_filterable p hp
    · exact List.mem_singleton.1 hp ▸ hr
  · refine ⟨h.system, h.system_free, h.globals_filterable, ?_, ?_, ?_⟩
    · intro bucket hbucket p hp
      rcases Buckets.mem_add hbucket with hbefore | ⟨ps, rfl, hps⟩
      · exact h.locals_filterable bucket hbefore p hp
      · rcases List.mem_append.1 hp with hp | hp
        · rcases hps with rfl | hps
          · cases hp
          · exact h.locals_filterable _ hps p hp
        · exact List.mem_singleton.1 hp ▸ hr
    · intro bucket hbucket
      rcases Buckets.mem_add hbucket with hbefore | ⟨ps, rfl, -⟩
      · exact h.bucket_ne_nil bucket hbefore
      · simp
    · have hscopes := Buckets.map_fst_add scope parameter store.locals
      rw [scopes, Store.add]
      dsimp only
      rw [hscopes]
      split
      · exact h.scopes_nodup
      case isFalse hnew =>
        refine List.nodup_append.2 ⟨h.scopes_nodup, by simp, ?_⟩
        intro s hs t ht hst
        rw [List.mem_singleton.1 ht] at hst
        exact hnew (hst ▸ hs)

lemma Kept.addAll (h : Kept setup store) {log : List Registration}
    (hlog : ∀ r ∈ log, r.parameter.filterable = true) : Kept setup (store.addAll log) := by
  induction log generalizing store with
  | nil => exact h
  | cons r log ih =>
    obtain ⟨hr, hrest⟩ := List.forall_mem_cons.1 hlog
    exact ih (h.add hr) hrest

/-- Only the tiers count for the invariant. -/
lemma Kept.congr {other : Store} (h : Kept setup store) (hsystem : other.system = store.system)
    (hglobals : other.globals = store.globals) (hlocals : other.locals = store.locals) :
    Kept setup other where
  system := hsystem.trans h.system
  system_free := hsystem ▸ h.system_free
  globals_filterable := hglobals ▸ h.globals_filterable
  locals_filterable := hlocals ▸ h.locals_filterable
  bucket_ne_nil := hlocals ▸ h.bucket_ne_nil
  scopes_nodup := by
    rw [scopes, hlocals]
    exact h.scopes_nodup

/-- Every operation keeps to the invariant, whether or not it fails. -/
lemma kept_after (h : Kept setup store) (operation : Operation) :
    Kept setup (store.after operation) := by
  rw [after_eq]
  exact (h.addAll fun r hr => Operation.filterable_of_mem hr).congr rfl rfl rfl

/-- A store keeps to the invariant when it has been built. -/
lemma kept_build (setup : Setup) : Kept setup (build setup) := by
  have hadded : Kept setup (setup.bare.addAll
      (globalRegistrations (setup.profile.elim [] Profile.parameters))) :=
    (kept_bare setup).addAll fun r hr => filterable_of_mem_globalRegistrations hr
  rw [History.build_eq]
  exact hadded.congr rfl rfl rfl

/-- And so it does after any sequence of operations. -/
lemma kept_run (h : Kept setup store) (operations : List Operation) :
    Kept setup (store.run operations) := by
  induction operations generalizing store with
  | nil => exact h
  | cons operation operations ih => exact ih (kept_after h operation)

/-! ### The order of buckets -/

/-- The logical path of a place in the local tier. -/
def Place.scope? : Place → Option String
  | everywhere => none
  | under scope => some scope

/-- Of repeated elements the first ones are kept, so one more counts only if it is new. -/
lemma eraseDups_concat (l : List String) (a : String) :
    (l ++ [a]).eraseDups = if a ∈ l then l.eraseDups else l.eraseDups ++ [a] := by
  rw [List.eraseDups_append]
  by_cases h : a ∈ l <;> simp [List.removeAll, List.eraseDups_cons, h]

/-- The paths that a log registers for come behind those there were, each where it is first
registered for. -/
lemma scopes_addAll {visited : List String} (h : store.scopes = visited.eraseDups)
    (log : List Registration) :
    (store.addAll log).scopes =
      (visited ++ log.filterMap fun r => r.place.scope?).eraseDups := by
  induction log generalizing store visited with
  | nil => simpa using h
  | cons r log ih =>
    obtain ⟨_ | scope, parameter⟩ := r
    · exact ih h
    · have hscopes : (store.add ⟨.under scope, parameter⟩).scopes =
          (visited ++ [scope]).eraseDups := by
        rw [scopes] at h
        rw [scopes, add, Buckets.map_fst_add, eraseDups_concat, h]
        simp
      have hrest := ih hscopes
      rwa [List.append_assoc, List.singleton_append] at hrest

/-- The buckets stand in the order in which their paths were first registered for. -/
lemma History.scopes_store (h : History) :
    h.store.scopes = (h.log.filterMap fun r => r.place.scope?).eraseDups := by
  have hbare : h.setup.bare.scopes = ([] : List String).eraseDups := rfl
  rw [History.store_eq]
  exact scopes_addAll hbare h.log

/-! ### Single registrations -/

/-- An operation registers a parameter, which has the key, the value and the restrictions that the
operation is given, at the place of its scope. -/
inductive Operation.Registers : Operation → Place → Parameter → Prop
  | set (key : String) (value : Value) :
      Registers (.set key value) .everywhere ⟨key, value, .none, true⟩
  | setGlobal (key : String) (value : Value) (restrictions : Restrictions) :
      Registers (.setGlobal key value restrictions) .everywhere ⟨key, value, restrictions, true⟩
  | setLocal (key : String) (value : Value) (position : Position) :
      Registers (.setLocal key value (some position)) (.under position.scopeKey)
        ⟨key, value, .none, true⟩
  | register {scope : Scope} {place : Place} (key : String) (value : Value)
      (restrictions : Restrictions) (hplace : scope.place? = some place) :
      Registers (.register key value restrictions scope) place ⟨key, value, restrictions, true⟩
  | setProperty {contexts labels databases : String} {scope : Scope} {place : Place}
      {restrictions : Restrictions} (key : String) (value : Value)
      (hparse : Restrictions.parse contexts labels databases = .ok restrictions)
      (hplace : scope.place? = some place) :
      Registers (.setProperty key value contexts labels databases scope) place
        ⟨key, value, restrictions, true⟩

/-- Whether an operation is the registration of a single parameter. -/
def Operation.isSingle : Operation → Bool
  | set .. | setGlobal .. | setLocal .. | register .. | setProperty .. => true
  | _ => false

/-- Whether an operation sets the filter, a part of it, or the policy for missing values. -/
def Operation.isSetting : Operation → Bool
  | setFilter _ | setContexts _ | setLabels _ | setDatabase _ | setMissingMode _ => true
  | _ => false

/-- A store is another one with a parameter at the end of one tier or bucket, and with a bucket for
it if there was none. -/
structure Appends (store after : Store) (place : Place) (parameter : Parameter) : Prop where
  system : after.system = store.system
  globals : after.globals =
    if place = .everywhere then store.globals ++ [parameter] else store.globals
  bucket : ∀ scope, after.locals.get scope =
    if place = .under scope then store.locals.get scope ++ [parameter]
    else store.locals.get scope
  scopes : after.scopes = store.scopes ++ place.scope?.toList.filter (· ∉ store.scopes)
  filter : after.filter = store.filter
  missingMode : after.missingMode = store.missingMode
  deploymentId : after.deploymentId = store.deploymentId

/-- A registration appends its parameter at its place. -/
lemma appends_add (store : Store) (place : Place) (parameter : Parameter) :
    store.Appends (store.add ⟨place, parameter⟩) place parameter := by
  cases place with
  | everywhere =>
    refine ⟨rfl, rfl, ?_, ?_, rfl, rfl, rfl⟩
    · intro scope
      rfl
    · simp [Place.scope?, scopes, add]
  | under scope =>
    refine ⟨rfl, rfl, ?_, ?_, rfl, rfl, rfl⟩
    · intro asked
      rw [add, Buckets.get_add]
      by_cases h : asked = scope <;> simp [h, eq_comm (a := scope)]
    · rw [scopes, add, Buckets.map_fst_add]
      by_cases h : scope ∈ store.locals.map (·.1) <;> simp [Place.scope?, scopes, h]

/-- A scope with a place takes the parameter. -/
lemma exists_place_of_register {after : Store} {key : String} {value : Value}
    {restrictions : Restrictions} {scope : Scope}
    (h : store.register key value restrictions scope = .ok after) :
    ∃ place, scope.place? = some place ∧
      after = store.add ⟨place, ⟨key, value, restrictions, true⟩⟩ := by
  rcases scope with _ | _ | position
  · exact ⟨.everywhere, rfl, (Except.ok.inj h).symm⟩
  · cases h
  · exact ⟨.under position.scopeKey, rfl, (Except.ok.inj h).symm⟩

/-- A registration whose restrictions are given as texts succeeds only if they can be read. -/
lemma exists_place_of_setProperty {after : Store} {key : String} {value : Value}
    {contexts labels databases : String} {scope : Scope}
    (h : store.setProperty key value contexts labels databases scope = .ok after) :
    ∃ restrictions place, Restrictions.parse contexts labels databases = .ok restrictions ∧
      scope.place? = some place ∧ after = store.add ⟨place, ⟨key, value, restrictions, true⟩⟩ := by
  rw [setProperty] at h
  cases hparse : Restrictions.parse contexts labels databases with
  | error cause =>
    rw [hparse] at h
    cases h
  | ok restrictions =>
    rw [hparse] at h
    obtain ⟨place, hplace, hafter⟩ := exists_place_of_register h
    exact ⟨restrictions, place, rfl, hplace, hafter⟩

/-- A single registration that succeeds is the registration of one parameter. -/
lemma exists_registers_of_perform {operation : Operation} {after : Store}
    (hsingle : operation.isSingle = true) (h : store.perform operation = .ok after) :
    ∃ place parameter, operation.Registers place parameter ∧
      after = store.add ⟨place, parameter⟩ := by
  cases operation with
  | set key value => exact ⟨_, _, .set key value, (Except.ok.inj h).symm⟩
  | setGlobal key value restrictions =>
    exact ⟨_, _, .setGlobal key value restrictions, (Except.ok.inj h).symm⟩
  | setLocal key value position =>
    cases position with
    | none => cases h
    | some position => exact ⟨_, _, .setLocal key value position, (Except.ok.inj h).symm⟩
  | register key value restrictions scope =>
    obtain ⟨place, hplace, hafter⟩ := exists_place_of_register h
    exact ⟨place, _, .register key value restrictions hplace, hafter⟩
  | setProperty key value contexts labels databases scope =>
    obtain ⟨restrictions, place, hparse, hplace, hafter⟩ := exists_place_of_setProperty h
    exact ⟨place, _, .setProperty key value hparse hplace, hafter⟩
  | setAll | setDefaults | setFilter | setContexts | setLabels | setDatabase | setMissingMode =>
    cases hsingle

/-- Settings leave all parameters where they are. -/
lemma tiers_of_isSetting {operation : Operation} {after : Store}
    (hsetting : operation.isSetting = true) (h : store.perform operation = .ok after) :
    after.system = store.system ∧ after.globals = store.globals ∧ after.locals = store.locals := by
  cases operation with
  | setFilter | setContexts | setLabels | setDatabase | setMissingMode =>
    obtain rfl := Except.ok.inj h
    exact ⟨rfl, rfl, rfl⟩
  | _ => cases hsetting

/-- Several entries are registered by single registrations, one after the other. -/
lemma setAll_eq_run (store : Store) (entries : List (String × Value)) :
    store.setAll entries = store.run (entries.map fun (key, value) => .set key value) := by
  rw [run, List.foldl_map]
  rfl

/-! ### Counting -/

/-- How many parameters an operation registers if it succeeds.  Of the entries of a defaults file
only those count whose keys begin as the keys of parameters do. -/
def Operation.weight : Operation → Nat
  | set .. | setGlobal .. | setLocal .. | register .. | setProperty .. => 1
  | setAll entries => entries.length
  | setDefaults entries =>
    entries.countP fun (key, _) => defaultsPrefix.toList.isPrefixOf key.toList
  | setFilter _ | setContexts _ | setLabels _ | setDatabase _ | setMissingMode _ => 0

/-- How many parameters are registered by those of the operations that succeed. -/
def registered (store : Store) : List Operation → Nat
  | [] => 0
  | operation :: rest =>
    match store.perform operation with
    | .ok after => operation.weight + registered after rest
    | .error _ => registered store rest

/-- Every registration makes one more parameter. -/
lemma size_addAll (store : Store) (log : List Registration) :
    (store.addAll log).size = store.size + log.length := by
  induction log generalizing store with
  | nil => rfl
  | cons r log ih =>
    have hadd : (store.add r).size = store.size + 1 := by
      obtain ⟨_ | scope, parameter⟩ := r
      · simp only [size, add, List.length_append, List.length_singleton]
        omega
      · simp only [size, add, Buckets.size_add]
        omega
    refine (ih (store.add r)).trans ?_
    rw [hadd, List.length_cons]
    omega

/-- A scope that does not fail takes one parameter. -/
lemma Scope.length_registrations {scope : Scope} {key : String} (h : scope.failure? key = none)
    (value : Value) (restrictions : Restrictions) :
    (scope.registrations key value restrictions).length = 1 := by
  rcases scope with _ | _ | position
  · rfl
  · cases h
  · rfl

/-- An operation that does not fail registers as many parameters as it weighs. -/
lemma Operation.length_registrations {operation : Operation} (h : operation.failure? = none) :
    operation.registrations.length = operation.weight := by
  cases operation with
  | set key value => rfl
  | setGlobal key value restrictions => rfl
  | setLocal key value position => exact Scope.length_registrations h value .none
  | register key value restrictions scope => exact Scope.length_registrations h value restrictions
  | setProperty key value contexts labels databases scope =>
    simp only [failure?, registrations] at h ⊢
    cases hparse : Restrictions.parse contexts labels databases with
    | error cause => simp [hparse] at h
    | ok restrictions =>
      rw [hparse] at h
      exact Scope.length_registrations h value restrictions
  | setAll entries => simp [registrations, globalRegistrations, weight]
  | setDefaults entries =>
    simp [registrations, globalRegistrations, weight, defaultsParameters,
      List.length_filterMap_eq_countP, isSome_dropStart?]
  | setFilter | setContexts | setLabels | setDatabase | setMissingMode => rfl

/-- A run makes as many parameters more as its operations register. -/
lemma size_run (store : Store) (operations : List Operation) :
    (store.run operations).size = store.size + store.registered operations := by
  induction operations generalizing store with
  | nil => rfl
  | cons operation operations ih =>
    have hstep : store.run (operation :: operations) = (store.after operation).run operations := rfl
    rw [hstep, ih, registered, after, perform_eq]
    cases hfailure : operation.failure? with
    | some e => rfl
    | none =>
      have hsize : ((store.addAll operation.registrations).adopt operation).size =
          store.size + operation.weight := by
        rw [← Operation.length_registrations hfailure, ← size_addAll]
        rfl
      dsimp only
      omega

/-- A store is built with its seeds and the parameters of its profile. -/
lemma size_build (setup : Setup) :
    (build setup).size =
      setup.seeded.length + (setup.profile.elim [] Profile.parameters).length := by
  have hbare : setup.bare.size = setup.seeded.length := by
    simp [size, Setup.bare, Buckets.size, Setup.system_eq_map_seeded]
  rw [History.build_eq]
  change (setup.bare.addAll _).size = _
  rw [size_addAll, hbare, globalRegistrations, List.length_map]

/-! ### The tiers of a history -/

/-- **What the tiers hold.**  After every history the system tier holds its seeds, without
restrictions and out of reach of the filter, which reaches all other parameters; no bucket is empty,
and the paths of the buckets are different and stand in the order in which they were first
registered for.  The number of parameters is that of the seeds, of the parameters of the profile
and of the registrations that succeeded.  A single registration that succeeds appends one parameter
with the key, the value and the restrictions it is given, at the end of the global tier or of one
bucket, and leaves all else as it was; several entries are registered by single registrations in
order.  Settings leave all parameters where they are, and so do look-ups, at whatever point of the
history they come. -/
theorem History.tiers_store (h : History) :
    Kept h.setup h.store ∧
    h.store.scopes = (h.log.filterMap fun r => r.place.scope?).eraseDups ∧
    h.store.size = h.setup.seeded.length + (h.setup.profile.elim [] Profile.parameters).length +
      (build h.setup).registered h.operations ∧
    (∀ (operation : Operation) (after : Store), h.store.perform operation = .ok after →
      (operation.isSingle = true → ∃ place parameter,
        operation.Registers place parameter ∧ h.store.Appends after place parameter) ∧
      (operation.isSetting = true → after.system = h.store.system ∧
        after.globals = h.store.globals ∧ after.locals = h.store.locals)) ∧
    (∀ entries : List (String × Value), h.store.perform (.setAll entries) =
      .ok (h.store.run (entries.map fun (key, value) => .set key value))) ∧
    (∀ entries : List (String × Value), h.store.perform (.setDefaults entries) =
      .ok (h.store.run ((defaultsParameters entries).map fun (key, value) => .set key value))) ∧
    ∀ calls : List Call, calls.filterMap Call.operation? = h.operations →
      (build h.setup).carryOut calls = h.store := by
  refine ⟨kept_run (kept_build h.setup) h.operations, h.scopes_store, ?_, ?_, ?_, ?_, ?_⟩
  · rw [store, size_run, size_build]
  · intro operation after hafter
    constructor
    · intro hsingle
      obtain ⟨place, parameter, hregisters, rfl⟩ := exists_registers_of_perform hsingle hafter
      exact ⟨place, parameter, hregisters, h.store.appends_add place parameter⟩
    · intro hsetting
      exact tiers_of_isSetting hsetting hafter
  · intro entries
    exact congrArg Except.ok (h.store.setAll_eq_run entries)
  · intro entries
    exact congrArg Except.ok (h.store.setAll_eq_run (defaultsParameters entries))
  · intro calls hcalls
    rw [carryOut_eq_run, hcalls]
    rfl

end Store

end ChangelogParameters
