import ChangelogParameters.Proofs.Database.Profile
import ChangelogParameters.Proofs.Store.Tiers
import ChangelogParameters.Proofs.Store.Unrestricted

/-!
# Parameters of the database

The parameters of a profile are registered while the store is built, so they come first in the
global tier, and only the seeds of the system tier are looked at before them.  They have no
restrictions, and no two of them have one key.  Hence each of them has the last word on its key from
the beginning, unless a seed has the key: `History.resolve_parameters` says so for the stores of all
histories.

What a profile does not know it leaves out.  The keys that are left out are those of a complete
profile that are missing (`parameters_append_unknownKeys_perm`), and they are looked up as if there
were no profile.
-/

namespace ChangelogParameters

namespace Profile

/-! ### Known and unknown keys -/

/-- The key of a parameter whose value is not known. -/
def whenUnknown {α : Type} (key : String) (value : Option α) : List String :=
  if value.isSome then [] else [key]

/-- The keys of the parameters that a profile leaves out: versions, and whether updating is safe. -/
def unknownKeys (profile : Profile) : List String :=
  whenUnknown "database.databaseMajorVersion" profile.majorVersion ++
  whenUnknown "database.databaseMinorVersion" profile.minorVersion ++
  whenUnknown "database.databaseProductVersion" profile.productVersion ++
  whenUnknown "database.isSafeToRunUpdate" profile.isSafeToRunUpdate

/-- A parameter that may be left out is there, or its key is unknown. -/
lemma whenKnown_append_whenUnknown {α : Type} (key : String) (value : Option α)
    (toValue : α → Value) :
    (whenKnown key value toValue).map (·.1) ++ whenUnknown key value = [key] := by
  cases value <;> rfl

/-- The keys of a profile and those it does not know are together the keys of a complete one. -/
lemma parameters_append_unknownKeys_perm (profile : Profile) :
    (profile.parameters.map (·.1) ++ profile.unknownKeys).Perm parameterKeys := by
  have hmajor := whenKnown_append_whenUnknown "database.databaseMajorVersion"
    profile.majorVersion ofNat
  have hminor := whenKnown_append_whenUnknown "database.databaseMinorVersion"
    profile.minorVersion ofNat
  have hversion := whenKnown_append_whenUnknown "database.databaseProductVersion"
    profile.productVersion .string
  have hsafe := whenKnown_append_whenUnknown "database.isSafeToRunUpdate"
    profile.isSafeToRunUpdate .bool
  rw [List.perm_iff_count]
  intro key
  -- both sides hold the same pieces, and those of an optional parameter make up its key
  replace hmajor := congrArg (List.count key) hmajor
  replace hminor := congrArg (List.count key) hminor
  replace hversion := congrArg (List.count key) hversion
  replace hsafe := congrArg (List.count key) hsafe
  rw [List.count_append] at hmajor hminor hversion hsafe
  simp only [parameterKeys, parameters, unknownKeys, List.map_append, List.count_append]
  simp only [complete, whenKnown, List.map_cons, List.map_nil] at *
  omega

/-- A key that a profile leaves out is the key of none of its parameters. -/
lemma keyMatches_eq_false_of_mem_unknownKeys {profile : Profile} {key asked : String}
    (hkey : key ∈ profile.unknownKeys) (hasked : keyMatches key asked = true) :
    ∀ entry ∈ profile.parameters, keyMatches entry.1 asked = false := by
  intro entry hentry
  have hnodup : ((profile.parameters.map (·.1) ++ profile.unknownKeys).map Text.lower).Nodup :=
    (profile.parameters_append_unknownKeys_perm.map Text.lower).nodup_iff.2
      nodup_lower_parameterKeys
  rw [List.map_append] at hnodup
  have hne : Text.lower entry.1 ≠ Text.lower key :=
    (List.nodup_append.1 hnodup).2.2 _ (List.mem_map_of_mem (List.mem_map_of_mem hentry)) _
      (List.mem_map_of_mem hkey)
  rw [Bool.eq_false_iff]
  intro hmatches
  exact hne ((lower_eq_of_keyMatches hmatches).trans (lower_eq_of_keyMatches hasked).symm)

/-- No key of a profile names an execution value. -/
lemma ofName?_eq_none_of_keyMatches {key asked : String} (hkey : key ∈ parameterKeys)
    (hasked : keyMatches key asked = true) : ExecutionValue.ofName? asked = none := by
  have hnames : ∀ value ∈ ExecutionValue.all, ∀ key ∈ parameterKeys,
      Text.lower value.name ≠ Text.lower key := by
    decide +kernel
  rw [ExecutionValue.ofName?, List.find?_eq_none]
  intro value hvalue hname
  apply hnames value hvalue key hkey
  rw [lower_eq_of_keyMatches hname, lower_eq_of_keyMatches hasked]

end Profile

namespace Store

/-! ### Parameters that come first -/

/-- Let the system tier and the global tier begin with parameters without restrictions.  The first
value among them is the value of the key. -/
lemma resolve_of_firstValue {store : Store} {first : List Parameter}
    (hfirst : first <+: store.system ++ store.globals)
    (hfree : ∀ parameter ∈ first, parameter.restrictions = .none) {key : String} {value : Value}
    (hvalue : firstValue key (first.map Parameter.binding) = some value)
    {position : Option Position} (hexecution : executionValue? key position = none) :
    store.resolve key position = some value := by
  obtain ⟨later, hlater⟩ := hfirst
  rw [firstValue, List.find?_map, Option.map_map] at hvalue
  obtain ⟨parameter, hfind, rfl⟩ := Option.map_eq_some_iff.1 hvalue
  have hforemost : store.foremost? key = some parameter := by
    rw [foremost?, ← hlater, List.find?_append]
    exact Option.or_eq_some_iff.2 (.inl hfind)
  have hnone := hfree parameter (List.mem_of_find?_eq_some hfind)
  have haccepts : store.filter.accepts parameter = true := by
    apply store.filter.accepts_of_not_isRestricted
    rw [hnone, Restrictions.isRestricted_none]
  exact resolve_of_foremost? hforemost haccepts hexecution

/-- The seeds are the bindings of the system tier. -/
lemma Setup.map_binding_system (setup : Setup) :
    setup.system.map Parameter.binding = setup.seeded := by
  rw [setup.system_eq_map_seeded, List.map_map]
  exact List.map_id setup.seeded

namespace History

/-! ### Profiles in histories -/

/-- The registrations that the operations of a history make. -/
def registrations (h : History) : List Registration :=
  h.operations.flatMap Operation.registrations

/-- The parameters that do not come from the profile, as they are seen from a position, in the order
of look-up: the seeds, the global parameters that the operations register from the oldest on, and
then the buckets from the newest on. -/
def elsewhere (h : History) (position : Option Position) : List Parameter :=
  h.setup.system ++ keptAt .everywhere h.registrations ++
    (levels position).flatMap fun scope => (keptAt (.under scope) h.registrations).reverse

variable {h : History} {profile : Profile}

/-- The log holds the parameters of the profile in the global tier, before all others. -/
lemma keptAt_log_of_profile (hprofile : h.setup.profile = some profile) (place : Place) :
    keptAt place h.log =
      (if place = .everywhere then profile.parameters.map Parameter.free else []) ++
        keptAt place h.registrations := by
  rw [log, hprofile, Option.elim_some, keptAt_append, registrations]
  refine congrArg (· ++ _) ?_
  unfold globalRegistrations
  exact (keptAt_map .everywhere place profile.parameters).trans (by simp only [eq_comm])

/-- The global tier begins with the parameters of the profile. -/
lemma globals_of_profile (hprofile : h.setup.profile = some profile) :
    h.store.globals =
      profile.parameters.map Parameter.free ++ keptAt .everywhere h.registrations := by
  rw [store_globals, keptAt_log_of_profile hprofile, if_pos rfl]

/-- What is seen from a position are the seeds, the parameters of the profile and all others. -/
lemma parameters_of_profile (hprofile : h.setup.profile = some profile)
    (position : Option Position) :
    (h.store.entries position).map (·.parameter) =
      h.setup.system ++ (profile.parameters.map Parameter.free ++
        (keptAt .everywhere h.registrations ++
          (levels position).flatMap fun scope =>
            (keptAt (.under scope) h.registrations).reverse)) := by
  have hlocals : ∀ scope, h.store.locals.get scope = keptAt (.under scope) h.registrations := by
    intro scope
    rw [store_locals_get, keptAt_log_of_profile hprofile, if_neg (by simp), List.nil_append]
  rw [map_parameter_entries, store_system, globals_of_profile hprofile]
  simp only [hlocals, List.append_assoc]

/-- A parameter of the profile has the last word on its key, unless a seed has the key. -/
lemma resolve_of_mem_parameters (hprofile : h.setup.profile = some profile) {key asked : String}
    {value : Value} (hmem : (key, value) ∈ profile.parameters)
    (hasked : keyMatches key asked = true) {position : Option Position}
    (hexecution : executionValue? asked position = none) :
    h.store.resolve asked position = (firstValue asked h.setup.seeded).or (some value) := by
  have hprefix : h.setup.system ++ profile.parameters.map Parameter.free <+:
      h.store.system ++ h.store.globals := by
    rw [store_system, globals_of_profile hprofile, ← List.append_assoc]
    exact List.prefix_append _ _
  have hfree : ∀ parameter ∈ h.setup.system ++ profile.parameters.map Parameter.free,
      parameter.restrictions = .none := by
    intro parameter hparameter
    rcases List.mem_append.1 hparameter with hsystem | hparameter
    · rw [h.setup.system_eq_map_seeded] at hsystem
      obtain ⟨seed, -, rfl⟩ := List.mem_map.1 hsystem
      rfl
    · obtain ⟨entry, -, rfl⟩ := List.mem_map.1 hparameter
      rfl
  have honly : firstValue asked profile.parameters = some value := by
    refine firstValue_eq_some_of_mem hmem hasked fun other hother hotherkey => ?_
    rw [Profile.eq_of_keyMatches hother hmem hotherkey hasked]
  have hvalue : firstValue asked
      ((h.setup.system ++ profile.parameters.map Parameter.free).map Parameter.binding) =
        (firstValue asked h.setup.seeded).or (some value) := by
    rw [List.map_append, h.setup.map_binding_system, map_binding_free, firstValue_append, honly]
  obtain ⟨first, hfirst⟩ :
      ∃ first, (firstValue asked h.setup.seeded).or (some value) = some first :=
    Option.isSome_iff_exists.1 (by simp)
  rw [hfirst] at hvalue ⊢
  exact resolve_of_firstValue hprefix hfree hvalue hexecution

/-- A key that no parameter of the profile has is looked up among all other parameters. -/
lemma resolve_of_forall_parameters (hprofile : h.setup.profile = some profile) {asked : String}
    (hnone : ∀ entry ∈ profile.parameters, keyMatches entry.1 asked = false)
    {position : Option Position} (hexecution : executionValue? asked position = none) :
    h.store.resolve asked position =
      ((h.elsewhere position).find? fun parameter =>
        keyMatches parameter.key asked && h.filter.accepts parameter).map (·.value) := by
  have hpassed : (profile.parameters.map Parameter.free).find? (fun parameter =>
      keyMatches parameter.key asked && h.filter.accepts parameter) = none := by
    rw [List.find?_eq_none]
    intro parameter hparameter
    obtain ⟨entry, hentry, rfl⟩ := List.mem_map.1 hparameter
    have hkey : keyMatches (Parameter.free entry).key asked = false := hnone entry hentry
    simp [hkey]
  rw [h.store.resolve_eq_find?_parameters hexecution, parameters_of_profile hprofile, store_filter,
    elsewhere, List.append_assoc]
  simp only [List.find?_append, hpassed, Option.none_or]

/-- **The parameters of the database.**  Let a store be built with a profile.  The keys of its
parameters differ in more than the case of their letters, and those that it leaves out, as it does
not know the values, are the other keys of a complete profile.  After every history a key of a
parameter, in whatever case it is asked for, has the value of the first seed of the system tier with
the key, or else the value of the parameter, which may be null.  A key that is left out is the key
of no parameter of the profile, and it has the value of the first parameter from elsewhere that has
the key and that the filter in force accepts; it has no value if there is none. -/
theorem resolve_parameters (h : History) {profile : Profile}
    (hprofile : h.setup.profile = some profile) (position : Option Position) :
    (profile.parameters.map fun entry => Text.lower entry.1).Nodup ∧
    (profile.parameters.map (·.1) ++ profile.unknownKeys).Perm Profile.parameterKeys ∧
    (∀ key value asked, (key, value) ∈ profile.parameters → keyMatches key asked = true →
      h.store.resolve asked position = (firstValue asked h.setup.seeded).or (some value)) ∧
    ∀ key asked, key ∈ profile.unknownKeys → keyMatches key asked = true →
      (∀ entry ∈ profile.parameters, keyMatches entry.1 asked = false) ∧
      h.store.resolve asked position =
        ((h.elsewhere position).find? fun parameter =>
          keyMatches parameter.key asked && h.filter.accepts parameter).map (·.value) := by
  have hperm := profile.parameters_append_unknownKeys_perm
  have hexecution : ∀ {key asked}, key ∈ profile.parameters.map (·.1) ++ profile.unknownKeys →
      keyMatches key asked = true → executionValue? asked position = none := by
    intro key asked hkey hasked
    rw [executionValue?, Profile.ofName?_eq_none_of_keyMatches (hperm.mem_iff.1 hkey) hasked]
    cases position <;> rfl
  refine ⟨profile.nodup_lower_parameters, hperm, ?_, ?_⟩
  · intro key value asked hmem hasked
    have hkey := List.mem_append_left profile.unknownKeys (List.mem_map_of_mem (f := (·.1)) hmem)
    exact resolve_of_mem_parameters hprofile hmem hasked (hexecution hkey hasked)
  · intro key asked hkey hasked
    have hnone := Profile.keyMatches_eq_false_of_mem_unknownKeys hkey hasked
    exact ⟨hnone, resolve_of_forall_parameters hprofile hnone
      (hexecution (List.mem_append_right _ hkey) hasked)⟩

/-- A seed goes before the profile, and the null of the profile before what is registered later.  A
version that the profile does not know is that of a local parameter, as the filter of the profile
hides the global one; another one is not registered at all. -/
theorem resolve_parameters_h2 :
    let profile : Profile := { shortName := "h2", majorVersion := some 2 }
    let h : History :=
      ⟨{ systemValues := [("DATABASE.TYPENAME", .string "seed")], profile := some profile },
        [.set "database.defaultSchemaName" (.string "late"),
          .setGlobal "database.databaseMinorVersion" (.ofInt 9)
            { Restrictions.none with databases := .parse "oracle" },
          .setLocal "Database.DatabaseMinorVersion" (.ofInt 3) (some (.root "root.xml"))]⟩
    let position : Option Position := some (.root "root.xml")
    h.setup.profile = some profile ∧
      ("database.typeName", .string "h2") ∈ profile.parameters ∧
      ("database.defaultSchemaName", .null) ∈ profile.parameters ∧
      "database.databaseMinorVersion" ∈ profile.unknownKeys ∧
      "database.databaseProductVersion" ∈ profile.unknownKeys ∧
      h.store.resolve "database.typeName" position = some (.string "seed") ∧
      h.store.resolve "DATABASE.defaultSchemaName" position = some .null ∧
      h.store.resolve "database.databaseMinorVersion" position = some (.ofInt 3) ∧
      h.store.resolve "database.databaseProductVersion" position = none := by
  intro profile h position
  have hprofile : h.setup.profile = some profile := rfl
  have htype : ("database.typeName", .string "h2") ∈ profile.parameters := by decide +kernel
  have hschema : ("database.defaultSchemaName", .null) ∈ profile.parameters := by decide +kernel
  have hminor : "database.databaseMinorVersion" ∈ profile.unknownKeys := by decide +kernel
  have hversion : "database.databaseProductVersion" ∈ profile.unknownKeys := by decide +kernel
  obtain ⟨-, -, hknown, hunknown⟩ := resolve_parameters h hprofile position
  refine ⟨hprofile, htype, hschema, hminor, hversion, ?_, ?_, ?_, ?_⟩
  · exact (hknown _ _ _ htype (keyMatches_self _)).trans (by decide +kernel)
  · exact (hknown _ _ _ hschema (by decide +kernel)).trans (by decide +kernel)
  · exact (hunknown _ _ hminor (keyMatches_self _)).2.trans (by decide +kernel)
  · exact (hunknown _ _ hversion (keyMatches_self _)).2.trans (by decide +kernel)

end History

end Store

end ChangelogParameters
