import ChangelogParameters.Proofs.Parameter.Recasing
import ChangelogParameters.Proofs.Store.History
import Mathlib.Data.List.Forall2

/-!
# Recased runs

Two runs are recased if they are built from recased setups and perform recased operations one after
the other: with the same values, at the same positions, and with keys, restrictions and filters
whose texts differ at most in the case of ASCII letters.

`Recased.perform` says that recased operations on recased stores fail alike or leave recased stores
behind, and `Recased.run` follows by induction along the operations.
-/

namespace ChangelogParameters

namespace Store

/-! ### Recased operations -/

/-- Two entries with the same content under recased keys. -/
structure EntryRecased {α : Type} (x y : String × α) : Prop where
  key : Text.Recased x.1 y.1
  content : x.2 = y.2

/-- Two recased entries of defaults files, both of which are parameters or none is: whether an entry
is a parameter does depend on the case of its key. -/
structure DefaultRecased (x y : String × Value) : Prop extends EntryRecased x y where
  isParameter : (dropStart? defaultsPrefix x.1).isSome = (dropStart? defaultsPrefix y.1).isSome

/-- Two errors of one kind: for recased keys, or for the same fault in recased texts. -/
inductive RegistrationError.Recased : RegistrationError → RegistrationError → Prop
  | missingChangelog {key key' : String} (h : Text.Recased key key') :
      Recased (.missingChangelog key) (.missingChangelog key')
  | invalidRestriction {cause cause' : Expr.ParseError} (h : cause.Recased cause') :
      Recased (.invalidRestriction cause) (.invalidRestriction cause')

/-- Two operations that do the same, with the same values and at the same positions, but for the
case of ASCII letters in keys, restrictions and filters. -/
inductive Operation.Recased : Operation → Operation → Prop
  | set {key key' : String} (value : Value) (hkey : Text.Recased key key') :
      Recased (.set key value) (.set key' value)
  | setGlobal {key key' : String} (value : Value) {r r' : Restrictions}
      (hkey : Text.Recased key key') (hr : r.Recased r') :
      Recased (.setGlobal key value r) (.setGlobal key' value r')
  | setLocal {key key' : String} (value : Value) (position : Option Position)
      (hkey : Text.Recased key key') :
      Recased (.setLocal key value position) (.setLocal key' value position)
  | register {key key' : String} (value : Value) {r r' : Restrictions} (scope : Scope)
      (hkey : Text.Recased key key') (hr : r.Recased r') :
      Recased (.register key value r scope) (.register key' value r' scope)
  | setProperty {key key' : String} (value : Value)
      {contexts contexts' labels labels' databases databases' : String} (scope : Scope)
      (hkey : Text.Recased key key') (hcontexts : Text.Recased contexts contexts')
      (hlabels : Text.Recased labels labels') (hdatabases : Text.Recased databases databases') :
      Recased (.setProperty key value contexts labels databases scope)
        (.setProperty key' value contexts' labels' databases' scope)
  | setAll {entries entries' : List (String × Value)}
      (h : List.Forall₂ EntryRecased entries entries') :
      Recased (.setAll entries) (.setAll entries')
  | setDefaults {entries entries' : List (String × Value)}
      (h : List.Forall₂ DefaultRecased entries entries') :
      Recased (.setDefaults entries) (.setDefaults entries')
  | setFilter {filter filter' : Filter} (h : filter.Recased filter') :
      Recased (.setFilter filter) (.setFilter filter')
  | setContexts {contexts contexts' : Option Names}
      (h : Option.Rel Names.Recased contexts contexts') :
      Recased (.setContexts contexts) (.setContexts contexts')
  | setLabels {labels labels' : Option Condition}
      (h : Option.Rel Condition.Recased labels labels') :
      Recased (.setLabels labels) (.setLabels labels')
  | setDatabase {database database' : Option String}
      (h : Option.Rel Text.Recased database database') :
      Recased (.setDatabase database) (.setDatabase database')
  | setMissingMode (mode : MissingMode) : Recased (.setMissingMode mode) (.setMissingMode mode)

/-- Two setups that differ at most in the case of ASCII letters in the keys of the system tier. -/
structure Setup.Recased (setup setup' : Setup) : Prop where
  config : setup.config = setup'.config
  environment : List.Forall₂ EntryRecased setup.environment setup'.environment
  systemValues : List.Forall₂ EntryRecased setup.systemValues setup'.systemValues
  profile : setup.profile = setup'.profile
  generatedId : setup.generatedId = setup'.generatedId

/-- Two histories with recased setups and, one by one, recased operations. -/
structure History.Recased (h h' : History) : Prop where
  setup : h.setup.Recased h'.setup
  operations : List.Forall₂ Operation.Recased h.operations h'.operations

/-! ### Recased registrations -/

/-- Two registrations of recased parameters at one place. -/
structure Registration.Recased (r r' : Registration) : Prop where
  place : r.place = r'.place
  parameter : r.parameter.Recased r'.parameter

/-- Recased logs keep recased parameters at every place. -/
lemma keptAt_recased {log log' : List Registration} (h : List.Forall₂ Registration.Recased log log')
    (place : Place) : List.Forall₂ Parameter.Recased (keptAt place log) (keptAt place log') := by
  induction h with
  | nil => exact .nil
  | @cons r r' log log' hr _ ih =>
    rw [keptAt_cons, keptAt_cons, hr.place]
    split
    case isTrue => exact .cons hr.parameter ih
    case isFalse => exact ih

/-- Recased entries are registered as recased parameters. -/
lemma globalRegistrations_recased {entries entries' : List (String × Value)}
    (h : List.Forall₂ EntryRecased entries entries') :
    List.Forall₂ Registration.Recased (globalRegistrations entries)
      (globalRegistrations entries') := by
  rw [globalRegistrations, globalRegistrations, List.forall₂_map_left_iff,
    List.forall₂_map_right_iff]
  refine h.imp ?_
  intro x y hxy
  exact ⟨rfl, hxy.key, hxy.content, .none, rfl⟩

/-- What a scope registers under recased keys is recased. -/
lemma Scope.registrations_recased (scope : Scope) {key key' : String} (value : Value)
    {r r' : Restrictions} (hkey : Text.Recased key key') (hr : r.Recased r') :
    List.Forall₂ Registration.Recased (scope.registrations key value r)
      (scope.registrations key' value r') := by
  rw [registrations, registrations, List.forall₂_map_left_iff, List.forall₂_map_right_iff,
    List.forall₂_same]
  intro place _
  exact ⟨rfl, hkey, rfl, hr, rfl⟩

/-- A scope fails alike under recased keys. -/
lemma Scope.failure?_recased (scope : Scope) {key key' : String} (hkey : Text.Recased key key') :
    Option.Rel RegistrationError.Recased (scope.failure? key) (scope.failure? key') := by
  rw [failure?, failure?]
  split
  case isTrue => exact .none
  case isFalse => exact .some (.missingChangelog hkey)

/-- What is left of recased texts that begin with one text is recased. -/
lemma dropStart?_recased {start s s' : String} (h : Text.Recased s s')
    (hstart : (dropStart? start s).isSome = (dropStart? start s').isSome) :
    Option.Rel Text.Recased (dropStart? start s) (dropStart? start s') := by
  have hprefix : start.toList.isPrefixOf s.toList = start.toList.isPrefixOf s'.toList := by
    rwa [isSome_dropStart?, isSome_dropStart?] at hstart
  rw [dropStart?, dropStart?, hprefix]
  split
  case isTrue =>
    refine .some (Text.equalIgnoringAsciiCase_iff.2 ?_)
    rw [String.toList_ofList, String.toList_ofList, List.map_drop, List.map_drop,
      Text.equalIgnoringAsciiCase_iff.1 h]
  case isFalse => exact .none

/-- The parameters of recased defaults files are recased. -/
lemma defaultsParameters_recased {entries entries' : List (String × Value)}
    (h : List.Forall₂ DefaultRecased entries entries') :
    List.Forall₂ EntryRecased (defaultsParameters entries) (defaultsParameters entries') := by
  refine List.rel_filterMap ?_ h
  rintro ⟨key, value⟩ ⟨key', value'⟩ ⟨⟨hkey, hvalue⟩, hparameter⟩
  have hrest := dropStart?_recased hkey hparameter
  dsimp only at hvalue ⊢
  generalize dropStart? defaultsPrefix key = rest at hrest
  generalize dropStart? defaultsPrefix key' = rest' at hrest
  cases hrest with
  | none => exact .none
  | some hrest => exact .some ⟨hrest, hvalue⟩

/-- What replaces related values, if it is there in both, is related, and so is what is left. -/
lemma getD_recased {α : Type} {R : α → α → Prop} {x x' : Option α} {a a' : α}
    (hx : Option.Rel R x x') (ha : R a a') : R (x.getD a) (x'.getD a') := by
  cases hx with
  | none => exact ha
  | some h => exact h

namespace Operation.Recased

variable {operation operation' : Operation}

/-- Recased operations make recased registrations. -/
lemma registrations (h : operation.Recased operation') :
    List.Forall₂ Registration.Recased operation.registrations operation'.registrations := by
  cases h with
  | set value hkey => exact globalRegistrations_recased (.cons ⟨hkey, rfl⟩ .nil)
  | setGlobal value hkey hr => exact Scope.registrations_recased .everywhere value hkey hr
  | setLocal value position hkey =>
    exact Scope.registrations_recased (.within position) value hkey .none
  | register value scope hkey hr => exact scope.registrations_recased value hkey hr
  | setProperty value scope hkey hcontexts hlabels hdatabases =>
    have hagree := Restrictions.parse_recased hcontexts hlabels hdatabases
    rw [Operation.registrations, Operation.registrations]
    revert hagree
    generalize Restrictions.parse _ _ _ = outcome
    generalize Restrictions.parse _ _ _ = outcome'
    rintro (_ | hr)
    · exact .nil
    · exact scope.registrations_recased value hkey hr
  | setAll h => exact globalRegistrations_recased h
  | setDefaults h => exact globalRegistrations_recased (defaultsParameters_recased h)
  | _ => exact .nil

/-- Recased operations fail alike, or neither fails. -/
lemma failure? (h : operation.Recased operation') :
    Option.Rel RegistrationError.Recased operation.failure? operation'.failure? := by
  cases h with
  | setLocal value position hkey => exact (Scope.within position).failure?_recased hkey
  | register value scope hkey hr => exact scope.failure?_recased hkey
  | setProperty value scope hkey hcontexts hlabels hdatabases =>
    have hagree := Restrictions.parse_recased hcontexts hlabels hdatabases
    rw [Operation.failure?, Operation.failure?]
    revert hagree
    generalize Restrictions.parse _ _ _ = outcome
    generalize Restrictions.parse _ _ _ = outcome'
    rintro (hcause | hr)
    · exact .some (.invalidRestriction hcause)
    · exact scope.failure?_recased hkey
  | _ => exact .none

lemma contexts? (h : operation.Recased operation') :
    Option.Rel (Option.Rel Names.Recased) operation.contexts? operation'.contexts? := by
  cases h with
  | setFilter h => exact .some h.contexts
  | setContexts h => exact .some h
  | _ => exact .none

lemma labels? (h : operation.Recased operation') :
    Option.Rel (Option.Rel Condition.Recased) operation.labels? operation'.labels? := by
  cases h with
  | setFilter h => exact .some h.labels
  | setLabels h => exact .some h
  | _ => exact .none

lemma database? (h : operation.Recased operation') :
    Option.Rel (Option.Rel Text.Recased) operation.database? operation'.database? := by
  cases h with
  | setFilter h => exact .some h.database
  | setDatabase h => exact .some h
  | _ => exact .none

lemma missingMode?_eq (h : operation.Recased operation') :
    operation.missingMode? = operation'.missingMode? := by
  cases h <;> rfl

/-- Recased operations make recased filters of recased filters. -/
lemma filterAfter (h : operation.Recased operation') {f f' : Filter} (hfilter : f.Recased f') :
    (operation.filterAfter f).Recased (operation'.filterAfter f') where
  contexts := getD_recased h.contexts? hfilter.contexts
  labels := getD_recased h.labels? hfilter.labels
  database := getD_recased h.database? hfilter.database

end Operation.Recased

/-! ### Recased stores -/

/-- Two stores that hold recased parameters, tier by tier and bucket by bucket, and have recased
filters. -/
structure Recased (s s' : Store) : Prop where
  system : List.Forall₂ Parameter.Recased s.system s'.system
  globals : List.Forall₂ Parameter.Recased s.globals s'.globals
  locals : ∀ scope, List.Forall₂ Parameter.Recased (s.locals.get scope) (s'.locals.get scope)
  filter : s.filter.Recased s'.filter
  missingMode : s.missingMode = s'.missingMode
  deploymentId : s.deploymentId = s'.deploymentId

namespace Recased

variable {s s' : Store}

/-- Adding recased registrations leaves recased stores. -/
lemma addAll (h : s.Recased s') {log log' : List Registration}
    (hlog : List.Forall₂ Registration.Recased log log') :
    (s.addAll log).Recased (s'.addAll log') where
  system := by simpa using h.system
  globals := by
    rw [addAll_globals, addAll_globals]
    exact List.rel_append h.globals (keptAt_recased hlog .everywhere)
  locals scope := by
    rw [addAll_locals_get, addAll_locals_get]
    exact List.rel_append (h.locals scope) (keptAt_recased hlog (.under scope))
  filter := by simpa using h.filter
  missingMode := by simpa using h.missingMode
  deploymentId := by simpa using h.deploymentId

/-- Adopting the settings of recased operations leaves recased stores. -/
lemma adopt (h : s.Recased s') {operation operation' : Operation}
    (hoperation : operation.Recased operation') :
    (s.adopt operation).Recased (s'.adopt operation') where
  system := h.system
  globals := h.globals
  locals := h.locals
  filter := hoperation.filterAfter h.filter
  missingMode := by simp [Store.adopt, hoperation.missingMode?_eq, h.missingMode]
  deploymentId := h.deploymentId

/-- Recased operations on recased stores fail alike, or they leave recased stores behind. -/
theorem perform (h : s.Recased s') {operation operation' : Operation}
    (hoperation : operation.Recased operation') :
    Agree RegistrationError.Recased Recased (s.perform operation) (s'.perform operation') := by
  have hfailure := hoperation.failure?
  rw [perform_eq, perform_eq]
  generalize operation.failure? = failure at hfailure
  generalize operation'.failure? = failure' at hfailure
  cases hfailure with
  | some he => exact .error he
  | none => exact .ok ((h.addAll hoperation.registrations).adopt hoperation)

/-- Recased operations leave recased stores behind, whether or not they fail. -/
lemma after (h : s.Recased s') {operation operation' : Operation}
    (hoperation : operation.Recased operation') :
    (s.after operation).Recased (s'.after operation') := by
  have hagree := h.perform hoperation
  rw [Store.after, Store.after]
  generalize s.perform operation = outcome at hagree
  generalize s'.perform operation' = outcome' at hagree
  cases hagree with
  | error => exact h
  | ok hstore => exact hstore

/-- Recased runs from recased stores end in recased stores. -/
lemma run (h : s.Recased s') {operations operations' : List Operation}
    (hoperations : List.Forall₂ Operation.Recased operations operations') :
    (s.run operations).Recased (s'.run operations') := by
  induction hoperations generalizing s s' with
  | nil => exact h
  | cons hoperation _ ih => exact ih (h.after hoperation)

end Recased

/-! ### Recased histories -/

/-- Recased system tiers hold recased parameters. -/
lemma Setup.Recased.system {setup setup' : Setup} (h : setup.Recased setup') :
    List.Forall₂ Parameter.Recased setup.system setup'.system := by
  rw [Setup.system, Setup.system, h.config]
  refine List.rel_append ?_ ?_
  · split
    case isTrue =>
      rw [List.forall₂_map_left_iff, List.forall₂_map_right_iff]
      refine h.environment.imp ?_
      intro x y hxy
      exact ⟨hxy.key, congrArg Value.string hxy.content, .none, rfl⟩
    case isFalse => exact .nil
  · rw [List.forall₂_map_left_iff, List.forall₂_map_right_iff]
    refine h.systemValues.imp ?_
    intro x y hxy
    exact ⟨hxy.key, hxy.content, .none, rfl⟩

/-- Stores built from recased setups are recased. -/
lemma Setup.Recased.build {setup setup' : Setup} (h : setup.Recased setup') :
    (build setup).Recased (build setup') := by
  have hunset : Filter.unset.Recased Filter.unset := ⟨.none, .none, .none⟩
  have hbare : setup.bare.Recased setup'.bare := by
    refine ⟨h.system, .nil, fun _ => .nil, hunset, ?_, ?_⟩
    · exact congrArg Config.missingMode h.config
    · rw [Setup.bare, Setup.bare, h.config, h.generatedId]
  -- The profiles are the same, and so are the parameters and the database they give.
  have hprofile : List.Forall₂ Registration.Recased
      (globalRegistrations (setup'.profile.elim [] Profile.parameters))
      (globalRegistrations (setup'.profile.elim [] Profile.parameters)) :=
    globalRegistrations_recased (List.forall₂_same.2 fun x _ => ⟨.refl x.1, rfl⟩)
  have hdatabase : Option.Rel Text.Recased (setup'.profile.map (·.shortName))
      (setup'.profile.map (·.shortName)) := by
    cases setup'.profile with
    | none => exact .none
    | some profile => exact .some (.refl profile.shortName)
  have hadded := hbare.addAll hprofile
  rw [History.build_eq, History.build_eq, h.profile]
  exact { hadded with filter := ⟨.none, .none, hdatabase⟩ }

/-- Recased histories end in recased stores. -/
theorem History.Recased.store {h h' : History} (hrecased : h.Recased h') :
    h.store.Recased h'.store :=
  hrecased.setup.build.run hrecased.operations

end Store

end ChangelogParameters
