import ChangelogParameters.Proofs.Store.History
import ChangelogParameters.Store.Explanation

/-!
# Calls

A call works on a store step by step, and nothing undoes what it has done by the time it fails.
This file carries the operations out in that way, as procedures whose state is the store and whose
errors leave behind the state in which they were thrown.  Restrictions are read before the scope is
looked at, a bucket is opened before a parameter is put into it, and of several entries one is
registered after the other.

`Operation.run_procedure` says that the procedure of an operation does what the operation does, and
that it has done nothing if it fails.  Look-ups are calls as well, which may come between the
operations: `carryOut_eq_run` says that they leave no trace.
-/

namespace ChangelogParameters

/-! ### Opening buckets -/

namespace Buckets

/-- The buckets with one for a logical path; a new one is empty and comes last. -/
def opened (scope : String) : Buckets → Buckets
  | [] => [(scope, [])]
  | (s, ps) :: rest => if scope = s then (s, ps) :: rest else (s, ps) :: opened scope rest

/-- Puts a parameter at the end of the bucket of a logical path, if there is one. -/
def push (scope : String) (parameter : Parameter) : Buckets → Buckets
  | [] => []
  | (s, ps) :: rest =>
    if scope = s then (s, ps ++ [parameter]) :: rest else (s, ps) :: push scope parameter rest

/-- A parameter is added by opening the bucket and putting it there. -/
lemma push_opened (scope : String) (parameter : Parameter) (buckets : Buckets) :
    push scope parameter (opened scope buckets) = add scope parameter buckets := by
  induction buckets with
  | nil => simp [opened, push, add]
  | cons bucket rest ih =>
    obtain ⟨s, ps⟩ := bucket
    by_cases h : scope = s
    · simp [opened, push, add, h]
    · simp [opened, push, add, h, ih]

end Buckets

namespace Store

/-! ### Procedures -/

/-- Something that is done with a store step by step.  It ends with a result or with an error, and
in both cases with the store as it then is. -/
abbrev Procedure (α : Type) := EStateM RegistrationError Store α

/-- The store after a procedure, however it ends. -/
def Procedure.leaves {α : Type} (procedure : Procedure α) (store : Store) : Store :=
  match procedure.run store with
  | .ok _ after => after
  | .error _ after => after

/-- Puts a parameter at the end of the global tier. -/
def pushGlobal (key : String) (value : Value) (restrictions : Restrictions) : Procedure Unit :=
  modify fun store => { store with globals := store.globals ++ [⟨key, value, restrictions, true⟩] }

/-- Opens the bucket of a logical path. -/
def openBucket (scope : String) : Procedure Unit :=
  modify fun store => { store with locals := store.locals.opened scope }

/-- Puts a parameter at the end of the bucket of a logical path. -/
def pushLocal (scope key : String) (value : Value) (restrictions : Restrictions) :
    Procedure Unit :=
  modify fun store =>
    { store with locals := store.locals.push scope ⟨key, value, restrictions, true⟩ }

/-- Registers a parameter where a scope says. -/
def registerStepwise (key : String) (value : Value) (restrictions : Restrictions) :
    Scope → Procedure Unit
  | .everywhere => pushGlobal key value restrictions
  | .within none => throw (.missingChangelog key)
  | .within (some position) => do
    openBucket position.scopeKey
    pushLocal position.scopeKey key value restrictions

/-- Reads restrictions that are given as text. -/
def readRestrictions (contexts labels databases : String) : Procedure Restrictions :=
  match Restrictions.parse contexts labels databases with
  | .error cause => throw (.invalidRestriction cause)
  | .ok restrictions => pure restrictions

/-- Registers the entry of a defaults file if it is a parameter. -/
def pushDefault (key : String) (value : Value) : Procedure Unit :=
  match dropStart? defaultsPrefix key with
  | some name => pushGlobal name value .none
  | none => pure ()

/-- The procedure of an operation. -/
def Operation.procedure : Operation → Procedure Unit
  | set key value => pushGlobal key value .none
  | setGlobal key value restrictions => pushGlobal key value restrictions
  | setLocal key value position => registerStepwise key value .none (.within position)
  | register key value restrictions scope => registerStepwise key value restrictions scope
  | setProperty key value contexts labels databases scope => do
    let restrictions ← readRestrictions contexts labels databases
    registerStepwise key value restrictions scope
  | setAll entries => forM entries fun (key, value) => pushGlobal key value .none
  | setDefaults entries => forM entries fun (key, value) => pushDefault key value
  | setFilter filter => modify fun store => { store with filter := filter }
  | setContexts contexts =>
    modify fun store => { store with filter := { store.filter with contexts } }
  | setLabels labels => modify fun store => { store with filter := { store.filter with labels } }
  | setDatabase database =>
    modify fun store => { store with filter := { store.filter with database } }
  | setMissingMode mode => modify fun store => { store with missingMode := mode }

/-! ### Operations as procedures -/

/-- How the procedure of an operation has to end: with the store after the operation, or with the
store as it was. -/
def ending (store : Store) : Except RegistrationError Store →
    EStateM.Result RegistrationError Store Unit
  | .ok after => .ok () after
  | .error e => .error e store

/-- Registering step by step fails before the first step or adds the parameter. -/
lemma run_registerStepwise (store : Store) (key : String) (value : Value)
    (restrictions : Restrictions) (scope : Scope) :
    (registerStepwise key value restrictions scope).run store =
      store.ending (store.register key value restrictions scope) := by
  rcases scope with _ | _ | position
  · rfl
  · rfl
  · rw [registerStepwise, EStateM.run_bind, openBucket, EStateM.run_modify]
    simp only [pushLocal, EStateM.run_modify, Buckets.push_opened]
    rfl

/-- Entries that are registered one after the other are registered together. -/
lemma run_forM_pushGlobal (store : Store) (entries : List (String × Value)) :
    (forM entries fun (key, value) => pushGlobal key value .none : Procedure Unit).run store =
      .ok () (store.setAll entries) := by
  induction entries generalizing store with
  | nil => rfl
  | cons entry entries ih => exact ih (store.set entry.1 entry.2)

/-- An entry of a defaults file that is no parameter is passed over. -/
lemma setDefaults_cons_of_none (store : Store) {key : String} (value : Value)
    (entries : List (String × Value)) (h : dropStart? defaultsPrefix key = none) :
    store.setDefaults ((key, value) :: entries) = store.setDefaults entries := by
  simp [setDefaults, defaultsParameters, h]

/-- An entry of a defaults file that is a parameter is registered before those behind it. -/
lemma setDefaults_cons_of_some (store : Store) {key name : String} (value : Value)
    (entries : List (String × Value)) (h : dropStart? defaultsPrefix key = some name) :
    store.setDefaults ((key, value) :: entries) = (store.set name value).setDefaults entries := by
  simp [setDefaults, defaultsParameters, h, setAll]

/-- Of the entries of a defaults file the parameters are registered, one after the other. -/
lemma run_forM_pushDefault (store : Store) (entries : List (String × Value)) :
    (forM entries fun (key, value) => pushDefault key value : Procedure Unit).run store =
      .ok () (store.setDefaults entries) := by
  induction entries generalizing store with
  | nil => rfl
  | cons entry entries ih =>
    obtain ⟨key, value⟩ := entry
    simp only [List.forM_cons, EStateM.run_bind]
    cases hname : dropStart? defaultsPrefix key with
    | none =>
      rw [store.setDefaults_cons_of_none value entries hname, ← ih store]
      simp [pushDefault, hname]
    | some name =>
      rw [store.setDefaults_cons_of_some value entries hname, ← ih (store.set name value)]
      simp [pushDefault, hname, pushGlobal, set, setGlobal]

/-- **Operations as procedures.**  The procedure of an operation ends with the store after the
operation; if the operation fails it ends with its error and with the store as it was. -/
theorem Operation.run_procedure (operation : Operation) (store : Store) :
    operation.procedure.run store = store.ending (store.perform operation) := by
  cases operation with
  | set key value => rfl
  | setGlobal key value restrictions => rfl
  | setLocal key value position =>
    exact run_registerStepwise store key value .none (.within position)
  | register key value restrictions scope =>
    exact run_registerStepwise store key value restrictions scope
  | setProperty key value contexts labels databases scope =>
    simp only [procedure, perform, Store.setProperty, EStateM.run_bind, readRestrictions]
    cases Restrictions.parse contexts labels databases with
    | error cause => rfl
    | ok restrictions => exact run_registerStepwise store key value restrictions scope
  | setAll entries => exact run_forM_pushGlobal store entries
  | setDefaults entries => exact run_forM_pushDefault store entries
  | setFilter filter => rfl
  | setContexts contexts => rfl
  | setLabels labels => rfl
  | setDatabase database => rfl
  | setMissingMode mode => rfl

/-- The procedure of an operation leaves the store after the operation, whether or not it fails. -/
lemma Operation.leaves_procedure (operation : Operation) (store : Store) :
    operation.procedure.leaves store = store.after operation := by
  rw [Procedure.leaves, operation.run_procedure, after]
  cases store.perform operation <;> rfl

/-! ### Look-ups -/

/-- Something that is looked up in a store. -/
inductive Question where
  /-- The value of a key. -/
  | value (key : String) (position : Option Position)
  /-- The text of a key's value. -/
  | text (key : String) (position : Option Position)
  /-- Whether a key has a value. -/
  | presence (key : String) (position : Option Position)
  /-- The value of a key in the position's own bucket. -/
  | localValue (key : String) (position : Position)
  /-- The expansion of a text. -/
  | expansion (text : String) (position : Option Position)
  /-- How a key comes by its value. -/
  | explanation (key : String) (position : Option Position)

/-- What is found. -/
inductive Answer where
  | value (value : Option Value)
  | text (text : Option String)
  | presence (present : Bool)
  | expansion (expansion : Except Unresolved String)
  | explanation (explanation : Explanation)

/-- The answer of a store to a question. -/
def answer (store : Store) : Question → Answer
  | .value key position => .value (store.resolve key position)
  | .text key position => .text (store.resolveText key position)
  | .presence key position => .presence (store.hasValue key position)
  | .localValue key position => .value (store.localValue key position)
  | .expansion text position => .expansion (store.expand text position)
  | .explanation key position => .explanation (store.explain key position)

/-! ### Programs of calls -/

/-- A call: an operation or a look-up. -/
inductive Call where
  | operation (operation : Operation)
  | question (question : Question)

namespace Call

/-- The procedure of a call, which gives an answer if it is a look-up. -/
def procedure : Call → Procedure (Option Answer)
  | operation op => do
    op.procedure
    return none
  | question q => do
    let store ← get
    return some (store.answer q)

/-- The operation of a call, if it is one. -/
def operation? : Call → Option Operation
  | operation op => some op
  | question _ => none

/-- A look-up gives its answer and leaves the store as it is. -/
lemma run_question (q : Question) (store : Store) :
    (question q).procedure.run store = .ok (some (store.answer q)) store := rfl

/-- A call leaves the store after its operation. -/
lemma leaves_operation (op : Operation) (store : Store) :
    (operation op).procedure.leaves store = store.after op := by
  rw [← op.leaves_procedure, Procedure.leaves, Procedure.leaves, procedure, EStateM.run_bind]
  cases op.procedure.run store <;> rfl

end Call

/-- The store after several calls, of which some may have failed. -/
def carryOut (store : Store) (calls : List Call) : Store :=
  calls.foldl (fun s call => call.procedure.leaves s) store

/-- **Look-ups leave no trace.**  Calls that are carried out one after the other leave the store
that the operations among them lead to. -/
theorem carryOut_eq_run (store : Store) (calls : List Call) :
    store.carryOut calls = store.run (calls.filterMap Call.operation?) := by
  induction calls generalizing store with
  | nil => rfl
  | cons call calls ih =>
    cases call with
    | operation op =>
      change carryOut ((Call.operation op).procedure.leaves store) calls = _
      rw [Call.leaves_operation, ih]
      rfl
    | question q =>
      have hleaves : (Call.question q).procedure.leaves store = store := by
        rw [Procedure.leaves, Call.run_question]
      change carryOut ((Call.question q).procedure.leaves store) calls = _
      rw [hleaves, ih]
      rfl

end Store

end ChangelogParameters
