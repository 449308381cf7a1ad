import ChangelogParameters.Proofs.Store.Answers
import ChangelogParameters.Proofs.Store.History

/-!
# Registrations that commute

What a sequence of registrations does to the answers of a store depends on nothing but its
*records*: for every place and every key class, which keys, values and restrictions were registered
there, in order.  In particular it does not matter how registrations for different places, or in
different key classes, lie among each other, and two sequences of such registrations can be
interleaved in any way.

`answers_of_records` states both, for what follows after the registrations as well: later
operations, a new filter among them, do not bring a difference to light.
-/

namespace ChangelogParameters

namespace Store

/-! ### Records -/

/-- Whether an operation is a registration, and not the setting of a filter or a policy. -/
def Operation.isRegistration : Operation → Bool
  | setFilter _ | setContexts _ | setLabels _ | setDatabase _ | setMissingMode _ => false
  | _ => true

/-- What operations register at a place in a key class: the keys as they are written, the values
and the restrictions, in order.  Operations that fail register nothing. -/
def records (operations : List Operation) (place : Place) (lowered : String) :
    List (String × Value × Restrictions) :=
  (keyClass lowered (keptAt place (operations.flatMap Operation.registrations))).map
    fun p => (p.key, p.value, p.restrictions)

/-- A registration sets nothing. -/
lemma Operation.settings_of_isRegistration {operation : Operation}
    (h : operation.isRegistration = true) :
    operation.contexts? = none ∧ operation.labels? = none ∧ operation.database? = none ∧
      operation.missingMode? = none := by
  cases operation <;> first | exact ⟨rfl, rfl, rfl, rfl⟩ | cases h

/-- The parameters that operations register at a place in a key class can be read off the
records. -/
lemma keyClass_keptAt_eq (operations : List Operation) (place : Place) (lowered : String) :
    keyClass lowered (keptAt place (operations.flatMap Operation.registrations)) =
      (records operations place lowered).map fun (key, value, restrictions) =>
        ⟨key, value, restrictions, true⟩ := by
  -- Only the flag for the filter is not recorded, and it is always set.
  rw [records, List.map_map]
  refine (List.map_id _).symm.trans (List.map_congr_left fun p hp => ?_)
  obtain ⟨r, hr, rfl⟩ := List.mem_map.1 (List.mem_filter.1 hp).1
  obtain ⟨operation, -, hmem⟩ := List.mem_flatMap.1 (List.mem_filter.1 hr).1
  have hfilterable := Operation.filterable_of_mem hmem
  obtain ⟨place, key, value, restrictions, filterable⟩ := r
  obtain rfl : filterable = true := hfilterable
  rfl

lemma records_cons (operation : Operation) (operations : List Operation) (place : Place)
    (lowered : String) :
    records (operation :: operations) place lowered =
      records [operation] place lowered ++ records operations place lowered := by
  simp [records]

/-! ### Equal records -/

/-- Operations that do not set a setting can be left out before others. -/
lemma lastSet_append_of_forall {α : Type} {setting : Operation → Option α}
    {operations : List Operation} (h : ∀ operation ∈ operations, setting operation = none)
    (initial : α) (later : List Operation) :
    lastSet setting initial (operations ++ later) = lastSet setting initial later := by
  have hnone : operations.filterMap setting = [] := List.filterMap_eq_nil_iff.2 h
  simp [lastSet, hnone]

/-- Registrations leave the filter to the later operations. -/
lemma History.filter_of_isRegistration (setup : Setup) {operations : List Operation}
    (h : ∀ operation ∈ operations, operation.isRegistration = true) (later : List Operation) :
    (History.mk setup (operations ++ later)).filter = (History.mk setup later).filter := by
  have hsettings := fun operation hmem => Operation.settings_of_isRegistration (h operation hmem)
  unfold History.filter
  rw [lastSet_append_of_forall fun operation hmem => (hsettings operation hmem).1,
    lastSet_append_of_forall fun operation hmem => (hsettings operation hmem).2.1,
    lastSet_append_of_forall fun operation hmem => (hsettings operation hmem).2.2.1]

/-- Registrations leave the policy to the later operations. -/
lemma History.missingMode_of_isRegistration (setup : Setup) {operations : List Operation}
    (h : ∀ operation ∈ operations, operation.isRegistration = true) (later : List Operation) :
    (History.mk setup (operations ++ later)).missingMode =
      (History.mk setup later).missingMode :=
  lastSet_append_of_forall
    (fun operation hmem => (Operation.settings_of_isRegistration (h operation hmem)).2.2.2) _ later

/-- Registrations with equal records lead to stores that are alike. -/
lemma alike_of_records_eq (setup : Setup) {ops ops' : List Operation}
    (hops : ∀ operation ∈ ops, operation.isRegistration = true)
    (hops' : ∀ operation ∈ ops', operation.isRegistration = true)
    (hrecords : ∀ place lowered, records ops place lowered = records ops' place lowered)
    (later : List Operation) :
    Alike (History.mk setup (ops ++ later)).store (History.mk setup (ops' ++ later)).store := by
  have hclass : ∀ place lowered,
      keyClass lowered (keptAt place (History.mk setup (ops ++ later)).log) =
        keyClass lowered (keptAt place (History.mk setup (ops' ++ later)).log) := by
    intro place lowered
    simp only [History.log, List.flatMap_append, keptAt_append, keyClass_append,
      keyClass_keptAt_eq ops, keyClass_keptAt_eq ops', hrecords]
  refine ⟨?_, ?_, ?_, ?_, ?_, ?_⟩
  · rw [History.store_system, History.store_system]
  · intro lowered
    rw [History.store_globals, History.store_globals]
    exact hclass .everywhere lowered
  · intro scope lowered
    rw [History.store_locals_get, History.store_locals_get]
    exact hclass (.under scope) lowered
  · rw [History.store_filter, History.store_filter, History.filter_of_isRegistration setup hops,
      History.filter_of_isRegistration setup hops']
  · rw [History.store_missingMode, History.store_missingMode,
      History.missingMode_of_isRegistration setup hops,
      History.missingMode_of_isRegistration setup hops']
  · rw [History.store_deploymentId, History.store_deploymentId]

/-! ### Interleavings -/

/-- A list is made of two others, each in its own order. -/
inductive Interleaves {α : Type} : List α → List α → List α → Prop
  | nil : Interleaves [] [] []
  | left {a : α} {xs ys zs : List α} (h : Interleaves xs ys zs) : Interleaves (a :: xs) ys (a :: zs)
  | right {a : α} {xs ys zs : List α} (h : Interleaves xs ys zs) :
      Interleaves xs (a :: ys) (a :: zs)

namespace Interleaves

variable {α : Type} {xs ys zs : List α}

lemma append_left (h : Interleaves xs ys zs) (as : List α) :
    Interleaves (as ++ xs) ys (as ++ zs) := by
  induction as with
  | nil => exact h
  | cons a as ih => exact ih.left

lemma append_right (h : Interleaves xs ys zs) (as : List α) :
    Interleaves xs (as ++ ys) (as ++ zs) := by
  induction as with
  | nil => exact h
  | cons a as ih => exact ih.right

/-- If one of the two lists is empty, only the other one is left. -/
lemma eq_append (h : Interleaves xs ys zs) (hnil : xs = [] ∨ ys = []) : zs = xs ++ ys := by
  induction h with
  | nil => rfl
  | left _ ih =>
    obtain rfl : _ = [] := by simpa using hnil
    rw [ih (Or.inr rfl)]
    rfl
  | right _ ih =>
    obtain rfl : _ = [] := by simpa using hnil
    rw [ih (Or.inl rfl)]
    rfl

lemma mem (h : Interleaves xs ys zs) {a : α} (ha : a ∈ zs) : a ∈ xs ++ ys := by
  induction h with
  | nil => exact ha
  | left _ ih =>
    rcases List.mem_cons.1 ha with rfl | ha
    · simp
    · exact List.mem_cons_of_mem _ (ih ha)
  | right _ ih =>
    rcases List.mem_cons.1 ha with rfl | ha
    · simp
    · have := ih ha
      simp only [List.mem_append, List.mem_cons] at this ⊢
      tauto

end Interleaves

/-- Any two registrations of two sequences go to different places or have keys with different lower
cases. -/
def Independent (xs ys : List Operation) : Prop :=
  ∀ x ∈ xs, ∀ y ∈ ys, ∀ r ∈ x.registrations, ∀ r' ∈ y.registrations,
    r.place ≠ r'.place ∨ Text.lower r.parameter.key ≠ Text.lower r'.parameter.key

/-- The records of an interleaving are interleavings of the records. -/
lemma interleaves_records {xs ys zs : List Operation} (h : Interleaves xs ys zs) (place : Place)
    (lowered : String) :
    Interleaves (records xs place lowered) (records ys place lowered)
      (records zs place lowered) := by
  induction h with
  | nil => exact .nil
  | @left x xs ys zs _ ih =>
    rw [records_cons x xs, records_cons x zs]
    exact ih.append_left (records [x] place lowered)
  | @right y xs ys zs _ ih =>
    rw [records_cons y ys, records_cons y zs]
    exact ih.append_right (records [y] place lowered)

/-- A record comes from a registration for its place in its key class. -/
lemma exists_registration_of_records {operations : List Operation} {place : Place}
    {lowered : String} (h : records operations place lowered ≠ []) :
    ∃ operation ∈ operations, ∃ r ∈ operation.registrations,
      r.place = place ∧ Text.lower r.parameter.key = lowered := by
  obtain ⟨p, hp⟩ := List.exists_mem_of_ne_nil _ h
  obtain ⟨parameter, hparameter, -⟩ := List.mem_map.1 hp
  obtain ⟨hkept, hlowered⟩ := List.mem_filter.1 hparameter
  obtain ⟨r, hr, rfl⟩ := List.mem_map.1 hkept
  obtain ⟨hmem, hplace⟩ := List.mem_filter.1 hr
  obtain ⟨operation, hoperation, hregistration⟩ := List.mem_flatMap.1 hmem
  exact ⟨operation, hoperation, r, hregistration, of_decide_eq_true hplace,
    of_decide_eq_true hlowered⟩

/-- Of two independent sequences only one has records for a place in a key class. -/
lemma Independent.records_eq_nil {xs ys : List Operation} (h : Independent xs ys) (place : Place)
    (lowered : String) : records xs place lowered = [] ∨ records ys place lowered = [] := by
  by_contra hboth
  obtain ⟨hxs, hys⟩ := not_or.1 hboth
  obtain ⟨x, hx, r, hr, hplace, hlowered⟩ := exists_registration_of_records hxs
  obtain ⟨y, hy, r', hr', hplace', hlowered'⟩ := exists_registration_of_records hys
  rcases h x hx y hy r hr r' hr' with hne | hne
  · exact hne (hplace.trans hplace'.symm)
  · exact hne (hlowered.trans hlowered'.symm)

/-- All interleavings of two independent sequences have the same records. -/
lemma Independent.records_interleaves {xs ys zs : List Operation} (h : Independent xs ys)
    (hzs : Interleaves xs ys zs) (place : Place) (lowered : String) :
    records zs place lowered = records xs place lowered ++ records ys place lowered :=
  (interleaves_records hzs place lowered).eq_append (h.records_eq_nil place lowered)

/-- **Only the records count.**  Let two sequences of registrations be performed on a store as it
was built, whether or not each of them succeeds.  If they have the same records, then the two
stores give the same answers, also after whatever is done to both of them later on.  This is so
for any two interleavings of sequences whose registrations go to different places or have keys
with different lower cases. -/
theorem answers_of_records (setup : Setup) (later : List Operation) :
    (∀ ops ops' : List Operation,
      (∀ operation ∈ ops, operation.isRegistration = true) →
      (∀ operation ∈ ops', operation.isRegistration = true) →
      (∀ place lowered, records ops place lowered = records ops' place lowered) →
      SameAnswers ((build setup).run (ops ++ later)) ((build setup).run (ops' ++ later))) ∧
    (∀ xs ys zs zs' : List Operation,
      (∀ operation ∈ xs ++ ys, operation.isRegistration = true) → Independent xs ys →
      Interleaves xs ys zs → Interleaves xs ys zs' →
      SameAnswers ((build setup).run (zs ++ later)) ((build setup).run (zs' ++ later))) := by
  constructor
  · intro ops ops' hops hops' hrecords
    exact (alike_of_records_eq setup hops hops' hrecords later).sameAnswers
  · intro xs ys zs zs' hregistration hindependent hzs hzs'
    have hrecords : ∀ place lowered, records zs place lowered = records zs' place lowered := by
      intro place lowered
      rw [hindependent.records_interleaves hzs, hindependent.records_interleaves hzs']
    have hmem : ∀ {operations : List Operation}, Interleaves xs ys operations →
        ∀ operation ∈ operations, operation.isRegistration = true :=
      fun h operation hoperation => hregistration operation (h.mem hoperation)
    exact (alike_of_records_eq setup (hmem hzs) (hmem hzs') hrecords later).sameAnswers

/-- Global parameters commute with one of a changelog and with one that has another key, however
each of them is registered.  The stores are equal only in what they answer. -/
theorem answers_of_records_port :
    let setup : Setup := { systemValues := [("HOME", .string "/root")] }
    let ports : List Operation := [.set "Port" (.string "80"), .set "PORT" (.string "81")]
    let others : List Operation :=
      [.setLocal "port" (.string "90") (some (.root "root.xml")), .set "host" (.string "db")]
    let mixed : List Operation :=
      [.set "Port" (.string "80"), .setLocal "port" (.string "90") (some (.root "root.xml")),
        .set "host" (.string "db"), .set "PORT" (.string "81")]
    let together : List Operation :=
      [.setLocal "port" (.string "90") (some (.root "root.xml")),
        .setAll [("host", .string "db"), ("Port", .string "80"), ("PORT", .string "81")]]
    let later : List Operation := [.setContexts (some (.parse "test"))]
    Independent ports others ∧ Interleaves ports others mixed ∧
      SameAnswers ((build setup).run (mixed ++ later))
        ((build setup).run (others ++ ports ++ later)) ∧
      SameAnswers ((build setup).run (mixed ++ later))
        ((build setup).run (together ++ later)) ∧
      (build setup).run (mixed ++ later) ≠ (build setup).run (together ++ later) := by
  intro setup ports others mixed together later
  have hindependent : Independent ports others := by
    unfold Independent
    decide +kernel
  have hmixed : Interleaves ports others mixed := .left (.right (.right (.left .nil)))
  have hapart : Interleaves ports others (others ++ ports) :=
    .right (.right (.left (.left .nil)))
  have hrecords : ∀ place lowered,
      records mixed place lowered = records together place lowered := by
    intro place lowered
    have htogether : records together place lowered = records (others ++ ports) place lowered := rfl
    rw [htogether, hindependent.records_interleaves hmixed,
      hindependent.records_interleaves hapart]
  obtain ⟨hequal, hinterleaved⟩ := answers_of_records setup later
  refine ⟨hindependent, hmixed, ?_, ?_, by decide +kernel⟩
  · exact hinterleaved ports others mixed (others ++ ports) (by decide) hindependent hmixed hapart
  · exact hequal mixed together (by decide) (by decide) hrecords

end Store

end ChangelogParameters
