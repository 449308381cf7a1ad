import ChangelogParameters.Proofs.Parameter.Shown
import ChangelogParameters.Proofs.Store.Occurrences
import ChangelogParameters.Proofs.Store.Tiers

/-!
# Registering what was explained

An explanation shows what restricts a candidate as texts, and the texts can be used to register the
parameter once more, in this store or in another one and with the same scope or another one.  The
texts need not be those of the first registration, and where no database was named they are not
even read as the same restrictions, but there is no filter that accepts only one of the two
parameters.
-/

namespace ChangelogParameters

namespace Store

/-! ### The candidate of a registration -/

/-- A parameter that was just registered is among the entries that are seen from under its place. -/
lemma entry_mem_entries_add (store : Store) {place : Place} {parameter : Parameter}
    {position : Option Position} (h : (place.entry parameter).SeenFrom position) :
    place.entry parameter ∈ (store.add ⟨place, parameter⟩).entries position := by
  have hadded := store.appends_add place parameter
  cases place with
  | everywhere =>
    have hmem : parameter ∈ (store.add ⟨.everywhere, parameter⟩).globals := by
      rw [hadded.globals, if_pos rfl]
      exact List.mem_append_right _ List.mem_cons_self
    exact List.mem_append_left _ (List.mem_append_right _ (List.mem_map_of_mem hmem))
  | under scope =>
    have hmem : parameter ∈ (store.add ⟨.under scope, parameter⟩).locals.get scope := by
      rw [hadded.bucket, if_pos rfl]
      exact List.mem_append_right _ List.mem_cons_self
    have hseen : scope ∈ levels position := h scope rfl
    refine List.mem_append_right _ (List.mem_flatMap.2 ⟨scope, hseen, ?_⟩)
    exact List.mem_map_of_mem (List.mem_reverse.2 hmem)

/-- An explanation of the key that a parameter was just registered with lists the parameter. -/
lemma candidate_mem_explain_add (store : Store) {place : Place} {parameter : Parameter}
    {position : Option Position} (h : (place.entry parameter).SeenFrom position) :
    (store.add ⟨place, parameter⟩).candidate (place.entry parameter) ∈
      ((store.add ⟨place, parameter⟩).explain parameter.key position).candidates := by
  have hkey : (place.entry parameter).parameter.answersTo parameter.key = true := by
    cases place <;> exact keyMatches_self parameter.key
  exact List.mem_map_of_mem (List.mem_filter.2 ⟨store.entry_mem_entries_add h, hkey⟩)

/-! ### Registering once more -/

/-- What a candidate shows is enough to register a parameter once more.  The registration succeeds
in every store, wherever the scope has a place, and no filter tells the parameters apart. -/
def Candidate.Restores (shown : Candidate) (first : Parameter) : Prop :=
  ∀ (store : Store) (scope : Scope) (place : Place), scope.place? = some place →
    ∃ again : Parameter,
      store.setProperty shown.key shown.value shown.contexts shown.labels shown.databases scope =
        .ok (store.add ⟨place, again⟩) ∧
      again.key = first.key ∧ again.value = first.value ∧
      ∀ filter : Filter, filter.accepts again = filter.accepts first

/-- A registration succeeds wherever the scope has a place. -/
lemma register_of_place (store : Store) (key : String) (value : Value)
    (restrictions : Restrictions) {scope : Scope} {place : Place}
    (hplace : scope.place? = some place) :
    store.register key value restrictions scope =
      .ok (store.add ⟨place, ⟨key, value, restrictions, true⟩⟩) := by
  rcases scope with _ | _ | position
  · obtain rfl : Place.everywhere = place := Option.some.inj hplace
    rfl
  · cases hplace
  · obtain rfl : Place.under position.scopeKey = place := Option.some.inj hplace
    rfl

/-- The candidate of a parameter whose restrictions were read from texts restores it. -/
lemma restores_candidate {contexts labels databases : String} {restrictions : Restrictions}
    (hparse : Restrictions.parse contexts labels databases = .ok restrictions) (store : Store)
    (place : Place) (key : String) (value : Value) :
    (store.candidate (place.entry ⟨key, value, restrictions, true⟩)).Restores
      ⟨key, value, restrictions, true⟩ := by
  intro other scope place' hplace
  obtain ⟨again, hagain, hsame⟩ := Restrictions.exists_parse_shown hparse
  have hother : other.setProperty key value restrictions.contexts.source restrictions.labels.text
      restrictions.databases.text scope =
        .ok (other.add ⟨place', ⟨key, value, again, true⟩⟩) := by
    rw [setProperty, hagain]
    exact other.register_of_place key value again hplace
  refine ⟨⟨key, value, again, true⟩, ?_, rfl, rfl, ?_⟩
  · cases place <;> exact hother
  · intro filter
    exact filter.accepts_of_sameChecks hsame rfl rfl

/-- **Explained restrictions can be registered.**  A registration that succeeds puts one parameter
at its place.  Explanations show it wherever it is seen from, and with the texts that they show for
it it can be registered again, anywhere, so that every filter accepts both parameters or none.
Sets of names and databases are read from their texts as they were, unless no database is named. -/
theorem setProperty_shown :
    (∀ (store after : Store) (key : String) (value : Value) (contexts labels databases : String)
      (scope : Scope),
      store.setProperty key value contexts labels databases scope = .ok after →
      ∃ (place : Place) (parameter : Parameter), scope.place? = some place ∧
        after = store.add ⟨place, parameter⟩ ∧ parameter.key = key ∧ parameter.value = value ∧
        (∀ position, (place.entry parameter).SeenFrom position →
          after.candidate (place.entry parameter) ∈ (after.explain key position).candidates) ∧
        (after.candidate (place.entry parameter)).Restores parameter) ∧
      (∀ s, Names.parse (Names.parse s).text = Names.parse s) ∧
      (∀ s, (Targets.parse s).isRestricted = true →
        Targets.parse (Targets.parse s).text = Targets.parse s) := by
  refine ⟨?_, Names.parse_text, fun _ => Targets.parse_text⟩
  intro store after key value contexts labels databases scope h
  obtain ⟨restrictions, place, hparse, hplace, rfl⟩ := exists_place_of_setProperty h
  refine ⟨place, ⟨key, value, restrictions, true⟩, hplace, rfl, rfl, rfl, ?_, ?_⟩
  · intro position hseen
    exact store.candidate_mem_explain_add hseen
  · exact restores_candidate hparse _ place key value

/-- The texts that are shown need not be those of the registration: they are trimmed and in order,
and stand for all databases if none was named. -/
theorem setProperty_shown_port :
    let operation : Operation :=
      .setProperty "port" (.string "5432") " prod and !test " "B, a ,b" " " .everywhere
    let store : Store := (build {}).after operation
    (store.explain "port" none).candidates.map (fun c => (c.contexts, c.labels, c.databases)) =
        [("prod and !test", "a,b", "all")] ∧
      ∃ parameter, store.globals = [parameter] ∧
        (store.candidate (Place.everywhere.entry parameter)).Restores parameter := by
  intro operation store
  have hshown : (store.explain "port" none).candidates.map
      (fun c => (c.contexts, c.labels, c.databases)) = [("prod and !test", "a,b", "all")] := by
    decide +kernel
  have hdone : (build {}).setProperty "port" (.string "5432") " prod and !test " "B, a ,b" " "
      .everywhere = .ok store := by
    decide +kernel
  obtain ⟨place, parameter, hplace, hstore, -, -, -, hrestores⟩ :=
    setProperty_shown.1 (build {}) store "port" (.string "5432") _ _ _ .everywhere hdone
  obtain rfl : Place.everywhere = place := Option.some.inj hplace
  refine ⟨hshown, parameter, ?_, hrestores⟩
  rw [hstore]
  rfl

end Store

end ChangelogParameters
