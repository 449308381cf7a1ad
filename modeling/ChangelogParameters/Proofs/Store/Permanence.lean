import ChangelogParameters.Proofs.Parameter.Filter
import ChangelogParameters.Proofs.Store.Resolution

/-!
# Values that stay

Nothing is ever taken out of a store, and in the system tier and the global tier whatever is added
comes last.  So the parameter that stands first under a key in these two tiers stands first for
ever.  If it has no restrictions no filter can hide it, and its value is the value of the key from
then on, whatever is done to the store.
-/

namespace ChangelogParameters

namespace Store

/-- The first parameter of the system tier and the global tier that has a key. -/
def foremost? (store : Store) (key : String) : Option Parameter :=
  (store.system ++ store.globals).find? fun parameter => keyMatches parameter.key key

/-- The parameters seen from a position, without the places where they are kept. -/
lemma map_parameter_entries (store : Store) (position : Option Position) :
    (store.entries position).map (·.parameter) =
      store.system ++ store.globals ++
        (levels position).flatMap fun scope => (store.locals.get scope).reverse := by
  simp [entries, bucketEntries, List.map_flatMap, Function.comp_def]

/-- A look-up without an execution value finds the first parameter that has the key and is
accepted. -/
lemma resolve_eq_find?_parameters (store : Store) {key : String} {position : Option Position}
    (h : executionValue? key position = none) :
    store.resolve key position =
      (((store.entries position).map (·.parameter)).find? fun parameter =>
        keyMatches parameter.key key && store.filter.accepts parameter).map (·.value) := by
  rw [store.resolve_eq_map_find? h, List.find?_map, Option.map_map]
  rfl

/-- An element that is found first is still found first when a condition is added that it
meets. -/
lemma find?_and_of_find? {α : Type} {p q : α → Bool} {l : List α} {a : α}
    (h : l.find? p = some a) (ha : q a = true) : (l.find? fun b => p b && q b) = some a := by
  obtain ⟨hp, before, after, hsplit, hbefore⟩ := List.find?_eq_some_iff_append.1 h
  refine List.find?_eq_some_iff_append.2 ⟨by simp [hp, ha], before, after, hsplit, ?_⟩
  intro b hb
  have hpb : p b = false := by simpa using hbefore b hb
  simp [hpb]

/-- The value of a key whose foremost parameter is accepted is the value of that parameter. -/
lemma resolve_of_foremost? {store : Store} {key : String} {first : Parameter}
    (hfirst : store.foremost? key = some first) (haccepts : store.filter.accepts first = true)
    {position : Option Position} (h : executionValue? key position = none) :
    store.resolve key position = some first.value := by
  rw [store.resolve_eq_find?_parameters h, map_parameter_entries, List.find?_append,
    find?_and_of_find? hfirst haccepts]
  rfl

namespace History

/-- Whatever is done to a store, a foremost parameter stays foremost. -/
lemma foremost?_append {h : History} {key : String} {first : Parameter}
    (hfirst : h.store.foremost? key = some first) (more : List Operation) :
    (h.append more).store.foremost? key = some first := by
  rw [foremost?, store_system, store_globals] at hfirst ⊢
  rw [setup_append, log_append, keptAt_append, ← List.append_assoc, List.find?_append, hfirst]
  rfl

/-- **A value that stays.**  If the foremost parameter of a key has no restrictions, then whatever
is done to the store afterwards, its value is the value of the key at every position where the key
names no execution value. -/
theorem resolve_run_of_foremost (h : History) (key : String) (first : Parameter)
    (hfirst : h.store.foremost? key = some first)
    (hfree : first.restrictions.isRestricted = false) (more : List Operation)
    (position : Option Position) (hposition : executionValue? key position = none) :
    (h.store.run more).resolve key position = some first.value := by
  rw [← store_append]
  have haccepts := (h.append more).store.filter.accepts_of_not_isRestricted hfree
  exact resolve_of_foremost? (foremost?_append hfirst more) haccepts hposition

/-- A global parameter keeps its key against later ones, against local ones, and under a filter. -/
theorem resolve_run_of_foremost_schema :
    let h : History := ⟨{ systemValues := [("HOME", .string "/root")] },
      [.set "Schema" (.string "app"), .setLocal "schema" .null (some (.root "root.xml"))]⟩
    let first : Parameter := ⟨"Schema", .string "app", .none, true⟩
    let more : List Operation := [.setAll [("SCHEMA", .string "late")],
      .setLocal "schema" (.string "near") (some (.root "root.xml")),
      .setContexts (some (.parse "test")), .setDatabase (some "h2")]
    let position : Option Position := some (.root "root.xml")
    h.store.foremost? "schema" = some first ∧ first.restrictions.isRestricted = false ∧
      executionValue? "schema" position = none ∧
      (h.store.run more).resolve "schema" position = some (.string "app") := by
  intro h first more position
  have hfirst : h.store.foremost? "schema" = some first := by decide +kernel
  have hfree : first.restrictions.isRestricted = false := rfl
  have hposition : executionValue? "schema" position = none := by decide +kernel
  exact ⟨hfirst, hfree, hposition,
    resolve_run_of_foremost h "schema" first hfirst hfree more position hposition⟩

end History

end Store

end ChangelogParameters
