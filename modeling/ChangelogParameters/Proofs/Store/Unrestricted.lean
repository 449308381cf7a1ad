import ChangelogParameters.Proofs.Store.Permanence

/-!
# Stores without restrictions

A filter can only hide what has restrictions.  Where nothing has any, the filter is of no account,
and a look-up takes the value of the first entry that has the key.  `firstValue` is this value, for
any list of entries, and `Unrestricted.resolve` says that a store without restrictions agrees.
-/

namespace ChangelogParameters

/-! ### First values -/

/-- The value of the first entry that has a key. -/
def firstValue (key : String) (entries : List (String × Value)) : Option Value :=
  (entries.find? fun entry => keyMatches entry.1 key).map (·.2)

@[simp] lemma firstValue_nil (key : String) : firstValue key [] = none := rfl

/-- Later entries count only if none of the earlier ones has the key. -/
@[simp] lemma firstValue_append (key : String) (earlier later : List (String × Value)) :
    firstValue key (earlier ++ later) = (firstValue key earlier).or (firstValue key later) := by
  rw [firstValue, List.find?_append]
  cases h : earlier.find? fun entry => keyMatches entry.1 key <;> simp [firstValue, h]

/-- There is no first value exactly if no entry has the key. -/
lemma firstValue_eq_none_iff {key : String} {entries : List (String × Value)} :
    firstValue key entries = none ↔ ∀ entry ∈ entries, keyMatches entry.1 key = false := by
  simp [firstValue]

/-- A first value is the value of an entry that has the key. -/
lemma exists_mem_of_firstValue {key : String} {entries : List (String × Value)} {value : Value}
    (h : firstValue key entries = some value) :
    ∃ entry ∈ entries, keyMatches entry.1 key = true ∧ entry.2 = value := by
  obtain ⟨first, hfind, rfl⟩ := Option.map_eq_some_iff.1 h
  exact ⟨first, List.mem_of_find?_eq_some hfind, by simpa using List.find?_some hfind, rfl⟩

/-- Where all entries with a key have one value, this is the first value, if there is such an entry.
-/
lemma firstValue_eq_some_of_mem {key : String} {entries : List (String × Value)}
    {entry : String × Value} (hmem : entry ∈ entries) (hkey : keyMatches entry.1 key = true)
    (hvalue : ∀ other ∈ entries, keyMatches other.1 key = true → other.2 = entry.2) :
    firstValue key entries = some entry.2 := by
  cases hfirst : firstValue key entries with
  | none =>
    have hnone := firstValue_eq_none_iff.1 hfirst entry hmem
    rw [hkey] at hnone
    cases hnone
  | some value =>
    obtain ⟨first, hfirstmem, hfirstkey, rfl⟩ := exists_mem_of_firstValue hfirst
    rw [hvalue first hfirstmem hfirstkey]

/-- The first value in several lists is that of the first list with a value. -/
lemma firstValue_flatMap (key : String) {α : Type} (places : List α)
    (f : α → List (String × Value)) :
    firstValue key (places.flatMap f) = places.findSome? fun place => firstValue key (f place) := by
  induction places with
  | nil => rfl
  | cons place places ih =>
    rw [List.flatMap_cons, firstValue_append, ih, List.findSome?_cons]
    cases firstValue key (f place) <;> rfl

/-- Entries that come once more, or several times, make no difference. -/
lemma firstValue_or_flatMap (key : String) {entries : List (String × Value)} {α : Type}
    (places : List α) {f : α → List (String × Value)}
    (hf : ∀ place ∈ places, f place = entries ∨ f place = []) :
    (firstValue key entries).or (firstValue key (places.flatMap f)) = firstValue key entries := by
  induction places with
  | nil => simp
  | cons place places ih =>
    obtain ⟨hplace, hrest⟩ := List.forall_mem_cons.1 hf
    rw [List.flatMap_cons, firstValue_append]
    rcases hplace with hplace | hplace
    · rw [hplace, ← Option.or_assoc, Option.or_self, ih hrest]
    · rw [hplace, firstValue_nil, Option.none_or, ih hrest]

/-- Where at most one entry has a key, its value is the first one exactly if no entry with the key
has another value. -/
lemma firstValue_or_eq_iff {key : String} {entries : List (String × Value)} {value : Value}
    (hunique : ∀ p ∈ entries, ∀ q ∈ entries,
      keyMatches p.1 key = true → keyMatches q.1 key = true → p = q) :
    (firstValue key entries).or (some value) = some value ↔
      ∀ p ∈ entries, keyMatches p.1 key = true → p.2 = value := by
  cases hfirst : firstValue key entries with
  | none =>
    simp only [Option.none_or, true_iff]
    intro p hp hpkey
    rw [firstValue_eq_none_iff.1 hfirst p hp] at hpkey
    cases hpkey
  | some value' =>
    obtain ⟨first, hmem, hkey, rfl⟩ := exists_mem_of_firstValue hfirst
    simp only [Option.some_or, Option.some.injEq]
    constructor
    · rintro rfl p hp hpkey
      rw [hunique p hp first hmem hpkey hkey]
    · intro hall
      exact hall first hmem hkey

/-! ### Bindings -/

/-- The key of a parameter with its value. -/
def Parameter.binding (parameter : Parameter) : String × Value :=
  (parameter.key, parameter.value)

/-- An entry as a parameter without restrictions, which is under the filter. -/
def Parameter.free (entry : String × Value) : Parameter :=
  ⟨entry.1, entry.2, .none, true⟩

/-- Entries are the bindings of the parameters that are made of them. -/
@[simp] lemma map_binding_free (entries : List (String × Value)) :
    (entries.map Parameter.free).map Parameter.binding = entries := by
  rw [List.map_map]
  exact List.map_id entries

namespace Store

/-! ### Registrations -/

/-- Entries that are registered at one place are kept there and nowhere else. -/
lemma keptAt_map (place place' : Place) (entries : List (String × Value)) :
    keptAt place' (entries.map fun entry => ⟨place, .free entry⟩) =
      if place = place' then entries.map .free else [] := by
  induction entries with
  | nil => simp
  | cons entry entries ih =>
    rw [List.map_cons, keptAt_cons, ih]
    by_cases h : place = place' <;> simp [h]

/-- Local parameters are kept in the bucket of their position, if there is one. -/
lemma keptAt_flatMap_within (place : Place) (position : Option Position)
    (entries : List (String × Value)) :
    keptAt place (entries.flatMap fun entry =>
        (Scope.within position).registrations entry.1 entry.2 .none) =
      if position.map (Place.under ·.scopeKey) = some place then entries.map .free
      else [] := by
  cases position with
  | none =>
    have hnone : (entries.flatMap fun entry =>
        (Scope.within none).registrations entry.1 entry.2 .none) = [] :=
      List.flatMap_eq_nil_iff.2 fun _ _ => rfl
    simp [hnone]
  | some position =>
    have hmap : (entries.flatMap fun entry =>
        (Scope.within (some position)).registrations entry.1 entry.2 .none) =
          entries.map fun entry => ⟨.under position.scopeKey, .free entry⟩ :=
      List.map_eq_flatMap.symm
    rw [hmap, keptAt_map]
    simp

/-! ### Stores -/

/-- The keys and the values that are seen from a position, in the order of look-up. -/
def seen (store : Store) (position : Option Position) : List (String × Value) :=
  ((store.entries position).map (·.parameter)).map Parameter.binding

/-- The tiers are seen one after the other, and the buckets from the newest parameter on. -/
lemma seen_eq (store : Store) (position : Option Position) :
    store.seen position =
      store.system.map Parameter.binding ++ store.globals.map Parameter.binding ++
        (levels position).flatMap fun scope =>
          ((store.locals.get scope).map Parameter.binding).reverse := by
  simp [seen, map_parameter_entries, List.map_flatMap]

/-- Nothing in the store has restrictions. -/
structure Unrestricted (store : Store) : Prop where
  system : ∀ parameter ∈ store.system, parameter.restrictions = .none
  globals : ∀ parameter ∈ store.globals, parameter.restrictions = .none
  locals : ∀ scope, ∀ parameter ∈ store.locals.get scope, parameter.restrictions = .none

/-- The filter accepts all that is seen in a store without restrictions. -/
lemma Unrestricted.accepts {store : Store} (h : store.Unrestricted) {position : Option Position}
    {parameter : Parameter} (hmem : parameter ∈ (store.entries position).map (·.parameter)) :
    store.filter.accepts parameter = true := by
  have hnone : parameter.restrictions = .none := by
    rw [map_parameter_entries] at hmem
    rcases List.mem_append.1 hmem with hmem | hmem
    · rcases List.mem_append.1 hmem with hmem | hmem
      · exact h.system parameter hmem
      · exact h.globals parameter hmem
    · obtain ⟨scope, -, hscope⟩ := List.mem_flatMap.1 hmem
      exact h.locals scope parameter (List.mem_reverse.1 hscope)
  refine store.filter.accepts_of_not_isRestricted ?_
  rw [hnone, Restrictions.isRestricted_none]

/-- Without restrictions and without an execution value, the first entry that has the key gives the
value. -/
theorem Unrestricted.resolve {store : Store} (h : store.Unrestricted) {key : String}
    {position : Option Position} (hexecution : executionValue? key position = none) :
    store.resolve key position = firstValue key (store.seen position) := by
  have hfind : (((store.entries position).map (·.parameter)).find? fun parameter =>
        keyMatches parameter.key key && store.filter.accepts parameter) =
      ((store.entries position).map (·.parameter)).find? fun parameter =>
        keyMatches parameter.key key := by
    rw [← List.head?_filter, ← List.head?_filter]
    refine congrArg List.head? (List.filter_congr ?_)
    intro parameter hmem
    rw [h.accepts hmem, Bool.and_true]
  rw [store.resolve_eq_find?_parameters hexecution, hfind, firstValue, seen,
    List.find?_map (f := Parameter.binding), Option.map_map]
  rfl

end Store

end ChangelogParameters
