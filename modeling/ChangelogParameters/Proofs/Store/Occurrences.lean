import ChangelogParameters.Proofs.Store.Resolution
import ChangelogParameters.Store.Explanation
import Mathlib.Data.List.Count
import Mathlib.Data.List.Nodup
import Mathlib.Tactic.ByContra
import Mathlib.Tactic.SplitIfs

/-!
# How often a parameter is listed

The parameters of a store have origins: each was put into the system tier when the store was built,
or was registered at one point of the history.  So the candidates of an explanation can be told
apart even where they look the same, and it can be said how often each parameter is listed.

Every parameter that has the key and is seen from the position is listed, and no other is.  But a
bucket belongs to a logical path and not to a changelog, and the way from a position to the root
may come across a path several times.  Then the bucket is gone through each time:
`count_listed` gives the number.  A parameter is listed once for each time its path occurs on the
way, so an explanation lists everything once exactly if no path that has a parameter with the key
occurs twice.
-/

namespace ChangelogParameters

namespace Store

/-! ### Origins -/

/-- Where a parameter of a history comes from. -/
inductive Origin where
  /-- It is one of the parameters that the system tier was built with, counted from zero. -/
  | seeded (index : Nat)
  /-- It was registered, at a point of the log that is counted from zero. -/
  | registered (index : Nat)
deriving DecidableEq, Repr

lemma Origin.registered_injective : Function.Injective Origin.registered := by
  intro i j hij
  exact Origin.registered.inj hij

/-- The entry of a parameter that is kept at a place. -/
def Place.entry : Place → Parameter → Entry
  | everywhere, parameter => ⟨.globals, none, parameter⟩
  | under scope, parameter => ⟨.locals, some scope, parameter⟩

/-- An entry is seen from a position: from everywhere, or from under its logical path. -/
def Entry.SeenFrom (entry : Entry) (position : Option Position) : Prop :=
  ∀ scope ∈ entry.scope, scope ∈ levels position

/-- How often the place of an entry is come across on the way from a position to the root. -/
def Entry.visits (entry : Entry) (position : Option Position) : Nat :=
  match entry.scope with
  | none => 1
  | some scope => (levels position).count scope

/-- What is seen is come across at least once. -/
lemma Entry.visits_pos_iff {entry : Entry} {position : Option Position} :
    0 < entry.visits position ↔ entry.SeenFrom position := by
  unfold visits SeenFrom
  cases entry.scope with
  | none => simp
  | some scope => simp [List.count_pos_iff]

namespace History

/-- The entry of an origin, if the history has one there. -/
def entryOf? (h : History) : Origin → Option Entry
  | .seeded i => h.setup.system[i]?.map (⟨.system, none, ·⟩)
  | .registered i => h.log[i]?.map fun r => r.place.entry r.parameter

/-- The points of the log at which something is registered at a place. -/
def pointsAt (h : History) (place : Place) : List Nat :=
  (List.range h.log.length).filter fun i => h.log[i]?.any (·.place = place)

/-- The origins of what is come across from a position, in the order of look-up. -/
def origins (h : History) (position : Option Position) : List Origin :=
  (List.range h.setup.system.length).map .seeded ++
    (h.pointsAt .everywhere).map .registered ++
    (levels position).flatMap fun scope => (h.pointsAt (.under scope)).reverse.map .registered

/-- The origins whose parameters have a key, among those that are come across. -/
def listed (h : History) (key : String) (position : Option Position) : List Origin :=
  (h.origins position).filter fun o => (h.entryOf? o).any (keyMatches ·.parameter.key key)

/-! ### Entries and their origins -/

/-- A list is what its places hold. -/
lemma map_getElem?_range {α : Type} (l : List α) :
    (List.range l.length).map (fun i => l[i]?) = l.map some := by
  refine List.ext_getElem (by simp) ?_
  intro i hi hi'
  simp

/-- What is registered at the points for a place is what the log keeps at the place. -/
lemma map_pointsAt (h : History) (place : Place) :
    (h.pointsAt place).map (fun i => h.log[i]?.map (·.parameter)) =
      (keptAt place h.log).map some := by
  have hfilter : (h.pointsAt place).map (fun i => h.log[i]?) =
      (h.log.filter (·.place = place)).map some := by
    have hrange := congrArg (List.filter (Option.any (·.place = place)))
      (map_getElem?_range h.log)
    rw [List.filter_map, List.filter_map] at hrange
    exact hrange
  have hmap := congrArg (List.map (Option.map (·.parameter))) hfilter
  simpa [keptAt, Function.comp_def] using hmap

/-- The entries of the points for a place are what the log keeps at the place. -/
lemma map_entryOf?_pointsAt (h : History) (place : Place) :
    (h.pointsAt place).map (fun i => h.entryOf? (.registered i)) =
      (keptAt place h.log).map fun parameter => some (place.entry parameter) := by
  have hpoints : (h.pointsAt place).map (fun i => h.entryOf? (.registered i)) =
      (h.pointsAt place).map fun i => (h.log[i]?.map (·.parameter)).map place.entry := by
    refine List.map_congr_left ?_
    intro i hi
    obtain ⟨r, hr, hplace⟩ : ∃ r, h.log[i]? = some r ∧ r.place = place := by
      simpa [Option.any_eq_true] using (List.mem_filter.1 hi).2
    simp [entryOf?, hr, hplace]
  have hkept := congrArg (List.map (Option.map place.entry)) (h.map_pointsAt place)
  rw [hpoints]
  simpa [Function.comp_def] using hkept

/-- The entries that are seen from a position are those of the origins that are come across. -/
lemma map_entryOf?_origins (h : History) (position : Option Position) :
    (h.origins position).map h.entryOf? = (h.entries position).map some := by
  have hsystem : (List.range h.setup.system.length).map (fun i => h.entryOf? (.seeded i)) =
      h.setup.system.map fun parameter => some ⟨.system, none, parameter⟩ := by
    have hrange := congrArg (List.map (Option.map (Entry.mk .system none)))
      (map_getElem?_range h.setup.system)
    simpa [entryOf?, Function.comp_def] using hrange
  have hbucket : ∀ scope, (h.pointsAt (.under scope)).reverse.map
      (fun i => h.entryOf? (.registered i)) =
        (keptAt (.under scope) h.log).reverse.map
          fun parameter => some ⟨.locals, some scope, parameter⟩ := by
    intro scope
    rw [List.map_reverse, List.map_reverse, h.map_entryOf?_pointsAt]
    rfl
  simp only [origins, entries, List.map_append, List.map_map, List.map_flatMap,
    Function.comp_def, hsystem, hbucket, h.map_entryOf?_pointsAt]
  rfl

/-! ### Counting -/

/-- A point is a point for a place at most once, and only if something is registered there. -/
lemma count_pointsAt (h : History) (place : Place) (i : Nat) :
    (h.pointsAt place).count i = if h.log[i]?.any (·.place = place) then 1 else 0 := by
  have hnodup : (h.pointsAt place).Nodup := List.nodup_range.filter _
  have hmem : i ∈ h.pointsAt place ↔ h.log[i]?.any (·.place = place) = true := by
    rw [pointsAt, List.mem_filter, List.mem_range, and_iff_right_iff_imp]
    intro hany
    by_contra hlt
    simp [List.getElem?_eq_none (Nat.le_of_not_lt hlt)] at hany
  split_ifs with hany
  · exact List.count_eq_one_of_mem hnodup (hmem.2 hany)
  · exact List.count_eq_zero.2 (mt hmem.1 hany)

/-- A registration is come across in the buckets of some logical paths once for each of the paths
that it is registered under. -/
lemma count_buckets (h : History) (scopes : List String) (i : Nat) :
    (scopes.flatMap fun scope =>
        (h.pointsAt (.under scope)).reverse.map Origin.registered).count (.registered i) =
      scopes.countP fun scope => h.log[i]?.any (·.place = .under scope) := by
  induction scopes with
  | nil => rfl
  | cons scope scopes ih =>
    rw [List.flatMap_cons, List.count_append, ih,
      List.count_map_of_injective _ _ Origin.registered_injective, List.count_reverse,
      h.count_pointsAt, List.countP_cons, Nat.add_comm]

/-- An origin is come across as often as the place of its entry. -/
lemma count_origins (h : History) (position : Option Position) (o : Origin) :
    (h.origins position).count o = (h.entryOf? o).elim 0 (·.visits position) := by
  have hseeded : Function.Injective Origin.seeded := fun _ _ hij => Origin.seeded.inj hij
  rw [origins, List.count_append, List.count_append]
  cases o with
  | seeded i =>
    have hsystem : (List.range h.setup.system.length).count i =
        if i < h.setup.system.length then 1 else 0 := by
      split_ifs with hi
      · exact List.count_eq_one_of_mem List.nodup_range (List.mem_range.2 hi)
      · exact List.count_eq_zero.2 (mt List.mem_range.1 hi)
    have hglobal : ((h.pointsAt .everywhere).map Origin.registered).count (.seeded i) = 0 := by
      simp [List.count_eq_zero]
    have hlocal : ((levels position).flatMap fun scope =>
        (h.pointsAt (.under scope)).reverse.map Origin.registered).count (.seeded i) = 0 := by
      simp [List.count_eq_zero]
    rw [List.count_map_of_injective _ _ hseeded, hsystem, hglobal, hlocal]
    by_cases hi : i < h.setup.system.length <;> simp [entryOf?, Entry.visits, hi]
  | registered i =>
    have hsystem : ((List.range h.setup.system.length).map Origin.seeded).count (.registered i) =
        0 := by
      simp [List.count_eq_zero]
    rw [hsystem, List.count_map_of_injective _ _ Origin.registered_injective, h.count_pointsAt,
      h.count_buckets]
    rcases hr : h.log[i]? with _ | ⟨_ | scope, parameter⟩
    · simp [entryOf?, hr]
    · simp [entryOf?, hr, Place.entry, Entry.visits]
    · simp [entryOf?, hr, Place.entry, Entry.visits, List.count, beq_eq_decide, eq_comm]

/-! ### Candidates and origins -/

/-- How often the parameter of an origin is listed if a key is explained at a position: as often
as its place is come across, if it has the key. -/
def occurrences (h : History) (key : String) (position : Option Position) (o : Origin) : Nat :=
  ((h.entryOf? o).filter (keyMatches ·.parameter.key key)).elim 0 (·.visits position)

/-- Some origins account for an explanation if its candidates are, one by one and in order, what
there is to say about the entries of the origins. -/
def Accounts (h : History) (key : String) (position : Option Position)
    (origins : List Origin) : Prop :=
  (h.store.explain key position).candidates.map some =
    origins.map fun o => (h.entryOf? o).map h.store.candidate

/-- An explanation lists everything once if it is accounted for by different origins, which are
those of all parameters that have the key and are seen from the position. -/
def ListsOnce (h : History) (key : String) (position : Option Position) : Prop :=
  ∃ origins, h.Accounts key position origins ∧ origins.Nodup ∧
    ∀ o, o ∈ origins ↔ ∃ entry, h.entryOf? o = some entry ∧
      keyMatches entry.parameter.key key = true ∧ entry.SeenFrom position

/-- If it has the key, the parameter of an origin occurs as often as its place. -/
lemma occurrences_of_entry {h : History} {o : Origin} {entry : Entry}
    (hentry : h.entryOf? o = some entry) (key : String) (position : Option Position) :
    h.occurrences key position o =
      if keyMatches entry.parameter.key key then entry.visits position else 0 := by
  rw [occurrences, hentry, Option.filter_some]
  split_ifs <;> rfl

/-- Where there is no entry nothing occurs. -/
lemma occurrences_of_none {h : History} {o : Origin} (hentry : h.entryOf? o = none) (key : String)
    (position : Option Position) : h.occurrences key position o = 0 := by
  rw [occurrences, hentry]
  rfl

/-- The origins that are listed account for the explanation. -/
lemma accounts_listed (h : History) (key : String) (position : Option Position) :
    h.Accounts key position (h.listed key position) := by
  have hlisted : (h.listed key position).map h.entryOf? =
      ((h.entries position).filter (keyMatches ·.parameter.key key)).map some := by
    have horigins := congrArg (List.filter (Option.any (keyMatches ·.parameter.key key)))
      (h.map_entryOf?_origins position)
    rw [List.filter_map, List.filter_map] at horigins
    exact horigins
  have hcandidates := congrArg (List.map (Option.map h.store.candidate)) hlisted
  rw [List.map_map, List.map_map] at hcandidates
  rw [Accounts, explain, candidates, entries_store, List.map_map]
  exact hcandidates.symm

/-- An origin is listed as often as it occurs. -/
lemma count_listed (h : History) (key : String) (position : Option Position) (o : Origin) :
    (h.listed key position).count o = h.occurrences key position o := by
  cases hentry : h.entryOf? o with
  | none =>
    have habsent : o ∉ h.listed key position := by
      simp [listed, hentry]
    rw [List.count_eq_zero.2 habsent, occurrences_of_none hentry]
  | some entry =>
    rw [occurrences_of_entry hentry]
    split_ifs with hkey
    · refine (List.count_filter ?_).trans ?_
      · simp [hentry, hkey]
      · rw [h.count_origins, hentry]
        rfl
    · have habsent : o ∉ h.listed key position := by
        simp [listed, hentry, hkey]
      exact List.count_eq_zero.2 habsent

/-- What is listed are the origins of the parameters that have the key and are seen. -/
lemma mem_listed {h : History} {key : String} {position : Option Position} {o : Origin} :
    o ∈ h.listed key position ↔ ∃ entry, h.entryOf? o = some entry ∧
      keyMatches entry.parameter.key key = true ∧ entry.SeenFrom position := by
  rw [← List.count_pos_iff, h.count_listed]
  cases hentry : h.entryOf? o with
  | none => simp [occurrences_of_none hentry]
  | some entry =>
    rw [occurrences_of_entry hentry]
    split_ifs with hkey <;> simp [hkey, Entry.visits_pos_iff]

/-- Everything is listed once exactly if no parameter with the key has a place that is come across
twice. -/
lemma listsOnce_iff_visits_le_one {h : History} {key : String} {position : Option Position} :
    h.ListsOnce key position ↔ ∀ o entry, h.entryOf? o = some entry →
      keyMatches entry.parameter.key key = true → entry.visits position ≤ 1 := by
  constructor
  · rintro ⟨origins, haccounts, hnodup, hmem⟩ o entry hentry hkey
    have hsubset : origins ⊆ h.listed key position := by
      intro o ho
      exact mem_listed.2 ((hmem o).1 ho)
    have hlength : (h.listed key position).length = origins.length := by
      have hboth := congrArg List.length (haccounts.symm.trans (h.accounts_listed key position))
      simpa using hboth.symm
    have hperm : origins.Perm (h.listed key position) :=
      (List.subperm_of_subset hnodup hsubset).perm_of_length_le
        (Nat.le_of_eq hlength)
    have hcount := List.nodup_iff_count_le_one.1 (hperm.nodup_iff.1 hnodup) o
    rw [h.count_listed, occurrences_of_entry hentry, if_pos hkey] at hcount
    exact hcount
  · intro hvisits
    refine ⟨h.listed key position, h.accounts_listed key position, ?_, fun o => mem_listed⟩
    refine List.nodup_iff_count_le_one.2 ?_
    intro o
    rw [h.count_listed]
    cases hentry : h.entryOf? o with
    | none => exact Nat.le_succ_of_le (Nat.le_of_eq (occurrences_of_none hentry key position))
    | some entry =>
      rw [occurrences_of_entry hentry]
      split_ifs with hkey
      · exact hvisits o entry hentry hkey
      · exact Nat.zero_le 1

/-! ### How often parameters are listed -/

/-- **How often parameters are listed.**  An explanation is accounted for by the origins of the
parameters that have the key, each as often as its place is come across: once in the system and
in the global tier, and once for each occurrence of its logical path in the local tier.  So
nothing that is seen from the position is missing, and everything is listed once exactly if no
logical path with a parameter that has the key occurs twice on the way to the root. -/
theorem candidates_occurrences (h : History) (key : String) (position : Option Position) :
    (∃ origins, h.Accounts key position origins ∧
      ∀ o, origins.count o = h.occurrences key position o) ∧
      (∀ o entry, h.entryOf? o = some entry → keyMatches entry.parameter.key key = true →
        (0 < h.occurrences key position o ↔ entry.SeenFrom position)) ∧
      (h.ListsOnce key position ↔ ∀ o entry, h.entryOf? o = some entry →
        keyMatches entry.parameter.key key = true → entry.visits position ≤ 1) := by
  refine ⟨?_, ?_, listsOnce_iff_visits_le_one⟩
  · exact ⟨h.listed key position, h.accounts_listed key position, h.count_listed key position⟩
  · intro o entry hentry hkey
    rw [occurrences_of_entry hentry, if_pos hkey]
    exact Entry.visits_pos_iff

/-- A parameter that is registered for a logical path is listed twice at a file of that logical
path which is included from a file of the same logical path. -/
theorem not_listsOnce_same_path :
    ¬ ∀ (h : History) (key : String) (position : Option Position),
      h.ListsOnce key position := by
  intro honce
  let h : History := ⟨{}, [.setLocal "k" (.string "v") (some (.root "root.xml"))]⟩
  let inner : Position := ((Position.root "root.xml").child "inner.xml").withLogicalPath "root.xml"
  have hentry : h.entryOf? (.registered 0) =
      some ⟨.locals, some "root.xml", ⟨"k", .string "v", .none, true⟩⟩ := rfl
  have hvisits := listsOnce_iff_visits_le_one.1 (honce h "k" (some inner)) (.registered 0) _ hentry
    (keyMatches_self "k")
  exact absurd hvisits (by decide)

end History

end Store

end ChangelogParameters
