import ChangelogParameters.Defaults
import ChangelogParameters.Proofs.Value.Ordered
import Mathlib.Data.List.Lex
import Mathlib.Data.Set.Card

/-!
# Leaves below members

Flattening lists leaves: values without members, each with the keys on the way to it.  `LeafBelow`
says what these leaves are without listing them, and `mem_leavesOfMembers_iff` that the list has
them all and nothing else.  In an ordered value the list goes in ascending order of the paths
(`pairwise_leavesOfMembers`), so it is as long as there are leaves (`encard_leafBelow`). -/

namespace ChangelogParameters.Value

/-! ### Leaves -/

/-- The members of an object; other values have none. -/
def members : Value → List (String × Value)
  | .object inner => inner
  | _ => []

/-- A value without members, at the end of a path of keys. -/
inductive LeafBelow : List (String × Value) → List String → Value → Prop
  | leaf {below : List (String × Value)} {key : String} {v : Value} (hmem : (key, v) ∈ below)
    (hleaf : v.members = []) : LeafBelow below [key] v
  | within {below : List (String × Value)} {key : String} {inner : Value} {path : List String}
    {v : Value} (hmem : (key, inner) ∈ below) (h : LeafBelow inner.members path v) :
    LeafBelow below (key :: path) v

/-- The first key of a path leads to a leaf, or into an object with the rest of the path. -/
lemma leafBelow_cons_iff {below : List (String × Value)} {key : String} {path : List String}
    {leaf : Value} :
    LeafBelow below (key :: path) leaf ↔ ∃ v, (key, v) ∈ below ∧
      (path = [] ∧ v.members = [] ∧ leaf = v ∨ LeafBelow v.members path leaf) := by
  constructor
  · rintro (⟨hmem, hleaf⟩ | ⟨hmem, h⟩)
    · exact ⟨leaf, hmem, .inl ⟨rfl, hleaf, rfl⟩⟩
    · exact ⟨_, hmem, .inr h⟩
  · rintro ⟨v, hmem, ⟨rfl, hleaf, rfl⟩ | h⟩
    · exact .leaf hmem hleaf
    · exact .within hmem h

/-- No leaf is at the end of an empty path. -/
lemma not_leafBelow_nil {below : List (String × Value)} {leaf : Value} :
    ¬ LeafBelow below [] leaf := by
  rintro ⟨⟩

lemma LeafBelow.ne_nil {below : List (String × Value)} {path : List String} {leaf : Value}
    (h : LeafBelow below path leaf) : path ≠ [] := by
  rintro rfl
  exact not_leafBelow_nil h

/-- The members of an ordered value, if it has any, are those of an ordered object. -/
lemma Ordered.members {v : Value} (h : v.Ordered) : (Value.object v.members).Ordered := by
  cases h with
  | object hascending hmembers => exact .object hascending hmembers
  | _ => exact ordered_object_nil

/-- In an ordered value a path leads to one leaf. -/
lemma LeafBelow.unique {below : List (String × Value)} (hordered : (object below).Ordered)
    {path : List String} {v w : Value} (hv : LeafBelow below path v)
    (hw : LeafBelow below path w) : v = w := by
  induction path generalizing below with
  | nil => exact absurd hv not_leafBelow_nil
  | cons key path ih =>
    obtain ⟨hascending, hmembers⟩ := ordered_object_iff.1 hordered
    obtain ⟨inner, hinner, hv⟩ := leafBelow_cons_iff.1 hv
    obtain ⟨inner', hinner', hw⟩ := leafBelow_cons_iff.1 hw
    obtain rfl := hascending.eq_of_mem hinner hinner'
    rcases hv with ⟨rfl, -, rfl⟩ | hv
    · rcases hw with ⟨-, -, rfl⟩ | hw
      · rfl
      · exact absurd hw not_leafBelow_nil
    · rcases hw with ⟨rfl, -, -⟩ | hw
      · exact absurd hv not_leafBelow_nil
      · exact ih (hmembers _ hinner).members hv hw

/-! ### Listed leaves -/

/-- A value without members is its own leaf, and otherwise the leaves are those of its members. -/
lemma leaves_eq (v : Value) :
    v.leaves = if v.members = [] then [([], v)] else leavesOfMembers v.members := by
  rcases v with _ | _ | _ | _ | _ | _ | ⟨member, inner⟩ <;> simp [leaves, members]

/-- The leaves of members, one member after the other. -/
lemma leavesOfMembers_eq_flatMap (below : List (String × Value)) :
    leavesOfMembers below = below.flatMap fun member =>
      member.2.leaves.map fun leaf => (member.1 :: leaf.1, leaf.2) := by
  induction below with
  | nil => rfl
  | cons member rest ih => rw [leavesOfMembers, ih, List.flatMap_cons]

/-- The leaf of a value at a path: the value itself, or a leaf below its members. -/
lemma mem_leaves_iff {v leaf : Value} {path : List String} :
    (path, leaf) ∈ v.leaves ↔
      path = [] ∧ v.members = [] ∧ leaf = v ∨ (path, leaf) ∈ leavesOfMembers v.members := by
  by_cases h : v.members = []
  · simp [leaves_eq, h, leavesOfMembers]
  · simp [leaves_eq, h]

/-- All leaves are listed and nothing else. -/
lemma mem_leavesOfMembers_iff {below : List (String × Value)} {path : List String}
    {leaf : Value} : (path, leaf) ∈ leavesOfMembers below ↔ LeafBelow below path leaf := by
  induction path generalizing below with
  | nil => simp [leavesOfMembers_eq_flatMap, not_leafBelow_nil]
  | cons key path ih =>
    rw [leafBelow_cons_iff, leavesOfMembers_eq_flatMap]
    simp only [← ih, ← mem_leaves_iff]
    constructor
    · intro h
      obtain ⟨⟨k, v⟩, hmember, h⟩ := List.mem_flatMap.1 h
      obtain ⟨inner, hinner, heq⟩ := List.mem_map.1 h
      cases heq
      exact ⟨v, hmember, hinner⟩
    · rintro ⟨v, hmember, hinner⟩
      exact List.mem_flatMap.2 ⟨(key, v), hmember, List.mem_map.2 ⟨(path, leaf), hinner, rfl⟩⟩

/-- Leaves of ascending members are listed in ascending order if those of each member are. -/
lemma pairwise_leavesOfMembers_of_ascending {below : List (String × Value)}
    (hascending : Ascending below)
    (h : ∀ member ∈ below, member.2.leaves.Pairwise fun earlier later => earlier.1 < later.1) :
    (leavesOfMembers below).Pairwise fun earlier later => earlier.1 < later.1 := by
  rw [leavesOfMembers_eq_flatMap, List.pairwise_flatMap]
  constructor
  · intro member hmember
    exact List.pairwise_map.2 ((h member hmember).imp fun hlt => List.Lex.cons hlt)
  · refine hascending.imp fun hlt leaf hleaf leaf' hleaf' => ?_
    obtain ⟨inner, -, rfl⟩ := List.mem_map.1 hleaf
    obtain ⟨inner', -, rfl⟩ := List.mem_map.1 hleaf'
    exact List.Lex.rel hlt

/-- The leaves of an ordered value are listed in ascending order of their paths. -/
lemma Ordered.pairwise_leaves {v : Value} (h : v.Ordered) :
    v.leaves.Pairwise fun earlier later => earlier.1 < later.1 := by
  induction h with
  | object hascending hmembers ih =>
    rw [leaves_eq]
    split
    · exact List.pairwise_singleton _ _
    · exact pairwise_leavesOfMembers_of_ascending hascending ih
  | _ => exact List.pairwise_singleton _ _

/-- The leaves of ordered members are listed in ascending order of their paths. -/
lemma pairwise_leavesOfMembers {below : List (String × Value)} (h : (object below).Ordered) :
    (leavesOfMembers below).Pairwise fun earlier later => earlier.1 < later.1 := by
  obtain ⟨hascending, hmembers⟩ := ordered_object_iff.1 h
  exact pairwise_leavesOfMembers_of_ascending hascending fun member hmember =>
    (hmembers member hmember).pairwise_leaves

/-- As many leaves are listed as there are. -/
lemma encard_leafBelow {below : List (String × Value)} (h : (object below).Ordered) :
    {leaf : List String × Value | LeafBelow below leaf.1 leaf.2}.encard =
      (leavesOfMembers below).length := by
  have hset : {leaf : List String × Value | LeafBelow below leaf.1 leaf.2} =
      ((leavesOfMembers below).toFinset : Set (List String × Value)) := by
    ext ⟨path, leaf⟩
    simp [mem_leavesOfMembers_iff]
  have hnodup : (leavesOfMembers below).Nodup := by
    refine (pairwise_leavesOfMembers h).imp ?_
    rintro earlier _ hlt rfl
    exact lt_irrefl earlier.1 hlt
  rw [hset, Set.encard_coe_eq_coe_finsetCard, List.toFinset_card_of_nodup hnodup]

end ChangelogParameters.Value
