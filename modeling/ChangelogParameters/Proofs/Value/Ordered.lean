import ChangelogParameters.Value
import Mathlib.Data.List.Sort
import Mathlib.Data.String.Basic

/-!
# Ordered values

A value is ordered if the members of every object in it, at whatever depth, stand in ascending order
of their keys.  No object then has two members with one key, so its members are a map from keys to
values.  Objects that are made of members one by one (`Value.ofMembers`) are ordered, and
`Ascending.lookup?_eq_some_iff` says that a look-up in ascending members finds what is there.
-/

namespace ChangelogParameters.Value

/-! ### Ascending members -/

/-- Members in ascending order of their keys. -/
def Ascending (members : List (String × Value)) : Prop :=
  members.Pairwise fun earlier later => earlier.1 < later.1

/-- What stands among the members after an insertion is the new member or stood there before. -/
lemma mem_insertMember {key : String} {value : Value} {member : String × Value}
    {members : List (String × Value)} (h : member ∈ insertMember key value members) :
    member = (key, value) ∨ member ∈ members := by
  induction members with
  | nil => exact .inl (List.mem_singleton.1 h)
  | cons head rest ih =>
    obtain ⟨k, v⟩ := head
    simp only [insertMember] at h
    split at h
    · exact List.mem_cons.1 h
    · split at h
      · exact (List.mem_cons.1 h).imp_right (List.mem_cons_of_mem _)
      · rcases List.mem_cons.1 h with rfl | h
        · exact .inr List.mem_cons_self
        · exact (ih h).imp_right (List.mem_cons_of_mem _)

/-- A member is inserted in its place. -/
lemma Ascending.insertMember {members : List (String × Value)} (h : Ascending members)
    (key : String) (value : Value) : Ascending (insertMember key value members) := by
  induction members with
  | nil => exact List.pairwise_singleton _ _
  | cons head rest ih =>
    obtain ⟨k, v⟩ := head
    obtain ⟨hhead, hrest⟩ := List.pairwise_cons.1 h
    simp only [Value.insertMember]
    split
    · next hlt =>
      refine List.pairwise_cons.2 ⟨fun member hmember => ?_, h⟩
      rcases List.mem_cons.1 hmember with rfl | hmember
      · exact hlt
      · exact hlt.trans (hhead member hmember)
    · next hle =>
      split
      · next heq => exact List.pairwise_cons.2 ⟨heq ▸ hhead, hrest⟩
      · next hne =>
        refine List.pairwise_cons.2 ⟨fun member hmember => ?_, ih hrest⟩
        rcases mem_insertMember hmember with rfl | hmember
        · exact lt_of_le_of_ne (not_lt.1 hle) (Ne.symm hne)
        · exact hhead member hmember

/-- A look-up finds the member with the key. -/
lemma Ascending.lookup?_eq_some_iff {members : List (String × Value)} (h : Ascending members)
    {key : String} {value : Value} : lookup? key members = some value ↔ (key, value) ∈ members := by
  induction members with
  | nil => simp
  | cons head rest ih =>
    obtain ⟨k, v⟩ := head
    obtain ⟨hhead, hrest⟩ := List.pairwise_cons.1 h
    rw [lookup?_cons, List.mem_cons, Prod.mk.injEq]
    by_cases hkey : key = k
    · subst hkey
      have hnot : (key, value) ∉ rest := fun hmem => lt_irrefl key (hhead _ hmem)
      simp [hnot, eq_comm]
    · simp [hkey, ih hrest]

/-- Members with one key have one value. -/
lemma Ascending.eq_of_mem {members : List (String × Value)} (h : Ascending members) {key : String}
    {v w : Value} (hv : (key, v) ∈ members) (hw : (key, w) ∈ members) : v = w :=
  Option.some.inj ((h.lookup?_eq_some_iff.2 hv).symm.trans (h.lookup?_eq_some_iff.2 hw))

/-- Ascending members are determined by what stands among them. -/
lemma Ascending.eq_of_mem_iff {members others : List (String × Value)} (h : Ascending members)
    (h' : Ascending others) (hiff : ∀ member, member ∈ members ↔ member ∈ others) :
    members = others := by
  have hirrefl : Std.Irrefl fun earlier later : String × Value => earlier.1 < later.1 :=
    ⟨fun member => lt_irrefl member.1⟩
  have hantisymm : Std.Antisymm fun earlier later : String × Value => earlier.1 < later.1 :=
    ⟨fun _ _ hlt hgt => absurd hlt hgt.asymm⟩
  exact List.Pairwise.eq_of_mem_iff h h' hiff

/-- What is taken from the members with a key is what is taken from the one that a look-up finds. -/
lemma Ascending.flatMap_eq_lookup? {α : Type} {members : List (String × Value)}
    (h : Ascending members) (key : String) (f : Value → List α) :
    (members.flatMap fun member => if member.1 = key then f member.2 else []) =
      (lookup? key members).elim [] f := by
  induction members with
  | nil => rfl
  | cons head rest ih =>
    obtain ⟨k, v⟩ := head
    obtain ⟨hhead, hrest⟩ := List.pairwise_cons.1 h
    rw [List.flatMap_cons, lookup?_cons]
    by_cases hkey : k = key
    · subst hkey
      have hnone : (rest.flatMap fun member => if member.1 = k then f member.2 else []) = [] :=
        List.flatMap_eq_nil_iff.2 fun member hmember => if_neg (hhead member hmember).ne'
      simp [hnone]
    · simp [hkey, Ne.symm hkey, ih hrest]

/-! ### Ordered values -/

/-- At every depth the members of objects stand in ascending order of their keys. -/
inductive Ordered : Value → Prop
  | null : Ordered .null
  | bool (b : Bool) : Ordered (.bool b)
  | number (n : Number) : Ordered (.number n)
  | string (s : String) : Ordered (.string s)
  | array {items : List Value} (hitems : ∀ item ∈ items, Ordered item) : Ordered (.array items)
  | object {members : List (String × Value)} (hascending : Ascending members)
    (hmembers : ∀ member ∈ members, Ordered member.2) : Ordered (.object members)

/-- An object is ordered if its members are ascending and each of them is ordered. -/
lemma ordered_object_iff {members : List (String × Value)} :
    (object members).Ordered ↔ Ascending members ∧ ∀ member ∈ members, member.2.Ordered := by
  constructor
  · rintro (_ | _ | _ | _ | _ | ⟨hascending, hmembers⟩)
    exact ⟨hascending, hmembers⟩
  · rintro ⟨hascending, hmembers⟩
    exact .object hascending hmembers

/-- An object without members is ordered. -/
lemma ordered_object_nil : (object []).Ordered :=
  .object List.Pairwise.nil fun _ hmem => absurd hmem List.not_mem_nil

/-- An object with one more ordered member is ordered. -/
lemma Ordered.insertMember {members : List (String × Value)} (h : (Value.object members).Ordered)
    (key : String) {value : Value} (hvalue : value.Ordered) :
    (Value.object (Value.insertMember key value members)).Ordered := by
  obtain ⟨hascending, hmembers⟩ := ordered_object_iff.1 h
  refine .object (hascending.insertMember key value) fun member hmember => ?_
  rcases mem_insertMember hmember with rfl | hmember
  · exact hvalue
  · exact hmembers member hmember

/-- The object that is made of ordered members is ordered. -/
lemma Ordered.ofMembers {members : List (String × Value)}
    (h : ∀ member ∈ members, member.2.Ordered) : (Value.ofMembers members).Ordered := by
  refine List.foldlRecOn (motive := fun done => (Value.object done).Ordered) members _ ?_ ?_
  · exact ordered_object_nil
  · exact fun done hdone member hmember => hdone.insertMember member.1 (h member hmember)

/-! ### Steps -/

/-- What each step keeps, several steps keep. -/
lemma foldlM_keeps {σ α : Type} {P : σ → Prop} {step : σ → α → Option σ} {as : List α}
    (hstep : ∀ a ∈ as, ∀ s s', step s a = some s' → P s → P s') {s s' : σ}
    (h : as.foldlM step s = some s') (hs : P s) : P s' := by
  induction as generalizing s with
  | nil =>
    cases h
    exact hs
  | cons a as ih =>
    obtain ⟨ha, hrest⟩ := List.forall_mem_cons.1 hstep
    rw [List.foldlM_cons] at h
    obtain ⟨next, hnext, h⟩ := Option.bind_eq_some_iff.1 h
    exact ih hrest h (ha s next hnext hs)

end ChangelogParameters.Value
