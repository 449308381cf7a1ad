import ChangelogParameters.Defaults.File
import ChangelogParameters.Proofs.Defaults.Leaves
import ChangelogParameters.Proofs.Text.NormalForm
import ChangelogParameters.Proofs.Toml.Ordered
import ChangelogParameters.Proofs.Yaml.Ordered

/-!
# Flattened tables

The entries of a defaults file are the leaves of its table, other than those below the two members
that are read apart.  They stand in ascending order of the paths to the leaves, which need not be
the order of the dotted keys.

If no key has a point in it, flattening loses nothing.  Then a path can be told from its dotted
text, so the leaves can be told from the entries.  And every member leads to a leaf, because an
object without members is a leaf itself, so the members can be told from the leaves below them
(`Ordered.members_eq_of_leafBelow_iff`).
-/

namespace ChangelogParameters

namespace Value

/-! ### Keys and the leaves below them -/

/-- A key that some member has, at whatever depth. -/
inductive KeyBelow (key : String) : List (String × Value) → Prop
  | here {below : List (String × Value)} {v : Value} (hmem : (key, v) ∈ below) : KeyBelow key below
  | within {below : List (String × Value)} {outer : String} {v : Value}
    (hmem : (outer, v) ∈ below) (h : KeyBelow key v.members) : KeyBelow key below

/-- An ordered value with members has a leaf below them. -/
lemma Ordered.exists_leafBelow {v : Value} (h : v.Ordered) (hne : v.members ≠ []) :
    ∃ path leaf, LeafBelow v.members path leaf := by
  induction h with
  | object hascending hmembers ih =>
    obtain ⟨⟨key, w⟩, rest, rfl⟩ := List.exists_cons_of_ne_nil hne
    by_cases hw : w.members = []
    · exact ⟨[key], w, .leaf List.mem_cons_self hw⟩
    · obtain ⟨path, leaf, hleaf⟩ := ih (key, w) List.mem_cons_self hw
      exact ⟨key :: path, leaf, .within List.mem_cons_self hleaf⟩
  | _ => exact absurd rfl hne

/-- Every member leads to a leaf. -/
lemma exists_leafBelow_cons {below : List (String × Value)} (h : (object below).Ordered)
    {key : String} {v : Value} (hmem : (key, v) ∈ below) :
    ∃ path leaf, LeafBelow below (key :: path) leaf := by
  by_cases hv : v.members = []
  · exact ⟨[], v, .leaf hmem hv⟩
  · obtain ⟨path, leaf, hleaf⟩ := ((ordered_object_iff.1 h).2 _ hmem).exists_leafBelow hv
    exact ⟨path, leaf, .within hmem hleaf⟩

/-- The keys on the way to a leaf are keys of members. -/
lemma LeafBelow.keyBelow {below : List (String × Value)} {path : List String} {leaf : Value}
    (h : LeafBelow below path leaf) {key : String} (hkey : key ∈ path) : KeyBelow key below := by
  induction h with
  | leaf hmem _ =>
    rw [List.mem_singleton.1 hkey]
    exact .here hmem
  | within hmem _ ih =>
    rcases List.mem_cons.1 hkey with rfl | hkey
    · exact .here hmem
    · exact .within hmem (ih hkey)

/-- The keys at whatever depth are those on the ways to the leaves. -/
lemma keyBelow_iff {below : List (String × Value)} (h : (object below).Ordered) {key : String} :
    KeyBelow key below ↔ ∃ path leaf, LeafBelow below path leaf ∧ key ∈ path := by
  constructor
  · intro hkey
    induction hkey with
    | here hmem =>
      obtain ⟨path, leaf, hleaf⟩ := exists_leafBelow_cons h hmem
      exact ⟨key :: path, leaf, hleaf, List.mem_cons_self⟩
    | @within below outer v hmem _ ih =>
      obtain ⟨path, leaf, hleaf, hkey⟩ := ih ((ordered_object_iff.1 h).2 _ hmem).members
      exact ⟨outer :: path, leaf, .within hmem hleaf, List.mem_cons_of_mem _ hkey⟩
  · rintro ⟨path, leaf, hleaf, hkey⟩
    exact hleaf.keyBelow hkey

/-! ### Members told by the leaves below them -/

/-- In ascending members the leaves under a key are those of the one member with the key. -/
lemma Ascending.leafBelow_cons_iff {below : List (String × Value)} (h : Ascending below)
    {key : String} {v : Value} (hmem : (key, v) ∈ below) {path : List String} {leaf : Value} :
    LeafBelow below (key :: path) leaf ↔
      path = [] ∧ v.members = [] ∧ leaf = v ∨ LeafBelow v.members path leaf := by
  rw [Value.leafBelow_cons_iff]
  constructor
  · rintro ⟨w, hw, hleaf⟩
    obtain rfl := h.eq_of_mem hmem hw
    exact hleaf
  · exact fun hleaf => ⟨v, hmem, hleaf⟩

/-- A value that has members is the object with these members. -/
lemma eq_object_of_members_ne_nil {v : Value} (h : v.members ≠ []) : v = object v.members := by
  cases v with
  | object inner => rfl
  | _ => exact absurd rfl h

/-- Two values are equal if they have the same leaves, provided their members are equal if there are
the same leaves below them. -/
lemma eq_of_same_leaves {v w : Value}
    (hmembers : (∀ path leaf, LeafBelow v.members path leaf ↔ LeafBelow w.members path leaf) →
      v.members = w.members)
    (h : ∀ path leaf, (path = [] ∧ v.members = [] ∧ leaf = v ∨ LeafBelow v.members path leaf) ↔
      (path = [] ∧ w.members = [] ∧ leaf = w ∨ LeafBelow w.members path leaf)) : v = w := by
  by_cases hleaf : v.members = []
  · rcases (h [] v).1 (.inl ⟨rfl, hleaf, rfl⟩) with ⟨-, -, hvw⟩ | hnil
    · exact hvw
    · exact absurd hnil not_leafBelow_nil
  · have heq : v.members = w.members := by
      refine hmembers fun path leaf => ?_
      cases path with
      | nil => simp only [not_leafBelow_nil]
      | cons key path => simpa using h (key :: path) leaf
    rw [eq_object_of_members_ne_nil hleaf, heq]
    exact (eq_object_of_members_ne_nil (heq ▸ hleaf)).symm

/-- Of members with the same leaves below them, the one side has every key of the other. -/
lemma exists_mem_of_leafBelow_iff {below below' : List (String × Value)}
    (h : (object below).Ordered)
    (hiff : ∀ path leaf, LeafBelow below path leaf ↔ LeafBelow below' path leaf) {key : String}
    {v : Value} (hmem : (key, v) ∈ below) : ∃ w, (key, w) ∈ below' := by
  obtain ⟨path, leaf, hleaf⟩ := exists_leafBelow_cons h hmem
  obtain ⟨w, hw, -⟩ := leafBelow_cons_iff.1 ((hiff _ _).1 hleaf)
  exact ⟨w, hw⟩

/-- **Leaves determine members.**  If there are the same leaves below the members of an ordered
value as below those of another, the members are the same. -/
lemma Ordered.members_eq_of_leafBelow_iff {v : Value} (h : v.Ordered)
    {below : List (String × Value)} (hbelow : (Value.object below).Ordered)
    (hiff : ∀ path leaf, LeafBelow v.members path leaf ↔ LeafBelow below path leaf) :
    v.members = below := by
  induction h generalizing below with
  | @object inner hascending hmembers ih =>
    obtain ⟨hascending', hmembers'⟩ := ordered_object_iff.1 hbelow
    -- the members agree key by key: the leaves under one key are those of the value that it has
    have hsame : ∀ key u w, (key, u) ∈ inner → (key, w) ∈ below → u = w := by
      intro key u w hu hw
      refine eq_of_same_leaves (ih (key, u) hu (hmembers' _ hw).members) fun path leaf => ?_
      rw [← hascending.leafBelow_cons_iff hu, ← hascending'.leafBelow_cons_iff hw]
      exact hiff (key :: path) leaf
    have hinner : (Value.object inner).Ordered := .object hascending hmembers
    have hiff' : ∀ path leaf, LeafBelow below path leaf ↔ LeafBelow inner path leaf :=
      fun path leaf => (hiff path leaf).symm
    refine hascending.eq_of_mem_iff hascending' fun ⟨key, w⟩ => ⟨fun hu => ?_, fun hw => ?_⟩
    · obtain ⟨w', hw'⟩ := exists_mem_of_leafBelow_iff hinner hiff hu
      rwa [hsame key w w' hu hw']
    · obtain ⟨u, hu⟩ := exists_mem_of_leafBelow_iff hbelow hiff' hw
      rwa [← hsame key u w hu hw]
  | _ =>
    -- without members there are no leaves, so the other side has no keys either
    have hiff' : ∀ path leaf, LeafBelow below path leaf ↔ LeafBelow [] path leaf :=
      fun path leaf => (hiff path leaf).symm
    refine (List.eq_nil_iff_forall_not_mem.2 fun ⟨key, w⟩ hw => ?_).symm
    obtain ⟨u, hu⟩ := exists_mem_of_leafBelow_iff hbelow hiff' hw
    exact List.not_mem_nil hu

/-! ### Flattened members -/

/-- If no key has a point in it, there is a leaf at the end of a path exactly if it stands among the
flattened members under the dotted path. -/
lemma mem_flattened_iff {below : List (String × Value)}
    (hpoints : ∀ key, KeyBelow key below → '.' ∉ key.toList) {path : List String}
    (hne : path ≠ []) (hpath : ∀ key ∈ path, '.' ∉ key.toList) {leaf : Value} :
    (".".intercalate path, leaf) ∈ flattened below ↔ LeafBelow below path leaf := by
  rw [← mem_leavesOfMembers_iff, flattened, List.mem_map]
  constructor
  · rintro ⟨⟨path', leaf'⟩, hmem, heq⟩
    obtain ⟨hdotted, rfl⟩ := Prod.mk.inj heq
    have hleaf := mem_leavesOfMembers_iff.1 hmem
    have hpath' : ∀ key ∈ path', '.' ∉ key.toList := fun key hkey =>
      hpoints key (hleaf.keyBelow hkey)
    rwa [← Text.intercalate_inj rfl hleaf.ne_nil hne hpath' hpath hdotted]
  · exact fun hmem => ⟨(path, leaf), hmem, rfl⟩

/-- Where no key has a point in it, members that are flattened to the same have the same leaves
below them. -/
lemma LeafBelow.of_flattened_eq {below below' : List (String × Value)}
    (hpoints : ∀ key, KeyBelow key below → '.' ∉ key.toList)
    (hpoints' : ∀ key, KeyBelow key below' → '.' ∉ key.toList)
    (heq : flattened below = flattened below') {path : List String} {leaf : Value}
    (hleaf : LeafBelow below path leaf) : LeafBelow below' path leaf := by
  have hpath : ∀ key ∈ path, '.' ∉ key.toList := fun key hkey =>
    hpoints key (hleaf.keyBelow hkey)
  rw [← mem_flattened_iff hpoints' hleaf.ne_nil hpath, ← heq]
  exact (mem_flattened_iff hpoints hleaf.ne_nil hpath).2 hleaf

/-- **Flattening is injective.**  Ordered members without points in their keys are determined by
what they are flattened to. -/
lemma flattened_inj {below below' : List (String × Value)} (h : (object below).Ordered)
    (h' : (object below').Ordered) (hpoints : ∀ key, KeyBelow key below → '.' ∉ key.toList)
    (hpoints' : ∀ key, KeyBelow key below' → '.' ∉ key.toList)
    (heq : flattened below = flattened below') : below = below' := by
  have hiff : ∀ path leaf, LeafBelow below path leaf ↔ LeafBelow below' path leaf :=
    fun _ _ => ⟨LeafBelow.of_flattened_eq hpoints hpoints' heq,
      LeafBelow.of_flattened_eq hpoints' hpoints heq.symm⟩
  exact h.members_eq_of_leafBelow_iff h' hiff

end Value

namespace Defaults

/-! ### Tables -/

/-- What stands in a file is an ordered value, whatever the format. -/
lemma Format.ordered_parse? {format : Format} {text : String} {v : Value}
    (h : format.parse? text = some v) : v.Ordered := by
  cases format with
  | toml => exact Toml.ordered_parse? h
  | yaml => exact Yaml.ordered_parse? h

/-- The entries of the defaults that a table says are its flattened ordinary members. -/
lemma entries_of_ofTable {table : List (String × Value)} {loaded : Defaults}
    (h : ofTable table = .ok loaded) :
    loaded.entries = Value.flattened (ordinaryMembers table) := by
  rw [ofTable] at h
  cases hdatabase : databaseOf table with
  | error e =>
    rw [hdatabase] at h
    cases h
  | ok database =>
    cases hmode : missingModeOf table with
    | error e =>
      rw [hdatabase, hmode] at h
      cases h
    | ok mode =>
      rw [hdatabase, hmode] at h
      cases h
      rfl

/-- A member is an ordinary one if it is neither of the two that are read apart. -/
lemma mem_ordinaryMembers_iff {table : List (String × Value)} {member : String × Value} :
    member ∈ ordinaryMembers table ↔
      member ∈ table ∧ member.1 ≠ databaseKey ∧ member.1 ≠ missingModeKey := by
  simp [ordinaryMembers, Value.without, and_comm]

/-- The ordinary members of an ordered table are ordered. -/
lemma ordered_ordinaryMembers {table : List (String × Value)}
    (h : (Value.object table).Ordered) : (Value.object (ordinaryMembers table)).Ordered := by
  obtain ⟨hascending, hmembers⟩ := Value.ordered_object_iff.1 h
  exact .object ((hascending.filter _).filter _) fun member hmember =>
    hmembers member (mem_ordinaryMembers_iff.1 hmember).1

/-- The leaves below the ordinary members are those to which no path leads that begins with the key
of another member. -/
lemma leafBelow_ordinaryMembers_iff {table : List (String × Value)} {path : List String}
    {leaf : Value} : Value.LeafBelow (ordinaryMembers table) path leaf ↔
      Value.LeafBelow table path leaf ∧
        path.head? ≠ some databaseKey ∧ path.head? ≠ some missingModeKey := by
  cases path with
  | nil => simp [Value.not_leafBelow_nil]
  | cons key path =>
    simp only [Value.leafBelow_cons_iff, mem_ordinaryMembers_iff, List.head?_cons, ne_eq,
      Option.some.injEq]
    constructor
    · rintro ⟨v, ⟨hmem, hkey⟩, hleaf⟩
      exact ⟨⟨v, hmem, hleaf⟩, hkey⟩
    · rintro ⟨⟨v, hmem, hleaf⟩, hkey⟩
      exact ⟨v, ⟨hmem, hkey⟩, hleaf⟩

/-- A key of an ordinary member, at whatever depth, is one of a member. -/
lemma keyBelow_of_ordinaryMembers {table : List (String × Value)} {key : String}
    (h : Value.KeyBelow key (ordinaryMembers table)) : Value.KeyBelow key table := by
  rcases h with hmem | ⟨hmem, hkey⟩
  · exact .here (mem_ordinaryMembers_iff.1 hmem).1
  · exact .within (mem_ordinaryMembers_iff.1 hmem).1 hkey

/-- **Entries are leaves.**  Let a table be ordered, as all tables that are read from files are.
The entries of the defaults that it says are its leaves, which are values other than objects and
objects without members, under the keys on the way to them, joined with points.  Those of the
members `database` and `missingPropertyMode` are left out, and all others are there, each with its
value, in strictly ascending order of the paths, so that none is there twice.  If no key of two such
tables has a point in it, at whatever depth, and they have the same entries, they have the same
members other than these two. -/
theorem entries_eq_leaves {table : List (String × Value)} {loaded : Defaults}
    (hordered : (Value.object table).Ordered) (hloaded : ofTable table = .ok loaded) :
    (∃ leaves : List (List String × Value),
      loaded.entries = leaves.map (fun leaf => (".".intercalate leaf.1, leaf.2)) ∧
        (∀ path leaf, (path, leaf) ∈ leaves ↔ Value.LeafBelow table path leaf ∧
          path.head? ≠ some databaseKey ∧ path.head? ≠ some missingModeKey) ∧
        leaves.Pairwise fun earlier later => earlier.1 < later.1) ∧
      ∀ table' loaded', (Value.object table').Ordered → ofTable table' = .ok loaded' →
        (∀ key, Value.KeyBelow key table → '.' ∉ key.toList) →
        (∀ key, Value.KeyBelow key table' → '.' ∉ key.toList) →
        loaded.entries = loaded'.entries →
        ∀ member : String × Value, member.1 ≠ databaseKey → member.1 ≠ missingModeKey →
          (member ∈ table ↔ member ∈ table') := by
  constructor
  · refine ⟨Value.leavesOfMembers (ordinaryMembers table), entries_of_ofTable hloaded,
      fun path leaf => ?_, Value.pairwise_leavesOfMembers (ordered_ordinaryMembers hordered)⟩
    rw [Value.mem_leavesOfMembers_iff, leafBelow_ordinaryMembers_iff]
  · intro table' loaded' hordered' hloaded' hpoints hpoints' hentries member hdatabase hmode
    rw [entries_of_ofTable hloaded, entries_of_ofTable hloaded'] at hentries
    have heq : ordinaryMembers table = ordinaryMembers table' :=
      Value.flattened_inj (ordered_ordinaryMembers hordered) (ordered_ordinaryMembers hordered')
        (fun key hkey => hpoints key (keyBelow_of_ordinaryMembers hkey))
        (fun key hkey => hpoints' key (keyBelow_of_ordinaryMembers hkey)) hentries
    have hiff : ∀ t : List (String × Value), member ∈ ordinaryMembers t ↔ member ∈ t :=
      fun t => mem_ordinaryMembers_iff.trans (and_iff_left ⟨hdatabase, hmode⟩)
    rw [← hiff table, ← hiff table', heq]

/-- Two files that differ in the policy for missing values.  The path that begins with `app` comes
before `app-url`, although its dotted text would come after it. -/
theorem entries_eq_leaves_app :
    let text := "app-url = \"local\"\n[app]\nport = 80\n[app.none]\n"
    let members : List (String × Value) :=
      [("app", .object [("none", .object []), ("port", .ofInt 80)]), ("app-url", .string "local")]
    let table := members ++ [("missingPropertyMode", .string "error")]
    let entries : List (String × Value) :=
      [("app.none", .object []), ("app.port", .ofInt 80), ("app-url", .string "local")]
    Format.toml.parse? text = some (.object members) ∧
      Format.toml.parse? ("missingPropertyMode = \"error\"\n" ++ text) = some (.object table) ∧
      ofTable members = .ok { entries } ∧
      ofTable table = .ok { entries, missingMode := some .error } ∧
      (∃ leaves : List (List String × Value),
        entries = leaves.map (fun leaf => (".".intercalate leaf.1, leaf.2)) ∧
          (["app", "none"], .object []) ∈ leaves ∧
          leaves.Pairwise fun earlier later => earlier.1 < later.1) ∧
      ∀ member : String × Value, member.1 ≠ databaseKey → member.1 ≠ missingModeKey →
        (member ∈ table ↔ member ∈ members) := by
  intro text members table entries
  have hparse : Format.toml.parse? text = some (.object members) := by decide +kernel
  have hparse' : Format.toml.parse? ("missingPropertyMode = \"error\"\n" ++ text) =
      some (.object table) := by decide +kernel
  have hmembers : ofTable members = .ok { entries } := by decide +kernel
  have htable : ofTable table = .ok { entries, missingMode := some .error } := by decide +kernel
  have hordered := Format.ordered_parse? hparse
  have hordered' := Format.ordered_parse? hparse'
  have hundotted : ∀ leaf ∈ Value.leavesOfMembers table, ∀ key ∈ leaf.1, '.' ∉ key.toList := by
    decide +kernel
  have hpoints : ∀ key, Value.KeyBelow key table → '.' ∉ key.toList := by
    intro key hkey
    obtain ⟨path, leaf, hleaf, hmem⟩ := (Value.keyBelow_iff hordered').1 hkey
    exact hundotted (path, leaf) (Value.mem_leavesOfMembers_iff.2 hleaf) key hmem
  have hordinary : ordinaryMembers table = members := by decide +kernel
  have hpoints' : ∀ key, Value.KeyBelow key members → '.' ∉ key.toList := fun key hkey =>
    hpoints key (keyBelow_of_ordinaryMembers (hordinary ▸ hkey))
  obtain ⟨⟨leaves, hentries, hleaves, hascending⟩, hsame⟩ := entries_eq_leaves hordered' htable
  refine ⟨hparse, hparse', hmembers, htable, ⟨leaves, hentries, ?_, hascending⟩,
    hsame members _ hordered hmembers hpoints hpoints' rfl⟩
  exact (hleaves _ _).2 ⟨Value.mem_leavesOfMembers_iff.1 (by decide +kernel), by decide +kernel⟩

end Defaults

end ChangelogParameters
