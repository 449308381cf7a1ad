import ChangelogParameters.Proofs.Defaults.Flattening
import ChangelogParameters.Proofs.Parameter.Key
import ChangelogParameters.Proofs.Store.Calls
import ChangelogParameters.Proofs.Store.Unrestricted

/-!
# Parameters of defaults files

The entries of a defaults file are the leaves of its table, and those whose key begins with the
prefix of parameters are registered without it.  If no key of the table has a point in it, such an
entry can only come from the member `parameter`, and what is left of its key is the way from there
to the leaf (`defaultsParameters_flattened`).  So the parameters of the file are the leaves below
that member: none gets lost, and each keeps its name.

The registration is carried out as a procedure that counts (`pushDefaults`), as the number of
parameters is told to the caller.
-/

namespace ChangelogParameters

/-! ### The member of the parameters -/

/-- The members of the member `parameter` of a table, if it is there and has members. -/
def Defaults.parameterMembers (table : List (String × Value)) : List (String × Value) :=
  (Value.lookup? "parameter" table).elim [] Value.members

/-- There are none unless the member is an object with members. -/
lemma Defaults.parameterMembers_eq_nil {table : List (String × Value)}
    (h : ∀ members, Value.lookup? "parameter" table = some (.object members) → members = []) :
    parameterMembers table = [] := by
  rw [parameterMembers]
  cases hv : Value.lookup? "parameter" table with
  | none => rfl
  | some v =>
    cases v with
    | object members => exact h members hv
    | _ => rfl

/-- In an ordered table they are those of an ordered object. -/
lemma Defaults.ordered_parameterMembers {table : List (String × Value)}
    (h : (Value.object table).Ordered) : (Value.object (parameterMembers table)).Ordered := by
  obtain ⟨hascending, hmembers⟩ := Value.ordered_object_iff.1 h
  rw [parameterMembers]
  cases hv : Value.lookup? "parameter" table with
  | none => exact Value.ordered_object_nil
  | some v => exact (hmembers _ (hascending.lookup?_eq_some_iff.1 hv)).members

/-! ### Buckets without parameters -/

/-- Where no bucket has a parameter, none is found. -/
lemma Buckets.get_eq_nil_of_size {buckets : Buckets} (h : buckets.size = 0) (scope : String) :
    buckets.get scope = [] := by
  induction buckets with
  | nil => rfl
  | cons bucket rest ih =>
    obtain ⟨s, parameters⟩ := bucket
    obtain ⟨hparameters, hrest⟩ := Nat.add_eq_zero_iff.1 h
    obtain rfl := List.eq_nil_of_length_eq_zero hparameters
    by_cases hscope : scope = s
    · simp [get, hscope]
    · simpa [get, List.lookup_cons, beq_false_of_ne hscope] using ih hrest

namespace Store

/-! ### Prefixes of keys -/

/-- A rest is left of a text exactly if the text is put together from the start and the rest. -/
lemma dropStart?_eq_some_iff {start s rest : String} :
    dropStart? start s = some rest ↔ s = start ++ rest := by
  rw [dropStart?]
  constructor
  · intro h
    split at h
    · next hprefix =>
      obtain ⟨behind, hbehind⟩ := List.isPrefixOf_iff_prefix.1 hprefix
      obtain rfl := Option.some.inj h
      apply String.toList_inj.1
      rw [← hbehind, String.toList_append, String.toList_ofList, ← String.length_toList,
        List.drop_left, hbehind]
    · cases h
  · rintro rfl
    rw [String.toList_append, if_pos (List.isPrefixOf_iff_prefix.2 (List.prefix_append _ _)),
      ← String.length_toList, List.drop_left, String.ofList_toList]

/-- What stands before the first point of a text is determined. -/
lemma eq_of_append_point_eq {before before' after after' : List Char} (hbefore : '.' ∉ before)
    (hbefore' : '.' ∉ before') (h : before ++ '.' :: after = before' ++ '.' :: after') :
    before = before' := by
  have hsplit : ∀ cs behind : List Char, '.' ∉ cs →
      (cs ++ '.' :: behind).takeWhile (· != '.') = cs := by
    intro cs behind hcs
    rw [List.takeWhile_append_of_pos (by simpa using fun c hc => ne_of_mem_of_not_mem hc hcs)]
    simp
  rw [← hsplit before after hbefore, h, hsplit before' after' hbefore']

/-- Of a dotted path whose first key has no point, the prefix of parameters leaves the rest of the
path if the first key is `parameter` and is not the last one, and otherwise nothing. -/
lemma dropStart?_intercalate {key : String} (hpoint : '.' ∉ key.toList) (path : List String) :
    dropStart? defaultsPrefix (".".intercalate (key :: path)) =
      if key = "parameter" ∧ path ≠ [] then some (".".intercalate path) else none := by
  have hprefix : defaultsPrefix = "parameter" ++ "." := rfl
  split
  · next h =>
    obtain ⟨rfl, hpath⟩ := h
    rw [dropStart?_eq_some_iff, String.intercalate_cons_of_ne_nil hpath, hprefix]
  · next h =>
    refine Option.eq_none_iff_forall_ne_some.2 fun rest hrest => ?_
    have hkey := congrArg String.toList (dropStart?_eq_some_iff.1 hrest)
    cases path with
    | nil =>
      refine hpoint ?_
      rw [String.intercalate_singleton] at hkey
      rw [hkey, hprefix]
      simp
    | cons next path =>
      rw [String.intercalate_cons_cons, hprefix] at hkey
      simp only [String.toList_append, List.append_assoc] at hkey
      have hparameter := eq_of_append_point_eq hpoint (by decide) hkey
      exact h ⟨String.toList_inj.1 hparameter, List.cons_ne_nil next path⟩

/-- The parameters among the flattened entries of one member. -/
lemma defaultsParameters_leaves {key : String} (hpoint : '.' ∉ key.toList) (v : Value) :
    defaultsParameters (v.leaves.map fun leaf => (".".intercalate (key :: leaf.1), leaf.2)) =
      if key = "parameter" then Value.flattened v.members else [] := by
  rw [defaultsParameters, List.filterMap_map]
  simp only [Function.comp_def, dropStart?_intercalate hpoint]
  by_cases hkey : key = "parameter"
  · by_cases hmembers : v.members = []
    · simp [Value.leaves_eq, hmembers, Value.flattened, Value.leavesOfMembers]
    · rw [Value.leaves_eq, if_neg hmembers, if_pos hkey, Value.flattened, ← List.filterMap_eq_map]
      refine List.filterMap_congr ?_
      rintro ⟨path, leaf⟩ hmem
      have hpath : path ≠ [] := (Value.mem_leavesOfMembers_iff.1 hmem).ne_nil
      simp [hkey, hpath]
  · simp [hkey]

/-- The parameters among the flattened entries of several members, member by member. -/
lemma defaultsParameters_flattened_eq_flatMap {members : List (String × Value)}
    (hpoints : ∀ member ∈ members, '.' ∉ member.1.toList) :
    defaultsParameters (Value.flattened members) = members.flatMap fun member =>
      if member.1 = "parameter" then Value.flattened member.2.members else [] := by
  rw [Value.flattened, Value.leavesOfMembers_eq_flatMap, List.map_flatMap, defaultsParameters,
    List.filterMap_flatMap]
  refine List.flatMap_congr fun member hmember => ?_
  rw [List.map_map]
  exact defaultsParameters_leaves (hpoints member hmember) member.2

/-- **Parameters are what stands below one member.**  If no key among the members has a point in it,
the parameters among the flattened entries are the flattened members of the member `parameter`. -/
lemma defaultsParameters_flattened {members : List (String × Value)}
    (hascending : Value.Ascending members)
    (hpoints : ∀ member ∈ members, '.' ∉ member.1.toList) :
    defaultsParameters (Value.flattened members) =
      Value.flattened (Defaults.parameterMembers members) := by
  rw [defaultsParameters_flattened_eq_flatMap hpoints,
    hascending.flatMap_eq_lookup? "parameter" fun v => Value.flattened v.members,
    Defaults.parameterMembers]
  cases Value.lookup? "parameter" members <;> rfl

/-- The parameters among the entries of the defaults that a table says are the leaves below its
member `parameter`. -/
lemma defaultsParameters_ofTable {table : List (String × Value)} {loaded : Defaults}
    (hascending : Value.Ascending table) (hpoints : ∀ member ∈ table, '.' ∉ member.1.toList)
    (hloaded : Defaults.ofTable table = .ok loaded) :
    defaultsParameters loaded.entries = Value.flattened (Defaults.parameterMembers table) := by
  have hascending' : Value.Ascending (Defaults.ordinaryMembers table) :=
    (hascending.filter _).filter _
  have hpoints' : ∀ member ∈ Defaults.ordinaryMembers table, '.' ∉ member.1.toList :=
    fun member hmember => hpoints member (List.mem_of_mem_filter (List.mem_of_mem_filter hmember))
  have hparameter : Value.lookup? "parameter" (Defaults.ordinaryMembers table) =
      Value.lookup? "parameter" table := by
    rw [Defaults.ordinaryMembers, Value.lookup?_without, Value.lookup?_without]
    rfl
  rw [Defaults.entries_of_ofTable hloaded, defaultsParameters_flattened hascending' hpoints',
    Defaults.parameterMembers, hparameter]
  rfl

/-! ### Registering and counting -/

/-- Registers those entries of a defaults file that are parameters, one after the other, and counts
them on from a number. -/
def pushDefaults : (entries : List (String × Value)) → (count : Nat) → Procedure Nat
  | [], count => pure count
  | (key, value) :: rest, count =>
    match dropStart? defaultsPrefix key with
    | some name => do
      pushGlobal name value .none
      pushDefaults rest (count + 1)
    | none => pushDefaults rest count

/-- Counting leaves the store as registering does, and arrives at the number of the parameters. -/
lemma run_pushDefaults (store : Store) (entries : List (String × Value)) (count : Nat) :
    (pushDefaults entries count).run store =
      .ok (count + (defaultsParameters entries).length) (store.setDefaults entries) := by
  induction entries generalizing store count with
  | nil => rfl
  | cons entry entries ih =>
    obtain ⟨key, value⟩ := entry
    cases hname : dropStart? defaultsPrefix key with
    | none =>
      rw [store.setDefaults_cons_of_none value entries hname]
      simp only [pushDefaults, hname, ih, defaultsParameters, List.filterMap_cons, Option.map_none]
    | some name =>
      rw [store.setDefaults_cons_of_some value entries hname]
      have hlength : (defaultsParameters ((key, value) :: entries)).length =
          (defaultsParameters entries).length + 1 := by
        simp [defaultsParameters, hname]
      simp only [pushDefaults, hname, EStateM.run_bind, pushGlobal, EStateM.run_modify]
      rw [ih, hlength, Nat.add_assoc, Nat.add_comm 1]
      rfl

/-! ### Empty stores -/

/-- Entries that are registered together in a store without parameters make up its global tier, and
the other tiers stay empty. -/
lemma tiers_setAll {store : Store} (hempty : store.size = 0) (entries : List (String × Value)) :
    (store.setAll entries).system = [] ∧
      (store.setAll entries).globals = entries.map .free ∧
      ∀ scope, (store.setAll entries).locals.get scope = [] := by
  have hsizes : (store.system.length = 0 ∧ store.globals.length = 0) ∧ store.locals.size = 0 := by
    simpa [size] using hempty
  obtain ⟨⟨hsystem, hglobals⟩, hlocals⟩ := hsizes
  have hregistrations : globalRegistrations entries =
      entries.map fun entry => ⟨.everywhere, .free entry⟩ := rfl
  rw [setAll_eq_addAll, hregistrations]
  refine ⟨?_, ?_, fun scope => ?_⟩
  · rw [addAll_system, List.eq_nil_of_length_eq_zero hsystem]
  · rw [addAll_globals, List.eq_nil_of_length_eq_zero hglobals, keptAt_map, if_pos rfl,
      List.nil_append]
  · rw [addAll_locals_get, Buckets.get_eq_nil_of_size hlocals, keptAt_map, if_neg (by simp),
      List.nil_append]

/-- A store without parameters resolves a key, after entries are registered together, to the first
value among the entries. -/
lemma resolve_setAll {store : Store} (hempty : store.size = 0) (entries : List (String × Value))
    {key : String} {position : Option Position} (hexecution : executionValue? key position = none) :
    (store.setAll entries).resolve key position = firstValue key entries := by
  obtain ⟨hsystem, hglobals, hlocals⟩ := tiers_setAll hempty entries
  have hfree : (store.setAll entries).Unrestricted := by
    refine ⟨?_, ?_, fun scope => ?_⟩
    · simp [hsystem]
    · rw [hglobals]
      exact List.forall_mem_map.2 fun _ _ => rfl
    · simp [hlocals scope]
  have hseen : (store.setAll entries).seen position = entries := by
    rw [seen_eq, hsystem, hglobals, map_binding_free]
    simp [hlocals]
  rw [hfree.resolve hexecution, hseen]

/-- **Parameters of defaults files.**  Let a table be ordered, as all tables that are read from
files are, and let none of its keys have a point in it.  Registering the parameters among the
entries of the table in an empty store counts the leaves below its member `parameter`; there are
none if the member is missing, is no table or has no members.  If the lower cases of their dotted
paths differ, each path is resolved to the value of its leaf, and whatever the paths are, no other
key is resolved. -/
theorem setDefaults_leaves {table : List (String × Value)} {loaded : Defaults} {store : Store}
    (hordered : (Value.object table).Ordered)
    (hpoints : ∀ member ∈ table, '.' ∉ member.1.toList)
    (hloaded : Defaults.ofTable table = .ok loaded) (hempty : store.size = 0) :
    ∃ count, (pushDefaults loaded.entries 0).run store =
        .ok count (store.setDefaults loaded.entries) ∧
      {leaf : List String × Value |
        Value.LeafBelow (Defaults.parameterMembers table) leaf.1 leaf.2}.encard = count ∧
      ((∀ members, Value.lookup? "parameter" table = some (.object members) → members = []) →
        count = 0) ∧
      ((∀ path path' leaf leaf', Value.LeafBelow (Defaults.parameterMembers table) path leaf →
          Value.LeafBelow (Defaults.parameterMembers table) path' leaf' →
            Text.lower (".".intercalate path) = Text.lower (".".intercalate path') →
              path = path') →
        ∀ path leaf, Value.LeafBelow (Defaults.parameterMembers table) path leaf →
          (store.setDefaults loaded.entries).resolve (".".intercalate path) none = some leaf) ∧
      ∀ key position, executionValue? key position = none →
        (∀ path leaf, Value.LeafBelow (Defaults.parameterMembers table) path leaf →
          keyMatches (".".intercalate path) key = false) →
        (store.setDefaults loaded.entries).resolve key position = none := by
  have hbelow := Defaults.ordered_parameterMembers hordered
  have hparameters :=
    defaultsParameters_ofTable (Value.ordered_object_iff.1 hordered).1 hpoints hloaded
  have hresolve : ∀ key position, executionValue? key position = none →
      (store.setDefaults loaded.entries).resolve key position =
        firstValue key (Value.flattened (Defaults.parameterMembers table)) := by
    intro key position hexecution
    rw [setDefaults, resolve_setAll hempty _ hexecution, hparameters]
  refine ⟨_, store.run_pushDefaults loaded.entries 0, ?_, ?_, ?_, ?_⟩
  · rw [Value.encard_leafBelow hbelow, hparameters, Value.flattened, List.length_map, Nat.zero_add]
  · intro hnone
    rw [hparameters, Defaults.parameterMembers_eq_nil hnone]
    rfl
  · intro hdistinct path leaf hleaf
    have hmem : (".".intercalate path, leaf) ∈
        Value.flattened (Defaults.parameterMembers table) :=
      List.mem_map.2 ⟨(path, leaf), Value.mem_leavesOfMembers_iff.2 hleaf, rfl⟩
    rw [hresolve _ none rfl]
    refine firstValue_eq_some_of_mem hmem (keyMatches_self _) ?_
    intro other hother hkey
    obtain ⟨⟨path', leaf'⟩, hmem', rfl⟩ := List.mem_map.1 hother
    have hleaf' := Value.mem_leavesOfMembers_iff.1 hmem'
    obtain rfl := hdistinct path' path leaf' leaf hleaf' hleaf (lower_eq_of_keyMatches hkey)
    exact hleaf'.unique hbelow hleaf
  · intro key position hexecution hother
    rw [hresolve key position hexecution, firstValue_eq_none_iff]
    intro entry hentry
    obtain ⟨⟨path, leaf⟩, hmem, rfl⟩ := List.mem_map.1 hentry
    exact hother path leaf (Value.mem_leavesOfMembers_iff.1 hmem)

/-- A file with an empty key, an empty table and a key that only resembles the prefix of parameters.
-/
theorem setDefaults_leaves_users :
    let text := "parameters = 1\n[parameter]\n\"\" = true\nPort = 80\n[parameter.none]\n" ++
      "[parameter.table]\nUsers = \"app\"\n"
    let below : List (String × Value) :=
      [("", .bool true), ("Port", .ofInt 80), ("none", .object []),
        ("table", .object [("Users", .string "app")])]
    let table : List (String × Value) := [("parameter", .object below), ("parameters", .ofInt 1)]
    let loaded : Defaults := { entries := Value.flattened table }
    let after := (build {}).setDefaults loaded.entries
    Defaults.Format.toml.parse? text = some (.object table) ∧
      Defaults.ofTable table = .ok loaded ∧
      {leaf : List String × Value | Value.LeafBelow below leaf.1 leaf.2}.encard = 4 ∧
      after.resolve "table.Users" none = some (.string "app") ∧
      after.resolve "" none = some (.bool true) ∧ after.resolve "s" none = none := by
  intro text below table loaded after
  have hparse : Defaults.Format.toml.parse? text = some (.object table) := by decide +kernel
  have hloaded : Defaults.ofTable table = .ok loaded := by decide +kernel
  have hpoints : ∀ member ∈ table, '.' ∉ member.1.toList := by decide +kernel
  have hbelow : Defaults.parameterMembers table = below := by decide +kernel
  have hlisted : ∀ leaf ∈ Value.leavesOfMembers below, ∀ leaf' ∈ Value.leavesOfMembers below,
      Text.lower (".".intercalate leaf.1) = Text.lower (".".intercalate leaf'.1) →
        leaf.1 = leaf'.1 := by
    decide +kernel
  have hother : ∀ leaf ∈ Value.leavesOfMembers below,
      keyMatches (".".intercalate leaf.1) "s" = false := by
    decide +kernel
  have hlength : (defaultsParameters loaded.entries).length = 4 := by decide +kernel
  obtain ⟨count, hrun, hcount, -, hresolve, habsent⟩ := setDefaults_leaves
    (Defaults.Format.ordered_parse? hparse) hpoints hloaded (rfl : (build {}).size = 0)
  rw [hbelow] at hcount hresolve habsent
  have hpath := hresolve fun path path' leaf leaf' hleaf hleaf' => hlisted (path, leaf)
    (Value.mem_leavesOfMembers_iff.2 hleaf) (path', leaf') (Value.mem_leavesOfMembers_iff.2 hleaf')
  have husers := hpath ["table", "Users"] (.string "app")
    (Value.mem_leavesOfMembers_iff.1 (by decide +kernel))
  have hnameless := hpath [""] (.bool true) (Value.mem_leavesOfMembers_iff.1 (by decide +kernel))
  have hname : ".".intercalate ["table", "Users"] = "table.Users" := by decide +kernel
  rw [hname] at husers
  rw [String.intercalate_singleton] at hnameless
  refine ⟨hparse, hloaded, ?_, husers, hnameless, ?_⟩
  · rw [run_pushDefaults, hlength] at hrun
    cases hrun
    exact hcount
  · exact habsent "s" none rfl fun path leaf hleaf =>
      hother (path, leaf) (Value.mem_leavesOfMembers_iff.2 hleaf)

end Store

end ChangelogParameters
