import ChangelogParameters.Proofs.Defaults.Flattening

/-!
# Names of scalars

The entries of a defaults file can be told apart by where they come from: of the leaves of its
table, those below a path are the leaves of the one value at the end of the path
(`filter_leavesOfMembers`).  For texts, numbers and truth values that is the value itself, so each
of them gives one entry with its own dotted name.

A moment is a scalar of TOML as well, but it arrives as an object with one member, and flattening
goes on into objects.  So it gives one entry too, which has the key of that member as a further part
of its name.
-/

namespace ChangelogParameters

namespace Value

/-! ### Values at paths -/

/-- A value at the end of a path of keys, whether it has members or not. -/
inductive At : List (String × Value) → List String → Value → Prop
  | here {below : List (String × Value)} {key : String} {v : Value} (hmem : (key, v) ∈ below) :
    At below [key] v
  | within {below : List (String × Value)} {key : String} {inner : Value} {path : List String}
    {v : Value} (hmem : (key, inner) ∈ below) (h : At inner.members path v) :
    At below (key :: path) v

/-- The first key of a path leads to the value, or into an object with the rest of the path. -/
lemma at_cons_iff {below : List (String × Value)} {key : String} {path : List String} {v : Value} :
    At below (key :: path) v ↔
      ∃ w, (key, w) ∈ below ∧ (path = [] ∧ v = w ∨ At w.members path v) := by
  constructor
  · rintro (hmem | ⟨hmem, h⟩)
    · exact ⟨v, hmem, .inl ⟨rfl, rfl⟩⟩
    · exact ⟨_, hmem, .inr h⟩
  · rintro ⟨w, hmem, ⟨rfl, rfl⟩ | h⟩
    · exact .here hmem
    · exact .within hmem h

lemma At.ne_nil {below : List (String × Value)} {path : List String} {v : Value}
    (h : At below path v) : path ≠ [] := by
  rintro rfl
  cases h

/-- There is something below which a path goes on. -/
lemma At.members_ne_nil {below : List (String × Value)} {path : List String} {v : Value}
    (h : At below path v) : below ≠ [] := by
  cases h with
  | here hmem => exact List.ne_nil_of_mem hmem
  | within hmem _ => exact List.ne_nil_of_mem hmem

/-- The keys of a path to a value are keys of members. -/
lemma At.keyBelow {below : List (String × Value)} {path : List String} {v : Value}
    (h : At below path v) {key : String} (hkey : key ∈ path) : KeyBelow key below := by
  induction h with
  | here hmem =>
    rw [List.mem_singleton.1 hkey]
    exact .here hmem
  | within hmem _ ih =>
    rcases List.mem_cons.1 hkey with rfl | hkey
    · exact .here hmem
    · exact .within hmem (ih hkey)

/-! ### Leaves below paths -/

/-- In ascending members the leaves below a path that begins with a key come from the one member
with the key. -/
lemma Ascending.filter_leavesOfMembers {below : List (String × Value)} (h : Ascending below)
    {key : String} {v : Value} (hmem : (key, v) ∈ below) (path : List String) :
    (leavesOfMembers below).filter (fun leaf => key :: path <+: leaf.1) =
      (v.leaves.filter fun leaf => path <+: leaf.1).map fun leaf => (key :: leaf.1, leaf.2) := by
  have hmember : ∀ member ∈ below,
      (member.2.leaves.map fun leaf => (member.1 :: leaf.1, leaf.2)).filter
          (fun leaf => key :: path <+: leaf.1) =
        if member.1 = key then
          (member.2.leaves.filter fun leaf => path <+: leaf.1).map fun leaf =>
            (key :: leaf.1, leaf.2)
        else [] := by
    rintro ⟨k, w⟩ -
    rw [List.filter_map]
    by_cases hkey : k = key
    · subst hkey
      simp [Function.comp_def]
    · simp [Function.comp_def, hkey, Ne.symm hkey]
  rw [leavesOfMembers_eq_flatMap, List.filter_flatMap, List.flatMap_congr hmember,
    h.flatMap_eq_lookup? key fun w =>
      (w.leaves.filter fun leaf => path <+: leaf.1).map fun leaf => (key :: leaf.1, leaf.2),
    h.lookup?_eq_some_iff.2 hmem]
  rfl

/-- **Leaves below a path.**  The leaves below a path are those of the value at its end, whatever
else there is in the ordered members. -/
lemma At.filter_leavesOfMembers {below : List (String × Value)} {path : List String} {v : Value}
    (hat : At below path v) (h : (object below).Ordered) :
    (leavesOfMembers below).filter (fun leaf => path <+: leaf.1) =
      v.leaves.map fun leaf => (path ++ leaf.1, leaf.2) := by
  induction hat with
  | here hmem =>
    rw [(ordered_object_iff.1 h).1.filter_leavesOfMembers hmem []]
    simp
  | @within below key inner path v hmem hat ih =>
    obtain ⟨hascending, hmembers⟩ := ordered_object_iff.1 h
    rw [hascending.filter_leavesOfMembers hmem path, leaves_eq, if_neg hat.members_ne_nil,
      ih (hmembers _ hmem).members, List.map_map]
    rfl

end Value

/-! ### Scalars -/

namespace Toml

/-- What is written in a document as one value without brackets. -/
inductive Scalar where
  | string (s : String)
  | bool (b : Bool)
  | number (n : Number)
  /-- An infinity or what is not a number. -/
  | noNumber
  /-- A date, a time of day or both. -/
  | moment (text : String)
deriving DecidableEq

namespace Scalar

/-- The value as which a scalar arrives. -/
def toValue : Scalar → Value
  | string s => .string s
  | bool b => .bool b
  | number n => .number n
  | noNumber => .null
  | moment text => .object [(momentKey, .string text)]

/-- The leaf of a scalar, with the keys that lead from the scalar to it. -/
def soleLeaf : Scalar → List String × Value
  | moment text => ([momentKey], .string text)
  | scalar => ([], scalar.toValue)

/-- A scalar has one leaf. -/
@[simp] lemma leaves_toValue (scalar : Scalar) : scalar.toValue.leaves = [scalar.soleLeaf] := by
  cases scalar <;> rfl

/-- All scalars but moments are leaves themselves. -/
lemma soleLeaf_eq {scalar : Scalar} (h : ∀ text, scalar ≠ moment text) :
    scalar.soleLeaf = ([], scalar.toValue) := by
  cases scalar with
  | moment text => exact absurd rfl (h text)
  | _ => rfl

end Scalar

/-- A document is a table. -/
lemma exists_table_of_parse? {text : String} {v : Value} (h : parse? text = some v) :
    ∃ table, v = .object table := by
  obtain ⟨statements, -, h⟩ := Option.bind_eq_some_iff.1 h
  obtain ⟨⟨path, root⟩, -, h⟩ := Option.bind_eq_some_iff.1 h
  cases h
  exact ⟨_, rfl⟩

end Toml

/-! ### Entries -/

namespace Defaults

/-- The name of an entry: the keys of a path with points between them. -/
def dotted (path : List String) : String := ".".intercalate path

/-- The entries of a table that come from what stands at a path: its leaves there, each under the
dotted path to it. -/
def entriesFrom (table : List (String × Value)) (path : List String) : List (String × Value) :=
  ((Value.leavesOfMembers (ordinaryMembers table)).filter fun leaf => path <+: leaf.1).map
    fun leaf => (dotted leaf.1, leaf.2)

/-- The name of a longer path goes on behind a point. -/
lemma dotted_append {path more : List String} (hpath : path ≠ []) (hmore : more ≠ []) :
    dotted (path ++ more) = dotted path ++ "." ++ dotted more :=
  String.intercalate_append_of_ne_nil hpath hmore

/-- A longer path has another name. -/
lemma dotted_append_ne {path more : List String} (hpath : path ≠ []) (hmore : more ≠ []) :
    dotted (path ++ more) ≠ dotted path := by
  intro h
  have hlength := congrArg String.length h
  rw [dotted_append hpath hmore, String.length_append, String.length_append] at hlength
  have hpoint : ".".length = 1 := rfl
  omega

/-- Paths without points in their keys are told apart by their names. -/
lemma dotted_inj {path path' : List String} (hne : path ≠ []) (hne' : path' ≠ [])
    (h : ∀ key ∈ path, '.' ∉ key.toList) (h' : ∀ key ∈ path', '.' ∉ key.toList) :
    dotted path = dotted path' ↔ path = path' :=
  ⟨Text.intercalate_inj rfl hne hne' h h', congrArg dotted⟩

/-- All entries of a table come from its ordinary members. -/
lemma entriesFrom_nil (table : List (String × Value)) :
    entriesFrom table [] = Value.flattened (ordinaryMembers table) := by
  simp [entriesFrom, Value.flattened, dotted]

/-- The entries that come from a path to an ordinary member are the leaves of the value at its
end. -/
lemma entriesFrom_of_at {table : List (String × Value)} (hordered : (Value.object table).Ordered)
    {path : List String} {v : Value} (hat : Value.At (ordinaryMembers table) path v) :
    entriesFrom table path = v.leaves.map fun leaf => (dotted (path ++ leaf.1), leaf.2) := by
  rw [entriesFrom, hat.filter_leavesOfMembers (ordered_ordinaryMembers hordered), List.map_map]
  rfl

/-- Where no key has a point in it, the entries with the name of a path come from this path. -/
lemma filter_entriesFrom_nil {table : List (String × Value)}
    (hpoints : ∀ key, Value.KeyBelow key table → '.' ∉ key.toList) {path : List String}
    (hne : path ≠ []) (hpath : ∀ key ∈ path, '.' ∉ key.toList) :
    (entriesFrom table []).filter (fun entry => entry.1 = dotted path) =
      (entriesFrom table path).filter fun entry => entry.1 = dotted path := by
  have hname : ∀ leaf ∈ Value.leavesOfMembers (ordinaryMembers table),
      (dotted leaf.1 = dotted path ↔ dotted leaf.1 = dotted path ∧ path <+: leaf.1) := by
    rintro ⟨path', leaf⟩ hmem
    have hleaf := Value.mem_leavesOfMembers_iff.1 hmem
    have hpath' : ∀ key ∈ path', '.' ∉ key.toList := fun key hkey =>
      hpoints key (keyBelow_of_ordinaryMembers (hleaf.keyBelow hkey))
    constructor
    · intro h
      obtain rfl := (dotted_inj hleaf.ne_nil hne hpath' hpath).1 h
      exact ⟨rfl, List.prefix_rfl⟩
    · exact And.left
  simp only [entriesFrom, List.nil_prefix, List.filter_map, List.filter_filter, Function.comp_def]
  refine congrArg _ (List.filter_congr fun leaf hmem => ?_)
  simpa using hname leaf hmem

/-- No key has a point in it if none on the way to a leaf has one. -/
lemma undotted_of_leaves {table : List (String × Value)} (h : (Value.object table).Ordered)
    (hleaves : ∀ leaf ∈ Value.leavesOfMembers table, ∀ key ∈ leaf.1, '.' ∉ key.toList) :
    ∀ key, Value.KeyBelow key table → '.' ∉ key.toList := by
  intro key hkey
  obtain ⟨path, leaf, hleaf, hmem⟩ := (Value.keyBelow_iff h).1 hkey
  exact hleaves (path, leaf) (Value.mem_leavesOfMembers_iff.2 hleaf) key hmem

/-- What stands below an ordinary member stands there among the ordinary ones too. -/
lemma at_ordinaryMembers {table : List (String × Value)} {key : String} {path : List String}
    {v : Value} (hdatabase : key ≠ databaseKey) (hmode : key ≠ missingModeKey)
    (hat : Value.At table (key :: path) v) : Value.At (ordinaryMembers table) (key :: path) v := by
  obtain ⟨w, hmem, h⟩ := Value.at_cons_iff.1 hat
  exact Value.at_cons_iff.2 ⟨w, mem_ordinaryMembers_iff.2 ⟨hmem, hdatabase, hmode⟩, h⟩

/-- A scalar below an ordinary member gives one entry. -/
lemma entriesFrom_toValue {table : List (String × Value)} (hordered : (Value.object table).Ordered)
    {path : List String} {scalar : Toml.Scalar}
    (hat : Value.At (ordinaryMembers table) path scalar.toValue) :
    entriesFrom table path = [(dotted (path ++ scalar.soleLeaf.1), scalar.soleLeaf.2)] := by
  rw [entriesFrom_of_at hordered hat, Toml.Scalar.leaves_toValue]
  rfl

/-- **Names of scalars.**  Let a defaults file in TOML be loaded.  Its entries are those that come
from its table.  A text, a number or a truth value below `parameter` gives exactly one entry, which
has its value and its dotted name.  A moment gives exactly one entry too, but one with a further key
behind its dotted name.  If no key in the file has a point in it, the first ones are the only
entries with their names, and there are none with the dotted names of moments. -/
theorem entriesFrom_scalar {file text : String} {loaded : Defaults}
    (hformat : Format.ofPath? file = some .toml) (hloaded : load file (some text) = .ok loaded) :
    ∃ table, Toml.parse? text = some (.object table) ∧ loaded.entries = entriesFrom table [] ∧
      ∀ (path : List String) (scalar : Toml.Scalar),
        Value.At table ("parameter" :: path) scalar.toValue →
          ((∀ moment, scalar ≠ .moment moment) →
            entriesFrom table ("parameter" :: path) =
                [(dotted ("parameter" :: path), scalar.toValue)] ∧
              ((∀ key, Value.KeyBelow key table → '.' ∉ key.toList) →
                loaded.entries.filter (fun entry => entry.1 = dotted ("parameter" :: path)) =
                  [(dotted ("parameter" :: path), scalar.toValue)])) ∧
          ∀ moment, scalar = .moment moment →
            entriesFrom table ("parameter" :: path) =
                [(dotted ("parameter" :: path) ++ "." ++ Toml.momentKey, .string moment)] ∧
              ((∀ key, Value.KeyBelow key table → '.' ∉ key.toList) →
                loaded.entries.filter (fun entry => entry.1 = dotted ("parameter" :: path)) =
                  []) := by
  obtain ⟨format, s, v, hknown, hs, hparse, hvalue⟩ := load_eq_ok_iff.1 hloaded
  obtain rfl := Option.some.inj hs
  obtain rfl := Option.some.inj (hformat.symm.trans hknown)
  obtain ⟨table, rfl⟩ := Toml.exists_table_of_parse? hparse
  have hordered : (Value.object table).Ordered := Toml.ordered_parse? hparse
  have hentries : loaded.entries = entriesFrom table [] := by
    rw [entriesFrom_nil]
    exact entries_of_ofTable hvalue
  refine ⟨table, hparse, hentries, fun path scalar hat => ?_⟩
  have hfrom := entriesFrom_toValue hordered
    (at_ordinaryMembers (by decide : "parameter" ≠ databaseKey) (by decide) hat)
  have hnamed : (∀ key, Value.KeyBelow key table → '.' ∉ key.toList) →
      loaded.entries.filter (fun entry => entry.1 = dotted ("parameter" :: path)) =
        (entriesFrom table ("parameter" :: path)).filter
          fun entry => entry.1 = dotted ("parameter" :: path) := by
    intro hpoints
    rw [hentries]
    exact filter_entriesFrom_nil hpoints hat.ne_nil fun key hkey => hpoints key (hat.keyBelow hkey)
  constructor
  · intro hmoment
    rw [Toml.Scalar.soleLeaf_eq hmoment, List.append_nil] at hfrom
    refine ⟨hfrom, fun hpoints => ?_⟩
    rw [hnamed hpoints, hfrom]
    simp
  · rintro moment rfl
    have hfurther : ([Toml.momentKey] : List String) ≠ [] := List.cons_ne_nil _ _
    refine ⟨?_, fun hpoints => ?_⟩
    · rw [hfrom, Toml.Scalar.soleLeaf, dotted_append hat.ne_nil hfurther]
      rfl
    · rw [hnamed hpoints, hfrom]
      simpa [Toml.Scalar.soleLeaf] using dotted_append_ne hat.ne_nil hfurther

/-- A file with a day and a number in one table and a text in a table inside it. -/
theorem entriesFrom_scalar_day :
    let text := "[parameter]\nday = 2024-02-29\nport = 80\n[parameter.table]\nusers = \"app\"\n"
    let day : Value := .object [("$__toml_private_datetime", .string "2024-02-29")]
    let table : List (String × Value) :=
      [("parameter", .object [("day", day), ("port", .ofInt 80),
        ("table", .object [("users", .string "app")])])]
    let entries : List (String × Value) :=
      [("parameter.day.$__toml_private_datetime", .string "2024-02-29"),
        ("parameter.port", .ofInt 80), ("parameter.table.users", .string "app")]
    Format.ofPath? "d.toml" = some .toml ∧ load "d.toml" (some text) = .ok { entries } ∧
      Toml.parse? text = some (.object table) ∧
      Value.At table ["parameter", "table", "users"] (.string "app") ∧
      Value.At table ["parameter", "day"] day ∧
      entriesFrom table ["parameter", "table", "users"] =
        [("parameter.table.users", .string "app")] ∧
      entries.filter (fun entry => entry.1 = "parameter.table.users") =
        [("parameter.table.users", .string "app")] ∧
      entriesFrom table ["parameter", "day"] =
        [("parameter.day.$__toml_private_datetime", .string "2024-02-29")] ∧
      entries.filter (fun entry => entry.1 = "parameter.day") = [] := by
  intro text day table entries
  have hformat : Format.ofPath? "d.toml" = some .toml := by decide +kernel
  have hloaded : load "d.toml" (some text) = .ok { entries } := by decide +kernel
  have hparse : Toml.parse? text = some (.object table) := by decide +kernel
  have hinner : ("table", Value.object [("users", .string "app")]) ∈
      [("day", day), ("port", .ofInt 80), ("table", .object [("users", .string "app")])] := by
    decide +kernel
  have husers : Value.At table ["parameter", "table", "users"] (.string "app") :=
    .within List.mem_cons_self (.within hinner (.here List.mem_cons_self))
  have hday : Value.At table ["parameter", "day"] day :=
    .within List.mem_cons_self (.here List.mem_cons_self)
  have hpoints : ∀ key, Value.KeyBelow key table → '.' ∉ key.toList :=
    undotted_of_leaves (Toml.ordered_parse? hparse) (by decide +kernel)
  have hnameUsers : dotted ["parameter", "table", "users"] = "parameter.table.users" := by
    decide +kernel
  have hnameDay : dotted ["parameter", "day"] = "parameter.day" := by decide +kernel
  obtain ⟨table', hparse', -, hnames⟩ := entriesFrom_scalar hformat hloaded
  obtain rfl : table = table' := by simpa [hparse] using hparse'
  obtain ⟨hfromUsers, hnamedUsers⟩ :=
    (hnames ["table", "users"] (.string "app") husers).1 fun moment => by rintro ⟨⟩
  obtain ⟨hfromDay, hnamedDay⟩ := (hnames ["day"] (.moment "2024-02-29") hday).2 _ rfl
  have hnamedUsers := hnamedUsers hpoints
  have hnamedDay := hnamedDay hpoints
  rw [hnameUsers] at hfromUsers hnamedUsers
  rw [hnameDay] at hfromDay hnamedDay
  exact ⟨hformat, hloaded, hparse, husers, hday, hfromUsers, hnamedUsers, hfromDay, hnamedDay⟩

/-- It is not so that every scalar keeps its dotted name: a day does not. -/
theorem not_named_moment :
    ¬ ∀ (file text : String) (loaded : Defaults) (table : List (String × Value))
      (path : List String) (scalar : Toml.Scalar), Format.ofPath? file = some .toml →
        load file (some text) = .ok loaded → Toml.parse? text = some (.object table) →
        (∀ key, Value.KeyBelow key table → '.' ∉ key.toList) →
        Value.At table ("parameter" :: path) scalar.toValue →
          ∃ v, entriesFrom table ("parameter" :: path) =
            [(dotted ("parameter" :: path), v)] := by
  intro h
  let text := "[parameter]\nday = 2024-02-29\n"
  let day : Value := .object [("$__toml_private_datetime", .string "2024-02-29")]
  let table : List (String × Value) := [("parameter", .object [("day", day)])]
  let loaded : Defaults :=
    { entries := [("parameter.day.$__toml_private_datetime", .string "2024-02-29")] }
  have hloaded : load "d.toml" (some text) = .ok loaded := by decide +kernel
  have hparse : Toml.parse? text = some (.object table) := by decide +kernel
  have hday : Value.At table ["parameter", "day"] day :=
    .within List.mem_cons_self (.here List.mem_cons_self)
  have hfrom : entriesFrom table ["parameter", "day"] = loaded.entries := by decide +kernel
  obtain ⟨v, hv⟩ := h "d.toml" text loaded table ["day"] (.moment "2024-02-29") (by decide +kernel)
    hloaded hparse (undotted_of_leaves (Toml.ordered_parse? hparse) (by decide +kernel)) hday
  have hname : "parameter.day.$__toml_private_datetime" = dotted ["parameter", "day"] := by
    simpa [loaded] using congrArg (List.map Prod.fst) (hfrom.symm.trans hv)
  exact absurd hname (by decide +kernel)

end Defaults

end ChangelogParameters
