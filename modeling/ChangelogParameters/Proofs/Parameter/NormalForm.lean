import ChangelogParameters.Proofs.Text.NormalForm
import ChangelogParameters.Tag.Stored
import Mathlib.Data.List.Nodup

/-!
# Names and targets in normal form

Names of contexts and of labels and the short names of databases are compared in lower case, and
the sets that hold them are meant to hold nothing else.  Names that are given by hand, one by one
or in a text, are normalised on their way into a set.  But a set can also be read from a value, and
then its members are what the value says.

`canonical_iff_of_source` goes through all the ways in which a set can be obtained.  What is given
by hand always is in normal form; what is read from a value is so exactly if the value has it in
normal form already, as it has if it was written from a set that was given by hand.
-/

namespace ChangelogParameters

/-! ### Sets of names -/

namespace Names

/-- Sets with the same members are equal. -/
lemma eq_of_mem_iff {names names' : Names}
    (h : ∀ name, name ∈ names.toList ↔ name ∈ names'.toList) : names = names' := by
  have hnodup : ∀ names : Names, names.toList.Nodup := by
    intro names
    refine names.sorted.imp ?_
    rintro a b hlt rfl
    exact String.lt_irrefl a hlt
  have hperm : names.toList.Perm names'.toList :=
    (List.perm_ext_iff_of_nodup (hnodup names) (hnodup names')).2 h
  have hlists : names.toList = names'.toList := by
    refine hperm.eq_of_pairwise ?_ names.sorted names'.sorted
    intro a b _ _ hab hba
    exact absurd (String.lt_trans hab hba) (String.lt_irrefl a)
  obtain ⟨list, hsorted⟩ := names
  obtain ⟨list', hsorted'⟩ := names'
  obtain rfl : list = list' := hlists
  rfl

/-- A set is made up again from the list of its members. -/
lemma ofList_toList (names : Names) : ofList names.toList = names :=
  eq_of_mem_iff fun _ => mem_ofList

/-- The members of a set of names given one by one are the normal forms of these that are not
empty. -/
lemma mem_ofTexts {name : String} {texts : List String} :
    name ∈ (ofTexts texts).toList ↔ name ≠ "" ∧ ∃ text ∈ texts, normalize text = name := by
  rw [ofTexts, mem_ofList, List.mem_filter, List.mem_map, decide_eq_true_eq, and_comm]

/-- Names that are given one by one are kept in normal form. -/
lemma isNormal_of_mem_ofTexts {name : String} {texts : List String}
    (h : name ∈ (ofTexts texts).toList) : Text.IsNormal name := by
  obtain ⟨hne, text, -, rfl⟩ := mem_ofTexts.1 h
  exact Text.isNormal_lower_trim hne

/-- A set is in canonical form if its members are in normal form and are found in it. -/
structure Canonical (names : Names) : Prop where
  normal : ∀ name ∈ names.toList, Text.IsNormal name
  contains : ∀ name ∈ names.toList, names.contains name = true

/-- Members in normal form are found. -/
lemma canonical_of_normal {names : Names} (h : ∀ name ∈ names.toList, Text.IsNormal name) :
    names.Canonical := by
  refine ⟨h, ?_⟩
  intro name hname
  rw [Names.contains, (h name hname).lowered, holds_iff]
  exact hname

/-- Where a set of names comes from. -/
inductive Source where
  /-- There are no names. -/
  | nothing
  /-- A comma separated text. -/
  | text (s : String)
  /-- Names that are given one by one. -/
  | listed (texts : List String)
  /-- A value in which a set is stored. -/
  | stored (v : Value)

/-- The set that comes from a source; there is none if a value stores something else. -/
def Source.names? : Source → Option Names
  | nothing => some .empty
  | text s => some (.parse s)
  | listed texts => some (.ofTexts texts)
  | stored v => Names.ofValue? v

end Names

/-! ### Stored strings -/

namespace Value

/-- The texts of items are some strings if the items are these strings. -/
lemma mapM_string?_eq_some_iff {items : List Value} {strings : List String} :
    items.mapM string? = some strings ↔ items = strings.map .string := by
  induction items generalizing strings with
  | nil => cases strings <;> simp
  | cons item items ih =>
    cases strings with
    | nil => simp [Option.bind_eq_some_iff]
    | cons s strings =>
      have hitem : item.string? = some s ↔ item = .string s := by cases item <;> simp [string?]
      simp [Option.bind_eq_some_iff, ih, hitem]

/-- A value has the texts of strings if it is the array of these strings. -/
lemma strings?_eq_some_iff {v : Value} {strings : List String} :
    v.strings? = some strings ↔ v = .array (strings.map .string) := by
  cases v with
  | array items => rw [strings?, mapM_string?_eq_some_iff, array.injEq]
  | _ => simp [strings?]

/-- An alternative is written as its name, or as an object with its name as the only key. -/
lemma alternative?_eq_some_iff {v : Value} {name : String} {given : Option Value} :
    v.alternative? = some (name, given) ↔
      v = .string name ∧ given = none ∨ ∃ x, v = .object [(name, x)] ∧ given = some x := by
  cases v with
  | string s => simp [alternative?, eq_comm]
  | object members =>
    rcases members with _ | ⟨⟨k, x⟩, _ | ⟨_, _⟩⟩
    · simp [alternative?]
    · simp [alternative?, eq_comm]
    · simp [alternative?]
  | _ => simp [alternative?]

/-- Nothing is given exactly if there is no value or the value is null. -/
lemma nothingGiven_iff {given : Option Value} :
    nothingGiven given = true ↔ given = none ∨ given = some .null := by
  cases given with
  | none => simp [nothingGiven]
  | some v => cases v <;> simp [nothingGiven, isNull]

end Value

/-- The values in which a set of names is stored are the arrays of strings, whatever the strings. -/
lemma Names.ofValue?_eq_some_iff {v : Value} {names : Names} :
    ofValue? v = some names ↔ ∃ strings : List String,
      v = .array (strings.map .string) ∧ ofList strings = names := by
  simp only [ofValue?, Option.map_eq_some_iff, Value.strings?_eq_some_iff]

/-- A set of names is in canonical form exactly if the strings that were stored for it are in normal
form, should there have been any. -/
lemma Names.canonical_iff_of_names? {source : Source} {names : Names}
    (h : source.names? = some names) :
    names.Canonical ↔ ∀ strings : List String,
      source = .stored (.array (strings.map .string)) → ∀ s ∈ strings, Text.IsNormal s := by
  have hgiven : ∀ texts, ofTexts texts = names → names.Canonical := by
    rintro texts rfl
    exact canonical_of_normal fun name hname => isNormal_of_mem_ofTexts hname
  cases source with
  | nothing =>
    have hnames : ofTexts [] = names := Option.some.inj h
    simp [hgiven [] hnames]
  | text s =>
    have hnames : ofTexts (Text.commaSeparated s) = names := Option.some.inj h
    simp [hgiven (Text.commaSeparated s) hnames]
  | listed texts =>
    have hnames : ofTexts texts = names := Option.some.inj h
    simp [hgiven texts hnames]
  | stored v =>
    obtain ⟨strings, rfl, rfl⟩ := ofValue?_eq_some_iff.1 h
    constructor
    · rintro hcanonical strings' hstrings s hs
      have hmap := Value.array.inj (Source.stored.inj hstrings)
      obtain rfl := (List.map_inj_right fun _ _ => Value.string.inj).1 hmap
      exact hcanonical.normal s (mem_ofList.2 hs)
    · intro hnormal
      exact canonical_of_normal fun name hname => hnormal strings rfl name (mem_ofList.1 hname)

/-- A set of names that was stored is read again. -/
lemma Names.ofValue?_toValue (names : Names) : ofValue? names.toValue = some names :=
  ofValue?_eq_some_iff.2 ⟨names.toList, rfl, names.ofList_toList⟩

/-- The values in which targets are stored are the name for all databases and the objects with a
list of strings, whatever the strings. -/
lemma Targets.ofValue?_eq_some_iff {v : Value} {targets : Targets} :
    ofValue? v = some targets ↔
      (v = .string "Any" ∨ v = .object [("Any", .null)]) ∧ targets = any ∨
      ∃ strings : List String, v = .object [("Only", .array (strings.map .string))] ∧
        targets = only strings := by
  constructor
  · intro h
    unfold ofValue? at h
    split at h
    case h_1 given halternative =>
      left
      split at h
      case isTrue hnothing =>
        refine ⟨?_, (Option.some.inj h).symm⟩
        rcases Value.alternative?_eq_some_iff.1 halternative with ⟨hv, -⟩ | ⟨x, hv, hgiven⟩
        · exact .inl hv
        · rcases Value.nothingGiven_iff.1 hnothing with hnone | hnull
          · rw [hnone] at hgiven
            cases hgiven
          · rw [hnull] at hgiven
            obtain rfl := Option.some.inj hgiven
            exact .inr hv
      case isFalse => cases h
    case h_2 given halternative =>
      right
      obtain ⟨strings, hstrings, rfl⟩ := Option.map_eq_some_iff.1 h
      refine ⟨strings, ?_, rfl⟩
      rcases Value.alternative?_eq_some_iff.1 halternative with ⟨-, hnone⟩ | ⟨x, hv, hgiven⟩
      · cases hnone
      · obtain rfl := Option.some.inj hgiven
        rw [hv, Value.strings?_eq_some_iff.1 hstrings]
    case h_3 => cases h
  · rintro (⟨rfl | rfl, rfl⟩ | ⟨strings, rfl, rfl⟩)
    · rfl
    · rfl
    · have hstrings : (Value.array (strings.map .string)).strings? = some strings :=
        Value.strings?_eq_some_iff.2 rfl
      simp [ofValue?, Value.alternative?, hstrings]

/-! ### Target databases -/

namespace Targets

/-- The names that are kept in the end are those that were kept before and those that are added, the
empty one apart. -/
lemma mem_foldl_addName {name : String} {names kept : List String} :
    name ∈ names.foldl addName kept ↔ name ∈ kept ∨ name ≠ "" ∧ name ∈ names := by
  induction names generalizing kept with
  | nil => simp
  | cons n names ih =>
    rw [List.foldl_cons, ih, List.mem_cons, addName]
    by_cases hname : name = n
    · subst hname
      split
      case isTrue h => tauto
      case isFalse h => simp; tauto
    · split
      case isTrue h => tauto
      case isFalse h => simp [hname]

/-- No name is kept twice. -/
lemma nodup_foldl_addName {names kept : List String} (h : kept.Nodup) :
    (names.foldl addName kept).Nodup := by
  induction names generalizing kept with
  | nil => exact h
  | cons n names ih =>
    rw [List.foldl_cons]
    refine ih ?_
    rw [addName]
    split
    case isTrue => exact h
    case isFalse hn =>
      have hfresh : ∀ name ∈ kept, name ≠ n := by
        rintro name hname rfl
        exact hn (.inr hname)
      simpa [List.nodup_append, h] using hfresh

/-- Different names that are not empty are kept as they are. -/
lemma foldl_addName_of_nodup {names kept : List String} (hnodup : (kept ++ names).Nodup)
    (hne : "" ∉ names) : names.foldl addName kept = kept ++ names := by
  induction names generalizing kept with
  | nil => simp
  | cons n names ih =>
    have hn : ¬ (n = "" ∨ n ∈ kept) := by
      rintro (rfl | hmem)
      · exact hne (List.mem_cons_self ..)
      · exact (List.nodup_append.1 hnodup).2.2 n hmem n (List.mem_cons_self ..) rfl
    rw [List.append_cons] at hnodup
    rw [List.foldl_cons, addName, if_neg hn, List.append_cons kept n names]
    exact ih hnodup fun hmem => hne (List.mem_cons_of_mem n hmem)

/-- The names of targets that are given one by one. -/
lemma names_ofTexts (texts : List String) :
    (ofTexts texts).names = (texts.map normalize).foldl addName [] := by
  unfold ofTexts
  split
  case h_1 hnil => rw [hnil]; rfl
  case h_2 => rfl

/-- The names of targets that are given one by one are the normal forms of these that are not
empty. -/
lemma mem_names_ofTexts {name : String} {texts : List String} :
    name ∈ (ofTexts texts).names ↔ name ≠ "" ∧ ∃ text ∈ texts, normalize text = name := by
  simp [names_ofTexts, mem_foldl_addName]

/-- Targets that are given one by one are kept in normal form. -/
lemma isNormal_of_mem_names_ofTexts {name : String} {texts : List String}
    (h : name ∈ (ofTexts texts).names) : Text.IsNormal name := by
  obtain ⟨hne, text, -, rfl⟩ := mem_names_ofTexts.1 h
  exact Text.isNormal_lower_trim hne

lemma nodup_names_ofTexts (texts : List String) : (ofTexts texts).names.Nodup := by
  rw [names_ofTexts]
  exact nodup_foldl_addName List.nodup_nil

/-- Targets that are given one by one never have an empty list of names. -/
lemma ofTexts_ne_only_nil (texts : List String) : ofTexts texts ≠ only [] := by
  unfold ofTexts
  split
  case h_1 => simp
  case h_2 hne => simpa using hne

/-- A list of names is in canonical form if it is not empty, names nothing twice, and has no blank
names and only lower-cased ones. -/
structure CanonicalList (names : List String) : Prop where
  ne_nil : names ≠ []
  nodup : names.Nodup
  not_blank : ∀ name ∈ names, Text.isBlankText name = false
  lowered : ∀ name ∈ names, Text.lower name = name

/-- Targets are in canonical form if their list of names is, should they have one. -/
def Canonical (targets : Targets) : Prop :=
  ∀ names, targets = only names → CanonicalList names

/-- Targets that are given one by one are in canonical form. -/
lemma canonical_ofTexts (texts : List String) : (ofTexts texts).Canonical := by
  intro names hnames
  have hnormal : ∀ name ∈ names, Text.IsNormal name := by
    intro name hname
    have hmem : name ∈ (ofTexts texts).names := by rwa [hnames]
    exact isNormal_of_mem_names_ofTexts hmem
  have hnodup := nodup_names_ofTexts texts
  rw [hnames] at hnodup
  refine ⟨?_, hnodup, fun name hname => (hnormal name hname).not_blank,
    fun name hname => (hnormal name hname).lowered⟩
  rintro rfl
  exact ofTexts_ne_only_nil texts hnames

/-- Where targets come from. -/
inductive Source where
  /-- There are no targets. -/
  | nothing
  /-- A comma separated text. -/
  | text (s : String)
  /-- Names that are given one by one. -/
  | listed (texts : List String)
  /-- A value in which targets are stored. -/
  | stored (v : Value)

/-- The targets that come from a source; there are none if a value stores something else. -/
def Source.targets? : Source → Option Targets
  | nothing => some default
  | text s => some (.parse s)
  | listed texts => some (.ofTexts texts)
  | stored v => Targets.ofValue? v

/-- Targets are in canonical form exactly if the list that was stored for them was, should there
have been one. -/
lemma canonical_iff_of_targets? {source : Source} {targets : Targets}
    (h : source.targets? = some targets) :
    targets.Canonical ↔ ∀ strings : List String,
      source = .stored (.object [("Only", .array (strings.map .string))]) →
        CanonicalList strings := by
  cases source with
  | nothing =>
    obtain rfl : any = targets := Option.some.inj h
    simp [Canonical]
  | text s =>
    obtain rfl : parse s = targets := Option.some.inj h
    simp [parse, canonical_ofTexts]
  | listed texts =>
    obtain rfl : ofTexts texts = targets := Option.some.inj h
    simp [canonical_ofTexts]
  | stored v =>
    rcases ofValue?_eq_some_iff.1 h with ⟨hv, rfl⟩ | ⟨strings, rfl, rfl⟩
    · rcases hv with rfl | rfl <;> simp [Canonical]
    · have hsame : ∀ strings' : List String,
          strings.map Value.string = strings'.map .string ↔ strings = strings' :=
        fun _ => List.map_inj_right fun _ _ => Value.string.inj
      simp [Canonical, hsame]

/-- Targets that were stored are read again. -/
lemma ofValue?_toValue (targets : Targets) : ofValue? targets.toValue = some targets := by
  rw [ofValue?_eq_some_iff]
  cases targets with
  | any => exact .inl ⟨.inl rfl, rfl⟩
  | only names => exact .inr ⟨names, rfl, rfl⟩

end Targets

/-! ### What is in canonical form -/

/-- **What sets hold.**  Sets of names and targets that are given by hand are in canonical form:
there are no names but trimmed, lower-cased ones that are not blank, they are found in their set,
and targets have a list of names only if there are any, none of them twice.  A value is taken as it
is, so what is read from it is in canonical form exactly if the strings in it are.  Whatever is
written is read again, and so what was given by hand stays in canonical form when it is stored. -/
theorem canonical_iff_of_source (source : Names.Source) (targetSource : Targets.Source) :
    (∀ names, source.names? = some names →
      (names.Canonical ↔ ∀ strings : List String,
        source = .stored (.array (strings.map .string)) → ∀ s ∈ strings, Text.IsNormal s) ∧
      Names.ofValue? names.toValue = some names) ∧
    ∀ targets, targetSource.targets? = some targets →
      (targets.Canonical ↔ ∀ strings : List String,
        targetSource = .stored (.object [("Only", .array (strings.map .string))]) →
          Targets.CanonicalList strings) ∧
      Targets.ofValue? targets.toValue = some targets := by
  constructor
  · intro names hnames
    exact ⟨Names.canonical_iff_of_names? hnames, names.ofValue?_toValue⟩
  · intro targets htargets
    exact ⟨Targets.canonical_iff_of_targets? htargets, targets.ofValue?_toValue⟩

/-- A context that is stored in capitals stays in capitals when it is read, and is not found. -/
theorem not_canonical_stored :
    ¬ ((∀ (source : Names.Source) (names : Names), source.names? = some names →
        names.Canonical) ∧
      ∀ (source : Targets.Source) (targets : Targets), source.targets? = some targets →
        targets.Canonical) := by
  rintro ⟨hnames, -⟩
  have hcanonical := hnames (.stored (.array [.string "PROD"])) (.ofList ["PROD"]) rfl
  have hcontains := hcanonical.contains "PROD" (by decide)
  exact absurd hcontains (by decide +kernel)

end ChangelogParameters
