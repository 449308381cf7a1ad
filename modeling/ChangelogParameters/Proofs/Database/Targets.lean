import ChangelogParameters.Proofs.Parameter.NormalForm
import Mathlib.Data.Set.Insert

/-!
# Lists of databases as sets

Target databases are given as a list of names, but nothing depends on their order, on repetitions,
on blank names or on the case and the padding of a name: the list stands for the set of its members.
`Allows` says by which rules such a set accepts a database, and `accepts_ofTexts_iff` that a list
follows these rules.

One more exclusion takes one database away from those that are accepted, whatever else is in the
list (`allows_insert_excluding_iff`).  This goes through two changes of the rules that are applied:
the first name at all turns a list that restricts nothing into one that does, and a list of
exclusions alone accepts what it does not name.
-/

namespace ChangelogParameters.Targets

/-! ### Members -/

/-- The members of a list of names: the normal forms that are not empty. -/
def members (texts : List String) : Set String :=
  {name | name ≠ "" ∧ ∃ text ∈ texts, normalize text = name}

/-- The members are the names that are kept. -/
lemma mem_members_iff {name : String} {texts : List String} :
    name ∈ members texts ↔ name ∈ (ofTexts texts).names :=
  mem_names_ofTexts.symm

instance (name : String) (texts : List String) : Decidable (name ∈ members texts) :=
  decidable_of_iff _ mem_names_ofTexts

/-- A list of names has one more member if a name in normal form is put into it. -/
lemma members_insert {name : String} (hne : name ≠ "") (hnormal : normalize name = name)
    (before after : List String) :
    members (before ++ name :: after) = insert name (members (before ++ after)) := by
  ext member
  simp only [members, Set.mem_ofPred_eq, Set.mem_insert_iff, List.mem_append, List.mem_cons]
  constructor
  · rintro ⟨hmember, text, htext | rfl | htext, rfl⟩
    · exact .inr ⟨hmember, text, .inl htext, rfl⟩
    · exact .inl hnormal
    · exact .inr ⟨hmember, text, .inr htext, rfl⟩
  · rintro (rfl | ⟨hmember, text, htext, rfl⟩)
    · exact ⟨hne, member, .inr (.inl rfl), hnormal⟩
    · exact ⟨hmember, text, htext.imp_right .inr, rfl⟩

/-! ### The rules on sets of names -/

/-- The rules by which a set of names in normal form accepts a database in normal form. -/
inductive Allows (names : Set String) (database : String) : Prop
  /-- There are no names. -/
  | unrestricted (h : names = ∅)
  /-- All databases are named. -/
  | all (h : allKeyword ∈ names)
  /-- There are exclusions only, and the database is not excluded. -/
  | spared (hnone : noneKeyword ∉ names) (hnot : excluding database ∉ names)
    (hexclusions : ∀ name ∈ names, isExclusion name = true)
  /-- The database is named and is not excluded. -/
  | named (hnone : noneKeyword ∉ names) (hnot : excluding database ∉ names)
    (hmem : database ∈ names) (hincluded : isExclusion database = false)

/-- Several names in a list accept a database by these rules. -/
lemma acceptsAmong_iff {names : List String} (hne : names ≠ []) {database : String} :
    acceptsAmong names database = true ↔ Allows {name | name ∈ names} database := by
  constructor
  · intro h
    rw [acceptsAmong] at h
    split at h
    case isTrue hall => exact .all (List.contains_iff_mem.1 hall)
    case isFalse =>
      split at h
      case isTrue => cases h
      case isFalse hnone =>
        split at h
        case isTrue => cases h
        case isFalse hnot =>
          have hnone : noneKeyword ∉ names := fun hmem => hnone (List.contains_iff_mem.2 hmem)
          have hnot : excluding database ∉ names := fun hmem => hnot (List.contains_iff_mem.2 hmem)
          rcases Bool.or_eq_true_iff.1 h with hempty | hmem
          · exact .spared hnone hnot (by simpa [included] using hempty)
          · obtain ⟨hmem, hincluded⟩ := List.mem_filter.1 (List.contains_iff_mem.1 hmem)
            exact .named hnone hnot hmem (by simpa using hincluded)
  · intro h
    by_cases hall : allKeyword ∈ names
    · simp [acceptsAmong, hall]
    · cases h with
      | unrestricted h =>
        obtain ⟨name, rest, rfl⟩ := List.exists_cons_of_ne_nil hne
        exact absurd (h ▸ List.mem_cons_self : name ∈ (∅ : Set String)) (Set.notMem_empty name)
      | all h => exact absurd h hall
      | spared hnone hnot hexclusions =>
        rw [Set.mem_ofPred_eq] at hnone hnot
        have hempty : included names = [] := by simpa [included] using hexclusions
        simp [acceptsAmong, hall, hnone, hnot, hempty]
      | named hnone hnot hmem hincluded =>
        rw [Set.mem_ofPred_eq] at hnone hnot
        have hkept : database ∈ included names := List.mem_filter.2 ⟨hmem, by simp [hincluded]⟩
        simp [acceptsAmong, hall, hnone, hnot, hkept]

/-- Targets that are given one by one are in normal form already when they are compared. -/
lemma map_normalize_names_ofTexts (texts : List String) :
    (ofTexts texts).names.map normalize = (ofTexts texts).names := by
  refine (List.map_congr_left ?_).trans (List.map_id _)
  intro name hname
  exact (Text.isNormal_iff.1 (isNormal_of_mem_names_ofTexts hname)).2

/-- **Lists accept as sets.**  A list of names accepts a database by the rules on the set of its
members. -/
lemma accepts_ofTexts_iff {texts : List String} {database : String} :
    (ofTexts texts).accepts database = true ↔ Allows (members texts) (normalize database) := by
  have hmembers : members texts = {name | name ∈ (ofTexts texts).names} :=
    Set.ext fun name => mem_members_iff
  rw [accepts, map_normalize_names_ofTexts, hmembers]
  by_cases hnames : (ofTexts texts).names = []
  · simp only [hnames, List.isEmpty_nil, Bool.true_or, true_iff]
    exact .unrestricted (by simp)
  · rw [← acceptsAmong_iff hnames, List.isEmpty_eq_false_iff.2 hnames, Bool.false_or]

/-! ### Exclusions -/

/-- An exclusion is recognised as one. -/
lemma isExclusion_excluding (database : String) : isExclusion (excluding database) = true := by
  simp [isExclusion, excluding]

/-- An exclusion is no keyword. -/
lemma excluding_ne {database keyword : String} (hkeyword : isExclusion keyword = false) :
    excluding database ≠ keyword := by
  rintro rfl
  rw [isExclusion_excluding] at hkeyword
  cases hkeyword

/-- Different databases have different exclusions. -/
lemma excluding_inj : Function.Injective excluding := by
  intro database database' h
  simpa [excluding] using h

/-- An exclusion takes one database away from those that a set of names accepts, unless the set
names all of them. -/
lemma allows_insert_excluding_iff {names : Set String} (hall : allKeyword ∉ names)
    {excluded database : String} :
    Allows (insert (excluding excluded) names) database ↔
      Allows names database ∧ database ≠ excluded := by
  have hkeyword : excluding excluded ≠ allKeyword := excluding_ne (by decide)
  have hnone : noneKeyword ∈ insert (excluding excluded) names ↔ noneKeyword ∈ names :=
    ⟨fun h => h.resolve_left (excluding_ne (by decide)).symm, .inr⟩
  have hnot : excluding database ∉ insert (excluding excluded) names ↔
      excluding database ∉ names ∧ database ≠ excluded := by
    rw [Set.mem_insert_iff, not_or, and_comm]
    exact and_congr_right fun _ => excluding_inj.eq_iff.not
  constructor
  · intro h
    cases h with
    | unrestricted hempty => exact absurd hempty (Set.insert_nonempty _ _).ne_empty
    | all hmem => exact absurd (hmem.resolve_left hkeyword.symm) hall
    | spared hnone' hnot' hexclusions =>
      obtain ⟨hnot', hne⟩ := hnot.1 hnot'
      have hothers : ∀ name ∈ names, isExclusion name = true :=
        fun name hname => hexclusions name (.inr hname)
      exact ⟨.spared (hnone.not.1 hnone') hnot' hothers, hne⟩
    | named hnone' hnot' hmem hincluded =>
      obtain ⟨hnot', hne⟩ := hnot.1 hnot'
      have hother : database ≠ excluding excluded := (excluding_ne hincluded).symm
      exact ⟨.named (hnone.not.1 hnone') hnot' (hmem.resolve_left hother) hincluded, hne⟩
  · rintro ⟨h, hne⟩
    have hexclusions : (∀ name ∈ names, isExclusion name = true) →
        ∀ name ∈ insert (excluding excluded) names, isExclusion name = true :=
      fun h => Set.forall_mem_insert.2 ⟨isExclusion_excluding excluded, h⟩
    cases h with
    | unrestricted hempty =>
      subst hempty
      exact .spared (hnone.not.2 (Set.notMem_empty _)) (hnot.2 ⟨Set.notMem_empty _, hne⟩)
        (hexclusions fun name hname => absurd hname (Set.notMem_empty name))
    | all hmem => exact absurd hmem hall
    | spared hnone' hnot' h =>
      exact .spared (hnone.not.2 hnone') (hnot.2 ⟨hnot', hne⟩) (hexclusions h)
    | named hnone' hnot' hmem hincluded =>
      exact .named (hnone.not.2 hnone') (hnot.2 ⟨hnot', hne⟩) (.inr hmem) hincluded

/-- The exclusion of a trimmed and lower-cased name is in normal form. -/
lemma normalize_excluding {name : String} (htrim : Text.trim name = name)
    (hlower : Text.lower name = name) : normalize (excluding name) = excluding name := by
  have hchars : (excluding name).toList = '!' :: name.toList := by simp [excluding]
  have hends : Text.BareEnds (excluding name).toList := by
    have hname := Text.bareEnds_of_trimmed htrim
    rw [hchars]
    refine ⟨by simp; decide, ?_⟩
    intro c hc
    rw [List.getLast?_cons] at hc
    cases hlast : name.toList.getLast? with
    | none =>
      rw [hlast] at hc
      obtain rfl := Option.some.inj hc
      decide
    | some last =>
      rw [hlast] at hc
      obtain rfl := Option.some.inj hc
      exact hname.2 last hlast
  have hlowered : ∀ c ∈ (excluding name).toList, Text.IsLower c := by
    rw [hchars, List.forall_mem_cons]
    refine ⟨by decide +kernel, ?_⟩
    rw [← hlower, Text.toList_lower]
    exact fun c hc => Text.isLower_of_mem_lowerChars hc
  rw [normalize, Text.trim, Text.trimChars_of_bareEnds hends, String.ofList_toList, Text.lower,
    Text.lowerChars, Text.lowerAfter_of_isLower hlowered, String.ofList_toList]

/-! ### Lists of databases -/

/-- **Lists of databases are sets.**  Lists with the same members accept the same databases, in
whatever order and case, with whatever padding and repetitions they are written.  With one more
exclusion, at any place, a list accepts what it accepted before but for the excluded database,
unless the keyword for all is in it.  Without members a list accepts every database.  The keyword
for all accepts every database whatever else is in the list, and otherwise the keyword for none
rejects every one. -/
theorem accepts_of_members (texts : List String) :
    (∀ texts', members texts' = members texts → ∀ database,
      (ofTexts texts').accepts database = (ofTexts texts).accepts database) ∧
    (∀ before after excluded, texts = before ++ after → allKeyword ∉ members texts →
      Text.trim excluded = excluded → Text.lower excluded = excluded → ∀ database,
        (ofTexts (before ++ excluding excluded :: after)).accepts database =
          ((ofTexts texts).accepts database && normalize database != excluded)) ∧
    (members texts = ∅ → ∀ database, (ofTexts texts).accepts database = true) ∧
    (allKeyword ∈ members texts → ∀ database, (ofTexts texts).accepts database = true) ∧
    (allKeyword ∉ members texts → noneKeyword ∈ members texts → ∀ database,
      (ofTexts texts).accepts database = false) := by
  refine ⟨?_, ?_, ?_, ?_, ?_⟩
  · intro texts' hmembers database
    rw [Bool.eq_iff_iff, accepts_ofTexts_iff, accepts_ofTexts_iff, hmembers]
  · rintro before after excluded rfl hall htrim hlower database
    have hne : excluding excluded ≠ "" := excluding_ne rfl
    rw [Bool.eq_iff_iff, Bool.and_eq_true, bne_iff_ne, accepts_ofTexts_iff, accepts_ofTexts_iff,
      members_insert hne (normalize_excluding htrim hlower), allows_insert_excluding_iff hall]
  · intro hempty database
    exact accepts_ofTexts_iff.2 (.unrestricted hempty)
  · intro hall database
    exact accepts_ofTexts_iff.2 (.all hall)
  · intro hall hnone database
    rw [Bool.eq_false_iff, ne_eq, accepts_ofTexts_iff]
    rintro (hempty | hmem | ⟨hnone', -, -⟩ | ⟨hnone', -, -, -⟩)
    · rw [hempty] at hnone
      exact hnone
    · exact hall hmem
    · exact hnone' hnone
    · exact hnone' hnone

/-- Two spellings of a list with an exclusion, and the same list with one more. -/
theorem accepts_of_members_postgresql :
    members ["!MySQL", " ", "postgresql ", "POSTGRESQL"] = members ["PostgreSQL", " !mysql"] ∧
      (∀ database, (ofTexts ["!MySQL", " ", "postgresql ", "POSTGRESQL"]).accepts database =
        (ofTexts ["PostgreSQL", " !mysql"]).accepts database) ∧
      allKeyword ∉ members ["PostgreSQL", " !mysql"] ∧
      (ofTexts ["PostgreSQL", " !mysql"]).accepts "postgreSQL" = true ∧
      (ofTexts ["PostgreSQL", "!postgresql", " !mysql"]).accepts "postgreSQL" = false ∧
      members [" "] = ∅ ∧ (ofTexts [" "]).accepts "h2" = true ∧
      (ofTexts ["none", "!h2", "ALL"]).accepts "h2" = true ∧
      (ofTexts ["h2", "None"]).accepts "h2" = false := by
  have hspelt : members ["!MySQL", " ", "postgresql ", "POSTGRESQL"] =
      members ["PostgreSQL", " !mysql"] := by
    have hnames : (ofTexts ["!MySQL", " ", "postgresql ", "POSTGRESQL"]).names =
        ["!mysql", "postgresql"] := by decide +kernel
    have hnames' : (ofTexts ["PostgreSQL", " !mysql"]).names = ["postgresql", "!mysql"] := by
      decide +kernel
    ext name
    rw [mem_members_iff, mem_members_iff, hnames, hnames']
    simp [or_comm]
  have hblank : members [" "] = ∅ := by
    have hnames : (ofTexts [" "]).names = [] := by decide +kernel
    ext name
    rw [mem_members_iff, hnames]
    simp
  have hall : allKeyword ∉ members ["PostgreSQL", " !mysql"] := by decide +kernel
  obtain ⟨hsame, hexclude, -, -, -⟩ := accepts_of_members ["PostgreSQL", " !mysql"]
  obtain ⟨-, -, hnothing, -, -⟩ := accepts_of_members [" "]
  obtain ⟨-, -, -, heverything, -⟩ := accepts_of_members ["none", "!h2", "ALL"]
  obtain ⟨-, -, -, -, hnever⟩ := accepts_of_members ["h2", "None"]
  have haccepted : (ofTexts ["PostgreSQL", " !mysql"]).accepts "postgreSQL" = true := by
    decide +kernel
  refine ⟨hspelt, hsame _ hspelt, hall, haccepted, ?_, hblank, hnothing hblank "h2",
    heverything (by decide +kernel) "h2", hnever (by decide +kernel) (by decide +kernel) "h2"⟩
  have hexcluded := hexclude ["PostgreSQL"] [" !mysql"] "postgresql" rfl hall (by decide +kernel)
    (by decide +kernel) "postgreSQL"
  rw [haccepted] at hexcluded
  exact hexcluded.trans (by decide +kernel)

end ChangelogParameters.Targets
