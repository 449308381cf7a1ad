import ChangelogParameters.Parameter.Filter
import ChangelogParameters.Proofs.Parameter.NormalForm
import ChangelogParameters.Proofs.Tag.Lexing

/-!
# Restrictions read from what is shown

An account of a parameter shows its restrictions as three texts: the condition as it was written,
but trimmed, the labels in ascending order and the databases in the order given, both separated by
commas.  The three texts can be read as restrictions again.

The condition and the labels come back as they were, and so do the databases if any were named.
If none were named the text is the keyword for all of them, which comes back as a list with one
name.  The lists differ, but they accept the same databases, so no filter tells the old restrictions
from the new ones: `Restrictions.exists_parse_shown` puts this together.
-/

namespace ChangelogParameters

/-! ### Conditions -/

/-- A text has the same expression when it is trimmed. -/
lemma Expr.parse_trim {s : String} {e : Option Expr} (h : parse s = .ok e) :
    parse (Text.trim s) = .ok e := by
  rw [parse] at h ⊢
  rw [Token.scan_trim]
  cases htokens : ofTokens (Token.scan s) with
  | error failure => simp [htokens] at h
  | ok e' =>
    rw [htokens] at h
    exact h

/-- A condition is read again from its text. -/
lemma Condition.parse_source {s : String} {condition : Condition} (h : parse s = .ok condition) :
    parse condition.source = .ok condition := by
  rw [parse] at h
  cases hexpr : Expr.parse s with
  | error cause =>
    rw [hexpr] at h
    cases h
  | ok e =>
    rw [hexpr] at h
    obtain rfl : (⟨Text.trim s, e⟩ : Condition) = condition := Except.ok.inj h
    rw [parse, Expr.parse_trim hexpr, Text.trim_trim]
    rfl

/-! ### Labels -/

namespace Names

/-- The names in a comma separated text have no commas. -/
lemma comma_not_mem_of_mem_parse {s name : String} (h : name ∈ (parse s).toList) :
    ',' ∉ name.toList := by
  obtain ⟨-, text, htext, rfl⟩ := mem_ofTexts.1 h
  exact Text.comma_not_mem_lower_trim htext

/-- A set of names in normal form is read again from its text, if no name has a comma. -/
lemma parse_text_of_normal {names : Names} (hnormal : ∀ name ∈ names.toList, Text.IsNormal name)
    (hcomma : ∀ name ∈ names.toList, ',' ∉ name.toList) : parse names.text = names := by
  refine eq_of_mem_iff fun name => ?_
  by_cases hempty : names.toList = []
  · have htext : names.text = "" := by rw [text, hempty, String.intercalate_nil]
    have hnothing : (parse "").toList = [] := by decide +kernel
    rw [htext, hnothing, hempty]
  · have hpieces : Text.commaSeparated names.text = names.toList :=
      Text.commaSeparated_intercalate hempty hcomma
    have hsame : ∀ member ∈ names.toList, normalize member = member := by
      intro member hmember
      exact (Text.isNormal_iff.1 (hnormal member hmember)).2
    rw [parse, hpieces, mem_ofTexts]
    constructor
    · rintro ⟨-, member, hmember, rfl⟩
      rwa [hsame member hmember]
    · intro hname
      exact ⟨(Text.isNormal_iff.1 (hnormal name hname)).1, name, hname, hsame name hname⟩

/-- The set of names in a text is read again from the text that shows it. -/
lemma parse_text (s : String) : parse (parse s).text = parse s :=
  parse_text_of_normal (fun _ hname => isNormal_of_mem_ofTexts hname)
    fun _ hname => comma_not_mem_of_mem_parse hname

end Names

/-! ### Target databases -/

namespace Targets

/-- The names of the targets in a comma separated text have no commas. -/
lemma comma_not_mem_of_mem_names_parse {s name : String} (h : name ∈ (parse s).names) :
    ',' ∉ name.toList := by
  obtain ⟨-, text, htext, rfl⟩ := mem_names_ofTexts.1 h
  exact Text.comma_not_mem_lower_trim htext

/-- Targets that are given by different names in normal form have these names. -/
lemma ofTexts_of_normal {names : List String} (hne : names ≠ []) (hnodup : names.Nodup)
    (hnormal : ∀ name ∈ names, Text.IsNormal name) : ofTexts names = only names := by
  have hsame : names.map normalize = names := by
    refine (List.map_congr_left fun name hname => ?_).trans (List.map_id names)
    exact (Text.isNormal_iff.1 (hnormal name hname)).2
  have hempty : "" ∉ names := by
    intro hmem
    exact (Text.isNormal_iff.1 (hnormal "" hmem)).1 rfl
  have hkept : names.foldl addName [] = names := foldl_addName_of_nodup hnodup hempty
  rw [ofTexts, hsame, hkept]
  split
  case h_1 => exact absurd rfl hne
  case h_2 => rfl

/-- The targets in a text are read again from the text that shows them, if any databases are
named. -/
lemma parse_text {s : String} (h : (parse s).isRestricted = true) :
    parse (parse s).text = parse s := by
  cases htargets : parse s with
  | any =>
    rw [htargets] at h
    cases h
  | only names =>
    have hnames : (parse s).names = names := by rw [htargets, Targets.names]
    have hne : names ≠ [] := by
      rintro rfl
      exact ofTexts_ne_only_nil _ htargets
    have hcomma : ∀ name ∈ names, ',' ∉ name.toList := by
      intro name hname
      exact comma_not_mem_of_mem_names_parse (hnames.symm ▸ hname)
    have hnormal : ∀ name ∈ names, Text.IsNormal name := by
      intro name hname
      exact isNormal_of_mem_names_ofTexts (hnames.symm ▸ hname)
    have hnodup : names.Nodup := hnames ▸ nodup_names_ofTexts (Text.commaSeparated s)
    rw [text, parse, Text.commaSeparated_intercalate hne hcomma]
    exact ofTexts_of_normal hne hnodup hnormal

/-- The keyword for all databases is read as a list that accepts all of them. -/
lemma accepts_parse_allKeyword (database : String) :
    (parse allKeyword).accepts database = true := by
  have hparse : parse allKeyword = only [allKeyword] := by decide +kernel
  have hnormal : [allKeyword].map normalize = [allKeyword] := by decide +kernel
  have hall : [allKeyword].contains allKeyword = true := by decide
  rw [hparse, accepts, names, hnormal, acceptsAmong, if_pos hall, Bool.or_true]

end Targets

/-- The targets in a text and those that are read from the text that shows them are allowed for the
same databases. -/
lemma Filter.allowsDatabase_parse_text (filter : Filter) (s : String) :
    filter.allowsDatabase (.parse (Targets.parse s).text) = filter.allowsDatabase (.parse s) := by
  by_cases h : (Targets.parse s).isRestricted = true
  · rw [Targets.parse_text h]
  · have hany : Targets.parse s = .any := by
      cases htargets : Targets.parse s with
      | any => rfl
      | only names =>
        have hnil : names = [] := by simpa [htargets, Targets.isRestricted, Targets.names] using h
        rw [hnil] at htargets
        exact absurd htargets (Targets.ofTexts_ne_only_nil _)
    rw [hany, Targets.text, allowsDatabase, allowsDatabase]
    cases filter.database with
    | none => rfl
    | some database =>
      dsimp only
      rw [Targets.accepts_parse_allKeyword, Bool.or_true]
      rfl

/-! ### Restrictions -/

/-- What is left of restrictions when they are read from what is shown of them. -/
structure Restrictions.SameChecks (r r' : Restrictions) : Prop where
  contexts : r'.contexts = r.contexts
  labels : r'.labels = r.labels
  databases : ∀ filter : Filter,
    filter.allowsDatabase r'.databases = filter.allowsDatabase r.databases

/-- Restrictions in three texts can be read from the texts that show them, with the same checks. -/
lemma Restrictions.exists_parse_shown {contexts labels databases : String} {r : Restrictions}
    (h : parse contexts labels databases = .ok r) :
    ∃ r', parse r.contexts.source r.labels.text r.databases.text = .ok r' ∧ r.SameChecks r' := by
  rw [parse] at h
  cases hcondition : Condition.parse contexts with
  | error cause =>
    rw [hcondition] at h
    cases h
  | ok condition =>
    rw [hcondition] at h
    obtain rfl : (⟨condition, .parse labels, .parse databases⟩ : Restrictions) = r :=
      Except.ok.inj h
    refine ⟨⟨condition, .parse (Names.parse labels).text, .parse (Targets.parse databases).text⟩,
      ?_, ?_⟩
    · rw [parse, Condition.parse_source hcondition]
      rfl
    · constructor
      · rfl
      · dsimp only
        exact Names.parse_text labels
      · intro filter
        dsimp only
        exact filter.allowsDatabase_parse_text databases

/-- A filter that applies to two parameters with the same checks accepts both or none. -/
lemma Filter.accepts_of_sameChecks (filter : Filter) {p p' : Parameter}
    (h : p.restrictions.SameChecks p'.restrictions) (hp : p.filterable = true)
    (hp' : p'.filterable = true) : filter.accepts p' = filter.accepts p := by
  simp only [accepts, hp, hp', h.contexts, h.labels, h.databases, Bool.not_true, Bool.false_and,
    Bool.false_eq_true, if_false]

end ChangelogParameters
