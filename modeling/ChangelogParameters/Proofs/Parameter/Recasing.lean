import ChangelogParameters.Changelog.Execution
import ChangelogParameters.Parameter.Filter
import ChangelogParameters.Proofs.Tag.Recasing

/-!
# Recased parameters and filters

Keys, restrictions and filters are recased by recasing the texts they are given by.  Then a key is
found as before and names the same execution value, and a filter accepts what it accepted before:
each of its checks compares lower-cased names on both sides.
-/

namespace ChangelogParameters

/-! ### Keys -/

/-- A recased key is found by what is asked for, in any case, as the key was before. -/
lemma keyMatches_recased {key key' asked asked' : String} (hkey : Text.Recased key key')
    (hasked : Text.Recased asked asked') : keyMatches key asked = keyMatches key' asked' := by
  have hequal : Text.equalIgnoringAsciiCase key asked =
      Text.equalIgnoringAsciiCase key' asked' := by
    rw [Bool.eq_iff_iff]
    exact ⟨fun h => hkey.symm.trans (Text.Recased.trans h hasked),
      fun h => hkey.trans (Text.Recased.trans h hasked.symm)⟩
  rw [keyMatches, keyMatches, hequal, Text.isAscii_eq_of_equalIgnoringAsciiCase hkey,
    Text.lower_eq_of_equalIgnoringAsciiCase hkey, Text.lower_eq_of_equalIgnoringAsciiCase hasked]

/-- A recased name stands for the same execution value. -/
lemma ExecutionValue.ofName?_recased {name name' : String} (h : Text.Recased name name') :
    ofName? name = ofName? name' := by
  have hname : ∀ value : ExecutionValue, keyMatches value.name name = keyMatches value.name name' :=
    fun value => keyMatches_recased (.refl value.name) h
  simp only [ofName?, hname]

/-! ### Target databases -/

/-- Two targets that are given by recased texts. -/
inductive Targets.Recased : Targets → Targets → Prop
  | any : Recased .any .any
  /-- Both are given by a comma separated text. -/
  | parse {s s' : String} (h : Text.Recased s s') : Recased (.parse s) (.parse s')
  /-- Both are given name by name. -/
  | ofTexts {texts texts' : List String} (h : List.Forall₂ Text.Recased texts texts') :
      Recased (.ofTexts texts) (.ofTexts texts')
  /-- Both are names that are taken as they are. -/
  | only {names names' : List String} (h : List.Forall₂ Text.Recased names names') :
      Recased (.only names) (.only names')

namespace Targets

/-- Targets given by recased texts, one by one, are the same. -/
lemma ofTexts_recased {texts texts' : List String} (h : List.Forall₂ Text.Recased texts texts') :
    ofTexts texts = ofTexts texts' := by
  have hnormal : texts.map normalize = texts'.map normalize := Text.map_lower_trim_eq h
  rw [ofTexts, ofTexts, hnormal]

namespace Recased

variable {targets targets' : Targets}

/-- Recased targets have the same names, once these are normalised. -/
lemma map_normalize_eq (h : targets.Recased targets') :
    targets.names.map normalize = targets'.names.map normalize := by
  cases h with
  | any => rfl
  | parse h => rw [Targets.parse, Targets.parse, ofTexts_recased h.commaSeparated]
  | ofTexts h => rw [ofTexts_recased h]
  | only h => exact Text.map_lower_trim_eq h

/-- Of recased targets both name databases or none does. -/
lemma names_isEmpty_eq (h : targets.Recased targets') :
    targets.names.isEmpty = targets'.names.isEmpty := by
  have hempty := congrArg List.isEmpty h.map_normalize_eq
  rwa [List.isEmpty_map, List.isEmpty_map] at hempty

lemma isRestricted_eq (h : targets.Recased targets') :
    targets.isRestricted = targets'.isRestricted := by
  rw [isRestricted, isRestricted, h.names_isEmpty_eq]

/-- Recased targets accept a database in any case. -/
lemma accepts_eq (h : targets.Recased targets') {database database' : String}
    (hdatabase : Text.Recased database database') :
    targets.accepts database = targets'.accepts database' := by
  have hnormal : normalize database = normalize database' := hdatabase.lower_trim_eq
  rw [accepts, accepts, h.names_isEmpty_eq, h.map_normalize_eq, hnormal]

end Recased

end Targets

/-! ### Restrictions -/

/-- Two restrictions of recased kinds. -/
structure Restrictions.Recased (r r' : Restrictions) : Prop where
  contexts : r.contexts.Recased r'.contexts
  labels : r.labels.Recased r'.labels
  databases : r.databases.Recased r'.databases

/-- No restrictions are the same in every case. -/
lemma Restrictions.Recased.none : Restrictions.none.Recased Restrictions.none :=
  ⟨.same _, .same _, .any⟩

/-- Restrictions read from recased texts are recased, or the condition on contexts has the same
fault in both. -/
lemma Restrictions.parse_recased {contexts contexts' labels labels' databases databases' : String}
    (hcontexts : Text.Recased contexts contexts') (hlabels : Text.Recased labels labels')
    (hdatabases : Text.Recased databases databases') :
    Agree Expr.ParseError.Recased Restrictions.Recased (parse contexts labels databases)
      (parse contexts' labels' databases') := by
  have hagree := Condition.parse_recased hcontexts
  rw [parse, parse]
  generalize Condition.parse contexts = outcome at hagree
  generalize Condition.parse contexts' = outcome' at hagree
  cases hagree with
  | error he => exact .error he
  | ok hcondition => exact .ok ⟨hcondition, .parse hlabels, .parse hdatabases⟩

lemma Restrictions.Recased.isRestricted_eq {r r' : Restrictions} (h : r.Recased r') :
    r.isRestricted = r'.isRestricted := by
  rw [isRestricted, isRestricted, h.contexts.isEmpty_eq, h.labels.eq, h.databases.isRestricted_eq]

/-! ### Parameters and filters -/

/-- Two parameters with recased keys and restrictions, and the same value. -/
structure Parameter.Recased (p p' : Parameter) : Prop where
  key : Text.Recased p.key p'.key
  value : p.value = p'.value
  restrictions : p.restrictions.Recased p'.restrictions
  filterable : p.filterable = p'.filterable

/-- A recased parameter has the keys it had before. -/
lemma Parameter.Recased.answersTo_eq {p p' : Parameter} (h : p.Recased p') {asked asked' : String}
    (hasked : Text.Recased asked asked') : p.answersTo asked = p'.answersTo asked' :=
  keyMatches_recased h.key hasked

/-- Two filters that are given by recased texts. -/
structure Filter.Recased (f f' : Filter) : Prop where
  contexts : Option.Rel Names.Recased f.contexts f'.contexts
  labels : Option.Rel Condition.Recased f.labels f'.labels
  database : Option.Rel Text.Recased f.database f'.database

namespace Filter.Recased

variable {f f' : Filter}

lemma allowsLabels_eq (h : f.Recased f') {labels labels' : Names}
    (hlabels : labels.Recased labels') :
    f.allowsLabels labels = f'.allowsLabels labels' := by
  have hcondition := h.labels
  rw [allowsLabels, allowsLabels, hlabels.eq]
  generalize f.labels = condition at hcondition
  generalize f'.labels = condition' at hcondition
  cases hcondition with
  | none => rfl
  | some hcondition => exact hcondition.matchesNames_eq labels'

lemma allowsContexts_eq (h : f.Recased f') {condition condition' : Condition}
    (hcondition : condition.Recased condition') :
    f.allowsContexts condition = f'.allowsContexts condition' := by
  have hactive := h.contexts
  rw [allowsContexts, allowsContexts]
  generalize f.contexts = active at hactive
  generalize f'.contexts = active' at hactive
  cases hactive with
  | none => rfl
  | @some names names' hnames =>
    rw [hnames.eq]
    exact hcondition.matchesNames_eq names'

lemma allowsDatabase_eq (h : f.Recased f') {targets targets' : Targets}
    (htargets : targets.Recased targets') :
    f.allowsDatabase targets = f'.allowsDatabase targets' := by
  have hdatabase := h.database
  rw [allowsDatabase, allowsDatabase, htargets.isRestricted_eq]
  generalize f.database = database at hdatabase
  generalize f'.database = database' at hdatabase
  cases hdatabase with
  | none => rfl
  | some hdatabase =>
    dsimp only
    rw [htargets.accepts_eq hdatabase]

/-- A recased filter accepts a recased parameter if the filter has accepted the parameter. -/
lemma accepts_eq (h : f.Recased f') {p p' : Parameter} (hp : p.Recased p') :
    f.accepts p = f'.accepts p' := by
  have hr := hp.restrictions
  simp only [accepts, hp.filterable, hr.isRestricted_eq, h.allowsLabels_eq hr.labels,
    h.allowsContexts_eq hr.contexts, h.allowsDatabase_eq hr.databases]

end Filter.Recased

end ChangelogParameters
