import ChangelogParameters.Proofs.Parameter.Key
import ChangelogParameters.Proofs.Store.View

/-!
# Stores that give the same answers

A look-up for a key sees the parameters of one *key class*, that of the lower case of the key, and
nothing else.  So two stores are not told apart by any look-up if every tier and every bucket holds
the same parameters in every key class, in the same order; how parameters of different classes lie
among each other does not matter, nor in which order the buckets were opened.
-/

namespace ChangelogParameters

namespace Store

/-- Two stores that no look-up tells apart. -/
structure SameAnswers (s s' : Store) : Prop where
  resolve : ∀ key position, s.resolve key position = s'.resolve key position
  hasValue : ∀ key position, s.hasValue key position = s'.hasValue key position
  localValue : ∀ key position, s.localValue key position = s'.localValue key position
  explain : ∀ key position, s.explain key position = s'.explain key position
  expand : ∀ text position, s.expand text position = s'.expand text position

/-- Stores are not told apart if they give the same answers about every key and have the same policy
for names without a value. -/
lemma SameAnswers.of_answersTo {s s' : Store} (hmode : s.missingMode = s'.missingMode)
    (h : ∀ key position, SameAnswersTo key s position s' position) : SameAnswers s s' where
  resolve key position := (h key position).resolve
  hasValue key position := (h key position).hasValue
  localValue key position := (h key (some position)).localValue position rfl position rfl
  explain key position := (h key position).explain
  expand text position := expand_congr hmode (fun key => (h key position).resolve) text

/-! ### Key classes -/

/-- The parameters whose keys have a lower case. -/
def keyClass (lowered : String) (parameters : List Parameter) : List Parameter :=
  parameters.filter fun parameter => Text.lower parameter.key = lowered

@[simp] lemma keyClass_append (lowered : String) (ps qs : List Parameter) :
    keyClass lowered (ps ++ qs) = keyClass lowered ps ++ keyClass lowered qs :=
  List.filter_append ..

/-- All parameters that have a key are in the class of its lower case. -/
lemma filter_answersTo_keyClass (key : String) (parameters : List Parameter) :
    (keyClass (Text.lower key) parameters).filter (·.answersTo key) =
      parameters.filter (·.answersTo key) := by
  rw [keyClass, List.filter_filter]
  refine List.filter_congr fun parameter _ => ?_
  by_cases h : parameter.answersTo key = true
  · simp [h, lower_eq_of_keyMatches h]
  · simp [h]

/-- Lists that agree on all key classes agree on the parameters that have a key. -/
lemma filter_answersTo_eq {ps qs : List Parameter}
    (h : ∀ lowered, keyClass lowered ps = keyClass lowered qs) (key : String) :
    ps.filter (·.answersTo key) = qs.filter (·.answersTo key) := by
  rw [← filter_answersTo_keyClass key ps, h, filter_answersTo_keyClass]

/-! ### Alike stores -/

/-- Two stores that agree on everything that a look-up can see. -/
structure Alike (s s' : Store) : Prop where
  system : s.system = s'.system
  globals : ∀ lowered, keyClass lowered s.globals = keyClass lowered s'.globals
  locals : ∀ scope lowered,
    keyClass lowered (s.locals.get scope) = keyClass lowered (s'.locals.get scope)
  filter : s.filter = s'.filter
  missingMode : s.missingMode = s'.missingMode
  deploymentId : s.deploymentId = s'.deploymentId

namespace Alike

variable {s s' : Store}

/-- The same is seen of alike stores, whatever is looked up. -/
lemma sameView (h : Alike s s') (key : String) (position : Option Position) :
    SameView key s position s' position :=
  sameView_of_tiers (by rw [h.system]) (filter_answersTo_eq h.globals key)
    (fun scope _ => filter_answersTo_eq (h.locals scope) key) h.filter h.deploymentId

/-- Alike stores give the same answers. -/
theorem sameAnswers (h : Alike s s') : SameAnswers s s' :=
  .of_answersTo h.missingMode fun key position => (h.sameView key position).sameAnswersTo

end Alike

end Store

end ChangelogParameters
