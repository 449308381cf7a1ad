import ChangelogParameters.Database.Profile
import ChangelogParameters.Proofs.Parameter.Key
import Mathlib.Data.List.Nodup

/-!
# The keys of a profile

Which parameters a profile gives depends on what it knows, but it never gives other ones than a
complete profile does.  The keys of a complete profile differ in more than the case of their
letters, so of the parameters of any profile at most one has the key that is asked for.
-/

namespace ChangelogParameters

namespace Profile

/-- A profile that leaves nothing out. -/
def complete : Profile where
  productVersion := some ""
  majorVersion := some 0
  minorVersion := some 0
  isSafeToRunUpdate := some true

/-- The keys of all the parameters that profiles give, in order. -/
def parameterKeys : List String :=
  complete.parameters.map (·.1)

/-- A parameter that may be left out has its key, or is left out. -/
lemma map_fst_whenKnown_sublist {α : Type} (key : String) (value : Option α) (toValue : α → Value) :
    ((whenKnown key value toValue).map (·.1)).Sublist [key] := by
  cases value with
  | none => exact List.nil_sublist [key]
  | some a => exact List.Sublist.refl [key]

/-- The keys of a profile are some of those of a complete one, in the same order. -/
lemma map_fst_parameters_sublist (profile : Profile) :
    (profile.parameters.map (·.1)).Sublist parameterKeys := by
  simp only [parameterKeys, parameters, List.map_append]
  repeat' apply List.Sublist.append
  all_goals first
    | exact List.Sublist.refl _
    | exact map_fst_whenKnown_sublist _ _ _

/-- All these keys differ in more than the case of their letters. -/
lemma nodup_lower_parameterKeys : (parameterKeys.map Text.lower).Nodup := by
  decide +kernel

/-- And so do those of the parameters of any profile. -/
lemma nodup_lower_parameters (profile : Profile) :
    (profile.parameters.map fun entry => Text.lower entry.1).Nodup := by
  have hsublist := profile.map_fst_parameters_sublist.map Text.lower
  rw [List.map_map] at hsublist
  exact nodup_lower_parameterKeys.sublist hsublist

/-- At most one parameter of a profile has the key that is asked for. -/
theorem eq_of_keyMatches {profile : Profile} {key : String} {p q : String × Value}
    (hp : p ∈ profile.parameters) (hq : q ∈ profile.parameters)
    (hpkey : keyMatches p.1 key = true) (hqkey : keyMatches q.1 key = true) : p = q := by
  have hlower : Text.lower p.1 = Text.lower q.1 :=
    (lower_eq_of_keyMatches hpkey).trans (lower_eq_of_keyMatches hqkey).symm
  exact List.inj_on_of_nodup_map profile.nodup_lower_parameters hp hq hlower

end Profile

end ChangelogParameters
