import ChangelogParameters.Proofs.Template.Policies
import ChangelogParameters.Store.Lookup
import ChangelogParameters.Store.Operation

/-!
# The policies of a store compared

A store expands texts under the policy that was set last.  Setting another policy changes nothing
else, so what the policies have in common for expanders they have in common for stores, where a
name lacks a value if it has none or if its value is null.
-/

namespace ChangelogParameters

namespace Store

/-- A name lacks a text exactly if it has no value or the value is null. -/
lemma resolveText_eq_none_iff (store : Store) (name : String) (position : Option Position) :
    store.resolveText name position = none ↔
      store.resolve name position = none ∨ store.resolve name position = some .null := by
  unfold resolveText
  cases store.resolve name position with
  | none => simp
  | some value => cases value <;> simp [Value.isNull]

/-- **The policies agree.**  Under the lenient policies every text has an expansion.  What the
strict policy makes of a text all policies make of it; and it fails exactly if a name without a
value is looked up when such names are left in place, and reports the first of them with the file
that the text comes from.  This holds for expanders with arbitrary look-ups, and for every store
at every position, where a look-up comes back with nothing exactly if the name has no value or the
value is null. -/
theorem policies_agree :
    (∀ (x : Expander) (text : String),
      PoliciesAgree (fun mode => ((x.withMode mode).expand text).result)
        ((x.withMode .preserve).expand text).lookups (fun name => x.lookup name = none)
        x.location) ∧
    (∀ (store : Store) (position : Option Position) (text : String),
      PoliciesAgree (fun mode => (store.after (.setMissingMode mode)).expand text position)
        (((store.after (.setMissingMode .preserve)).expander position).expand text).lookups
        (fun name => (store.expander position).lookup name = none)
        (position.map (·.here.file))) ∧
    ∀ (store : Store) (position : Option Position) (name : String),
      (store.expander position).lookup name = none ↔
        store.resolve name position = none ∨ store.resolve name position = some .null := by
  refine ⟨Expander.policiesAgree_expand, ?_, ?_⟩
  · intro store position text
    exact (store.expander position).policiesAgree_expand text
  · intro store position name
    exact store.resolveText_eq_none_iff name position

end Store

end ChangelogParameters
