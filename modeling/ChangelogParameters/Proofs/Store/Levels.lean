import ChangelogParameters.Proofs.Store.Permanence

/-!
# Look-ups level by level

A look-up at a position goes through the buckets of the position and of all positions around it in
one sweep.  The same buckets can be asked one by one, since a position can be asked for the value of
a key in its own bucket.  This file shows that both ways lead to the same value: what the system
tier and the global tier have for a key comes first, and then the nearest position whose own bucket
has a value for it (`resolve_eq_localValue`).

So a position without a value of its own hands the look-up on to the position around it, and a root
hands it on to the look-up without a position.
-/

namespace ChangelogParameters

/-! ### The way to the root -/

namespace Position

/-- The positions of a changelog and of those around it, from the changelog itself out to the
root. -/
def outwardFrom (here : Changelog) : List Changelog → List Position
  | [] => [⟨here, []⟩]
  | outer :: around => ⟨here, outer :: around⟩ :: outwardFrom outer around

/-- The position, the one around it, and so on out to the root. -/
def outward (position : Position) : List Position :=
  outwardFrom position.here position.around

/-- On the way to the root the position comes first, and then the way from the position around
it. -/
lemma outward_eq (position : Position) :
    position.outward = position :: position.parent?.elim [] outward := by
  obtain ⟨here, around⟩ := position
  cases around <;> rfl

/-- The buckets that are seen from a position are those of the positions on the way to the root. -/
lemma map_scopeKey_outward (position : Position) :
    position.outward.map scopeKey = Store.levels (some position) := by
  obtain ⟨here, around⟩ := position
  induction around generalizing here with
  | nil => rfl
  | cons outer around ih => exact congrArg (here.logicalPath :: ·) (ih outer)

end Position

namespace Store

/-! ### Values by level -/

/-- Without a position the value of a key is that of the first accepted parameter in the system tier
and the global tier. -/
lemma resolve_none (store : Store) (key : String) :
    store.resolve key none =
      ((store.system ++ store.globals).find? fun parameter =>
        parameter.answersTo key && store.filter.accepts parameter).map (·.value) := by
  have h : executionValue? key none = none := rfl
  rw [store.resolve_eq_find?_parameters h, map_parameter_entries]
  simp [levels, Parameter.answersTo]

/-- The first value of the own buckets on the way to the root is that of the first accepted
parameter in all these buckets together. -/
lemma findSome?_localValue_outward (store : Store) (key : String) (position : Position) :
    position.outward.findSome? (store.localValue key) =
      (((levels (some position)).flatMap fun scope => (store.locals.get scope).reverse).find?
        fun parameter => parameter.answersTo key && store.filter.accepts parameter).map
          (·.value) := by
  rw [← position.map_scopeKey_outward, List.flatMap_map, List.find?_flatMap, List.map_findSome?]
  rfl

/-- Unless the key names an execution value, the tiers for all changelogs come first, and then the
nearest own bucket with a value. -/
lemma resolve_eq_or_findSome? (store : Store) {key : String}
    (hkey : ExecutionValue.ofName? key = none) (position : Position) :
    store.resolve key (some position) =
      (store.resolve key none).or (position.outward.findSome? (store.localValue key)) := by
  have h : executionValue? key (some position) = none := hkey
  rw [store.resolve_eq_find?_parameters h, map_parameter_entries, List.find?_append,
    Option.map_or, resolve_none, findSome?_localValue_outward]
  rfl

/-- **Look-ups level by level.**  Unless the key names an execution value, a look-up at a position
yields what it yields without a position, and if that is nothing, the first value in an own bucket
on the way to the root.  So where the own bucket has no value, it yields what it yields at the
position around, or without a position at the root. -/
theorem resolve_eq_localValue (store : Store) (key : String) (position : Position)
    (hkey : ExecutionValue.ofName? key = none) :
    store.resolve key (some position) =
        (store.resolve key none).or (position.outward.findSome? (store.localValue key)) ∧
      (store.localValue key position = none →
        store.resolve key (some position) = store.resolve key position.parent?) := by
  refine ⟨store.resolve_eq_or_findSome? hkey position, ?_⟩
  intro hlocal
  rw [store.resolve_eq_or_findSome? hkey position, position.outward_eq, List.findSome?_cons, hlocal]
  cases hparent : position.parent? with
  | none => simp
  | some outer => exact (store.resolve_eq_or_findSome? hkey outer).symm

/-- The own bucket of an included file has a parameter that the run does not see; the file around it
has none, and the root has two, of which the newer one counts. -/
theorem resolve_eq_localValue_port :
    let root : Position := .root "root.xml"
    let middle : Position := root.child "middle.xml"
    let inner : Position := middle.child "inner.xml"
    let store : Store := (build {}).run [.setLocal "port" (.string "1") (some root),
      .setLocal "Port" (.string "2") (some root),
      .setProperty "port" (.string "3") "test" "" "" (.within (some inner)),
      .setContexts (some (.parse "prod"))]
    ExecutionValue.ofName? "port" = none ∧ store.localValue "port" inner = none ∧
      store.resolve "port" (some inner) = store.resolve "port" (some middle) ∧
      store.resolve "port" (some inner) = some (.string "2") := by
  intro root middle inner store
  have hkey : ExecutionValue.ofName? "port" = none := by decide +kernel
  have hlocal : store.localValue "port" inner = none := by decide +kernel
  have hglobal : store.resolve "port" none = none := by decide +kernel
  have hnearest : inner.outward.findSome? (store.localValue "port") = some (.string "2") := by
    decide +kernel
  obtain ⟨hresolve, hparent⟩ := store.resolve_eq_localValue "port" inner hkey
  refine ⟨hkey, hlocal, hparent hlocal, ?_⟩
  rw [hresolve, hglobal, hnearest]
  rfl

end Store

end ChangelogParameters
