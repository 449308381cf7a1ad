import ChangelogParameters.Proofs.Store.Tiers
import ChangelogParameters.Proofs.Store.View

/-!
# What has no influence on an answer

A position takes part in a look-up in two ways that do not meet.  If the key names an execution
value the answer is made from the file and the changeset of the position itself, and from nothing
that is kept in the store.  For other keys only the logical paths count that are come across on the
way to the root, and files and changesets do not: `answers_of_positions`.

It follows that a local registration is seen from where its logical path is come across, and
nowhere else, and there only if its key is asked for.  `sameView_add_under` says so of one
registration and `sameAnswersTo_run` of a run of them.
-/

namespace ChangelogParameters

namespace Store

/-! ### Positions -/

/-- Of a position, its file and its changeset decide what execution values are computed to. -/
lemma computed?_congr {s s' : Store} {here here' : Position} (hid : s.deploymentId = s'.deploymentId)
    (hfile : here.here.file = here'.here.file)
    (hchangeset : here.here.changeset = here'.here.changeset) (key : String) :
    s.computed? key (some here) = s'.computed? key (some here') := by
  have hcompute : ∀ execution : ExecutionValue,
      execution.compute s.deploymentId here = execution.compute s'.deploymentId here' := by
    intro execution
    cases execution with
    | deploymentId => exact congrArg some hid
    | changelogFile => exact congrArg some hfile
    | changesetId | changesetAuthor => simp only [ExecutionValue.compute, hchangeset]
  simp only [computed?, Option.bind_some, hcompute]

/-- Where the same logical paths are come across the same is seen, unless the key names an
execution value. -/
lemma sameView_of_levels (store : Store) {key : String} {here here' : Position}
    (hkey : ExecutionValue.ofName? key = none)
    (hlevels : levels (some here) = levels (some here')) :
    SameView key store (some here) store (some here') where
  filter := rfl
  execution := rfl
  computed := by rw [computed?, computed?, Option.bind_some, Option.bind_some, hkey]; rfl
  entries := by rw [entries, entries, hlevels]
  own := by
    intro own hown own' hown'
    obtain rfl : here = own := Option.some.inj hown
    obtain rfl : here' = own' := Option.some.inj hown'
    have hscope : here.scopeKey = here'.scopeKey := (List.cons.inj hlevels).1
    rw [hscope]

/-- **What a position shows.**  The answer to a name of an execution value is the same in all runs
with one identifier and at all positions with one file and one changeset.  All answers about other
keys are the same at all positions that come across the same logical paths. -/
theorem answers_of_positions :
    (∀ (s s' : Store) (here here' : Position) (key : String), s.deploymentId = s'.deploymentId →
      here.here.file = here'.here.file → here.here.changeset = here'.here.changeset →
      (ExecutionValue.ofName? key).isSome = true →
      s.resolve key (some here) = s'.resolve key (some here')) ∧
    (∀ (store : Store) (here here' : Position) (key : String), ExecutionValue.ofName? key = none →
      levels (some here) = levels (some here') →
      SameAnswersTo key store (some here) store (some here')) := by
  constructor
  · intro s s' here here' key hid hfile hchangeset hkey
    obtain ⟨execution, hexecution⟩ := Option.isSome_iff_exists.1 hkey
    have hcomputed : ∀ (store : Store) (position : Position), store.computed? key (some position) =
        some (execution.compute store.deploymentId position) := by
      intro store position
      rw [computed?, hexecution, Option.bind_some, Option.map_some]
    rw [resolve_eq_computed?, computed?_congr hid hfile hchangeset, resolve_eq_computed?,
      hcomputed]
  · intro store here here' key hkey hlevels
    exact (store.sameView_of_levels hkey hlevels).sameAnswersTo

/-- The changeset that is asked for is that of the file, and not that of the file around it or what
was registered under the name; a file that has taken over a name sees what is kept under the
name. -/
theorem answers_of_positions_renamed :
    let changeset : Changeset := ⟨some "1", none⟩
    let alone : Position := (Position.root "inner.xml").withChangeset (some changeset)
    let around : Position := (Position.root "root.xml").withChangeset (some ⟨some "0", some "me"⟩)
    let included : Position := (around.child "inner.xml").withChangeset (some changeset)
    let renamed : Position := (Position.root "other.xml").withLogicalPath "inner.xml"
    let store : Store := (build {}).run [.set "EXECUTION_CHANGESET_ID" (.string "kept"),
      .setLocal "port" (.string "1") (some alone)]
    (build {}).resolve "execution_changeset_id" (some alone) = some (.string "1") ∧
      store.resolve "execution_changeset_id" (some included) = some (.string "1") ∧
      store.localValue "PORT" alone = some (.string "1") ∧
      store.localValue "PORT" renamed = some (.string "1") := by
  intro changeset alone around included renamed store
  have hname : (ExecutionValue.ofName? "execution_changeset_id").isSome = true := by
    decide +kernel
  have hport : ExecutionValue.ofName? "PORT" = none := by decide +kernel
  have halone : (build {}).resolve "execution_changeset_id" (some alone) = some (.string "1") := by
    decide +kernel
  have hlocal : store.localValue "PORT" alone = some (.string "1") := by decide +kernel
  have hincluded := answers_of_positions.1 (build {}) store alone included
    "execution_changeset_id" rfl rfl rfl hname
  have hrenamed := answers_of_positions.2 store alone renamed "PORT" hport rfl
  refine ⟨halone, hincluded.symm.trans halone, hlocal, ?_⟩
  rw [← hrenamed.localValue alone rfl renamed rfl, hlocal]

/-! ### Local registrations -/

/-- The position of a scope in the local tier. -/
def Scope.position? : Scope → Option Position
  | everywhere => none
  | within position => position

/-- The key and the position of a registration in the local tier. -/
def Operation.localTarget? : Operation → Option (String × Position)
  | setLocal key _ position => position.map (key, ·)
  | register key _ _ scope => scope.position?.map (key, ·)
  | setProperty key _ _ _ _ scope => scope.position?.map (key, ·)
  | _ => none

/-- The place of a scope in the local tier is the bucket of its position. -/
lemma Scope.place_of_target {scope : Scope} {place : Place} {key asked : String}
    {position : Position} (hplace : scope.place? = some place)
    (htarget : scope.position?.map (key, ·) = some (asked, position)) :
    key = asked ∧ place = .under position.scopeKey := by
  rcases scope with _ | _ | here
  · cases htarget
  · cases htarget
  · obtain ⟨rfl, rfl⟩ : key = asked ∧ here = position := by simpa [position?] using htarget
    exact ⟨rfl, (Option.some.inj hplace).symm⟩

/-- A local registration that succeeds adds a parameter with the key to the bucket of the
position. -/
lemma exists_add_of_localTarget? {store after : Store} {operation : Operation} {key : String}
    {position : Position} (hlocal : operation.localTarget? = some (key, position))
    (h : store.perform operation = .ok after) :
    ∃ parameter : Parameter, parameter.key = key ∧
      after = store.add ⟨.under position.scopeKey, parameter⟩ := by
  have hsingle : operation.isSingle = true := by
    cases operation <;> first | rfl | cases hlocal
  obtain ⟨place, parameter, hregisters, rfl⟩ := exists_registers_of_perform hsingle h
  refine ⟨parameter, ?_⟩
  cases hregisters with
  | set | setGlobal => cases hlocal
  | setLocal key' value here =>
    obtain ⟨rfl, rfl⟩ : key' = key ∧ here = position := by
      simpa [Operation.localTarget?] using hlocal
    exact ⟨rfl, rfl⟩
  | register key' value restrictions hplace =>
    obtain ⟨rfl, rfl⟩ := Scope.place_of_target hplace hlocal
    exact ⟨rfl, rfl⟩
  | setProperty key' value hparse hplace =>
    obtain ⟨rfl, rfl⟩ := Scope.place_of_target hplace hlocal
    exact ⟨rfl, rfl⟩

/-- A parameter in the local tier is not seen where its logical path is not come across, nor where
another key is looked up. -/
lemma sameView_add_under (store : Store) {scope key : String} {parameter : Parameter}
    {position : Option Position}
    (h : scope ∉ levels position ∨ keyMatches parameter.key key = false) :
    SameView key store position (store.add ⟨.under scope, parameter⟩) position := by
  refine sameView_of_tiers rfl rfl ?_ rfl rfl
  intro asked hasked
  rw [(store.appends_add (.under scope) parameter).bucket asked]
  split
  case isTrue hscope =>
    obtain rfl : scope = asked := Place.under.inj hscope
    have hkey : parameter.answersTo key = false := h.resolve_left fun hunseen => hunseen hasked
    rw [List.filter_append, List.filter_cons_of_neg (by simp [hkey]), List.filter_nil,
      List.append_nil]
  case isFalse => rfl

/-- A local registration that succeeds is not seen where its logical path is not come across, nor
where another key is looked up. -/
lemma sameView_of_perform {store after : Store} {operation : Operation} {key asked : String}
    {position : Position} {asker : Option Position}
    (hlocal : operation.localTarget? = some (key, position))
    (hafter : store.perform operation = .ok after)
    (h : position.scopeKey ∉ levels asker ∨ keyMatches key asked = false) :
    SameView asked store asker after asker := by
  obtain ⟨parameter, rfl, rfl⟩ := exists_add_of_localTarget? hlocal hafter
  exact store.sameView_add_under h

/-- A run of local registrations that are not seen, some of which may fail, changes no answer. -/
theorem sameAnswersTo_run {asked : String} {asker : Option Position} {operations : List Operation}
    (h : ∀ operation ∈ operations, ∃ key position,
      operation.localTarget? = some (key, position) ∧
      (position.scopeKey ∉ levels asker ∨ keyMatches key asked = false)) (store : Store) :
    SameAnswersTo asked store asker (store.run operations) asker := by
  suffices hview : SameView asked store asker (store.run operations) asker from
    hview.sameAnswersTo
  induction operations generalizing store with
  | nil => exact .refl ..
  | cons operation operations ih =>
    obtain ⟨key, position, hlocal, hunseen⟩ := h operation List.mem_cons_self
    have hstep : SameView asked store asker (store.after operation) asker := by
      rw [after]
      cases hperform : store.perform operation with
      | error e => exact .refl ..
      | ok after => exact sameView_of_perform hlocal hperform hunseen
    have hrest := ih (fun op hop => h op (List.mem_cons_of_mem _ hop)) (store.after operation)
    exact hstep.trans hrest

/-- **Local values are isolated.**  A local registration that succeeds changes no answer, whatever
is asked, at a position that does not come across the logical path of the registration.  Where it is
come across no answer about another key is changed. -/
theorem local_registration_isolated (h : History) (operation : Operation) (key : String)
    (position : Position) (after : Store)
    (hlocal : operation.localTarget? = some (key, position))
    (hafter : h.store.perform operation = .ok after) :
    (∀ asker : Option Position, position.scopeKey ∉ levels asker →
      (∀ asked, SameAnswersTo asked h.store asker after asker) ∧
        ∀ text, h.store.expand text asker = after.expand text asker) ∧
      ∀ (asker : Option Position) (asked : String), keyMatches key asked = false →
        SameAnswersTo asked h.store asker after asker := by
  constructor
  · intro asker hunseen
    have hanswers : ∀ asked, SameAnswersTo asked h.store asker after asker :=
      fun asked => (sameView_of_perform hlocal hafter (.inl hunseen)).sameAnswersTo
    have hmode : h.store.missingMode = after.missingMode := by
      obtain ⟨parameter, -, rfl⟩ := exists_add_of_localTarget? hlocal hafter
      rfl
    exact ⟨hanswers, expand_congr hmode fun asked => (hanswers asked).resolve⟩
  · intro asker asked hkey
    exact (sameView_of_perform hlocal hafter (.inr hkey)).sameAnswersTo

/-- What is registered at a file is not seen at the file that includes it, and does not change what
other keys have for values at the file itself. -/
theorem local_registration_isolated_host :
    let outer : Position := .root "root.xml"
    let inner : Position := outer.child "inner.xml"
    let h : History := ⟨{}, [.set "url" (.string "db"), .setLocal "host" (.string "a") (some outer)]⟩
    let operation : Operation := .setLocal "host" (.string "b") (some inner)
    h.store.perform operation = .ok (h.store.after operation) ∧
      inner.scopeKey ∉ levels (some outer) ∧ keyMatches "host" "URL" = false ∧
      (h.store.after operation).resolve "host" (some inner) = some (.string "b") ∧
      (h.store.after operation).expand "${host}" (some outer) = .ok "a" ∧
      (h.store.after operation).resolve "URL" (some inner) = some (.string "db") := by
  intro outer inner h operation
  have hlocal : operation.localTarget? = some ("host", inner) := rfl
  have hafter : h.store.perform operation = .ok (h.store.after operation) := rfl
  have hunseen : inner.scopeKey ∉ levels (some outer) := by decide
  have hkey : keyMatches "host" "URL" = false := by decide +kernel
  have hinner : (h.store.after operation).resolve "host" (some inner) = some (.string "b") := by
    decide +kernel
  obtain ⟨hfar, hother⟩ :=
    local_registration_isolated h operation "host" inner (h.store.after operation) hlocal hafter
  have hexpand : h.store.expand "${host}" (some outer) = .ok "a" := by decide +kernel
  have hurl : h.store.resolve "URL" (some inner) = some (.string "db") := by decide +kernel
  refine ⟨hafter, hunseen, hkey, hinner, ?_, ?_⟩
  · rw [← (hfar (some outer) hunseen).2, hexpand]
  · rw [← (hother (some inner) "URL" hkey).resolve, hurl]

end Store

end ChangelogParameters
