import ChangelogParameters.Proofs.Store.Resolution
import ChangelogParameters.Store.Explanation
import Mathlib.Data.List.Find

/-!
# What a look-up sees

A look-up sees little of a store and of a position: the filter, the execution value that the key
names with what it is computed to, the parameters that have the key and are come across from the
position, and those of them in the position's own bucket.  All answers about the key are made from
this.  So two stores, asked for a key at two positions, give the same answers if these parts of them
are the same, `SameView.sameAnswersTo`; what is to be proved about two stores or two positions is
proved about what is seen of them.
-/

namespace ChangelogParameters

namespace Store

/-! ### Views and answers -/

/-- The execution value that a key names, computed at the position; the outer option says whether
there is a position and the key names one. -/
def computed? (store : Store) (key : String) (position : Option Position) :
    Option (Option String) :=
  position.bind fun here =>
    (ExecutionValue.ofName? key).map fun execution => execution.compute store.deploymentId here

/-- The same is seen of two stores when a key is looked up at a position of each. -/
structure SameView (key : String) (s : Store) (position : Option Position) (s' : Store)
    (position' : Option Position) : Prop where
  filter : s.filter = s'.filter
  execution : executionValue? key position = executionValue? key position'
  computed : s.computed? key position = s'.computed? key position'
  entries : (s.entries position).filter (·.parameter.answersTo key) =
    (s'.entries position').filter (·.parameter.answersTo key)
  own : ∀ here ∈ position, ∀ here' ∈ position',
    (s.locals.get here.scopeKey).filter (·.answersTo key) =
      (s'.locals.get here'.scopeKey).filter (·.answersTo key)

/-- Two stores give the same answers about a key at a position of each. -/
structure SameAnswersTo (key : String) (s : Store) (position : Option Position) (s' : Store)
    (position' : Option Position) : Prop where
  resolve : s.resolve key position = s'.resolve key position'
  hasValue : s.hasValue key position = s'.hasValue key position'
  localValue : ∀ here ∈ position, ∀ here' ∈ position',
    s.localValue key here = s'.localValue key here'
  explain : s.explain key position = s'.explain key position'

/-! ### Answers from what is seen -/

/-- The value of a key is what is computed for it, or else that of the first accepted one among the
entries that have the key. -/
lemma resolve_eq_computed? (store : Store) (key : String) (position : Option Position) :
    store.resolve key position = match store.computed? key position with
      | some text => text.map .string
      | none => (store.find? key position).map (·.parameter.value) := by
  unfold resolve computed? executionValue?
  cases position with
  | none => rfl
  | some here => cases ExecutionValue.ofName? key <;> rfl

/-- The value of a key in the own bucket is that of the newest accepted one among the parameters
that have the key. -/
lemma localValue_eq_find?_filter (store : Store) (key : String) (position : Position) :
    store.localValue key position =
      (((store.locals.get position.scopeKey).filter (·.answersTo key)).reverse.find?
        store.filter.accepts).map (·.value) := by
  rw [← List.filter_reverse, List.find?_filter, localValue]
  simp only [Bool.decide_and, Bool.decide_eq_true]

/-- What is said about an entry depends on the filter alone. -/
lemma candidate_congr {s s' : Store} (h : s.filter = s'.filter) : s.candidate = s'.candidate := by
  funext entry
  simp only [candidate, h]

/-- Texts are expanded alike if the names in them have the same values. -/
lemma expand_congr {s s' : Store} {position : Option Position}
    (hmode : s.missingMode = s'.missingMode)
    (hresolve : ∀ key, s.resolve key position = s'.resolve key position) (text : String) :
    s.expand text position = s'.expand text position := by
  have hexpander : s.expander position = s'.expander position := by
    simp only [expander, hmode, resolveText, hresolve]
  rw [expand, expand, hexpander]

namespace SameView

variable {key : String} {s s' : Store} {position position' : Option Position}

lemma refl (key : String) (store : Store) (position : Option Position) :
    SameView key store position store position where
  filter := rfl
  execution := rfl
  computed := rfl
  entries := rfl
  own := by
    intro here hhere here' hhere'
    obtain rfl : here = here' := Option.some.inj (hhere.symm.trans hhere')
    rfl

lemma trans {s'' : Store} (h : SameView key s position s' position)
    (h' : SameView key s' position s'' position) : SameView key s position s'' position where
  filter := h.filter.trans h'.filter
  execution := rfl
  computed := h.computed.trans h'.computed
  entries := h.entries.trans h'.entries
  own here hhere here' hhere' :=
    (h.own here hhere here' hhere').trans (h'.own here' hhere' here' hhere')

lemma resolve_eq (h : SameView key s position s' position') :
    s.resolve key position = s'.resolve key position' := by
  have hfind : s.find? key position = s'.find? key position' := by
    rw [find?_eq_find?_filter, find?_eq_find?_filter, h.entries, h.filter]
  rw [resolve_eq_computed?, resolve_eq_computed?, h.computed, hfind]

lemma explain_eq (h : SameView key s position s' position') :
    s.explain key position = s'.explain key position' := by
  have hcandidates : s.candidates key position = s'.candidates key position' := by
    rw [candidates, candidates, h.entries, candidate_congr h.filter]
  simp only [explain, hcandidates, h.execution, h.resolve_eq]

/-- Where the same is seen the answers are the same. -/
theorem sameAnswersTo (h : SameView key s position s' position') :
    SameAnswersTo key s position s' position' where
  resolve := h.resolve_eq
  hasValue := by rw [hasValue, hasValue, h.resolve_eq]
  localValue here hhere here' hhere' := by
    rw [localValue_eq_find?_filter, localValue_eq_find?_filter, h.own here hhere here' hhere',
      h.filter]
  explain := h.explain_eq

end SameView

/-! ### What is seen, tier by tier -/

/-- The entries that have a key come from the parameters that have it, tier by tier. -/
lemma filter_entries (store : Store) (key : String) (position : Option Position) :
    ((store.entries position).filter (·.parameter.answersTo key)) =
      (store.system.filter (·.answersTo key)).map (⟨.system, none, ·⟩) ++
        (store.globals.filter (·.answersTo key)).map (⟨.globals, none, ·⟩) ++
        (levels position).flatMap fun scope =>
          ((store.locals.get scope).filter (·.answersTo key)).reverse.map
            (⟨.locals, some scope, ·⟩) := by
  simp only [entries, bucketEntries, List.filter_append, List.filter_map, List.filter_flatMap,
    List.filter_reverse]
  rfl

/-- At a position the same is seen of two stores if the parameters that have the key are the same in
the system tier, in the global tier and in all buckets that are come across. -/
lemma sameView_of_tiers {key : String} {s s' : Store} {position : Option Position}
    (hsystem : s.system.filter (·.answersTo key) = s'.system.filter (·.answersTo key))
    (hglobals : s.globals.filter (·.answersTo key) = s'.globals.filter (·.answersTo key))
    (hlocals : ∀ scope ∈ levels position,
      (s.locals.get scope).filter (·.answersTo key) =
        (s'.locals.get scope).filter (·.answersTo key))
    (hfilter : s.filter = s'.filter) (hid : s.deploymentId = s'.deploymentId) :
    SameView key s position s' position where
  filter := hfilter
  execution := rfl
  computed := by rw [computed?, computed?, hid]
  entries := by
    have hbuckets : (levels position).map (fun scope =>
        ((s.locals.get scope).filter (·.answersTo key)).reverse.map
          (Entry.mk .locals (some scope))) =
        (levels position).map fun scope =>
          ((s'.locals.get scope).filter (·.answersTo key)).reverse.map
            (Entry.mk .locals (some scope)) := by
      refine List.map_congr_left ?_
      intro scope hscope
      rw [hlocals scope hscope]
    rw [filter_entries, filter_entries, hsystem, hglobals, List.flatMap_def, List.flatMap_def,
      hbuckets]
  own := by
    rintro here rfl here' hhere'
    obtain rfl : here = here' := Option.some.inj hhere'
    exact hlocals here.scopeKey List.mem_cons_self

/-! ### What the filter lets through -/

/-- The parameters in the own bucket of a position are among what is seen from it. -/
lemma mem_entries_of_mem_own {store : Store} {here : Position} {parameter : Parameter}
    (h : parameter ∈ store.locals.get here.scopeKey) :
    ⟨.locals, some here.scopeKey, parameter⟩ ∈ store.entries (some here) := by
  have hlevel : here.scopeKey ∈ levels (some here) := List.mem_cons_self
  have hbucket : ⟨.locals, some here.scopeKey, parameter⟩ ∈ store.bucketEntries here.scopeKey :=
    List.mem_map_of_mem (List.mem_reverse.2 h)
  exact List.mem_append_right _ (List.mem_flatMap.2 ⟨here.scopeKey, hlevel, hbucket⟩)

/-- Filters that accept the same among the entries seen from a position give the same answers
there. -/
theorem sameAnswersTo_of_accepts (store : Store) {f f' : Filter} {position : Option Position}
    (h : ∀ entry ∈ store.entries position, f.accepts entry.parameter = f'.accepts entry.parameter)
    (key : String) :
    SameAnswersTo key { store with filter := f } position { store with filter := f' } position := by
  have hfind : { store with filter := f }.find? key position =
      { store with filter := f' }.find? key position := by
    refine List.find?_congr ?_
    intro entry hentry
    exact congrArg (entry.parameter.answersTo key && ·) (h entry hentry)
  have hresolve : { store with filter := f }.resolve key position =
      { store with filter := f' }.resolve key position := by
    rw [resolve_eq_computed?, resolve_eq_computed?, hfind]
    rfl
  have hcandidates : { store with filter := f }.candidates key position =
      { store with filter := f' }.candidates key position := by
    refine List.map_congr_left ?_
    intro entry hentry
    have hseen : entry ∈ store.entries position := (List.mem_filter.1 hentry).1
    simp only [candidate, h entry hseen]
  refine ⟨hresolve, by rw [hasValue, hasValue, hresolve], ?_, ?_⟩
  · rintro here rfl here' hhere'
    obtain rfl : here = here' := Option.some.inj hhere'
    refine congrArg (Option.map Parameter.value) (List.find?_congr ?_)
    intro parameter hparameter
    have hseen := mem_entries_of_mem_own (List.mem_reverse.1 hparameter)
    exact congrArg (parameter.answersTo key && ·) (h _ hseen)
  · simp only [explain, hcandidates, hresolve]

end Store

end ChangelogParameters
