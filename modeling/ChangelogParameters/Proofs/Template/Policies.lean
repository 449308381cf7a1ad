import ChangelogParameters.Proofs.Template.Expansion

/-!
# The policies compared

An expansion can be run under each of the three policies for names without a value.  As long as
every name has one, the policies do the same.  They part at the first name without a value: the
strict policy stops there, the other two go on.

So a strict run is a lenient run, halted at the first name without a value.  `halt` does this to
an arbitrary expansion, and `expand_strict` says that it turns lenient runs into strict ones.  The
names that are looked up after the halt may be quite different under the two lenient policies, but
none of them matters to the strict run.
-/

namespace ChangelogParameters

namespace Expander

variable {α β : Type}

/-- The expander with another policy. -/
def withMode (x : Expander) (mode : MissingMode) : Expander :=
  { x with mode := mode }

/-- Whether a name has no value. -/
def lacks (x : Expander) (name : String) : Bool :=
  (x.lookup name).isNone

/-- A name with the lookups up to it, as a failure. -/
def failure (x : Expander) (before : List String) (name : String) : Expansion α :=
  ⟨before ++ [name], .error ⟨name, x.location⟩⟩

/-- An expansion that is given up at the first name without a value. -/
def halt (x : Expander) (e : Expansion α) : Expansion α :=
  match e.lookups.find? x.lacks with
  | none => e
  | some name => x.failure (e.lookups.takeWhile fun n => !x.lacks n) name

/-! ### Halting -/

/-- An expansion in which every name has a value is not halted. -/
lemma halt_of_forall (x : Expander) {e : Expansion α}
    (h : ∀ name ∈ e.lookups, x.lacks name = false) : x.halt e = e := by
  have hnone : e.lookups.find? x.lacks = none := by
    rw [List.find?_eq_none]
    intro name hname
    simp [h name hname]
  rw [halt, hnone]

/-- An expansion is halted at a name without a value if all the names before it have one. -/
lemma halt_of_lacks (x : Expander) {e : Expansion α} {before after : List String} {name : String}
    (hbefore : ∀ n ∈ before, x.lacks n = false) (hname : x.lacks name = true)
    (hsplit : e.lookups = before ++ name :: after) : x.halt e = x.failure before name := by
  have hfind : (before ++ name :: after).find? x.lacks = some name := by
    rw [List.find?_append, List.find?_eq_none.2 (by simpa using hbefore), List.find?_cons, hname]
    rfl
  have htake : (before ++ name :: after).takeWhile (fun n => !x.lacks n) = before := by
    rw [List.takeWhile_append_of_pos (by simpa using hbefore), List.takeWhile_cons]
    simp [hname]
  rw [halt, hsplit, hfind, htake]

/-- Either every name of a list has a value, or there is a first one without. -/
lemma forall_or_exists_lacks (x : Expander) (lookups : List String) :
    (∀ name ∈ lookups, x.lacks name = false) ∨
      ∃ before name after, lookups = before ++ name :: after ∧
        (∀ n ∈ before, x.lacks n = false) ∧ x.lacks name = true := by
  cases h : lookups.find? x.lacks with
  | none =>
    left
    simpa using h
  | some name =>
    right
    obtain ⟨hname, before, after, hsplit, hbefore⟩ := List.find?_eq_some_iff_append.1 h
    exact ⟨before, name, after, hsplit, by simpa using hbefore, hname⟩

/-- Two expansions one after the other are halted one after the other. -/
lemma halt_bind (x : Expander) {e : Expansion α} {a : α} (he : e.result = .ok a)
    (f : α → Expansion β) : x.halt (e >>= f) = x.halt e >>= fun a => x.halt (f a) := by
  rw [Expansion.bind_of_ok he]
  rcases x.forall_or_exists_lacks e.lookups with
    hall | ⟨before, name, after, hsplit, hbefore, hname⟩
  · -- The first one is not halted, so the second one is halted where it would be alone.
    rw [x.halt_of_forall hall, Expansion.bind_of_ok he]
    rcases x.forall_or_exists_lacks (f a).lookups with
      hall' | ⟨before, name, after, hsplit, hbefore, hname⟩
    · rw [x.halt_of_forall hall', x.halt_of_forall]
      intro name hname
      rcases List.mem_append.1 hname with hname | hname
      · exact hall name hname
      · exact hall' name hname
    · have hbefore' : ∀ n ∈ e.lookups ++ before, x.lacks n = false := by
        intro n hn
        rcases List.mem_append.1 hn with hn | hn
        · exact hall n hn
        · exact hbefore n hn
      have hsplit' : e.lookups ++ (f a).lookups = e.lookups ++ before ++ name :: after := by
        rw [hsplit, List.append_assoc]
      have hhalt : x.halt ⟨e.lookups ++ (f a).lookups, (f a).result⟩ =
          x.failure (e.lookups ++ before) name := x.halt_of_lacks hbefore' hname hsplit'
      rw [hhalt, x.halt_of_lacks hbefore hname hsplit, failure, failure, List.append_assoc]
  · have hsplit' : e.lookups ++ (f a).lookups = before ++ name :: (after ++ (f a).lookups) := by
      rw [hsplit, List.append_assoc, List.cons_append]
    rw [x.halt_of_lacks hbefore hname hsplit, failure, Expansion.bind_error]
    exact x.halt_of_lacks hbefore hname hsplit'

/-- Whether an expansion is halted does not depend on what is made of its result. -/
lemma halt_map (x : Expander) (f : α → β) (e : Expansion α) :
    x.halt (f <$> e) = f <$> x.halt e := by
  obtain ⟨lookups, result⟩ := e
  rw [Expansion.map_mk, halt, halt]
  cases lookups.find? x.lacks with
  | none => simp only [Expansion.map_mk]
  | some name => simp only [failure, Expansion.map_mk, Except.map]

/-- A halted expansion has the result of the expansion if every name has a value, and otherwise
reports the first one without. -/
lemma result_halt (x : Expander) (e : Expansion α) :
    (x.halt e).result = match e.lookups.find? x.lacks with
      | none => e.result
      | some name => .error ⟨name, x.location⟩ := by
  unfold halt
  split <;> rfl

/-! ### Lenient runs and strict runs -/

/-- Unless the policy is strict, there is something for every name without a value. -/
lemma exists_missing_eq_ok {x : Expander} (h : x.mode ≠ .error) (raw : List Char) (name : String) :
    ∃ value, x.missing raw name = .ok value := by
  unfold missing
  cases hmode : x.mode with
  | preserve => exact ⟨_, rfl⟩
  | empty => exact ⟨_, rfl⟩
  | error => exact absurd hmode h

/-- Unless the policy is strict, substitution succeeds. -/
lemma exists_substitute_eq_ok {x : Expander} (h : x.mode ≠ .error) (raw : List Char) :
    ∃ value, (x.substitute raw).result = .ok value := by
  by_cases hraw : raw.head? = some ':'
  · obtain ⟨body, rfl⟩ := List.head?_eq_some_iff.1 hraw
    exact ⟨_, rfl⟩
  · rw [substitute_name x hraw]
    split
    · exact ⟨_, rfl⟩
    · exact exists_missing_eq_ok h raw _

/-- Unless the policy is strict, the expansion of a template succeeds. -/
lemma exists_expandTemplate_eq_ok {x : Expander} (h : x.mode ≠ .error) (t : Template) :
    ∃ out, (x.expandTemplate t).result = .ok out := by
  induction t with
  | rest text => exact ⟨text, rfl⟩
  | hole before body after ihbody ihafter =>
    obtain ⟨raw, hraw⟩ := ihbody
    obtain ⟨value, hvalue⟩ := exists_substitute_eq_ok h raw
    obtain ⟨behind, hbehind⟩ := ihafter
    refine ⟨before ++ value ++ behind, ?_⟩
    rw [expandTemplate, Expansion.bind_of_ok hraw, Expansion.bind_of_ok hvalue,
      Expansion.bind_of_ok hbehind]
    rfl

/-- Strict substitution is substitution, halted. -/
lemma substitute_strict (x : Expander) (raw : List Char) :
    (x.withMode .error).substitute raw = x.halt (x.substitute raw) := by
  by_cases hraw : raw.head? = some ':'
  · obtain ⟨body, rfl⟩ := List.head?_eq_some_iff.1 hraw
    exact (x.halt_of_forall (by simp [substitute, Expansion.done])).symm
  · have hlookup : (x.withMode .error).lookup = x.lookup := rfl
    rw [substitute_name _ hraw, substitute_name _ hraw, hlookup]
    cases hvalue : x.lookup (String.ofList (Text.trimChars raw)) with
    | some value =>
      refine (x.halt_of_forall ?_).symm
      simp [lacks, hvalue]
    | none =>
      have hlacks : x.lacks (String.ofList (Text.trimChars raw)) = true := by
        simp [lacks, hvalue]
      have hsplit : [String.ofList (Text.trimChars raw)] =
          [] ++ String.ofList (Text.trimChars raw) :: [] := rfl
      have hnone : ∀ n ∈ ([] : List String), x.lacks n = false := by simp
      exact (x.halt_of_lacks hnone hlacks hsplit).symm

/-- The strict expansion of a template is a lenient one, halted. -/
lemma expandTemplate_strict {x : Expander} (h : x.mode ≠ .error) (t : Template) :
    (x.withMode .error).expandTemplate t = x.halt (x.expandTemplate t) := by
  induction t with
  | rest text => exact (x.halt_of_forall (by simp [expandTemplate, Expansion.done])).symm
  | hole before body after ihbody ihafter =>
    obtain ⟨raw, hraw⟩ := exists_expandTemplate_eq_ok h body
    obtain ⟨behind, hbehind⟩ := exists_expandTemplate_eq_ok h after
    have hpure : ∀ out : List Char, x.halt (pure out) = pure out := fun out =>
      x.halt_of_forall (by simp [pure, Expansion.done])
    rw [expandTemplate, expandTemplate, ihbody, ihafter, x.halt_bind hraw]
    congr 1
    funext raw
    obtain ⟨value, hvalue⟩ := exists_substitute_eq_ok h raw
    rw [substitute_strict, x.halt_bind hvalue]
    congr 1
    funext value
    rw [x.halt_bind hbehind]
    simp only [hpure]

/-- The strict expansion of a text is a lenient one, halted. -/
theorem expand_strict {x : Expander} (h : x.mode ≠ .error) (text : String) :
    (x.withMode .error).expand text = x.halt (x.expand text) := by
  rw [expand_eq_map, expand_eq_map, expandTemplate_strict h, halt_map]

/-- Unless the policy is strict, the expansion of a text succeeds. -/
lemma exists_expand_eq_ok {x : Expander} (h : x.mode ≠ .error) (text : String) :
    ∃ out, (x.expand text).result = .ok out := by
  obtain ⟨out, hout⟩ := exists_expandTemplate_eq_ok h (Template.ofChars text.toList)
  refine ⟨String.ofList out, ?_⟩
  rw [expand_eq_map, Expansion.result_map, hout]
  rfl

end Expander

/-! ### What the policies have in common -/

/-- How the results of one expansion under the three policies hang together, given the names that
are looked up when names without a value are left in place. -/
structure PoliciesAgree (result : MissingMode → Except Unresolved String) (lookups : List String)
    (Lacks : String → Prop) (location : Option String) : Prop where
  /-- Only the strict policy can fail. -/
  exists_ok : ∀ mode, mode ≠ .error → ∃ out, result mode = .ok out
  /-- What comes out under the strict policy comes out under every policy. -/
  ok_of_strict : ∀ out, result .error = .ok out → ∀ mode, result mode = .ok out
  /-- The strict policy fails if some name has no value, and reports the first such name. -/
  strict_eq_error_iff : ∀ e, result .error = .error e ↔
    ∃ before name after, lookups = before ++ name :: after ∧ (∀ n ∈ before, ¬ Lacks n) ∧
      Lacks name ∧ e = ⟨name, location⟩

namespace Expander

/-- A strict run that succeeds has looked up no name without a value, so it is not halted. -/
lemma result_of_strict {x : Expander} (h : x.mode ≠ .error) {text : String} {out : String}
    (hout : ((x.withMode .error).expand text).result = .ok out) :
    (x.expand text).result = .ok out := by
  rw [expand_strict h, result_halt] at hout
  split at hout
  · exact hout
  · cases hout

/-- A strict run fails exactly at the first name without a value of a lenient run. -/
lemma strict_eq_error_iff {x : Expander} (h : x.mode ≠ .error) (text : String) (e : Unresolved) :
    ((x.withMode .error).expand text).result = .error e ↔
      ∃ before name after, (x.expand text).lookups = before ++ name :: after ∧
        (∀ n ∈ before, x.lacks n = false) ∧ x.lacks name = true ∧ e = ⟨name, x.location⟩ := by
  rw [expand_strict h]
  constructor
  · intro he
    rcases x.forall_or_exists_lacks (x.expand text).lookups with
      hall | ⟨before, name, after, hsplit, hbefore, hname⟩
    · obtain ⟨out, hout⟩ := exists_expand_eq_ok h text
      rw [x.halt_of_forall hall, hout] at he
      cases he
    · rw [x.halt_of_lacks hbefore hname hsplit] at he
      exact ⟨before, name, after, hsplit, hbefore, hname, (Except.error.inj he).symm⟩
  · rintro ⟨before, name, after, hsplit, hbefore, hname, rfl⟩
    rw [x.halt_of_lacks hbefore hname hsplit]
    rfl

/-- The policies agree on the expansion of every text. -/
lemma policiesAgree_expand (x : Expander) (text : String) :
    PoliciesAgree (fun mode => ((x.withMode mode).expand text).result)
      ((x.withMode .preserve).expand text).lookups (fun name => x.lookup name = none)
      x.location where
  exists_ok mode hmode := exists_expand_eq_ok (x := x.withMode mode) hmode text
  ok_of_strict out hout mode := by
    by_cases hmode : mode = .error
    · rw [hmode]
      exact hout
    · exact result_of_strict (x := x.withMode mode) hmode hout
  strict_eq_error_iff e := by
    have hlenient : (x.withMode .preserve).mode ≠ .error := nofun
    have hiff := strict_eq_error_iff hlenient text e
    simpa [lacks, withMode, ← Option.ne_none_iff_isSome] using hiff

end Expander

end ChangelogParameters
