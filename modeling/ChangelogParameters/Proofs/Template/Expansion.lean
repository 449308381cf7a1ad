import ChangelogParameters.Proofs.Template.Segmentation
import ChangelogParameters.Template.Expansion

/-!
# The meaning of an expansion

This file gives rules for what a text expands to, in terms of its segmentation: which names are
looked up for it, in which order, and what comes out.  The placeholders are filled from left to
right, the body of each being expanded before its name is looked up, and the first name that has
to have a value and has none ends the expansion.  Nothing is looked up for the tail.

`expand_iff_expands` says that expanding a text follows these rules and no others.
-/

namespace ChangelogParameters

/-! ### Expansions one after the other -/

namespace Expansion

variable {α β γ : Type}

/-- After a success the lookups of the next expansion are added. -/
lemma bind_ok (lookups : List String) (a : α) (f : α → Expansion β) :
    (⟨lookups, .ok a⟩ : Expansion α) >>= f = ⟨lookups ++ (f a).lookups, (f a).result⟩ := rfl

/-- After an expansion that succeeds the lookups of the next one are added. -/
lemma bind_of_ok {e : Expansion α} {a : α} (he : e.result = .ok a) (f : α → Expansion β) :
    e >>= f = ⟨e.lookups ++ (f a).lookups, (f a).result⟩ := by
  obtain ⟨lookups, result⟩ := e
  obtain rfl : result = .ok a := he
  exact bind_ok lookups a f

/-- After a failure nothing is looked up any more. -/
lemma bind_error (lookups : List String) (e : Unresolved) (f : α → Expansion β) :
    (⟨lookups, .error e⟩ : Expansion α) >>= f = ⟨lookups, .error e⟩ := rfl

/-- If two expansions one after the other succeed, each of them does. -/
lemma exists_of_bind_ok {e : Expansion α} {f : α → Expansion β} {b : β}
    (h : (e >>= f).result = .ok b) : ∃ a, e.result = .ok a ∧ (f a).result = .ok b := by
  obtain ⟨lookups, _ | a⟩ := e
  · cases h
  · exact ⟨a, rfl, h⟩

/-- It does not matter how three expansions one after the other are grouped. -/
lemma bind_assoc' (x : Expansion α) (f : α → Expansion β) (g : β → Expansion γ) :
    x >>= f >>= g = x >>= fun a => f a >>= g := by
  obtain ⟨lookups, _ | a⟩ := x
  · rfl
  · rw [bind_ok, bind_ok]
    rcases hf : f a with ⟨lookups', _ | b⟩
    · rw [bind_error, bind_error]
    · rw [bind_ok, bind_ok, List.append_assoc]

instance : LawfulMonad Expansion :=
  LawfulMonad.mk' Expansion
    (fun ⟨lookups, result⟩ => by
      cases result with
      | error e => rfl
      | ok a => exact congrArg (Expansion.mk · (.ok a)) (List.append_nil lookups))
    (fun _ _ => rfl)
    bind_assoc'

/-- A function applied to the result of an expansion leaves the lookups as they are. -/
lemma map_mk (f : α → β) (lookups : List String) (result : Except Unresolved α) :
    f <$> (⟨lookups, result⟩ : Expansion α) = ⟨lookups, result.map f⟩ := by
  cases result with
  | error e => rfl
  | ok a => exact congrArg (Expansion.mk · (.ok (f a))) (List.append_nil lookups)

lemma lookups_map (f : α → β) (e : Expansion α) : (f <$> e).lookups = e.lookups := by
  obtain ⟨lookups, result⟩ := e
  rw [map_mk]

lemma result_map (f : α → β) (e : Expansion α) : (f <$> e).result = e.result.map f := by
  obtain ⟨lookups, result⟩ := e
  rw [map_mk]

end Expansion

/-! ### The rules -/

namespace Expander

open Template

/-- What comes in the place of a placeholder whose body has become `raw`, and what is looked up
for it. -/
inductive Replaces (x : Expander) (raw : List Char) :
    List String → Except Unresolved (List Char) → Prop
  /-- Behind a colon the body is not looked up but put back into braces. -/
  | escape {body : List Char} (h : raw = ':' :: body) :
      Replaces x raw [] (.ok (opening ++ Text.trimChars body ++ ['\x7d']))
  /-- A name that has a value is replaced by the value. -/
  | found {name value : String} (hraw : raw.head? ≠ some ':')
      (hname : name.toList = Text.trimChars raw) (hvalue : x.lookup name = some value) :
      Replaces x raw [name] (.ok value.toList)
  /-- A name without a value can be left as it is. -/
  | preserve {name : String} (hraw : raw.head? ≠ some ':')
      (hname : name.toList = Text.trimChars raw) (hvalue : x.lookup name = none)
      (hmode : x.mode = .preserve) :
      Replaces x raw [name] (.ok (opening ++ raw ++ ['\x7d']))
  /-- A name without a value can be left out. -/
  | empty {name : String} (hraw : raw.head? ≠ some ':')
      (hname : name.toList = Text.trimChars raw) (hvalue : x.lookup name = none)
      (hmode : x.mode = .empty) :
      Replaces x raw [name] (.ok [])
  /-- A name without a value can be an error. -/
  | error {name : String} (hraw : raw.head? ≠ some ':')
      (hname : name.toList = Text.trimChars raw) (hvalue : x.lookup name = none)
      (hmode : x.mode = .error) :
      Replaces x raw [name] (.error ⟨name, x.location⟩)

mutual

/-- What a text expands to, and what is looked up for it in order: the placeholders of its
segmentation are filled, and the tail is left as it is. -/
inductive Expands (x : Expander) :
    List Char → List String → Except Unresolved (List Char) → Prop
  | segments {s : Segmentation} {looked : List String} {outcome : Except Unresolved (List Char)}
      (hs : s.Valid) (h : Fills x s.holes looked outcome) :
      Expands x s.source looked (outcome.map (· ++ s.last ++ s.tail))

/-- What placeholders with the text before each of them expand to, and what is looked up for them
in order. -/
inductive Fills (x : Expander) :
    List (List Char × List Char) → List String → Except Unresolved (List Char) → Prop
  | nil : Fills x [] [] (.ok [])
  /-- A placeholder that can be replaced is, and the others are filled after it. -/
  | cons {before body raw value : List Char} {holes : List (List Char × List Char)}
      {inner own behind : List String} {outcome : Except Unresolved (List Char)}
      (hbody : Expands x body inner (.ok raw)) (hvalue : Replaces x raw own (.ok value))
      (hholes : Fills x holes behind outcome) :
      Fills x ((before, body) :: holes) (inner ++ own ++ behind)
        (outcome.map (before ++ value ++ ·))
  /-- A failure in the body of a placeholder is the end. -/
  | body_fails {before body : List Char} {holes : List (List Char × List Char)}
      {inner : List String} {e : Unresolved} (hbody : Expands x body inner (.error e)) :
      Fills x ((before, body) :: holes) inner (.error e)
  /-- A placeholder that cannot be replaced is the end. -/
  | name_fails {before body raw : List Char} {holes : List (List Char × List Char)}
      {inner own : List String} {e : Unresolved}
      (hbody : Expands x body inner (.ok raw)) (hvalue : Replaces x raw own (.error e)) :
      Fills x ((before, body) :: holes) (inner ++ own) (.error e)

end

/-! ### Substitution follows the rules -/

/-- A body that does not begin with a colon is looked up under its trimmed text. -/
lemma substitute_name (x : Expander) {raw : List Char} (h : raw.head? ≠ some ':') :
    x.substitute raw = match x.lookup (String.ofList (Text.trimChars raw)) with
      | some value => ⟨[String.ofList (Text.trimChars raw)], .ok value.toList⟩
      | none => ⟨[String.ofList (Text.trimChars raw)],
          x.missing raw (String.ofList (Text.trimChars raw))⟩ := by
  unfold substitute
  split
  case h_1 escaped => exact absurd rfl h
  case h_2 => rfl

/-- Substitution does what some rule says. -/
lemma replaces_substitute (x : Expander) (raw : List Char) :
    Replaces x raw (x.substitute raw).lookups (x.substitute raw).result := by
  by_cases hraw : raw.head? = some ':'
  · obtain ⟨body, rfl⟩ := List.head?_eq_some_iff.1 hraw
    exact .escape rfl
  · have hname := String.toList_ofList (l := Text.trimChars raw)
    rw [substitute_name x hraw]
    cases hvalue : x.lookup (String.ofList (Text.trimChars raw)) with
    | some value => exact .found hraw hname hvalue
    | none =>
      unfold missing
      cases hmode : x.mode with
      | preserve => exact .preserve hraw hname hvalue hmode
      | empty => exact .empty hraw hname hvalue hmode
      | error => exact .error hraw hname hvalue hmode

/-- What a rule says is what substitution does. -/
lemma substitute_of_replaces {x : Expander} {raw : List Char} {looked : List String}
    {outcome : Except Unresolved (List Char)} (h : Replaces x raw looked outcome) :
    x.substitute raw = ⟨looked, outcome⟩ := by
  have hofList : ∀ {name : String}, name.toList = Text.trimChars raw →
      String.ofList (Text.trimChars raw) = name := by
    rintro name hname
    rw [← hname, String.ofList_toList]
  cases h with
  | escape h => rw [h]; rfl
  | found hraw hname hvalue => simp [substitute_name x hraw, hofList hname, hvalue]
  | preserve hraw hname hvalue hmode =>
    simp [substitute_name x hraw, hofList hname, hvalue, missing, hmode, placeholder]
  | empty hraw hname hvalue hmode =>
    simp [substitute_name x hraw, hofList hname, hvalue, missing, hmode]
  | error hraw hname hvalue hmode =>
    simp [substitute_name x hraw, hofList hname, hvalue, missing, hmode]

/-! ### Expansion follows the rules -/

/-- The expansion of placeholders with the text before each of them. -/
def fill (x : Expander) : List (List Char × List Char) → Expansion (List Char)
  | [] => pure []
  | (before, body) :: holes => do
    let raw ← x.expandTemplate (ofChars body)
    let value ← x.substitute raw
    let behind ← x.fill holes
    pure (before ++ value ++ behind)

/-- The expansion of a text fills the placeholders of its segmentation. -/
lemma expandTemplate_source (x : Expander) {s : Segmentation} (hs : s.Valid) :
    x.expandTemplate (ofChars s.source) = (· ++ s.last ++ s.tail) <$> x.fill s.holes := by
  induction s using Segmentation.induction with
  | bare last tail =>
    rw [Segmentation.source_bare, ofChars_of_bare hs.last hs.tail]
    rfl
  | cons before body s ih =>
    obtain ⟨hbefore, hbody, hrest⟩ := Segmentation.valid_cons_iff.1 hs
    rw [Segmentation.source_cons, ofChars_of_hole hbefore hbody, expandTemplate, ih hrest]
    simp [Segmentation.cons, fill]

mutual

/-- What the rules say about a text is what its expansion does. -/
lemma expandTemplate_of_expands {x : Expander} :
    ∀ {text : List Char} {looked : List String} {outcome : Except Unresolved (List Char)},
      Expands x text looked outcome → x.expandTemplate (ofChars text) = ⟨looked, outcome⟩
  | _, _, _, .segments hs hfills => by
    rw [expandTemplate_source x hs, fill_of_fills hfills, Expansion.map_mk]

/-- What the rules say about placeholders is what their expansion does. -/
lemma fill_of_fills {x : Expander} :
    ∀ {holes : List (List Char × List Char)} {looked : List String}
      {outcome : Except Unresolved (List Char)},
      Fills x holes looked outcome → x.fill holes = ⟨looked, outcome⟩
  | _, _, _, .nil => rfl
  | _, _, _, .cons hbody hvalue hholes => by
    rw [fill, expandTemplate_of_expands hbody, Expansion.bind_ok, substitute_of_replaces hvalue,
      Expansion.bind_ok, fill_of_fills hholes, bind_pure_comp, Expansion.map_mk,
      ← List.append_assoc]
  | _, _, _, .body_fails hbody => by
    rw [fill, expandTemplate_of_expands hbody, Expansion.bind_error]
  | _, _, _, .name_fails hbody hvalue => by
    rw [fill, expandTemplate_of_expands hbody, Expansion.bind_ok, substitute_of_replaces hvalue,
      Expansion.bind_error]

end

/-- The expansion of placeholders follows the rules if the expansions of their bodies do. -/
lemma fills_fill (x : Expander) {holes : List (List Char × List Char)}
    (h : ∀ hole ∈ holes, Expands x hole.2 (x.expandTemplate (ofChars hole.2)).lookups
      (x.expandTemplate (ofChars hole.2)).result) :
    Fills x holes (x.fill holes).lookups (x.fill holes).result := by
  induction holes with
  | nil => exact .nil
  | cons hole holes ih =>
    obtain ⟨before, body⟩ := hole
    have hbody := h (before, body) (by simp)
    have hholes := ih fun hole hmem => h hole (by simp [hmem])
    rw [fill]
    rcases hinner : x.expandTemplate (ofChars body) with ⟨inner, e | raw⟩
    · rw [hinner] at hbody
      exact .body_fails hbody
    · rw [hinner] at hbody
      have hvalue := replaces_substitute x raw
      rw [Expansion.bind_ok]
      rcases hown : x.substitute raw with ⟨own, e | value⟩
      · rw [hown] at hvalue
        exact .name_fails hbody hvalue
      · rw [hown] at hvalue
        rw [Expansion.bind_ok, bind_pure_comp]
        rcases hbehind : x.fill holes with ⟨behind, outcome⟩
        rw [hbehind] at hholes
        rw [Expansion.map_mk, ← List.append_assoc]
        exact .cons hbody hvalue hholes

/-- The body of a placeholder is shorter than the text. -/
lemma length_body_lt {s : Segmentation} {hole : List Char × List Char} (h : hole ∈ s.holes) :
    hole.2.length < s.source.length := by
  induction s using Segmentation.induction with
  | bare last tail => simp at h
  | cons before body s ih =>
    rw [Segmentation.source_cons]
    simp only [List.length_append, List.length_cons]
    rcases List.mem_cons.1 h with rfl | h
    · change body.length < _
      omega
    · have := ih h
      omega

/-- The expansion of a text follows the rules. -/
lemma expands_expandTemplate (x : Expander) (text : List Char) :
    Expands x text (x.expandTemplate (ofChars text)).lookups
      (x.expandTemplate (ofChars text)).result := by
  obtain ⟨s, hs, hsource⟩ : ∃ s : Segmentation, s.Valid ∧ s.source = text :=
    ⟨_, segmentation_ofChars text⟩
  have hfills := x.fills_fill fun hole (hmem : hole ∈ s.holes) => expands_expandTemplate x hole.2
  rw [← hsource, expandTemplate_source x hs]
  rcases hfill : x.fill s.holes with ⟨looked, outcome⟩
  rw [hfill] at hfills
  rw [Expansion.map_mk]
  exact .segments hs hfills
termination_by text.length
decreasing_by exact hsource ▸ length_body_lt hmem

/-- The expansion of a list of characters is what the rules say, and nothing else. -/
lemma expandTemplate_eq_iff_expands (x : Expander) (text : List Char) (looked : List String)
    (outcome : Except Unresolved (List Char)) :
    x.expandTemplate (ofChars text) = ⟨looked, outcome⟩ ↔ Expands x text looked outcome := by
  constructor
  · intro h
    have hexpands := expands_expandTemplate x text
    rwa [h] at hexpands
  · exact expandTemplate_of_expands

/-- Outcomes are equal if they are equal as texts. -/
lemma map_ofList_inj {r r' : Except Unresolved (List Char)} :
    r.map String.ofList = r'.map String.ofList ↔ r = r' := by
  cases r <;> cases r' <;> simp [Except.map, String.ofList_inj]

/-- A text in which nothing is opened would be given back by reading its template as well. -/
lemma expandTemplate_of_plain (x : Expander) {text : List Char} (h : Plain text) :
    x.expandTemplate (ofChars text) = ⟨[], .ok text⟩ := by
  have hrest : ofChars text = rest text := by
    simpa using ofChars_of_bare h (.inl rfl)
  rw [hrest, expandTemplate, Expansion.done]

/-- The early return for plain texts makes no difference. -/
lemma expand_eq_map (x : Expander) (text : String) :
    x.expand text = String.ofList <$> x.expandTemplate (ofChars text.toList) := by
  unfold expand
  split
  case isTrue hnone =>
    have hplain := splitAtOpening_eq_none_iff.1 (Option.isNone_iff_eq_none.1 hnone)
    rw [expandTemplate_of_plain x hplain, Expansion.map_mk, Except.map, String.ofList_toList,
      Expansion.done]
  case isFalse => rw [bind_pure_comp]

/-- **What a text expands to.**  Every text has exactly one segmentation; its expansion, with the
names that are looked up, is the one that the rules derive from segmentations; and in particular
a text without placeholders expands to itself, and nothing is looked up for it. -/
theorem expand_iff_expands (x : Expander) (text : String) :
    (∃! s : Segmentation, s.Valid ∧ s.source = text.toList) ∧
      (∀ (looked : List String) (outcome : Except Unresolved (List Char)),
        x.expand text = ⟨looked, outcome.map String.ofList⟩ ↔
          Expands x text.toList looked outcome) ∧
      (Plain text.toList → x.expand text = ⟨[], .ok text⟩) := by
  refine ⟨existsUnique_segmentation text.toList, ?_, ?_⟩
  · intro looked outcome
    rw [← expandTemplate_eq_iff_expands, expand_eq_map]
    rcases x.expandTemplate (ofChars text.toList) with ⟨lookups, result⟩
    rw [Expansion.map_mk, Expansion.mk.injEq, Expansion.mk.injEq, map_ofList_inj]
  · intro hplain
    rw [expand_eq_map, expandTemplate_of_plain x hplain, Expansion.map_mk, Except.map,
      String.ofList_toList]

end Expander

end ChangelogParameters
