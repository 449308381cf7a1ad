import ChangelogParameters.Proofs.Template.Policies

/-!
# Placeholders and look-ups

The placeholders of a text are those of its segmentation, together with the placeholders of their
bodies.  This file compares them with the names that are looked up when the text is expanded.

Every placeholder is looked up exactly once, under the name that its body comes to, unless the
body comes to something that begins with a colon.  Such a placeholder is read as an escape, whether
the colon was written in the text or came out of a placeholder at the very start of the body.  In
the second case the placeholder is *misread*: a value has become part of the syntax.  The number of
look-ups is the number of placeholders without a colon of their own exactly if none is misread
(`lookups_expand`), and `not_lookups_eq_named` shows that this may fail.
-/

namespace ChangelogParameters

namespace Template

/-- The bodies of the placeholders of a template, at every depth, in the order in which they are
filled. -/
def bodies : Template → List (List Char)
  | rest _ => []
  | hole _ body after => body.bodies ++ body.source :: after.bodies

/-- The bodies of the placeholders of a text, at every depth. -/
def placeholders (text : List Char) : List (List Char) :=
  (ofChars text).bodies

/-- Whether a colon stands at the beginning of a body. -/
def isEscape (body : List Char) : Bool :=
  body.head? == some ':'

/-- The placeholders of a text that has a placeholder behind plain text. -/
lemma placeholders_hole {before body : List Char} (hbefore : Plain before) (hbody : Balanced body)
    (after : List Char) :
    placeholders (before ++ opening ++ (body ++ '\x7d' :: after)) =
      placeholders body ++ body :: placeholders after := by
  rw [placeholders, ofChars_of_hole hbefore hbody, bodies, source_ofChars, placeholders,
    placeholders]

end Template

namespace Expander

open Template

/-- The name under which a placeholder is looked up, which is what its body comes to; none if that
begins with a colon. -/
def asked? (x : Expander) (body : List Char) : Option String :=
  match (x.expand (String.ofList body)).result with
  | .ok name => if isEscape name.toList then none else some (Text.trim name)
  | .error _ => none

/-- Whether a placeholder is read as an escape although its body does not begin with a colon. -/
def misreads (x : Expander) (body : List Char) : Bool :=
  !isEscape body && (x.asked? body).isNone

/-! ### What is looked up -/

/-- What a body comes to decides what is looked up for the placeholder. -/
lemma asked?_of_ok {x : Expander} {body raw : List Char}
    (h : (x.expandTemplate (ofChars body)).result = .ok raw) :
    x.asked? body = if isEscape raw then none else some (String.ofList (Text.trimChars raw)) := by
  have hresult : (x.expand (String.ofList body)).result = .ok (String.ofList raw) := by
    rw [expand_eq_map, Expansion.result_map, String.toList_ofList, h]
    rfl
  rw [asked?, hresult]
  simp [Text.trim]

/-- Substitution looks up what is asked for. -/
lemma lookups_substitute {x : Expander} {body raw : List Char}
    (h : (x.expandTemplate (ofChars body)).result = .ok raw) :
    (x.substitute raw).lookups = (x.asked? body).toList := by
  rw [asked?_of_ok h]
  by_cases hraw : raw.head? = some ':'
  · obtain ⟨escaped, rfl⟩ := List.head?_eq_some_iff.1 hraw
    simp [substitute, Expansion.done, isEscape]
  · rw [substitute_name x hraw]
    have hescape : isEscape raw = false := by simpa [isEscape] using hraw
    rw [hescape]
    split <;> rfl

/-- Unless the policy is strict, expanding a text looks up what is asked for by its placeholders,
one after the other. -/
lemma lookups_expandTemplate {x : Expander} (h : x.mode ≠ .error) (text : List Char) :
    (x.expandTemplate (ofChars text)).lookups = (placeholders text).filterMap x.asked? := by
  unfold placeholders
  fun_induction ofChars text with
  | case1 text => rfl
  | case2 text => rfl
  | case3 text before behind _ body after _ ihbody ihafter =>
    obtain ⟨raw, hraw⟩ := exists_expandTemplate_eq_ok h (ofChars body)
    obtain ⟨value, hvalue⟩ := exists_substitute_eq_ok h raw
    obtain ⟨out, hout⟩ := exists_expandTemplate_eq_ok h (ofChars after)
    rw [expandTemplate, Expansion.bind_of_ok hraw, Expansion.bind_of_ok hvalue,
      Expansion.bind_of_ok hout, bodies, source_ofChars]
    simp only [List.filterMap_append, List.filterMap_cons, ← ihbody, ← ihafter,
      lookups_substitute hraw]
    cases x.asked? body <;> simp [pure, Expansion.done]

/-- The same for the text itself. -/
lemma lookups_expand_eq {x : Expander} (h : x.mode ≠ .error) (text : String) :
    (x.expand text).lookups = (placeholders text.toList).filterMap x.asked? := by
  rw [← lookups_expandTemplate h, expand_eq_map, Expansion.lookups_map]

/-! ### Escapes -/

/-- The expansion of a template with a placeholder is put together from the text before it, what
comes in its place, and the rest. -/
lemma exists_of_expandTemplate_hole {x : Expander} {before out : List Char} {body after : Template}
    (h : (x.expandTemplate (.hole before body after)).result = .ok out) :
    ∃ raw value behind, (x.substitute raw).result = .ok value ∧
      out = before ++ value ++ behind := by
  rw [expandTemplate] at h
  obtain ⟨raw, -, h⟩ := Expansion.exists_of_bind_ok h
  obtain ⟨value, hvalue, h⟩ := Expansion.exists_of_bind_ok h
  obtain ⟨behind, -, h⟩ := Expansion.exists_of_bind_ok h
  exact ⟨raw, value, behind, hvalue, (Except.ok.inj h).symm⟩

/-- An expansion begins as its text does, or, if a placeholder stands there, with what comes in its
place. -/
lemma head?_or_value {x : Expander} {text out : List Char}
    (hout : (x.expandTemplate (ofChars text)).result = .ok out) :
    out.head? = text.head? ∨
      opening <+: text ∧
        ∃ raw value behind, (x.substitute raw).result = .ok value ∧ out = value ++ behind := by
  cases text using reading_induction with
  | bare last tail hlast htail =>
    left
    rw [ofChars_of_bare hlast htail, expandTemplate, Expansion.done] at hout
    rw [Except.ok.inj hout]
  | hole before body after hbefore hbody =>
    rw [ofChars_of_hole hbefore hbody] at hout
    obtain ⟨raw, value, behind, hvalue, rfl⟩ := exists_of_expandTemplate_hole hout
    cases before with
    | nil => exact Or.inr ⟨⟨_, rfl⟩, raw, value, behind, hvalue, rfl⟩
    | cons c before => exact Or.inl rfl

/-- What begins with an opening does not begin with a colon. -/
lemma isEscape_eq_false_of_opening {text : List Char} (h : opening <+: text) :
    isEscape text = false := by
  obtain ⟨tail, rfl⟩ := h
  simp [isEscape, opening]

/-- A body that begins with a colon comes to something that begins with one. -/
lemma asked?_of_isEscape {x : Expander} (h : x.mode ≠ .error) {body : List Char}
    (hbody : isEscape body = true) : x.asked? body = none := by
  obtain ⟨raw, hraw⟩ := exists_expandTemplate_eq_ok h (ofChars body)
  rw [asked?_of_ok hraw]
  -- No placeholder can stand where the colon stands.
  rcases head?_or_value hraw with hhead | ⟨hopen, -⟩
  · rw [isEscape, hhead]
    exact if_pos hbody
  · rw [isEscape_eq_false_of_opening hopen] at hbody
    cases hbody

/-- A placeholder is misread only if another placeholder stands at the beginning of its body and
what comes in the place of that one makes the beginning of what is read as an escape. -/
lemma value_of_misreads {x : Expander} (h : x.mode ≠ .error) {body : List Char}
    (hbody : x.misreads body = true) :
    opening <+: body ∧ ∃ raw value behind, (x.substitute raw).result = .ok value ∧
      isEscape (value ++ behind) = true := by
  obtain ⟨name, hname⟩ := exists_expandTemplate_eq_ok h (ofChars body)
  obtain ⟨hplain, hasked⟩ : isEscape body = false ∧ (x.asked? body).isNone = true := by
    simpa [misreads] using hbody
  have hescape : isEscape name = true := by
    rw [asked?_of_ok hname] at hasked
    by_contra hno
    simp [hno] at hasked
  rcases head?_or_value hname with hhead | ⟨hopen, raw, value, behind, hvalue, rfl⟩
  · rw [isEscape, hhead] at hescape
    rw [isEscape, hescape] at hplain
    cases hplain
  · exact ⟨hopen, raw, value, behind, hvalue, hescape⟩

/-- If names without a value are left in place and no value is empty or begins with a colon, then
nothing is misread. -/
lemma misreads_eq_false {x : Expander} (h : x.mode = .preserve)
    (hvalues : ∀ name value, x.lookup name = some value →
      value.toList ≠ [] ∧ isEscape value.toList = false) (body : List Char) :
    x.misreads body = false := by
  rw [← Bool.not_eq_true]
  intro hmisread
  have hlenient : x.mode ≠ .error := by simp [h]
  obtain ⟨-, raw, value, behind, hvalue, hescape⟩ := value_of_misreads hlenient hmisread
  have hreplaces := replaces_substitute x raw
  rw [hvalue] at hreplaces
  generalize (x.substitute raw).lookups = looked at hreplaces
  -- An escape and a name that is left in place begin with an opening, so only a value counts.
  cases hreplaces with
  | escape => simp [isEscape, opening] at hescape
  | @found name text _ _ hfound =>
    obtain ⟨hne, hcolon⟩ := hvalues name text hfound
    obtain ⟨c, cs, hcons⟩ := List.exists_cons_of_ne_nil hne
    rw [hcons] at hescape hcolon
    simp only [isEscape, List.cons_append, List.head?_cons] at hescape hcolon
    rw [hescape] at hcolon
    cases hcolon
  | preserve => simp [isEscape, opening] at hescape
  | empty _ _ _ hmode => simp [h] at hmode

/-! ### Counting -/

/-- Every placeholder without a colon of its own is either looked up or misread. -/
lemma length_lookups_add_misread {x : Expander} (h : x.mode ≠ .error) (text : String) :
    (x.expand text).lookups.length + (placeholders text.toList).countP x.misreads =
      (placeholders text.toList).countP fun body => !isEscape body := by
  rw [lookups_expand_eq h]
  induction placeholders text.toList with
  | nil => rfl
  | cons body bodies ih =>
    rw [List.filterMap_cons, List.countP_cons, List.countP_cons]
    cases hbody : isEscape body with
    | true =>
      rw [asked?_of_isEscape h hbody]
      simpa [misreads, hbody] using ih
    | false =>
      cases hasked : x.asked? body with
      | none =>
        simp [misreads, hbody, hasked]
        omega
      | some name =>
        simp [misreads, hbody, hasked]
        omega

/-- **Placeholders and look-ups.**  Unless the policy is strict, exactly the placeholders that do
not come to an escape are looked up, each once and in order.  Their number is that of all
placeholders without a colon of their own if and only if none of these is misread; which only
happens where a placeholder stands at the very beginning of the body of another, and not at all if
names without a value are left in place and no value is empty or begins with a colon. -/
theorem lookups_expand (x : Expander) (hmode : x.mode ≠ .error) (text : String) :
    (x.expand text).lookups = (placeholders text.toList).filterMap x.asked? ∧
      ((x.expand text).lookups.length =
          (placeholders text.toList).countP (fun body => !isEscape body) ↔
        ∀ body ∈ placeholders text.toList, x.misreads body = false) ∧
      (∀ body, x.misreads body = true → opening <+: body) ∧
      (x.mode = .preserve →
        (∀ name value, x.lookup name = some value →
          value.toList ≠ [] ∧ isEscape value.toList = false) →
        ∀ body, x.misreads body = false) := by
  refine ⟨lookups_expand_eq hmode text, ?_, ?_, misreads_eq_false⟩
  · have hcount := length_lookups_add_misread hmode text
    have hnone : (placeholders text.toList).countP x.misreads = 0 ↔
        ∀ body ∈ placeholders text.toList, x.misreads body = false := by
      simp [List.countP_eq_zero]
    rw [← hnone]
    omega
  · intro body hbody
    exact (value_of_misreads hmode hbody).1

/-- An expander with one value and another for the name that is made with it. -/
def tables : Expander where
  mode := .preserve
  location := none
  lookup name :=
    if name = "env" then some "prod" else if name = "t.prod" then some "users" else none

/-- A name that is put together is looked up like any other; escapes and the tail are not. -/
theorem lookups_expand_tables :
    let text := "$\x7b t.$\x7benv\x7d \x7d$\x7b: env\x7d$\x7bx\x7d $\x7b$\x7benv\x7d"
    tables.mode ≠ .error ∧ (tables.expand text).lookups = ["env", "t.prod", "x"] ∧
      (tables.expand text).lookups.length =
        (placeholders text.toList).countP fun body => !isEscape body := by
  intro text
  have hmode : tables.mode ≠ .error := by decide
  obtain ⟨hlookups, hcount, -, -⟩ := lookups_expand tables hmode text
  exact ⟨hmode, hlookups.trans (by decide +kernel), hcount.2 (by decide +kernel)⟩

/-- An expander for which one value begins with a colon. -/
def colonValue : Expander where
  mode := .preserve
  location := none
  lookup name := if name = "a" then some ":x" else if name = ":x" then some "v" else none

/-- If a value begins with a colon, the placeholder around it may be taken for an escape, so that
it is not looked up although no colon was written in it. -/
theorem not_lookups_eq_named :
    ¬ ∀ (x : Expander) (text : String), x.mode ≠ .error →
      (x.expand text).lookups.length =
        (placeholders text.toList).countP fun body => !isEscape body := by
  intro h
  have hcount := h colonValue "$\x7b$\x7ba\x7d\x7d" (by decide)
  have hlookups : (colonValue.expand "$\x7b$\x7ba\x7d\x7d").lookups = ["a"] := by decide +kernel
  have hplaceholders : placeholders "$\x7b$\x7ba\x7d\x7d".toList =
      [['a'], ['$', '\x7b', 'a', '\x7d']] := by decide +kernel
  rw [hlookups, hplaceholders] at hcount
  revert hcount
  decide

end Expander

end ChangelogParameters
