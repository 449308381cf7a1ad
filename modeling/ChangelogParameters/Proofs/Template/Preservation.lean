import ChangelogParameters.Proofs.Template.Concatenation
import ChangelogParameters.Proofs.Template.Placeholders

/-!
# What is left in place

If names without a value are left in place, the result of an expansion can be expanded again.  A
text is settled if no name in it has a value and no placeholder in it is an escape.

A settled text expands to itself, every blank and brace in it included (`expand_of_lacks`, for the
case that no name at all has a value).  If no value can be taken for a part of a placeholder, what
a text expands to is settled, because no placeholder arises or ends where pieces of the text and
values meet.  So a second expansion changes nothing (`expand_expand`).
-/

namespace ChangelogParameters

namespace Template

/-! ### Placeholders in a text -/

/-- The name in a body, without the blanks around it. -/
def nameIn (body : List Char) : String :=
  String.ofList (Text.trimChars body)

/-- An opening with a colon behind it begins an escape. -/
def EscapeFree (text : List Char) : Prop :=
  ¬ opening ++ [':'] <:+: text

instance : DecidablePred EscapeFree := fun text =>
  inferInstanceAs (Decidable (¬ opening ++ [':'] <:+: text))

/-- A part of a text without escapes is without escapes. -/
lemma EscapeFree.of_infix {text part : List Char} (h : EscapeFree text) (hpart : part <:+: text) :
    EscapeFree part :=
  fun hescape => h (hescape.trans hpart)

/-- What stands behind an opening in a text without escapes does not begin with a colon. -/
lemma EscapeFree.isEscape_eq_false {text body : List Char} (h : EscapeFree text)
    (hbody : opening ++ body <:+: text) : isEscape body = false := by
  rw [← Bool.not_eq_true, isEscape, beq_iff_eq]
  intro hcolon
  obtain ⟨behind, rfl⟩ := List.head?_eq_some_iff.1 hcolon
  refine h (List.IsInfix.trans (List.IsPrefix.isInfix ⟨behind, ?_⟩) hbody)
  simp

/-- The bodies of the placeholders stand in the text behind openings. -/
lemma opening_infix_of_mem_bodies {t : Template} {body : List Char} (h : body ∈ t.bodies) :
    opening ++ body <:+: t.source := by
  induction t with
  | rest text => simp [bodies] at h
  | hole before inner after ihinner ihafter =>
    have hparts : (hole before inner after).source =
        before ++ (opening ++ inner.source) ++ ('\x7d' :: after.source) := by
      simp [source]
    rw [hparts]
    rw [bodies, List.mem_append, List.mem_cons] at h
    rcases h with hinner | rfl | hafter
    · exact (ihinner hinner).trans ⟨before ++ opening, '\x7d' :: after.source, by simp⟩
    · exact List.infix_append _ _ _
    · exact (ihafter hafter).trans ⟨before ++ (opening ++ inner.source) ++ ['\x7d'], [], by simp⟩

/-- More text in front of a template does not change its placeholders. -/
lemma bodies_prepend (text : List Char) (t : Template) : (t.prepend text).bodies = t.bodies := by
  cases t <;> rfl

/-- The placeholders of a text with plain text before it. -/
lemma placeholders_append_of_plain {s t : List Char} (hs : Plain s) (hseam : ¬ OpensAcross s t) :
    placeholders (s ++ t) = placeholders t := by
  rw [placeholders, ofChars_append_of_plain hs hseam, bodies_prepend, placeholders]

/-! ### Inert values -/

/-- A text that cannot be taken for a part of a placeholder. -/
structure Inert (value : List Char) : Prop where
  ne_nil : value ≠ []
  noColon : value.head? ≠ some ':'
  noDollar : '$' ∉ value
  noOpening : '\x7b' ∉ value
  noClosing : '\x7d' ∉ value

lemma Inert.plain {value : List Char} (h : Inert value) : Plain value := by
  rintro ⟨front, behind, rfl⟩
  exact h.noDollar (by simp [opening])

/-- No opening stands across the end of an inert value. -/
lemma Inert.not_opensAcross {value : List Char} (h : Inert value) (before after : List Char) :
    ¬ OpensAcross (before ++ value) after := by
  rintro ⟨hdollar, -⟩
  rw [List.getLast?_append_of_ne_nil _ h.ne_nil] at hdollar
  exact h.noDollar (List.mem_of_getLast? hdollar)

/-- Plain text is plain with an inert value behind it. -/
lemma Inert.plain_append {before value : List Char} (hbefore : Plain before) (h : Inert value) :
    Plain (before ++ value) :=
  hbefore.append h.plain fun hacross => h.noOpening (List.mem_of_mem_head? hacross.2)

end Template

namespace Expander

open Template

/-! ### Settled texts -/

/-- A name without a value is put back into its placeholder. -/
lemma substitute_of_lacks {x : Expander} (hmode : x.mode = .preserve) {raw : List Char}
    (hraw : isEscape raw = false) (hlacks : x.lacks (nameIn raw) = true) :
    x.substitute raw = ⟨[nameIn raw], .ok (placeholder raw)⟩ := by
  have hcolon : raw.head? ≠ some ':' := by simpa [isEscape] using hraw
  have hlookup : x.lookup (String.ofList (Text.trimChars raw)) = none := by
    simpa [lacks, nameIn] using hlacks
  rw [substitute_name x hcolon, hlookup, missing, hmode, nameIn]

/-- A name with a value is replaced by it. -/
lemma substitute_of_lookup {x : Expander} {raw : List Char} (hraw : isEscape raw = false)
    {value : String} (hvalue : x.lookup (nameIn raw) = some value) :
    x.substitute raw = ⟨[nameIn raw], .ok value.toList⟩ := by
  have hcolon : raw.head? ≠ some ':' := by simpa [isEscape] using hraw
  rw [nameIn] at hvalue
  rw [substitute_name x hcolon, hvalue, nameIn]

/-- No placeholder of a template is an escape, and no name in it has a value. -/
def Settled (x : Expander) (t : Template) : Prop :=
  ∀ body ∈ t.bodies, isEscape body = false ∧ x.lacks (nameIn body) = true

/-- A settled template expands to its own text. -/
lemma expandTemplate_of_settled {x : Expander} (hmode : x.mode = .preserve) {t : Template}
    (h : x.Settled t) : x.expandTemplate t = ⟨t.bodies.map nameIn, .ok t.source⟩ := by
  induction t with
  | rest text => rfl
  | hole before body after ihbody ihafter =>
    rw [Settled, bodies, List.forall_mem_append, List.forall_mem_cons] at h
    obtain ⟨hinner, ⟨hescape, hlacks⟩, hbehind⟩ := h
    rw [expandTemplate, ihbody hinner, Expansion.bind_ok, substitute_of_lacks hmode hescape hlacks,
      Expansion.bind_ok, ihafter hbehind, Expansion.bind_ok]
    simp [pure, Expansion.done, bodies, source, placeholder]

/-- A settled text expands to itself. -/
lemma expand_of_settled {x : Expander} (hmode : x.mode = .preserve) {text : String}
    (h : x.Settled (ofChars text.toList)) :
    x.expand text = ⟨(placeholders text.toList).map nameIn, .ok text⟩ := by
  rw [expand_eq_map, expandTemplate_of_settled hmode h, Expansion.map_mk, source_ofChars,
    Except.map, String.ofList_toList, placeholders]

/-- **Nothing is lost.**  If names without a value are left in place and there is no value for any
name, a text in which no escape is written expands to itself, character for character; and every
placeholder in it has been looked up once, under the name that is written in it. -/
theorem expand_of_lacks {x : Expander} (hmode : x.mode = .preserve)
    (hlookup : ∀ name, x.lookup name = none) {text : String} (htext : EscapeFree text.toList) :
    x.expand text = ⟨(placeholders text.toList).map nameIn, .ok text⟩ := by
  refine expand_of_settled hmode ?_
  intro body hbody
  have hinfix := opening_infix_of_mem_bodies hbody
  rw [source_ofChars] at hinfix
  exact ⟨htext.isEscape_eq_false hinfix, by simp [lacks, hlookup]⟩

/-- An expander without values. -/
def noValues : Expander where
  mode := .preserve
  location := none
  lookup _ := none

/-- Blanks in a placeholder are kept, and so are placeholders in placeholders, braces that close
nothing, and an opening that is never closed with all that is behind it. -/
theorem expand_of_lacks_noValues :
    let text := "\x7d $\x7b a$\x7b\tb \x7d\x7d \x7b$$\x7b c$\x7bd\x7d"
    noValues.mode = .preserve ∧ (∀ name, noValues.lookup name = none) ∧ EscapeFree text.toList ∧
      noValues.expand text = ⟨["b", "a$\x7b\tb \x7d"], .ok text⟩ := by
  intro text
  have htext : EscapeFree text.toList := by decide +kernel
  have hnames : (placeholders text.toList).map nameIn = ["b", "a$\x7b\tb \x7d"] := by
    decide +kernel
  refine ⟨rfl, fun _ => rfl, htext, ?_⟩
  rw [expand_of_lacks rfl (fun _ => rfl) htext, hnames]

/-! ### What is left of a text -/

/-- No value of an expander can be taken for a part of a placeholder. -/
def HasInertValues (x : Expander) : Prop :=
  ∀ name value, x.lookup name = some value → Inert value.toList

/-- How the expansion of a text hangs together with the text: a balanced text stays balanced, and
the placeholders that are left are no escapes, and have been looked up without success. -/
structure Leaves (x : Expander) (text : List Char) (looked : List String) (out : List Char) :
    Prop where
  balanced : Balanced text → Balanced out
  noEscape : ∀ body ∈ placeholders out, isEscape body = false
  looked : ((placeholders out).map nameIn).Sublist (looked.filter x.lacks)

/-- What is left of a text is settled. -/
lemma Leaves.settled {x : Expander} {text out : List Char} {looked : List String}
    (h : x.Leaves text looked out) : x.Settled (ofChars out) := by
  intro body hbody
  have hmem := h.looked.subset (List.mem_map_of_mem hbody)
  exact ⟨h.noEscape body hbody, (List.mem_filter.1 hmem).2⟩

/-- A body that does not begin with a colon comes to something that does not, if no value does. -/
lemma isEscape_eq_false_of_ok {x : Expander} (hmode : x.mode = .preserve)
    (hvalues : x.HasInertValues) {body raw : List Char} (hbody : isEscape body = false)
    (hraw : (x.expandTemplate (ofChars body)).result = .ok raw) : isEscape raw = false := by
  have hmisread : x.misreads body = false := by
    refine misreads_eq_false hmode ?_ body
    intro name value hvalue
    have hinert := hvalues name value hvalue
    exact ⟨hinert.ne_nil, by simpa [isEscape] using hinert.noColon⟩
  rw [misreads, hbody, asked?_of_ok hraw] at hmisread
  by_contra hescape
  simp [hescape] at hmisread

/-- A placeholder with a value leaves nothing. -/
lemma Leaves.of_value {x : Expander} {before body after value out : List Char}
    {looked : List String} (hbefore : Plain before) (hbody : Balanced body) (hvalue : Inert value)
    (h : x.Leaves after looked out) (own : List String) :
    x.Leaves (before ++ opening ++ (body ++ '\x7d' :: after)) (own ++ looked)
      (before ++ value ++ out) := by
  -- The value becomes a part of the plain text.
  have hplain := hvalue.plain_append hbefore
  have hseam := hvalue.not_opensAcross before out
  have hleft := placeholders_append_of_plain hplain hseam
  refine ⟨?_, ?_, ?_⟩
  · rw [balanced_hole_iff hbefore hbody, balanced_append_iff_of_plain hplain hseam]
    rintro ⟨hclosing, hafter⟩
    exact ⟨by simp [hclosing, hvalue.noClosing], h.balanced hafter⟩
  · rw [hleft]
    exact h.noEscape
  · rw [hleft, List.filter_append]
    exact List.sublist_append_of_sublist_right h.looked

/-- A placeholder without a value is left, with what is left of its body. -/
lemma Leaves.of_name {x : Expander} {before body after raw out : List Char}
    {inner looked : List String} (hbefore : Plain before) (hbody : Balanced body)
    (hinner : x.Leaves body inner raw) (hraw : isEscape raw = false)
    (hlacks : x.lacks (nameIn raw) = true) (h : x.Leaves after looked out) :
    x.Leaves (before ++ opening ++ (body ++ '\x7d' :: after)) (inner ++ nameIn raw :: looked)
      (before ++ placeholder raw ++ out) := by
  have hbalanced := hinner.balanced hbody
  have hout : before ++ placeholder raw ++ out = before ++ opening ++ (raw ++ '\x7d' :: out) := by
    simp [placeholder]
  have hleft := placeholders_hole hbefore hbalanced out
  rw [hout]
  refine ⟨?_, ?_, ?_⟩
  · rw [balanced_hole_iff hbefore hbody, balanced_hole_iff hbefore hbalanced]
    exact And.imp_right h.balanced
  · rw [hleft, List.forall_mem_append, List.forall_mem_cons]
    exact ⟨hinner.noEscape, hraw, h.noEscape⟩
  · rw [hleft, List.map_append, List.map_cons, List.filter_append, List.filter_cons, if_pos hlacks]
    exact hinner.looked.append (h.looked.cons_cons _)

/-- What comes of a text is settled if every value is inert. -/
lemma exists_leaves {x : Expander} (hmode : x.mode = .preserve) (hvalues : x.HasInertValues)
    {text : List Char} (htext : EscapeFree text) :
    ∃ looked out, x.expandTemplate (ofChars text) = ⟨looked, .ok out⟩ ∧
      x.Leaves text looked out := by
  induction text using reading_induction with
  | bare last tail hlast htail =>
    have hrest := ofChars_of_bare hlast htail
    have hnone : placeholders (last ++ tail) = [] := by rw [placeholders, hrest, bodies]
    refine ⟨[], last ++ tail, by rw [hrest]; rfl, id, ?_, ?_⟩
    · simp [hnone]
    · simp [hnone]
  | hole before body after hbefore hbody ihbody ihafter =>
    have hcolon : isEscape body = false :=
      htext.isEscape_eq_false ⟨before, '\x7d' :: after, by simp⟩
    obtain ⟨inner, raw, hraw, hinner⟩ :=
      ihbody (htext.of_infix ⟨before ++ opening, '\x7d' :: after, by simp⟩)
    obtain ⟨looked, out, hout, hlooked⟩ :=
      ihafter (htext.of_infix ⟨before ++ opening ++ body ++ ['\x7d'], [], by simp⟩)
    have hrawColon : isEscape raw = false :=
      isEscape_eq_false_of_ok hmode hvalues hcolon (by rw [hraw])
    have hexpand : ∀ {own value}, x.substitute raw = ⟨own, .ok value⟩ →
        x.expandTemplate (ofChars (before ++ opening ++ (body ++ '\x7d' :: after))) =
          ⟨inner ++ (own ++ looked), .ok (before ++ value ++ out)⟩ := by
      intro own value hvalue
      rw [ofChars_of_hole hbefore hbody, expandTemplate, hraw, Expansion.bind_ok, hvalue,
        Expansion.bind_ok, hout, Expansion.bind_ok]
      simp [pure, Expansion.done]
    cases hvalue : x.lookup (nameIn raw) with
    | some value =>
      refine ⟨_, _, hexpand (substitute_of_lookup hrawColon hvalue), ?_⟩
      rw [← List.append_assoc inner]
      exact hlooked.of_value hbefore hbody (hvalues _ _ hvalue) _
    | none =>
      have hlacks : x.lacks (nameIn raw) = true := by simp [lacks, hvalue]
      exact ⟨_, _, hexpand (substitute_of_lacks hmode hrawColon hlacks),
        Leaves.of_name hbefore hbody hinner hrawColon hlacks hlooked⟩

/-- **A second expansion changes nothing.**  If names without a value are left in place and no
value can be taken for a part of a placeholder, a text in which no escape is written has an
expansion that expands to itself.  The second time only such names are looked up as were looked
up the first time, without success. -/
theorem expand_expand {x : Expander} (hmode : x.mode = .preserve) (hvalues : x.HasInertValues)
    {text : String} (htext : EscapeFree text.toList) :
    ∃ looked again out, x.expand text = ⟨looked, .ok out⟩ ∧ x.expand out = ⟨again, .ok out⟩ ∧
      again.Sublist (looked.filter x.lacks) := by
  obtain ⟨looked, out, hout, hleaves⟩ := exists_leaves hmode hvalues htext
  have hfirst : x.expand text = ⟨looked, .ok (String.ofList out)⟩ := by
    rw [expand_eq_map, hout, Expansion.map_mk, Except.map]
  have hsecond := @expand_of_settled x hmode (String.ofList out)
  rw [String.toList_ofList] at hsecond
  exact ⟨_, _, _, hfirst, hsecond hleaves.settled, hleaves.looked⟩

/-- A name that could only be put together is left as it has been put together, and is looked up
under that name again. -/
theorem expand_expand_tables :
    let text := "$$\x7b t.$\x7benv\x7d \x7d.$\x7b x.$\x7benv\x7d\x7d\x7d$\x7b"
    let out := "$users.$\x7b x.prod\x7d\x7d$\x7b"
    tables.mode = .preserve ∧ tables.HasInertValues ∧ EscapeFree text.toList ∧
      (tables.expand text).lookups = ["env", "t.prod", "env", "x.prod"] ∧
      (tables.expand text).result = .ok out ∧
      ∃ again, tables.expand out = ⟨again, .ok out⟩ ∧ again.Sublist ["x.prod"] := by
  intro text out
  have hvalues : tables.HasInertValues := by
    intro name value hvalue
    have hcases : value = "prod" ∨ value = "users" := by
      simp only [tables] at hvalue
      grind
    rcases hcases with rfl | rfl <;> exact ⟨by decide, by decide, by decide, by decide, by decide⟩
  have htext : EscapeFree text.toList := by decide +kernel
  have hlookups : (tables.expand text).lookups = ["env", "t.prod", "env", "x.prod"] := by
    decide +kernel
  have hresult : (tables.expand text).result = .ok out := by decide +kernel
  refine ⟨rfl, hvalues, htext, hlookups, hresult, ?_⟩
  obtain ⟨looked, again, out', hfirst, hsecond, hlooked⟩ := expand_expand rfl hvalues htext
  rw [hfirst] at hlookups hresult
  obtain rfl : out' = out := Except.ok.inj hresult
  obtain rfl : looked = _ := hlookups
  exact ⟨again, hsecond, by simpa [lacks, tables] using hlooked⟩

end Expander

end ChangelogParameters
