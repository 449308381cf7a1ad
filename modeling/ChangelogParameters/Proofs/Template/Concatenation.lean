import ChangelogParameters.Proofs.Template.Expansion
import Mathlib.Tactic.Lemma

/-!
# Texts one after the other

A text that is given in pieces can be expanded piece by piece, if the cuts are made where the
reader of the text is not inside a placeholder.  A piece is *closed* if every opening in it has its
closing brace in it.  Behind a closed piece any other can follow, unless the two characters of an
opening come from either side of the seam.

Templates are put together like texts: the last literal text of one and the first of the other
become one.  `ofChars_append` says that reading a template and putting together can be exchanged,
and `expand_append` says the same of expanding.
-/

namespace ChangelogParameters

namespace Template

/-! ### Seams -/

/-- Every opening of a text has its closing brace in the text. -/
def Closed (text : List Char) : Prop :=
  ∀ tail, tail <:+ text → ¬ Unclosed tail

/-- One text ends with the first character of an opening and the other begins with the second. -/
def OpensAcross (s t : List Char) : Prop :=
  s.getLast? = some '$' ∧ t.head? = some '\x7b'

instance (s t : List Char) : Decidable (OpensAcross s t) :=
  inferInstanceAs (Decidable (_ ∧ _))

/-- Whether a text begins with an opening that is never closed can be found out by a search. -/
lemma unclosed_iff {text : List Char} :
    Unclosed text ↔ opening <+: text ∧ splitAtClosing 0 (text.drop 2) = none := by
  constructor
  · intro hunclosed
    obtain ⟨behind, rfl, -⟩ := id hunclosed
    exact ⟨List.prefix_append _ _, unclosed_opening_iff.1 hunclosed⟩
  · rintro ⟨⟨behind, rfl⟩, hnone⟩
    exact unclosed_opening_iff.2 hnone

instance : DecidablePred Unclosed := fun _ => decidable_of_iff' _ unclosed_iff

instance : DecidablePred Closed := fun text =>
  decidable_of_iff (∀ tail ∈ text.tails, ¬ Unclosed tail) (by simp [Closed])

/-- What is behind a piece of the second text does not matter for the seam. -/
lemma OpensAcross.append_right {s t : List Char} (h : OpensAcross s t) (after : List Char) :
    OpensAcross s (t ++ after) := by
  refine ⟨h.1, ?_⟩
  rw [List.head?_append, h.2]
  rfl

/-- What is before the end of the first text does not matter for the seam. -/
lemma OpensAcross.append_left {s t : List Char} (h : OpensAcross s t) (before : List Char) :
    OpensAcross (before ++ s) t := by
  refine ⟨?_, h.2⟩
  rw [List.getLast?_append, h.1]
  rfl

/-- Nothing is opened at the beginning of two texts if nothing is at the beginning of the first and
nothing is across the seam. -/
lemma not_opening_prefix_append {c : Char} {cs t : List Char} (hc : ¬ opening <+: c :: cs)
    (hseam : ¬ OpensAcross (c :: cs) t) : ¬ opening <+: c :: (cs ++ t) := by
  by_cases hhead : t.head? = some '\x7b'
  · cases cs with
    | nil =>
      have hdollar : c ≠ '$' := fun h => hseam ⟨by simp [h], hhead⟩
      simp [opening, hdollar.symm]
    | cons c' cs => simpa [opening] using hc
  · rwa [opening_prefix_append_iff hhead]

/-- Plain texts one after the other are plain if no opening stands across the seam. -/
lemma Plain.append {s t : List Char} (hs : Plain s) (ht : Plain t) (hseam : ¬ OpensAcross s t) :
    Plain (s ++ t) := by
  induction s with
  | nil => exact ht
  | cons c cs ih =>
    obtain ⟨hc, hcs⟩ := plain_cons_iff.1 hs
    exact plain_cons_iff.2 ⟨not_opening_prefix_append hc hseam,
      ih hcs fun h => hseam (h.append_left [c])⟩

/-- The end of a closed text is closed. -/
lemma Closed.of_suffix {text behind : List Char} (h : Closed text) (hbehind : behind <:+ text) :
    Closed behind :=
  fun tail htail => h tail (htail.trans hbehind)

/-! ### Balance across seams -/

/-- Plain text in front of a text keeps it balanced exactly if nothing is closed in it. -/
lemma balanced_append_iff_of_plain {s t : List Char} (hs : Plain s) (hseam : ¬ OpensAcross s t) :
    Balanced (s ++ t) ↔ '\x7d' ∉ s ∧ Balanced t := by
  induction s with
  | nil => simp
  | cons c cs ih =>
    obtain ⟨hc, hcs⟩ := plain_cons_iff.1 hs
    have hopening := not_opening_prefix_append hc hseam
    by_cases hclosing : c = '\x7d'
    · simp [hclosing, Balanced, openAfter]
    · have hcons : Balanced (c :: (cs ++ t)) ↔ Balanced (cs ++ t) := by
        rw [Balanced, openAfter_cons hopening hclosing, Balanced]
      rw [List.cons_append, hcons, ih hcs fun h => hseam (h.append_left [c])]
      simp [Ne.symm hclosing]

/-- A text in which nothing is opened or closed is balanced. -/
lemma Plain.balanced {text : List Char} (hplain : Plain text) (hclosing : '\x7d' ∉ text) :
    Balanced text := by
  have hseam : ¬ OpensAcross text [] := by simp [OpensAcross]
  have hiff := balanced_append_iff_of_plain hplain hseam
  rw [List.append_nil] at hiff
  exact hiff.2 ⟨hclosing, rfl⟩

/-- A brace closes what a text leaves open. -/
lemma openAfter_append_closing {depth : Nat} {body : List Char} (h : openAfter depth body = some 0)
    (after : List Char) : openAfter (depth + 1) (body ++ '\x7d' :: after) = openAfter 0 after := by
  fun_induction openAfter depth body with
  | case1 depth =>
    obtain rfl : depth = 0 := by simpa using h
    simp [openAfter]
  | case2 depth cs ih => simpa [openAfter] using ih h
  | case3 cs => simp at h
  | case4 depth cs ih => simpa [openAfter] using ih h
  | case5 depth c cs hopen hzero hsucc ih =>
    have hc : c ≠ '\x7d' := ne_closing hzero hsucc
    have hnot : ¬ opening <+: c :: (cs ++ '\x7d' :: after) := by
      rw [opening_prefix_append_iff (by simp)]
      exact not_opening_prefix hopen
    rw [List.cons_append, openAfter_cons hnot hc]
    exact ih h

/-- A text with a placeholder behind plain text is balanced exactly if nothing is closed in the
plain text and what comes after the placeholder is balanced. -/
lemma balanced_hole_iff {before body : List Char} (hbefore : Plain before) (hbody : Balanced body)
    (after : List Char) :
    Balanced (before ++ opening ++ (body ++ '\x7d' :: after)) ↔
      '\x7d' ∉ before ∧ Balanced after := by
  have hseam : ¬ OpensAcross before (opening ++ (body ++ '\x7d' :: after)) := by
    simp [OpensAcross, opening]
  have hopen : openAfter 0 (opening ++ (body ++ '\x7d' :: after)) =
      openAfter 1 (body ++ '\x7d' :: after) := by
    simp [opening, openAfter]
  have hclose : Balanced (opening ++ (body ++ '\x7d' :: after)) ↔ Balanced after := by
    rw [Balanced, hopen, openAfter_append_closing hbody, Balanced]
  rw [List.append_assoc, balanced_append_iff_of_plain hbefore hseam, hclose]

/-! ### Putting templates together -/

/-- The template with more text in front. -/
def prepend (text : List Char) : Template → Template
  | rest behind => rest (text ++ behind)
  | hole before body after => hole (text ++ before) body after

/-- Two templates one after the other. -/
def append : Template → Template → Template
  | rest text, t => t.prepend text
  | hole before body after, t => hole before body (after.append t)

/-- Plain text before a text is text before its template. -/
lemma ofChars_append_of_plain {s t : List Char} (hs : Plain s) (hseam : ¬ OpensAcross s t) :
    ofChars (s ++ t) = (ofChars t).prepend s := by
  induction t using reading_induction with
  | bare last tail hlast htail =>
    have hplain := hs.append hlast fun h => hseam (h.append_right tail)
    rw [ofChars_of_bare hlast htail, ← List.append_assoc, ofChars_of_bare hplain htail, prepend,
      List.append_assoc]
  | hole before body after hbefore hbody =>
    have htext : s ++ (before ++ opening ++ (body ++ '\x7d' :: after)) =
        s ++ before ++ opening ++ (body ++ '\x7d' :: after) := by simp
    rw [List.append_assoc] at hseam
    have hplain := hs.append hbefore fun h => hseam (h.append_right _)
    rw [htext, ofChars_of_hole hplain hbody, ofChars_of_hole hbefore hbody, prepend]

/-- The template of a closed text with another text behind it. -/
theorem ofChars_append {s t : List Char} (hs : Closed s) (hseam : ¬ OpensAcross s t) :
    ofChars (s ++ t) = (ofChars s).append (ofChars t) := by
  induction s using reading_induction with
  | bare last tail hlast htail =>
    obtain rfl : tail = [] := htail.resolve_right (hs tail (List.suffix_append _ _))
    rw [List.append_nil] at hseam ⊢
    have hrest : ofChars last = rest last := by
      simpa using ofChars_of_bare hlast (.inl rfl)
    rw [ofChars_append_of_plain hlast hseam, hrest, append]
  | hole before body after hbefore hbody _ ih =>
    have hsource : before ++ opening ++ (body ++ '\x7d' :: after) =
        before ++ opening ++ body ++ ['\x7d'] ++ after := by simp
    have hclosed : Closed after := hs.of_suffix ⟨_, hsource.symm⟩
    have hseam' : ¬ OpensAcross after t := fun h => hseam (hsource ▸ h.append_left _)
    have hbehind : before ++ opening ++ (body ++ '\x7d' :: after) ++ t =
        before ++ opening ++ (body ++ '\x7d' :: (after ++ t)) := by simp
    rw [hbehind, ofChars_of_hole hbefore hbody, ih hclosed hseam', ofChars_of_hole hbefore hbody,
      append]

end Template

/-! ### Expanding piece by piece -/

namespace Expansion

variable {α : Type} [Append α]

/-- Two expansions one after the other, with their results put together.  After a failure of the
first nothing is looked up any more. -/
def followedBy (e e' : Expansion α) : Expansion α :=
  match e.result with
  | .error unresolved => ⟨e.lookups, .error unresolved⟩
  | .ok front => ⟨e.lookups ++ e'.lookups, e'.result.map (front ++ ·)⟩

lemma followedBy_eq_bind (e e' : Expansion α) :
    e.followedBy e' = e >>= fun front => (front ++ ·) <$> e' := by
  obtain ⟨lookups, unresolved | front⟩ := e
  · rw [bind_error, followedBy]
  · rw [bind_ok, map_mk, followedBy]

/-- An expansion without look-ups is put behind another as it is. -/
lemma followedBy_pure (e : Expansion α) (a : α) : e.followedBy (pure a) = (· ++ a) <$> e := by
  rw [followedBy_eq_bind, ← bind_pure_comp]
  simp only [map_pure]

end Expansion

namespace Expander

open Template

/-- Text in front of a template is in front of its expansion. -/
lemma expandTemplate_prepend (x : Expander) (text : List Char) (t : Template) :
    x.expandTemplate (t.prepend text) = (text ++ ·) <$> x.expandTemplate t := by
  cases t with
  | rest behind => rfl
  | hole before body after => simp [prepend, expandTemplate]

/-- Templates one after the other are expanded one after the other. -/
lemma expandTemplate_append (x : Expander) (s t : Template) :
    x.expandTemplate (s.append t) = (x.expandTemplate s).followedBy (x.expandTemplate t) := by
  induction s with
  | rest text =>
    rw [append, expandTemplate_prepend, expandTemplate, Expansion.followedBy_eq_bind]
    rfl
  | hole before body after _ ih =>
    simp only [append, expandTemplate, ih, Expansion.followedBy_eq_bind, map_eq_pure_bind,
      bind_assoc, pure_bind, List.append_assoc]

/-- Nothing is looked up behind an opening that is never closed. -/
lemma expand_unclosed (x : Expander) {text : String} (h : Unclosed text.toList) :
    x.expand text = pure text := by
  have hrest : ofChars text.toList = rest text.toList :=
    ofChars_of_bare plain_nil (.inr h)
  rw [expand_eq_map, hrest, expandTemplate, Expansion.done, Expansion.map_mk, Except.map,
    String.ofList_toList]
  rfl

/-- **Expanding piece by piece.**  Behind a closed text any other can follow, if no opening stands
across the seam: the two are expanded one after the other, so that the first failure ends both.
What follows may also be an opening that is never closed; it is left as it is, with everything
behind it. -/
theorem expand_append (x : Expander) {s : String} (hs : Closed s.toList) :
    (∀ t : String, ¬ OpensAcross s.toList t.toList →
      x.expand (s ++ t) = (x.expand s).followedBy (x.expand t)) ∧
    ∀ u : String, Unclosed (opening ++ u.toList) →
      x.expand (s ++ ("$\x7b" ++ u)) = (· ++ ("$\x7b" ++ u)) <$> x.expand s := by
  have happend : ∀ t : String, ¬ OpensAcross s.toList t.toList →
      x.expand (s ++ t) = (x.expand s).followedBy (x.expand t) := by
    intro t hseam
    rw [expand_eq_map, expand_eq_map, expand_eq_map, String.toList_append,
      ofChars_append hs hseam, expandTemplate_append]
    simp [String.ofList_append, Expansion.followedBy_eq_bind]
  refine ⟨happend, ?_⟩
  intro u hu
  have hunclosed : Unclosed ("$\x7b" ++ u).toList := by simpa [opening] using hu
  have hseam : ¬ OpensAcross s.toList ("$\x7b" ++ u).toList := fun h => by simpa using h.2
  rw [happend _ hseam, expand_unclosed x hunclosed, Expansion.followedBy_pure]

/-- A strict expander with a single value. -/
def singleValue : Expander where
  mode := .error
  location := some "root.xml"
  lookup name := if name = "x" then some "1" else none

/-- What follows a closed text may fail, and it may open a placeholder without closing it. -/
theorem expand_append_singleValue :
    let s := "$\x7b x \x7d$"
    let t := "t$\x7b y \x7d"
    let u := " y $\x7bx\x7d"
    Closed s.toList ∧ ¬ OpensAcross s.toList t.toList ∧ Unclosed (opening ++ u.toList) ∧
      (singleValue.expand (s ++ t)).lookups = ["x", "y"] ∧
      (singleValue.expand (s ++ t)).result = .error ⟨"y", some "root.xml"⟩ ∧
      (singleValue.expand (s ++ ("$\x7b" ++ u))).lookups = ["x"] ∧
      (singleValue.expand (s ++ ("$\x7b" ++ u))).result = .ok "1$$\x7b y $\x7bx\x7d" := by
  intro s t u
  have hs : Closed s.toList := by decide +kernel
  have hseam : ¬ OpensAcross s.toList t.toList := by decide +kernel
  have hu : Unclosed (opening ++ u.toList) := by decide +kernel
  obtain ⟨happend, hunclosed⟩ := singleValue.expand_append hs
  rw [happend t hseam, hunclosed u hu]
  exact ⟨hs, hseam, hu, by decide +kernel, by decide +kernel, by decide +kernel,
    by decide +kernel⟩

end Expander

end ChangelogParameters
