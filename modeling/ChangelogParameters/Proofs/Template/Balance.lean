import ChangelogParameters.Template
import Mathlib.Data.List.Infix

/-!
# Balanced texts

A text is balanced if every brace that closes something in it closes a placeholder that was
opened in it before, and none is left open at its end.  It is read from the left, and only the
number of open placeholders is kept.

The two searches by which a template is read off its text are characterised in these terms: the
first opening stands behind the longest plain text, and the brace that closes a placeholder is
the one behind the balanced text after the opening.
-/

namespace ChangelogParameters

namespace Template

/-- The number of placeholders that are open after a text, if `depth` of them were open before
it; none if some brace closes more than was opened. -/
def openAfter : (depth : Nat) → List Char → Option Nat
  | depth, [] => some depth
  | depth, '$' :: '\x7b' :: cs => openAfter (depth + 1) cs
  | 0, '\x7d' :: _ => none
  | depth + 1, '\x7d' :: cs => openAfter depth cs
  | depth, _ :: cs => openAfter depth cs

/-- A text is balanced if its openings and closings match. -/
def Balanced (text : List Char) : Prop :=
  openAfter 0 text = some 0

/-- A text is plain if nothing is opened in it. -/
def Plain (text : List Char) : Prop :=
  ¬ opening <:+: text

/-- A search that has passed over some text has found something behind it. -/
lemma exists_of_map_eq_some {f : List Char → List Char} {found : Option (List Char × List Char)}
    {before after : List Char}
    (h : found.map (fun (before, after) => (f before, after)) = some (before, after)) :
    ∃ b, found = some (b, after) ∧ f b = before := by
  obtain ⟨⟨b, a⟩, hfound, heq⟩ := Option.map_eq_some_iff.1 h
  obtain ⟨hb, rfl⟩ := Prod.mk.inj heq
  exact ⟨b, hfound, hb⟩

/-! ### Openings -/

@[simp] lemma plain_nil : Plain [] := by
  simp [Plain, opening]

/-- A text is plain if it does not begin with an opening and what follows is plain. -/
lemma plain_cons_iff {c : Char} {cs : List Char} :
    Plain (c :: cs) ↔ ¬ opening <+: c :: cs ∧ Plain cs := by
  rw [Plain, List.infix_cons_iff, not_or, Plain]

/-- Whether a text begins with an opening is not changed by what follows it, unless that begins
with the second character of an opening. -/
lemma opening_prefix_append_iff {c : Char} {cs after : List Char}
    (hafter : after.head? ≠ some '\x7b') :
    opening <+: c :: (cs ++ after) ↔ opening <+: c :: cs := by
  cases cs with
  | nil =>
    cases after with
    | nil => simp
    | cons a after =>
      have ha : a ≠ '\x7b' := by simpa using hafter
      simp [opening, ha.symm]
  | cons c' cs => simp [opening]

/-- A text begins with an opening only if its first two characters are those of an opening. -/
lemma not_opening_prefix {c : Char} {cs : List Char}
    (h : ∀ tail, c = '$' → cs = '\x7b' :: tail → False) : ¬ opening <+: c :: cs := by
  rintro ⟨tail, htail⟩
  simp only [opening, List.cons_append, List.nil_append, List.cons.injEq] at htail
  exact h tail htail.1.symm htail.2.symm

/-- A search for an opening passes over a character that begins none. -/
lemma splitAtOpening_cons {c : Char} {cs : List Char} (h : ¬ opening <+: c :: cs) :
    splitAtOpening (c :: cs) =
      (splitAtOpening cs).map fun (before, after) => (c :: before, after) := by
  rw [splitAtOpening]
  rintro cs' rfl rfl
  exact h ⟨cs', rfl⟩

/-- A search for an opening fails exactly on the plain texts. -/
lemma splitAtOpening_eq_none_iff {text : List Char} : splitAtOpening text = none ↔ Plain text := by
  induction text with
  | nil => simp [splitAtOpening]
  | cons c cs ih =>
    rw [plain_cons_iff]
    by_cases h : opening <+: c :: cs
    · obtain ⟨tail, htail⟩ := h
      simp [← htail, opening, splitAtOpening]
    · simp [splitAtOpening_cons h, ih, h]

/-- A search for an opening finds the one behind a plain text. -/
lemma splitAtOpening_of_plain {before : List Char} (h : Plain before) (after : List Char) :
    splitAtOpening (before ++ opening ++ after) = some (before, after) := by
  rw [List.append_assoc]
  induction before with
  | nil => rfl
  | cons c cs ih =>
    obtain ⟨hc, hcs⟩ := plain_cons_iff.1 h
    have hnot : ¬ opening <+: c :: (cs ++ (opening ++ after)) := by
      rwa [opening_prefix_append_iff (by simp [opening])]
    rw [List.cons_append, splitAtOpening_cons hnot, ih hcs]
    rfl

/-- What stands before the opening that a search finds is plain. -/
lemma plain_of_splitAtOpening {text before after : List Char}
    (h : splitAtOpening text = some (before, after)) : Plain before := by
  induction text generalizing before with
  | nil => simp [splitAtOpening] at h
  | cons c cs ih =>
    by_cases hc : opening <+: c :: cs
    · obtain ⟨tail, htail⟩ := hc
      rw [← htail] at h
      simp only [opening, List.cons_append, List.nil_append, splitAtOpening, Option.some.injEq,
        Prod.mk.injEq] at h
      simp [← h.1]
    · rw [splitAtOpening_cons hc] at h
      obtain ⟨b, hsplit, rfl⟩ := exists_of_map_eq_some h
      rw [eq_of_splitAtOpening hsplit, List.append_assoc,
        opening_prefix_append_iff (by simp [opening])] at hc
      exact plain_cons_iff.2 ⟨hc, ih hsplit⟩

/-! ### Closings -/

/-- Reading a text passes over a character that neither opens nor closes. -/
lemma openAfter_cons {depth : Nat} {c : Char} {cs : List Char} (h : ¬ opening <+: c :: cs)
    (hc : c ≠ '\x7d') : openAfter depth (c :: cs) = openAfter depth cs := by
  rw [openAfter]
  · rintro cs' rfl rfl
    exact h ⟨cs', rfl⟩
  · exact fun _ => hc
  · exact fun _ _ => hc

/-- A search for a closing brace passes over a character that neither opens nor closes. -/
lemma splitAtClosing_cons {depth : Nat} {c : Char} {cs : List Char} (h : ¬ opening <+: c :: cs)
    (hc : c ≠ '\x7d') :
    splitAtClosing depth (c :: cs) =
      (splitAtClosing depth cs).map fun (body, after) => (c :: body, after) := by
  rw [splitAtClosing]
  · rintro cs' rfl rfl
    exact h ⟨cs', rfl⟩
  · exact fun _ => hc
  · exact fun _ _ => hc

/-- A character that closes nothing, whether something is open or not, is no closing brace. -/
lemma ne_closing {depth : Nat} {c : Char} (hzero : depth = 0 → c = '\x7d' → False)
    (hsucc : ∀ fewer, depth = fewer + 1 → c = '\x7d' → False) : c ≠ '\x7d' := by
  cases depth with
  | zero => exact hzero rfl
  | succ fewer => exact hsucc fewer rfl

/-- A search for a closing brace finds the one behind a text that leaves nothing open. -/
lemma splitAtClosing_of_openAfter {depth : Nat} {body : List Char}
    (h : openAfter depth body = some 0) (after : List Char) :
    splitAtClosing depth (body ++ '\x7d' :: after) = some (body, after) := by
  fun_induction openAfter depth body with
  | case1 depth =>
    obtain rfl : depth = 0 := by simpa using h
    simp [splitAtClosing]
  | case2 depth cs ih => simp [splitAtClosing, ih h, opening]
  | case3 cs => simp at h
  | case4 depth cs ih => simp [splitAtClosing, ih h]
  | case5 depth c cs hopen hzero hsucc ih =>
    have hc : c ≠ '\x7d' := ne_closing hzero hsucc
    have hnot : ¬ opening <+: c :: (cs ++ '\x7d' :: after) := by
      rw [opening_prefix_append_iff (by simp)]
      exact not_opening_prefix hopen
    rw [List.cons_append, splitAtClosing_cons hnot hc, ih h]
    rfl

/-- What stands before the brace that a search for a closing finds leaves nothing open. -/
lemma openAfter_of_splitAtClosing {depth : Nat} {text body after : List Char}
    (h : splitAtClosing depth text = some (body, after)) : openAfter depth body = some 0 := by
  fun_induction splitAtClosing depth text generalizing body with
  | case1 => simp at h
  | case2 depth cs ih =>
    obtain ⟨b, hsplit, rfl⟩ := exists_of_map_eq_some h
    simpa [opening, openAfter] using ih hsplit
  | case3 cs =>
    obtain ⟨rfl, rfl⟩ : [] = body ∧ cs = after := by simpa using h
    rfl
  | case4 depth cs ih =>
    obtain ⟨b, hsplit, rfl⟩ := exists_of_map_eq_some h
    simpa [openAfter] using ih hsplit
  | case5 depth c cs hopen hzero hsucc ih =>
    obtain ⟨b, hsplit, rfl⟩ := exists_of_map_eq_some h
    have hc : c ≠ '\x7d' := ne_closing hzero hsucc
    have hnot : ¬ opening <+: c :: b := by
      have hprefix : opening <+: c :: (b ++ '\x7d' :: after) ↔ opening <+: c :: b :=
        opening_prefix_append_iff (by simp)
      rw [← hprefix, ← eq_of_splitAtClosing hsplit]
      exact not_opening_prefix hopen
    rw [openAfter_cons hnot hc]
    exact ih hsplit

/-- The brace that closes a placeholder is the one behind the balanced text after its opening. -/
lemma splitAtClosing_eq_some_iff {text body after : List Char} :
    splitAtClosing 0 text = some (body, after) ↔
      Balanced body ∧ text = body ++ '\x7d' :: after := by
  constructor
  · intro h
    exact ⟨openAfter_of_splitAtClosing h, eq_of_splitAtClosing h⟩
  · rintro ⟨hbody, rfl⟩
    exact splitAtClosing_of_openAfter hbody after

end Template

end ChangelogParameters
