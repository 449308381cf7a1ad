import ChangelogParameters.Proofs.Template.Balance

/-!
# Segmentations

The segmentation of a text lists its outermost placeholders: plain text and the balanced body of
a placeholder in turn, then plain text again, and at the end a tail, which is empty or begins with
an opening that is never closed.

Every text has exactly one segmentation (`existsUnique_segmentation`), and its template is read
off it hole by hole.
-/

namespace ChangelogParameters

namespace Template

/-- A text cut at its outermost placeholders. -/
structure Segmentation where
  /-- The placeholders: the text before each of them, and its body. -/
  holes : List (List Char × List Char)
  /-- The text after the last placeholder. -/
  last : List Char
  /-- What follows an opening that is never closed, with the opening. -/
  tail : List Char

/-- A text begins with an opening that is never closed. -/
def Unclosed (text : List Char) : Prop :=
  ∃ behind, text = opening ++ behind ∧
    ∀ body after, Balanced body → behind ≠ body ++ '\x7d' :: after

/-- An opening is never closed exactly if the search for its closing brace finds none. -/
lemma unclosed_opening_iff {behind : List Char} :
    Unclosed (opening ++ behind) ↔ splitAtClosing 0 behind = none := by
  constructor
  · rintro ⟨behind', heq, hunclosed⟩
    obtain rfl := List.append_cancel_left heq
    rw [Option.eq_none_iff_forall_ne_some]
    rintro ⟨body, after⟩ hsplit
    obtain ⟨hbody, hbehind⟩ := splitAtClosing_eq_some_iff.1 hsplit
    exact hunclosed body after hbody hbehind
  · intro hnone
    refine ⟨behind, rfl, ?_⟩
    rintro body after hbody rfl
    rw [splitAtClosing_eq_some_iff.2 ⟨hbody, rfl⟩] at hnone
    cases hnone

namespace Segmentation

/-- The text that is cut. -/
def source (s : Segmentation) : List Char :=
  s.holes.flatMap (fun (before, body) => before ++ opening ++ body ++ ['\x7d']) ++
    s.last ++ s.tail

/-- The conditions on the parts of a segmentation. -/
structure Valid (s : Segmentation) : Prop where
  plain : ∀ hole ∈ s.holes, Plain hole.1
  balanced : ∀ hole ∈ s.holes, Balanced hole.2
  last : Plain s.last
  tail : s.tail = [] ∨ Unclosed s.tail

/-- The segmentation with one more placeholder in front. -/
def cons (before body : List Char) (s : Segmentation) : Segmentation :=
  ⟨(before, body) :: s.holes, s.last, s.tail⟩

/-- Without placeholders there is only text and the tail. -/
lemma source_bare (last tail : List Char) : (mk [] last tail).source = last ++ tail := by
  simp [source]

lemma source_cons (before body : List Char) (s : Segmentation) :
    (s.cons before body).source = before ++ opening ++ (body ++ '\x7d' :: s.source) := by
  simp [cons, source]

/-- A segmentation is valid if its first placeholder is and the rest of it is. -/
lemma valid_cons_iff {before body : List Char} {s : Segmentation} :
    (s.cons before body).Valid ↔ Plain before ∧ Balanced body ∧ s.Valid := by
  constructor
  · rintro ⟨hplain, hbalanced, hlast, htail⟩
    refine ⟨hplain (before, body) (by simp [cons]), hbalanced (before, body) (by simp [cons]), ?_⟩
    exact ⟨fun hole hmem => hplain hole (by simp [cons, hmem]),
      fun hole hmem => hbalanced hole (by simp [cons, hmem]), hlast, htail⟩
  · rintro ⟨hbefore, hbody, hplain, hbalanced, hlast, htail⟩
    refine ⟨?_, ?_, hlast, htail⟩
    · intro hole hmem
      rcases List.mem_cons.1 hmem with rfl | hmem
      · exact hbefore
      · exact hplain hole hmem
    · intro hole hmem
      rcases List.mem_cons.1 hmem with rfl | hmem
      · exact hbody
      · exact hbalanced hole hmem

/-- Induction along the placeholders of a segmentation. -/
@[elab_as_elim] lemma induction {motive : Segmentation → Prop}
    (bare : ∀ last tail, motive ⟨[], last, tail⟩)
    (cons : ∀ before body s, motive s → motive (s.cons before body)) (s : Segmentation) :
    motive s := by
  obtain ⟨holes, last, tail⟩ := s
  induction holes with
  | nil => exact bare last tail
  | cons hole holes ih => exact cons hole.1 hole.2 ⟨holes, last, tail⟩ ih

end Segmentation

/-! ### Reading a template off a segmentation -/

/-- A template is a single rest if its text is plain up to an opening that is never closed. -/
lemma ofChars_of_bare {last tail : List Char} (hlast : Plain last)
    (htail : tail = [] ∨ Unclosed tail) : ofChars (last ++ tail) = rest (last ++ tail) := by
  rw [ofChars]
  rcases htail with rfl | hunclosed
  · have hnone : splitAtOpening (last ++ []) = none := by
      rwa [List.append_nil, splitAtOpening_eq_none_iff]
    split
    case h_1 => rfl
    case h_2 before' behind' h => rw [hnone] at h; cases h
  · obtain ⟨behind, rfl, -⟩ := id hunclosed
    have hsome : splitAtOpening (last ++ (opening ++ behind)) = some (last, behind) := by
      rw [← List.append_assoc]
      exact splitAtOpening_of_plain hlast behind
    split
    case h_1 => rfl
    case h_2 before' behind' h =>
      rw [hsome] at h
      cases h
      split
      case h_1 => rfl
      case h_2 body after h' => rw [unclosed_opening_iff.1 hunclosed] at h'; cases h'

/-- A hole is read off plain text, an opening, a balanced body and a closing brace. -/
lemma ofChars_of_hole {before body : List Char} (hbefore : Plain before) (hbody : Balanced body)
    (after : List Char) :
    ofChars (before ++ opening ++ (body ++ '\x7d' :: after)) =
      hole before (ofChars body) (ofChars after) := by
  have hopen := splitAtOpening_of_plain hbefore (body ++ '\x7d' :: after)
  have hclose := splitAtClosing_eq_some_iff.2 ⟨hbody, (rfl : body ++ '\x7d' :: after = _)⟩
  rw [ofChars]
  split
  case h_1 h => rw [hopen] at h; cases h
  case h_2 before' behind h =>
    rw [hopen] at h
    cases h
    split
    case h_1 h' => rw [hclose] at h'; cases h'
    case h_2 body' after' h' =>
      rw [hclose] at h'
      cases h'
      rfl

/-- Induction along the reading of a text: what holds of texts without placeholders, and of a text
with a placeholder behind plain text if it holds of the body and of what comes after, holds of all
texts. -/
@[elab_as_elim] lemma reading_induction {motive : List Char → Prop}
    (bare : ∀ last tail, Plain last → tail = [] ∨ Unclosed tail → motive (last ++ tail))
    (hole : ∀ before body after, Plain before → Balanced body → motive body → motive after →
      motive (before ++ opening ++ (body ++ '\x7d' :: after))) (text : List Char) :
    motive text := by
  fun_induction ofChars text with
  | case1 text h =>
    simpa using bare text [] (splitAtOpening_eq_none_iff.1 h) (.inl rfl)
  | case2 text before behind h h' =>
    rw [eq_of_splitAtOpening h, List.append_assoc]
    exact bare before (opening ++ behind) (plain_of_splitAtOpening h)
      (.inr (unclosed_opening_iff.2 h'))
  | case3 text before behind h body after h' ihbody ihafter =>
    obtain ⟨hbody, rfl⟩ := splitAtClosing_eq_some_iff.1 h'
    rw [eq_of_splitAtOpening h]
    exact hole before body after (plain_of_splitAtOpening h) hbody ihbody ihafter

/-! ### The segmentation of a text -/

/-- The segmentation of the text of a template. -/
def segmentation : Template → Segmentation
  | rest text => match splitAtOpening text with
    | none => ⟨[], text, []⟩
    | some (before, behind) => ⟨[], before, opening ++ behind⟩
  | hole before body after => after.segmentation.cons before body.source

/-- A rest whose first opening is never closed has a valid segmentation without placeholders. -/
lemma segmentation_rest {last tail : List Char} (hlast : Plain last)
    (htail : tail = [] ∨ Unclosed tail) : (rest (last ++ tail)).segmentation = ⟨[], last, tail⟩ := by
  rcases htail with rfl | ⟨behind, rfl, -⟩
  · simp [segmentation, splitAtOpening_eq_none_iff.2 hlast]
  · rw [← List.append_assoc, segmentation, splitAtOpening_of_plain hlast behind]

/-- The only valid segmentation of a text is the one that its template has. -/
lemma segmentation_ofChars_source {s : Segmentation} (hs : s.Valid) :
    (ofChars s.source).segmentation = s := by
  induction s using Segmentation.induction with
  | bare last tail =>
    rw [Segmentation.source_bare, ofChars_of_bare hs.last hs.tail, segmentation_rest hs.last hs.tail]
  | cons before body s ih =>
    obtain ⟨hbefore, hbody, hrest⟩ := Segmentation.valid_cons_iff.1 hs
    rw [Segmentation.source_cons, ofChars_of_hole hbefore hbody, segmentation, source_ofChars,
      ih hrest]

/-- The segmentation of a text by its template is valid, and nothing of the text is lost. -/
lemma segmentation_ofChars (text : List Char) :
    (ofChars text).segmentation.Valid ∧ (ofChars text).segmentation.source = text := by
  induction text using reading_induction with
  | bare last tail hlast htail =>
    rw [ofChars_of_bare hlast htail, segmentation_rest hlast htail]
    exact ⟨⟨by simp, by simp, hlast, htail⟩, Segmentation.source_bare last tail⟩
  | hole before body after hbefore hbody _ ih =>
    rw [ofChars_of_hole hbefore hbody, segmentation, source_ofChars]
    refine ⟨Segmentation.valid_cons_iff.2 ⟨hbefore, hbody, ih.1⟩, ?_⟩
    rw [Segmentation.source_cons, ih.2]

/-- Every text has exactly one segmentation. -/
theorem existsUnique_segmentation (text : List Char) :
    ∃! s : Segmentation, s.Valid ∧ s.source = text := by
  refine ⟨(ofChars text).segmentation, segmentation_ofChars text, ?_⟩
  rintro s ⟨hs, rfl⟩
  exact (segmentation_ofChars_source hs).symm

end Template

end ChangelogParameters
