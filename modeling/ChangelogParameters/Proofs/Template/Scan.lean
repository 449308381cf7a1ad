import ChangelogParameters.Proofs.Template.Bytes

/-!
# Scans by offsets

A template can be read off a text by cutting it at offsets: those of its openings, and those that
the search for closing braces finds among its bytes.  A cut elsewhere than between two characters
would not give texts, and an opening that is never closed ends the scan.

`exists_scan` says that no cut is ever made elsewhere, so that every scan comes to its end with the
template of the text.  In the body of a placeholder every opening has its closing brace
(`Balanced.closed`), so a scan of it does not end early.
-/

namespace ChangelogParameters

namespace Template

/-! ### Slices -/

/-- The part of a text between two offsets, if these are borders of characters in this order. -/
def slice? (text : String) (start stop : Nat) : Option String :=
  if h : start ≤ stop ∧ String.Pos.Raw.IsValid text ⟨start⟩ ∧
      String.Pos.Raw.IsValid text ⟨stop⟩ then
    some (text.extract ⟨⟨start⟩, h.2.1⟩ ⟨⟨stop⟩, h.2.2⟩)
  else none

/-- A slice has its borders between characters. -/
lemma isValid_of_slice? {text part : String} {start stop : Nat}
    (h : slice? text start stop = some part) :
    start ≤ stop ∧ String.Pos.Raw.IsValid text ⟨start⟩ ∧ String.Pos.Raw.IsValid text ⟨stop⟩ := by
  by_contra hnot
  rw [slice?, dif_neg hnot] at h
  cases h

/-- The size of a slice is the distance of its borders, and these are in the text. -/
lemma add_utf8ByteSize_of_slice? {text part : String} {start stop : Nat}
    (h : slice? text start stop = some part) :
    start + part.utf8ByteSize = stop ∧ stop ≤ text.utf8ByteSize := by
  have hvalid := isValid_of_slice? h
  have hle : stop ≤ text.utf8ByteSize := hvalid.2.2.le_rawEndPos
  rw [slice?, dif_pos hvalid, Option.some.injEq] at h
  have hsize : part.utf8ByteSize = min stop text.utf8ByteSize - start := by
    rw [← h, ← String.size_toByteArray, String.toByteArray_extract, ByteArray.size_extract,
      String.size_toByteArray]
  omega

/-- The size of a text is a border of characters in every text that goes on with more. -/
lemma isValid_append (s t : String) : String.Pos.Raw.IsValid (s ++ t) ⟨s.utf8ByteSize⟩ :=
  String.Pos.Raw.isValid_iff_exists_append.2 ⟨s, t, rfl, rfl⟩

/-- The slice up to the end of the first of two texts. -/
lemma slice?_front (s t : String) : slice? (s ++ t) 0 s.utf8ByteSize = some s := by
  have hstart : String.Pos.Raw.IsValid (s ++ t) ⟨0⟩ := by
    have hzero := isValid_append "" (s ++ t)
    rwa [String.empty_append] at hzero
  have hbytes : (s ++ t).toByteArray.extract 0 s.utf8ByteSize = s.toByteArray := by
    rw [String.toByteArray_append]
    exact ByteArray.extract_append_eq_left rfl
  rw [slice?, dif_pos ⟨Nat.zero_le _, hstart, isValid_append s t⟩, Option.some.injEq,
    ← String.toByteArray_inj, String.toByteArray_extract, hbytes]

/-- The slice from the beginning of the second of two texts. -/
lemma slice?_behind (s t : String) :
    slice? (s ++ t) s.utf8ByteSize (s ++ t).utf8ByteSize = some t := by
  have hstop : String.Pos.Raw.IsValid (s ++ t) ⟨(s ++ t).utf8ByteSize⟩ := by
    have hend := isValid_append (s ++ t) ""
    rwa [String.append_empty] at hend
  have hle : s.utf8ByteSize ≤ (s ++ t).utf8ByteSize := by
    rw [String.utf8ByteSize_append]
    exact Nat.le_add_right _ _
  have hbytes : (s ++ t).toByteArray.extract s.utf8ByteSize (s ++ t).utf8ByteSize =
      t.toByteArray := by
    rw [String.toByteArray_append]
    exact ByteArray.extract_append_eq_right rfl String.utf8ByteSize_append
  rw [slice?, dif_pos ⟨hle, isValid_append s t, hstop⟩, Option.some.injEq,
    ← String.toByteArray_inj, String.toByteArray_extract, hbytes]

/-- The slice up to a closing brace. -/
lemma Closes.slice?_body {text body rest : String} (h : Closes text body rest) :
    slice? text 0 body.utf8ByteSize = some body := by
  rw [h.eq_append, String.append_assoc]
  exact slice?_front body ("\x7d" ++ rest)

/-- The slice from behind a closing brace on. -/
lemma Closes.slice?_rest {text body rest : String} (h : Closes text body rest) :
    slice? text (body.utf8ByteSize + 1) text.utf8ByteSize = some rest := by
  have hsize : body.utf8ByteSize + 1 = (body ++ "\x7d").utf8ByteSize := by
    rw [String.utf8ByteSize_append]
    rfl
  rw [h.eq_append, hsize]
  exact slice?_behind (body ++ "\x7d") rest

/-! ### Closed texts -/

/-- If a text closes all placeholders that are open before it, it closes the last ones of them. -/
lemma splitAtClosing_ne_none (depth : Nat) {more : Nat} {text : List Char}
    (h : openAfter (more + depth + 1) text = some 0) : splitAtClosing depth text ≠ none := by
  fun_induction splitAtClosing depth text with
  | case1 depth => simp [openAfter] at h
  | case2 depth cs ih =>
    rw [openAfter] at h
    simpa using ih h
  | case3 cs => simp
  | case4 depth cs ih =>
    have hcs : openAfter (more + depth + 1) cs = some 0 := h
    simpa using ih hcs
  | case5 depth c cs hopen hzero hsucc ih =>
    have hopening : ¬ opening <+: c :: cs := not_opening_prefix hopen
    have hclosing : c ≠ '\x7d' := ne_closing hzero hsucc
    rw [openAfter_cons hopening hclosing] at h
    simpa using ih h

/-- A text that leaves nothing open has a closing brace for every opening in it. -/
lemma closed_of_openAfter {depth : Nat} {text : List Char} (h : openAfter depth text = some 0) :
    Closed text := by
  intro tail htail hunclosed
  obtain ⟨hbegins, hnone⟩ := unclosed_iff.1 hunclosed
  fun_induction openAfter depth text with
  | case1 depth =>
    obtain rfl := List.suffix_nil.1 htail
    simp [opening] at hbegins
  | case2 depth cs ih =>
    rcases List.suffix_cons_iff.1 htail with rfl | htail
    · have hopen : openAfter (depth + 0 + 1) cs = some 0 := h
      exact splitAtClosing_ne_none 0 hopen hnone
    · rcases List.suffix_cons_iff.1 htail with rfl | htail
      · simp [opening] at hbegins
      · exact ih h htail
  | case3 cs => cases h
  | case4 depth cs ih =>
    rcases List.suffix_cons_iff.1 htail with rfl | htail
    · simp [opening] at hbegins
    · exact ih h htail
  | case5 depth c cs hopen hzero hsucc ih =>
    rcases List.suffix_cons_iff.1 htail with rfl | htail
    · exact not_opening_prefix hopen hbegins
    · exact ih h htail

/-- Every opening of a balanced text has its closing brace in the text. -/
lemma Balanced.closed {text : List Char} (h : Balanced text) : Closed text :=
  closed_of_openAfter h

/-! ### Scans -/

/-- What a scan of a text goes through. -/
inductive Scan where
  /-- Text in which nothing is opened. -/
  | rest (text : String)
  /-- Text, and an opening that is never closed with all that is behind it. -/
  | unterminated (before tail : String)
  /-- Text, the body of a placeholder, and what comes after it. -/
  | hole (before : String) (body after : Scan)

namespace Scan

/-- The template that is read by a scan. -/
def toTemplate : Scan → Template
  | rest text => .rest text.toList
  | unterminated before tail => .rest (before ++ tail).toList
  | hole before body after => .hole before.toList body.toTemplate after.toTemplate

/-- Nothing that the scan goes through is left open. -/
def Terminated : Scan → Prop
  | rest _ => True
  | unterminated _ _ => False
  | hole _ body after => body.Terminated ∧ after.Terminated

end Scan

/-- The offset of the first opening of a text. -/
def firstOpening (text : String) : Option Nat :=
  (splitAtOpening text.toList).map fun (before, _) => (String.ofList before).utf8ByteSize

/-- Scans a text by offsets.  There is no result if it is cut elsewhere than between characters, or
if more is closed than is open. -/
def scan? (text : String) : Option Scan :=
  match firstOpening text with
  | none => some (.rest text)
  | some start =>
    match slice? text 0 start, _h : slice? text (start + 2) text.utf8ByteSize with
    | some before, some behind =>
      match closingBrace behind with
      | .underflow => none
      | .missing => (slice? text start text.utf8ByteSize).map (.unterminated before)
      | .found stop =>
        match _hbody : slice? behind 0 stop,
          _hafter : slice? behind (stop + 1) behind.utf8ByteSize with
        | some body, some after => do return .hole before (← scan? body) (← scan? after)
        | _, _ => none
    | _, _ => none
termination_by text.utf8ByteSize
decreasing_by
  all_goals
    have := add_utf8ByteSize_of_slice? _h
    have := add_utf8ByteSize_of_slice? _hbody
    have := add_utf8ByteSize_of_slice? _hafter
    omega

/-- Plain text is scanned in one step. -/
lemma scan?_of_plain {text : String} (h : Plain text.toList) : scan? text = some (.rest text) := by
  rw [scan?, firstOpening, splitAtOpening_eq_none_iff.2 h]
  rfl

/-- A text is opened behind plain text, and there it is cut. -/
lemma firstOpening_opening {before : String} (h : Plain before.toList) (behind : String) :
    firstOpening (before ++ "$\x7b" ++ behind) = some before.utf8ByteSize := by
  have hsplit := splitAtOpening_of_plain h behind.toList
  have htext : (before ++ "$\x7b" ++ behind).toList =
      before.toList ++ opening ++ behind.toList := by simp [opening]
  rw [firstOpening, htext, hsplit]
  simp only [Option.map_some, String.ofList_toList]

/-- The slices before, from and behind an opening. -/
lemma slice?_opening (before behind : String) :
    slice? (before ++ "$\x7b" ++ behind) 0 before.utf8ByteSize = some before ∧
      slice? (before ++ "$\x7b" ++ behind) before.utf8ByteSize
        (before ++ "$\x7b" ++ behind).utf8ByteSize = some ("$\x7b" ++ behind) ∧
      slice? (before ++ "$\x7b" ++ behind) (before.utf8ByteSize + 2)
        (before ++ "$\x7b" ++ behind).utf8ByteSize = some behind := by
  have hfront := slice?_front before ("$\x7b" ++ behind)
  have htail := slice?_behind before ("$\x7b" ++ behind)
  have hbehind := slice?_behind (before ++ "$\x7b") behind
  have hsize : (before ++ "$\x7b").utf8ByteSize = before.utf8ByteSize + 2 := by
    rw [String.utf8ByteSize_append]
    rfl
  rw [← String.append_assoc] at hfront htail
  rw [hsize] at hbehind
  exact ⟨hfront, htail, hbehind⟩

/-- An opening that is never closed ends the scan. -/
lemma scan?_unclosed {before behind : String} (h : Plain before.toList)
    (hunclosed : Unclosed (opening ++ behind.toList)) :
    scan? (before ++ "$\x7b" ++ behind) = some (.unterminated before ("$\x7b" ++ behind)) := by
  have hmissing : closingBrace behind = .missing := by
    rw [closingBrace_eq_elim, unclosed_opening_iff.1 hunclosed]
    rfl
  obtain ⟨hfront, htail, hbehind⟩ := slice?_opening before behind
  rw [scan?, firstOpening_opening h]
  dsimp only
  -- the definition keeps where its slices come from, so they cannot be rewritten in it
  split
  next front tail hf ht =>
    obtain rfl : before = front := Option.some.inj (hfront.symm.trans hf)
    obtain rfl : behind = tail := Option.some.inj (hbehind.symm.trans ht)
    simp only [hmissing, htail, Option.map_some]
  next hnone => exact (hnone _ _ hfront hbehind).elim

/-- Behind plain text and a placeholder with a balanced body, the body is scanned and then what
comes after. -/
lemma scan?_hole {before body : String} (h : Plain before.toList) (hbody : Balanced body.toList)
    (after : String) :
    scan? (before ++ "$\x7b" ++ (body ++ "\x7d" ++ after)) = do
      let inner ← scan? body
      let next ← scan? after
      return .hole before inner next := by
  have hcloses : Closes (body ++ "\x7d" ++ after) body after := ⟨rfl, hbody⟩
  obtain ⟨hfront, -, hbehind⟩ := slice?_opening before (body ++ "\x7d" ++ after)
  rw [scan?, firstOpening_opening h]
  dsimp only
  split
  next front tail hf ht =>
    obtain rfl : before = front := Option.some.inj (hfront.symm.trans hf)
    obtain rfl : body ++ "\x7d" ++ after = tail := Option.some.inj (hbehind.symm.trans ht)
    simp only [hcloses.closingBrace_eq]
    split
    next inner next hi hn =>
      obtain rfl : body = inner := Option.some.inj (hcloses.slice?_body.symm.trans hi)
      obtain rfl : after = next := Option.some.inj (hcloses.slice?_rest.symm.trans hn)
      rfl
    next hnone => exact (hnone _ _ hcloses.slice?_body hcloses.slice?_rest).elim
  next hnone => exact (hnone _ _ hfront hbehind).elim

/-- The text of characters with an opening among them. -/
lemma ofList_opening (before behind : List Char) :
    String.ofList (before ++ opening ++ behind) =
      String.ofList before ++ "$\x7b" ++ String.ofList behind := by
  rw [String.ofList_append, String.ofList_append]
  rfl

/-- The text of characters with a closing brace among them. -/
lemma ofList_closing (body after : List Char) :
    String.ofList (body ++ '\x7d' :: after) =
      String.ofList body ++ "\x7d" ++ String.ofList after := by
  rw [← List.singleton_append, ← List.append_assoc, String.ofList_append, String.ofList_append]

/-- **Scanning.**  Every text is scanned to its end, with all cuts between characters, and what is
read is its template.  If every opening of the text has its closing brace in it, nothing is left
open on the way. -/
lemma exists_scan (text : String) :
    ∃ scan, scan? text = some scan ∧ scan.toTemplate = ofChars text.toList ∧
      (Closed text.toList → scan.Terminated) := by
  suffices hchars : ∀ cs, ∃ scan, scan? (String.ofList cs) = some scan ∧
      scan.toTemplate = ofChars cs ∧ (Closed cs → scan.Terminated) by
    simpa using hchars text.toList
  intro cs
  induction cs using reading_induction with
  | bare last tail hlast htail =>
    have hplain : Plain (String.ofList last).toList := by rwa [String.toList_ofList]
    have hread := ofChars_of_bare hlast htail
    rcases htail with rfl | hunclosed
    · rw [List.append_nil] at hread ⊢
      refine ⟨_, scan?_of_plain hplain, ?_, fun _ => trivial⟩
      rw [hread, Scan.toTemplate, String.toList_ofList]
    · obtain ⟨behind, rfl, -⟩ := id hunclosed
      have hbehind : Unclosed (opening ++ (String.ofList behind).toList) := by
        rwa [String.toList_ofList]
      rw [hread, ← List.append_assoc, ofList_opening]
      refine ⟨_, scan?_unclosed hplain hbehind, ?_, fun hclosed => ?_⟩
      · simp [Scan.toTemplate, opening]
      · rw [List.append_assoc] at hclosed
        exact absurd hunclosed (hclosed _ (List.suffix_append _ _))
  | hole before body after hbefore hbody ihbody ihafter =>
    obtain ⟨inner, hinner, hinnerRead, hinnerClosed⟩ := ihbody
    obtain ⟨next, hnext, hnextRead, hnextClosed⟩ := ihafter
    have hplain : Plain (String.ofList before).toList := by rwa [String.toList_ofList]
    have hbalanced : Balanced (String.ofList body).toList := by rwa [String.toList_ofList]
    refine ⟨.hole (String.ofList before) inner next, ?_, ?_, fun hclosed => ?_⟩
    · rw [ofList_opening, ofList_closing, scan?_hole hplain hbalanced, hinner, hnext]
      rfl
    · rw [ofChars_of_hole hbefore hbody, Scan.toTemplate, hinnerRead, hnextRead,
        String.toList_ofList]
    · have hafter : after <:+ before ++ opening ++ (body ++ '\x7d' :: after) :=
        ⟨before ++ opening ++ body ++ ['\x7d'], by simp⟩
      exact ⟨hinnerClosed hbody.closed, hnextClosed (hclosed.of_suffix hafter)⟩

/-- **Searching bytes.**  The search for the closing brace of a placeholder never closes more than
is open.  It finds the brace behind a balanced text, at the offset that is the size of this text,
and ends without finding one if there is no such brace.  There is at most one, so the balanced text
is the only one.

The offset that is found and the next one are borders of characters, and the slices up to the one
and from the other are the balanced text and what comes after the brace.  Every opening of the
balanced text has its closing brace in it, so a scan of it leaves nothing open.  And no scan of any
text is ever cut elsewhere than between characters: all of them come to an end with the template of
the text. -/
theorem closingBrace_balanced (text : String) :
    closingBrace text ≠ .underflow ∧
      (∀ offset, closingBrace text = .found offset ↔
        ∃ body rest, Closes text body rest ∧ offset = body.utf8ByteSize) ∧
      (closingBrace text = .missing ↔ ∀ body rest, ¬ Closes text body rest) ∧
      (∀ body rest body' rest', Closes text body rest → Closes text body' rest' →
        body = body' ∧ rest = rest') ∧
      (∀ offset, closingBrace text = .found offset →
        offset + 1 ≤ text.utf8ByteSize ∧ String.Pos.Raw.IsValid text ⟨offset⟩ ∧
          String.Pos.Raw.IsValid text ⟨offset + 1⟩ ∧
          ∃ body rest, slice? text 0 offset = some body ∧
            slice? text (offset + 1) text.utf8ByteSize = some rest ∧ Closes text body rest ∧
            Closed body.toList ∧ ∃ scan, scan? body = some scan ∧ scan.Terminated) ∧
      ∃ scan, scan? text = some scan ∧ scan.toTemplate = ofChars text.toList := by
  have hfound : ∀ offset, closingBrace text = .found offset ↔
      ∃ body rest, Closes text body rest ∧ offset = body.utf8ByteSize := by
    intro offset
    constructor
    · intro h
      rcases closingBrace_cases text with hmissing | ⟨body, rest, hcloses, heq⟩
      · rw [hmissing] at h
        cases h
      · rw [heq] at h
        cases h
        exact ⟨body, rest, hcloses, rfl⟩
    · rintro ⟨body, rest, hcloses, rfl⟩
      exact hcloses.closingBrace_eq
  refine ⟨?_, hfound, closingBrace_eq_missing_iff, fun _ _ _ _ h h' => h.unique h', ?_, ?_⟩
  · rcases closingBrace_cases text with hmissing | ⟨body, rest, -, heq⟩
    · rw [hmissing]
      exact nofun
    · rw [heq]
      exact nofun
  · intro offset h
    obtain ⟨body, rest, hcloses, rfl⟩ := (hfound offset).1 h
    obtain ⟨-, -, hoffset⟩ := isValid_of_slice? hcloses.slice?_body
    obtain ⟨hle, hnext, -⟩ := isValid_of_slice? hcloses.slice?_rest
    have hclosed : Closed body.toList := hcloses.balanced.closed
    obtain ⟨scan, hscan, -, hterminated⟩ := exists_scan body
    exact ⟨hle, hoffset, hnext, body, rest, hcloses.slice?_body, hcloses.slice?_rest, hcloses,
      hclosed, scan, hscan, hterminated hclosed⟩
  · obtain ⟨scan, hscan, hread, -⟩ := exists_scan text
    exact ⟨scan, hscan, hread⟩

/-- A body with a character of two bytes and a placeholder inside, and an opening behind it that is
never closed. -/
theorem closingBrace_balanced_accent :
    let text := "é$\x7bx\x7d\x7d$\x7bü"
    closingBrace text = .found 6 ∧ slice? text 0 6 = some "é$\x7bx\x7d" ∧
      slice? text 7 text.utf8ByteSize = some "$\x7bü" ∧
      (∃ scan, scan? "é$\x7bx\x7d" = some scan ∧ scan.Terminated) ∧
      ∃ scan, scan? text = some scan ∧ scan.toTemplate = ofChars text.toList := by
  intro text
  obtain ⟨-, hfound, -, hunique, hcut, hscan⟩ := closingBrace_balanced text
  have hcloses : Closes text "é$\x7bx\x7d" "$\x7bü" := closes_iff.2 (by decide +kernel)
  have hsix : closingBrace text = .found 6 := (hfound 6).2 ⟨_, _, hcloses, by decide⟩
  obtain ⟨-, -, -, body, rest, hbody, hrest, hcloses', -, hterminated⟩ := hcut 6 hsix
  obtain ⟨rfl, rfl⟩ := hunique _ _ _ _ hcloses hcloses'
  exact ⟨hsix, hbody, hrest, hterminated, hscan⟩

end Template

end ChangelogParameters
