/-!
# Templates

A text with placeholders is a tree.  A placeholder opens with a dollar sign and a brace and
ends at the brace that closes it, which is found by counting: an opening inside goes one level
down, a closing brace one level up.  What stands between is again a text with placeholders.
After the last placeholder comes the rest of the text; an opening that is never closed belongs
to it, with everything behind.

The main statement is that a text is the source of its template, so reading one loses nothing.
-/

namespace ChangelogParameters

namespace Template

/-! ### Openings and closings -/

/-- The two characters that open a placeholder. -/
def opening : List Char := ['$', '\x7b']

/-- Splits a text at its first opening into what comes before and after it. -/
def splitAtOpening : List Char → Option (List Char × List Char)
  | [] => none
  | '$' :: '\x7b' :: cs => some ([], cs)
  | c :: cs => (splitAtOpening cs).map fun (before, after) => (c :: before, after)

/-- Splits a text at the brace that closes `depth` inner placeholders and the outer one, into
what comes before and after it. -/
def splitAtClosing : (depth : Nat) → List Char → Option (List Char × List Char)
  | _, [] => none
  | depth, '$' :: '\x7b' :: cs =>
    (splitAtClosing (depth + 1) cs).map fun (body, after) => (opening ++ body, after)
  | 0, '\x7d' :: cs => some ([], cs)
  | depth + 1, '\x7d' :: cs =>
    (splitAtClosing depth cs).map fun (body, after) => ('\x7d' :: body, after)
  | depth, c :: cs =>
    (splitAtClosing depth cs).map fun (body, after) => (c :: body, after)

theorem eq_of_splitAtOpening {text before after : List Char}
    (h : splitAtOpening text = some (before, after)) : text = before ++ opening ++ after := by
  fun_induction splitAtOpening text generalizing before with
  | case1 => simp at h
  | case2 cs =>
    simp only [Option.some.injEq, Prod.mk.injEq] at h
    simp [← h.1, ← h.2, opening]
  | case3 c cs _ ih =>
    simp only [Option.map_eq_some_iff, Prod.exists, Prod.mk.injEq] at h
    obtain ⟨b, a, hs, rfl, rfl⟩ := h
    simp [ih hs]

theorem eq_of_splitAtClosing {depth : Nat} {text body after : List Char}
    (h : splitAtClosing depth text = some (body, after)) : text = body ++ '\x7d' :: after := by
  fun_induction splitAtClosing depth text generalizing body with
  | case1 => simp at h
  | case3 cs =>
    simp only [Option.some.injEq, Prod.mk.injEq] at h
    simp [← h.1, ← h.2]
  | _ =>
    rename_i ih
    simp only [Option.map_eq_some_iff, Prod.exists, Prod.mk.injEq] at h
    obtain ⟨b, a, hs, rfl, rfl⟩ := h
    simp [ih hs, opening]

end Template

/-! ### The tree of a text -/

/-- A text as a sequence of placeholders with literal text before, between and after them. -/
inductive Template where
  /-- Text without a placeholder. -/
  | rest (text : List Char)
  /-- Literal text, the body of a placeholder, and what comes after it. -/
  | hole (before : List Char) (body after : Template)
deriving DecidableEq, Repr, Inhabited

namespace Template

/-- The template of a text. -/
def ofChars (text : List Char) : Template :=
  match _h : splitAtOpening text with
  | none => .rest text
  | some (before, behind) =>
    match _h' : splitAtClosing 0 behind with
    | none => .rest text
    | some (body, after) => .hole before (ofChars body) (ofChars after)
termination_by text.length
decreasing_by
  all_goals
    have := eq_of_splitAtOpening _h
    have := eq_of_splitAtClosing _h'
    subst_vars
    simp [opening]
    omega

/-- The text of a template. -/
def source : Template → List Char
  | rest text => text
  | hole before body after => before ++ opening ++ body.source ++ '\x7d' :: after.source

/-- A text is the source of its template. -/
theorem source_ofChars (text : List Char) : (ofChars text).source = text := by
  fun_induction ofChars text with
  | case1 => rfl
  | case2 => rfl
  | case3 text before behind h body after h' ih₁ ih₂ =>
    rw [eq_of_splitAtOpening h, eq_of_splitAtClosing h']
    simp [source, ih₁, ih₂]

end Template

end ChangelogParameters
