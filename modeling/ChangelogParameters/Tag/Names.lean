import ChangelogParameters.Text.Blank
import ChangelogParameters.Text.Lowercase

/-!
# Sets of tag names

A run is started with a set of contexts, and a parameter carries a set of labels.  Both are
sets of tag names, kept in ascending order of code points without repetitions.  Names given by
hand, one by one or separated by commas, are trimmed and lower-cased and blank ones are
dropped; names that were stored before are taken as they are.
-/

namespace ChangelogParameters

/-- A finite set of tag names in ascending order. -/
structure Names where
  /-- The members in ascending order. -/
  toList : List String
  /-- Each member is smaller than those after it. -/
  sorted : toList.Pairwise (· < ·)
deriving DecidableEq

namespace Names

instance : Repr Names where
  reprPrec names := reprPrec names.toList

/-! ### Ordered insertion -/

/-- Puts a name in its place in an ascending list, unless it is there already. -/
def insertInto (name : String) : List String → List String
  | [] => [name]
  | n :: ns =>
    if name < n then name :: n :: ns
    else if name = n then n :: ns
    else n :: insertInto name ns

theorem mem_insertInto {name n : String} {ns : List String} :
    n ∈ insertInto name ns ↔ n = name ∨ n ∈ ns := by
  induction ns with
  | nil => simp [insertInto]
  | cons m ms ih =>
    unfold insertInto
    split
    · simp
    · split
      · subst_vars; simp
      · simp only [List.mem_cons, ih]
        constructor
        · rintro (h | h | h) <;> simp [h]
        · rintro (h | h | h) <;> simp [h]

theorem pairwise_insertInto {name : String} {ns : List String} (h : ns.Pairwise (· < ·)) :
    (insertInto name ns).Pairwise (· < ·) := by
  induction ns with
  | nil => simp [insertInto]
  | cons m ms ih =>
    rw [List.pairwise_cons] at h
    unfold insertInto
    split
    case isTrue hlt =>
      refine List.pairwise_cons.2 ⟨?_, List.pairwise_cons.2 h⟩
      intro n hn
      rcases List.mem_cons.1 hn with rfl | hn
      · exact hlt
      · exact String.lt_trans hlt (h.1 n hn)
    case isFalse hlt =>
      split
      case isTrue => exact List.pairwise_cons.2 h
      case isFalse hne =>
        refine List.pairwise_cons.2 ⟨?_, ih h.2⟩
        intro n hn
        rcases mem_insertInto.1 hn with rfl | hn
        · exact Std.lt_of_le_of_ne (String.not_lt.1 hlt) (Ne.symm hne)
        · exact h.1 n hn

/-! ### Building sets -/

/-- The set without members. -/
def empty : Names where
  toList := []
  sorted := List.Pairwise.nil

instance : EmptyCollection Names := ⟨empty⟩
instance : Inhabited Names := ⟨empty⟩

/-- The set with one more member. -/
def insert (name : String) (names : Names) : Names where
  toList := insertInto name names.toList
  sorted := pairwise_insertInto names.sorted

/-- The set of the listed names, taken as they are. -/
def ofList (names : List String) : Names :=
  names.foldr insert empty

/-- How a name given by hand is kept: trimmed and lower-cased. -/
def normalize (name : String) : String :=
  Text.lower (Text.trim name)

/-- The set of names given one by one: normalised, blank ones dropped. -/
def ofTexts (names : List String) : Names :=
  ofList ((names.map normalize).filter (· ≠ ""))

/-- The set of names in a comma separated text. -/
def parse (s : String) : Names :=
  ofTexts (Text.commaSeparated s)

/-! ### Asking and showing -/

/-- The number of members. -/
def size (names : Names) : Nat :=
  names.toList.length

/-- Whether there are no members. -/
def isEmpty (names : Names) : Bool :=
  names.toList.isEmpty

/-- Whether a name, exactly as given, is a member. -/
def holds (names : Names) (name : String) : Bool :=
  names.toList.contains name

/-- Whether a name is a member once it is lower-cased. -/
def contains (names : Names) (name : String) : Bool :=
  names.holds (Text.lower name)

/-- The members, separated by commas. -/
def text (names : Names) : String :=
  ",".intercalate names.toList

/-- A name belongs to the set of a list exactly if it is listed. -/
theorem mem_ofList {name : String} {names : List String} :
    name ∈ (ofList names).toList ↔ name ∈ names := by
  induction names with
  | nil => simp [ofList, empty]
  | cons n ns ih =>
    simp only [ofList, List.foldr_cons, insert, mem_insertInto, List.mem_cons]
    exact or_congr_right ih

@[simp] theorem holds_iff {names : Names} {name : String} :
    names.holds name = true ↔ name ∈ names.toList := by
  simp [holds]

end Names

end ChangelogParameters
