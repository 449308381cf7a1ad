/-!
# Changelogs and positions

A changelog is a file that other changelogs may include.  A position is a place in the tree of
inclusions: a changelog with all those around it, from the one that includes it out to the root.
While a changeset of a changelog is being processed it is noted there.
-/

namespace ChangelogParameters

/-- A changeset that is being processed. -/
structure Changeset where
  /-- Its identifier, if it has one. -/
  id : Option String
  /-- Its author, if one is named. -/
  author : Option String
deriving DecidableEq, Repr

/-- A changelog as it is being processed. -/
structure Changelog where
  /-- The file it is read from. -/
  file : String
  /-- The name under which its parameters are kept. -/
  logicalPath : String
  /-- The changeset that is being processed, if any. -/
  changeset : Option Changeset
deriving DecidableEq, Repr

namespace Changelog

/-- The changelog of a file, which also is its name. -/
def ofFile (file : String) : Changelog := ⟨file, file, none⟩

end Changelog

/-- A changelog in the tree of inclusions. -/
structure Position where
  /-- The changelog itself. -/
  here : Changelog
  /-- The changelogs around it, innermost first. -/
  around : List Changelog
deriving DecidableEq, Repr

namespace Position

/-- The changelog of a file that no other includes. -/
def root (file : String) : Position := ⟨.ofFile file, []⟩

/-- The changelogs from the position out to the root. -/
def ancestry (position : Position) : List Changelog :=
  position.here :: position.around

/-- The position around this one, if there is one. -/
def parent? (position : Position) : Option Position :=
  match position.around with
  | [] => none
  | here :: around => some ⟨here, around⟩

/-- A file included from a position. -/
def child (parent : Position) (file : String) : Position :=
  ⟨.ofFile file, parent.ancestry⟩

/-- The innermost position of files that include one another, outermost first; none if there
are no files. -/
def chain? (files : List String) : Option Position :=
  files.foldl (fun outer file => some ((outer.map (·.child file)).getD (root file))) none

/-- The name under which local parameters of the position are kept. -/
def scopeKey (position : Position) : String := position.here.logicalPath

/-! ### Changes -/

/-- The position under another name. -/
def withLogicalPath (position : Position) (path : String) : Position :=
  { position with here := { position.here with logicalPath := path } }

/-- The position while a changeset is being processed, or while none is. -/
def withChangeset (position : Position) (changeset : Option Changeset) : Position :=
  { position with here := { position.here with changeset := changeset } }

end Position

end ChangelogParameters
