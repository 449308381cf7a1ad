import ChangelogParameters.Changelog
import ChangelogParameters.Parameter.Key

/-!
# Execution values

Four names stand for facts about the run and the position.  At a position they are computed,
and nothing that was registered under one of these names is seen.
-/

namespace ChangelogParameters

/-- A value that is computed from the run and the position. -/
inductive ExecutionValue where
  /-- The identifier of the run. -/
  | deploymentId
  /-- The file of the changelog. -/
  | changelogFile
  /-- The identifier of the changeset that is being processed. -/
  | changesetId
  /-- The author of the changeset that is being processed. -/
  | changesetAuthor
deriving DecidableEq, Repr

namespace ExecutionValue

/-- All execution values. -/
def all : List ExecutionValue := [deploymentId, changelogFile, changesetId, changesetAuthor]

/-- The name by which an execution value is looked up. -/
def name : ExecutionValue → String
  | deploymentId => "EXECUTION_DEPLOYMENT_ID"
  | changelogFile => "EXECUTION_CHANGELOG_FILE"
  | changesetId => "EXECUTION_CHANGESET_ID"
  | changesetAuthor => "EXECUTION_CHANGESET_AUTHOR"

/-- The short form of the name, as accounts of a look-up show it. -/
def label : ExecutionValue → String
  | deploymentId => "DeploymentId"
  | changelogFile => "ChangelogFile"
  | changesetId => "ChangesetId"
  | changesetAuthor => "ChangesetAuthor"

/-- The execution value of a name, in any case. -/
def ofName? (name : String) : Option ExecutionValue :=
  all.find? fun value => keyMatches value.name name

/-- The value in a run at a position; there is none for a changeset that is not there or does
not say. -/
def compute (deploymentId : String) (position : Position) : ExecutionValue → Option String
  | .deploymentId => some deploymentId
  | .changelogFile => some position.here.file
  | .changesetId => position.here.changeset.bind (·.id)
  | .changesetAuthor => position.here.changeset.bind (·.author)

end ExecutionValue

end ChangelogParameters
