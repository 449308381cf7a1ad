import ChangelogParameters.Changelog.Execution
import ChangelogParameters.CommandLine
import ChangelogParameters.Database.Profile
import ChangelogParameters.Database.Targets
import ChangelogParameters.Defaults.File
import ChangelogParameters.Main
import ChangelogParameters.Proofs.CommandLine.Filters
import ChangelogParameters.Proofs.CommandLine.Precedence
import ChangelogParameters.Proofs.CommandLine.Queries
import ChangelogParameters.Proofs.Database.Parameters
import ChangelogParameters.Proofs.Database.Targets
import ChangelogParameters.Proofs.Defaults.Parameters
import ChangelogParameters.Proofs.Defaults.Scalars
import ChangelogParameters.Proofs.Parameter.Recasing
import ChangelogParameters.Proofs.Store.Calls
import ChangelogParameters.Proofs.Store.Commutation
import ChangelogParameters.Proofs.Store.Explanation
import ChangelogParameters.Proofs.Store.Failures
import ChangelogParameters.Proofs.Store.Isolation
import ChangelogParameters.Proofs.Store.Levels
import ChangelogParameters.Proofs.Store.Loosening
import ChangelogParameters.Proofs.Store.Occurrences
import ChangelogParameters.Proofs.Store.Permanence
import ChangelogParameters.Proofs.Store.Policies
import ChangelogParameters.Proofs.Store.RecasedAnswers
import ChangelogParameters.Proofs.Store.Shown
import ChangelogParameters.Proofs.Store.Tiers
import ChangelogParameters.Proofs.Tag.Connectives
import ChangelogParameters.Proofs.Tag.Cursor
import ChangelogParameters.Proofs.Tag.Faults
import ChangelogParameters.Proofs.Tag.NameLists
import ChangelogParameters.Proofs.Tag.Parentheses
import ChangelogParameters.Proofs.Tag.Spacing
import ChangelogParameters.Proofs.Template.Preservation
import ChangelogParameters.Proofs.Template.Scan
import ChangelogParameters.Proofs.Text.Lowered
import ChangelogParameters.Tag.Condition
import ChangelogParameters.Tag.Stored
import ChangelogParameters.Toml.Document
import ChangelogParameters.Value.Reader
import ChangelogParameters.Value.Text
import ChangelogParameters.Yaml.Document
