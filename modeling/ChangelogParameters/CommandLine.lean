import ChangelogParameters.CommandLine.Request
import ChangelogParameters.CommandLine.Session
import ChangelogParameters.Store.Explanation

/-!
# The command line

A run of the program reads its arguments, starts a session, and answers one query.  Its status is
zero if there is an answer, one if there is none, and two if the arguments make no sense.
-/

namespace ChangelogParameters.CommandLine

/-! ### Explanations -/

/-- A text filled up with spaces to a width. -/
def padded (width : Nat) (s : String) : String :=
  s ++ String.ofList (List.replicate (width - s.length) ' ')

/-- How the candidate at an index is marked: whether it wins, is seen, or is not seen. -/
def marker (winner : Option Nat) (index : Nat) (accepted : Bool) : String :=
  if winner = some index then "*" else if accepted then " " else "x"

/-- The line about a candidate. -/
def candidateLine (winner : Option Nat) (index : Nat) (c : Store.Candidate) : String :=
  marker winner index c.accepted ++ " " ++ padded 6 c.tier.text ++ " " ++
    padded 24 (c.scope.getD "-") ++ " " ++ c.key ++ " = " ++ c.value.render ++
    "  contexts[" ++ c.contexts ++ "] labels[" ++ c.labels ++ "] databases[" ++ c.databases ++ "]"

/-- The line about the value that a key has. -/
def valueLine (value : Option Value) : String :=
  "=> " ++ (value.map Value.render).getD "(absent)"

/-- The lines of an explanation: the execution value that the key names, the candidates, and the
value. -/
def explanationLines (e : Store.Explanation) : List String :=
  (e.execution.map fun execution =>
    e.key ++ ": execution value " ++ execution.name).toList ++
  e.candidates.mapIdx (candidateLine e.winner) ++ [valueLine e.value]

/-! ### Outcomes -/

/-- How a run of the program ends. -/
structure Outcome where
  /-- The status. -/
  status : Nat
  /-- What is printed. -/
  output : String := ""
  /-- What is reported. -/
  report : String := ""
deriving DecidableEq, Repr

/-- Texts with an end of line after each of them. -/
def lines (texts : List String) : String :=
  String.join (texts.map (· ++ "\n"))

namespace Outcome

/-- A run that prints some lines. -/
def printed (texts : List String) (status : Nat) : Outcome :=
  { status, output := lines texts }

/-- A run that reports that there is no answer. -/
def failed (message : String) : Outcome :=
  { status := 1, report := lines ["error: " ++ message] }

/-- The causes of an error, which are numbered if there are several. -/
def causeLines : List String → List String
  | [] => []
  | [cause] => ["", "Caused by:", "    " ++ cause]
  | causes =>
    "" :: "Caused by:" :: causes.mapIdx fun i cause =>
      "    " ++ String.ofList (Nat.toDigits 10 i) ++ ": " ++ cause

/-- A run without a session. -/
def unstarted (error : SessionError) : Outcome :=
  { status := 1, report := lines (("Error: " ++ error.message) :: causeLines error.causes) }

/-- A run with arguments that make no sense. -/
def misused (misuse : Misuse) : Outcome :=
  { status := 2, report := lines ["error: " ++ misuse.message] }

end Outcome

/-! ### Runs -/

/-- The name of the program. -/
def programName : String := "chg-params"

/-- The version of the program. -/
def programVersion : String := "0.1.0"

/-- How the program is used. -/
def usage : List String :=
  ["Resolve changelog parameters the way a migration run sees them", "",
    "Usage: " ++ programName ++ " [OPTIONS] <COMMAND>", "",
    "Commands:",
    "  resolve <key>   Print the value a key resolves to",
    "  expand <text>   Expand placeholders in text",
    "  explain <key>   Show every candidate for a key and which one wins", "",
    "Options:",
    "      --defaults-file <file>          TOML or YAML defaults file",
    "  -D <key=value>                      Parameter override",
    "      --contexts <names>              Active contexts, comma separated",
    "      --labels <expression>           Label filter expression",
    "      --database <name>               Target database short name",
    "      --changelog <path>              Changelog logical path, outermost first",
    "      --local <key=value>             Local parameter of the innermost changelog",
    "      --missing-property-mode <mode>  preserve, empty or error",
    "      --no-env                        Do not read the process environment",
    "      --json                          Output as JSON",
    "      --log-json                      Write logs as JSON lines",
    "  -h, --help                          Print help",
    "  -V, --version                       Print version"]

namespace Session

/-- The answer to a query, as values or as text. -/
def answer (session : Session) (json : Bool) : Query → Outcome
  | .resolve key =>
    let value := session.store.resolve key session.position
    let shown :=
      if json then
        [(Value.object [("key", .string key), ("value", value.getD .null)]).compact]
      else (value.map Value.render).toList
    .printed shown (if value.isSome then 0 else 1)
  | .expand text =>
    match session.store.expand text session.position with
    | .ok expanded =>
      .printed [if json then (Value.object [("text", .string expanded)]).compact else expanded] 0
    | .error unresolved => .failed unresolved.message
  | .explain key =>
    let explanation := session.store.explain key session.position
    .printed (if json then [explanation.toValue.indented 0] else explanationLines explanation) 0

end Session

/-- A run of the program with the given arguments. -/
def run (around : Surroundings) (arguments : List String) : Outcome :=
  match Request.read arguments with
  | .error misuse => .misused misuse
  | .ok .help => .printed usage 0
  | .ok .version => .printed [programName ++ " " ++ programVersion] 0
  | .ok (.query options query) =>
    match Session.start options around with
    | .error error => .unstarted error
    | .ok session => session.answer options.json query

end ChangelogParameters.CommandLine
