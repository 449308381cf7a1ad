import ChangelogParameters.Proofs.CommandLine.Sessions
import ChangelogParameters.Proofs.Database.Profile

/-!
# Where values come from

Six sources can give a key its value: what is computed at a changelog, the environment, the
database of the defaults file, the definitions of the options, the parameters of the defaults file,
and the local parameters.  They stand in this order, and the first one that knows the key has the
last word.

`Session.start_resolve` says that the value of a key is determined by this order and by nothing
else, where the defaults are those that the named file describes (`Session.Loads`).  A definition of
the options is behind the database of the defaults file, so it does not prevail against the whole
file: `Session.start_resolve_of_defined` says when it does, and `Session.not_definitions_prevail`
shows a file against which it does not.
-/

namespace ChangelogParameters.CommandLine

namespace Session

/-! ### Sources -/

/-- A source of values that were registered. -/
inductive Source where
  /-- The variables of the environment. -/
  | environment
  /-- The database that the defaults file describes. -/
  | database
  /-- The definitions of the options. -/
  | definitions
  /-- The parameters of the defaults file. -/
  | defaultsFile
  /-- The local parameters. -/
  | localDefinitions
deriving DecidableEq, Repr

/-- All sources, from the strongest one on. -/
def Source.all : List Source :=
  [environment, database, definitions, defaultsFile, localDefinitions]

/-- What a source says; what comes first counts.  Local parameters count from the last one on, and
only where there is a changelog. -/
def Source.entries (options : Options) (around : Surroundings) (loaded : Defaults) :
    Source → List (String × Value)
  | environment => if options.noEnvironment then [] else textValues around.environment
  | database => loaded.database.elim [] Profile.parameters
  | definitions => textValues options.definitions
  | defaultsFile => Store.defaultsParameters loaded.entries
  | localDefinitions =>
    if options.changelogs = [] then [] else (textValues options.localDefinitions).reverse

/-- The execution value that a key names, which only counts where there is a changelog. -/
def executionName? (options : Options) (key : String) : Option ExecutionValue :=
  if options.changelogs = [] then none else ExecutionValue.ofName? key

/-- What is computed for an execution value.  The changelog is the last one that is given, and no
changeset is being processed. -/
def computed? (options : Options) (around : Surroundings) : ExecutionValue → Option String
  | .deploymentId => some around.runId
  | .changelogFile => options.changelogs.getLast?
  | .changesetId | .changesetAuthor => none

/-- The value that a key has to have: what is computed for it if it names an execution value, or
else what the first source says that knows the key. -/
def valueOf (options : Options) (around : Surroundings) (loaded : Defaults) (key : String) :
    Option Value :=
  match executionName? options key with
  | some execution => (computed? options around execution).map .string
  | none => Source.all.findSome? fun source =>
      firstValue key (source.entries options around loaded)

variable {options : Options} {around : Surroundings} {loaded : Defaults}
  {condition : Option Condition} {key : String}

/-! ### The store agrees -/

/-- A key names an execution value at the position of a session exactly if there is a changelog. -/
lemma executionValue?_chain? (options : Options) (key : String) :
    Store.executionValue? key (Position.chain? options.changelogs) =
      executionName? options key := by
  rw [executionName?]
  split
  case isTrue h =>
    rw [h]
    rfl
  case isFalse h =>
    obtain ⟨position, hposition⟩ :=
      Option.ne_none_iff_exists'.1 (mt Position.chain?_eq_none_iff.1 h)
    rw [hposition]
    rfl

/-- What is computed at the position of a session. -/
lemma resolve_history_of_execution {execution : ExecutionValue}
    (h : executionName? options key = some execution) :
    (history options around loaded condition).store.resolve key
        (Position.chain? options.changelogs) =
      (computed? options around execution).map .string := by
  have hexecution := (executionValue?_chain? options key).trans h
  rcases List.eq_nil_or_concat options.changelogs with hnil | ⟨outer, file, hconcat⟩
  · simp [executionName?, hnil] at h
  · rw [List.concat_eq_append] at hconcat
    rw [hconcat, Position.chain?_concat] at hexecution ⊢
    simp only [Store.resolve, hexecution, Store.History.store_deploymentId]
    cases execution <;> simp [ExecutionValue.compute, computed?, hconcat, history, setup,
      Changelog.ofFile]

/-- The buckets of all changelogs give the values of the local parameters.  The last changelog comes
first; that it may come again further out makes no difference. -/
lemma firstValue_buckets (options : Options) (around : Surroundings) (loaded : Defaults)
    (key : String) :
    firstValue key (options.changelogs.reverse.flatMap fun file =>
        if options.changelogs.getLast? = some file then
          (textValues options.localDefinitions).reverse
        else []) =
      firstValue key (Source.localDefinitions.entries options around loaded) := by
  rcases List.eq_nil_or_concat options.changelogs with hnil | ⟨outer, file, hconcat⟩
  · simp [Source.entries, hnil]
  · have hlast : options.changelogs.getLast? = some file := by simp [hconcat]
    have hreverse : options.changelogs.reverse = file :: outer.reverse := by simp [hconcat]
    have hne : options.changelogs ≠ [] := by simp [hconcat]
    rw [hreverse, List.flatMap_cons, firstValue_append, hlast, if_pos rfl, Source.entries,
      if_neg hne]
    refine firstValue_or_flatMap key outer.reverse ?_
    intro file' _
    by_cases h : some file = some file' <;> simp [h]

/-- What is seen from the position of a session gives the same values as the sources, one after the
other. -/
lemma firstValue_seen_history (options : Options) (around : Surroundings) (loaded : Defaults)
    (condition : Option Condition) (key : String) :
    firstValue key ((history options around loaded condition).store.seen
        (Position.chain? options.changelogs)) =
      Source.all.findSome? fun source => firstValue key (source.entries options around loaded) := by
  have hsources : Source.all.flatMap (Source.entries options around loaded) =
      (if options.noEnvironment then [] else textValues around.environment) ++
        globalEntries options loaded ++ Source.localDefinitions.entries options around loaded := by
    simp [Source.all, Source.entries, globalEntries]
  rw [← firstValue_flatMap, hsources, seen_history, firstValue_append,
    firstValue_buckets options around loaded, ← firstValue_append]

/-- The value of a key in a session is the one that it has to have. -/
lemma resolve_history (options : Options) (around : Surroundings) (loaded : Defaults)
    (condition : Option Condition) (key : String) :
    (history options around loaded condition).store.resolve key
        (Position.chain? options.changelogs) =
      valueOf options around loaded key := by
  rw [valueOf]
  cases h : executionName? options key with
  | some execution => exact resolve_history_of_execution h
  | none =>
    rw [(unrestricted_history options around loaded condition).resolve
      ((executionValue?_chain? options key).trans h), firstValue_seen_history]

/-- At most one parameter of the database has the key that is asked for. -/
lemma eq_of_mem_database {p q : String × Value}
    (hp : p ∈ Source.database.entries options around loaded)
    (hq : q ∈ Source.database.entries options around loaded)
    (hpkey : keyMatches p.1 key = true) (hqkey : keyMatches q.1 key = true) : p = q := by
  cases hdatabase : loaded.database with
  | none => simp [Source.entries, hdatabase] at hp
  | some profile =>
    simp only [Source.entries, hdatabase, Option.elim_some] at hp hq
    exact Profile.eq_of_keyMatches hp hq hpkey hqkey

/-- The parameters of the database have no other keys than profiles have. -/
lemma fst_mem_parameterKeys_of_mem_database {p : String × Value}
    (hp : p ∈ Source.database.entries options around loaded) : p.1 ∈ Profile.parameterKeys := by
  cases hdatabase : loaded.database with
  | none => simp [Source.entries, hdatabase] at hp
  | some profile =>
    simp only [Source.entries, hdatabase, Option.elim_some] at hp
    exact profile.map_fst_parameters_sublist.subset (List.mem_map_of_mem hp)

/-! ### The defaults file -/

/-- Defaults are those that the options name: without a defaults file there are none, and with one
they are what its text describes, read in the format that its extension tells. -/
def Loads (options : Options) (around : Surroundings) (loaded : Defaults) : Prop :=
  match options.defaultsFile with
  | none => loaded = {}
  | some path => ∃ format text v, Defaults.Format.ofPath? path = some format ∧
      around.text? path = some text ∧ around.parse? format text = some v ∧
      Defaults.ofValue v = .ok loaded

/-- A session has the defaults that its options name: those that `Defaults.load` gives for the text
of the file. -/
lemma defaults_eq_ok_iff : defaults options around = .ok loaded ↔ Loads options around loaded := by
  rw [defaults, Loads]
  cases options.defaultsFile with
  | none => simp [eq_comm]
  | some path =>
    simp only [← Defaults.load_eq_ok_iff]
    cases Defaults.load path (around.text? path) around.parse? <;> simp

/-- The condition on labels can be read if there is none or its text is a tag expression. -/
lemma exists_labels_iff : (∃ condition, labels options = .ok condition) ↔
    ∀ text ∈ options.labels, ∃ condition, Condition.parse text = .ok condition := by
  rw [labels]
  cases options.labels with
  | none => simp
  | some text => cases h : Condition.parse text <;> simp [h]

/-! ### The order of the sources -/

/-- **Where values come from.**  If the options start a session, its defaults are those that the
defaults file describes, and the value of every key is the one that the sources give to it in their
order; of the parameters of the database at most one has the key.  The options start a session
exactly if the defaults file and the condition on labels can be read and local parameters come with
a changelog; a local parameter without a changelog is reported if nothing is wrong before it. -/
theorem start_resolve (options : Options) (around : Surroundings) :
    (∀ session, start options around = .ok session →
      ∃ loaded, Loads options around loaded ∧
        (∀ key, session.store.resolve key session.position = valueOf options around loaded key) ∧
        ∀ key, ∀ p ∈ Source.database.entries options around loaded,
          ∀ q ∈ Source.database.entries options around loaded,
            keyMatches p.1 key = true → keyMatches q.1 key = true → p = q) ∧
    ((∃ session, start options around = .ok session) ↔
      (∃ loaded, Loads options around loaded) ∧
        (∀ text ∈ options.labels, ∃ condition, Condition.parse text = .ok condition) ∧
        (options.changelogs = [] → options.localDefinitions = [])) ∧
    ∀ key value rest, options.changelogs = [] →
      options.localDefinitions = (key, value) :: rest →
        (∃ e, start options around = .error e) ∧
        ∀ loaded, Loads options around loaded →
          (∀ text ∈ options.labels, ∃ condition, Condition.parse text = .ok condition) →
          start options around = .error (.changelog (.missingChangelog key)) := by
  simp only [← defaults_eq_ok_iff, ← exists_labels_iff]
  refine ⟨?_, ?_, ?_⟩
  · intro session hsession
    obtain ⟨loaded, condition, hloaded, -, -, rfl⟩ := start_eq_ok_iff.1 hsession
    refine ⟨loaded, hloaded, resolve_history options around loaded condition, ?_⟩
    intro key p hp q hq hpkey hqkey
    exact eq_of_mem_database hp hq hpkey hqkey
  · constructor
    · rintro ⟨session, hsession⟩
      obtain ⟨loaded, condition, hloaded, hcondition, hlocals, -⟩ := start_eq_ok_iff.1 hsession
      exact ⟨⟨loaded, hloaded⟩, ⟨condition, hcondition⟩, hlocals⟩
    · rintro ⟨⟨loaded, hloaded⟩, ⟨condition, hcondition⟩, hlocals⟩
      exact ⟨_, start_eq_ok_iff.2 ⟨loaded, condition, hloaded, hcondition, hlocals, rfl⟩⟩
  · intro key value rest hchangelogs hlocals
    refine ⟨?_, fun loaded hloaded ⟨condition, hcondition⟩ =>
      start_eq_missingChangelog hloaded hcondition hchangelogs hlocals⟩
    cases hstart : start options around with
    | error e => exact ⟨e, rfl⟩
    | ok session =>
      obtain ⟨loaded, condition, -, -, hnone, -⟩ := start_eq_ok_iff.1 hstart
      simp [hnone hchangelogs] at hlocals

/-- A file with a database and parameters, asked at a changelog.  Each source gives its value to a
key that sources behind it have too, in whatever case, and an entry of the file that belongs neither
to the database nor to the parameters gives none.  Without a changelog the first local parameter is
reported. -/
theorem start_resolve_file :
    let text := "url = \"u\"\n[parameter]\nhome = \"file\"\nSchema = \"file\"\n" ++
      "table.Users = \"file\"\n[database]\nshortName = \"h2\"\n"
    let options : Options :=
      { defaultsFile := some "conf/d.toml", labels := some "not dev",
        changelogs := ["root.xml", "inner.xml"],
        definitions := [("home", "cli"), ("Database.TypeName", "cli"), ("SCHEMA", "cli"),
          ("schema", "late")],
        localDefinitions := [("execution_changelog_file", "first"), ("own", "first"),
          ("Table.users", "last"), ("OWN", "last"), ("schema", "last")] }
    let around : Surroundings :=
      { environment := [("HOME", "/root"), ("Execution_Changelog_File", "env")]
        text? := fun path => if path = "conf/d.toml" then some text else none
        runId := "run" }
    (∃ session, start options around = .ok session ∧
      session.store.resolve "execution_changelog_file" session.position =
        some (.string "inner.xml") ∧
      session.store.resolve "Home" session.position = some (.string "/root") ∧
      session.store.resolve "database.typename" session.position = some (.string "h2") ∧
      session.store.resolve "schema" session.position = some (.string "cli") ∧
      session.store.resolve "TABLE.USERS" session.position = some (.string "file") ∧
      session.store.resolve "own" session.position = some (.string "last") ∧
      session.store.resolve "url" session.position = none) ∧
    start { options with changelogs := [] } around =
      .error (.changelog (.missingChangelog "execution_changelog_file")) := by
  intro text options around
  let loaded : Defaults :=
    { entries := [("parameter.Schema", .string "file"), ("parameter.home", .string "file"),
        ("parameter.table.Users", .string "file"), ("url", .string "u")]
      database := some { shortName := "h2" } }
  have hdefaults : defaults options around = .ok loaded := by decide +kernel
  let condition : Condition := ⟨"not dev", some (.not (.name "dev"))⟩
  have hlabels : ∀ text ∈ options.labels, ∃ condition, Condition.parse text = .ok condition :=
    exists_labels_iff.1 ⟨some condition, by decide +kernel⟩
  obtain ⟨hvalues, hstarts, -⟩ := start_resolve options around
  obtain ⟨-, -, hmissing⟩ := start_resolve { options with changelogs := [] } around
  obtain ⟨session, hsession⟩ := hstarts.2 ⟨⟨loaded, defaults_eq_ok_iff.1 hdefaults⟩, hlabels, nofun⟩
  obtain ⟨loaded', hloaded', hresolve, -⟩ := hvalues session hsession
  obtain rfl : loaded = loaded' :=
    Except.ok.inj (hdefaults.symm.trans (defaults_eq_ok_iff.2 hloaded'))
  refine ⟨⟨session, hsession, ?_⟩, ?_⟩
  · simp only [hresolve]
    decide +kernel
  · exact (hmissing _ _ _ rfl rfl).2 loaded hloaded' hlabels

/-! ### Definitions against the defaults file -/

/-- Without the environment a key that the options define has the value of the database, or else
that of the definition. -/
lemma valueOf_of_defined {value : Value} (henvironment : options.noEnvironment = true)
    (hexecution : executionName? options key = none)
    (hdefined : firstValue key (textValues options.definitions) = some value) :
    valueOf options around loaded key =
      (firstValue key (Source.database.entries options around loaded)).or (some value) := by
  rw [valueOf, hexecution]
  have hsilent : firstValue key (Source.environment.entries options around loaded) = none := by
    simp [Source.entries, henvironment]
  have hsays : firstValue key (Source.definitions.entries options around loaded) = some value :=
    hdefined
  simp only [Source.all, List.findSome?_cons, hsilent, hsays]
  cases firstValue key (Source.database.entries options around loaded) <;> rfl

/-- **Definitions against the defaults file.**  Without the environment, and unless the key names an
execution value, a definition of the options counts as it would without the defaults file, but only
behind the database that the file describes: the key has the value of the definition exactly if the
database has no other value for it.  So a definition prevails against every file if its key is none
of those that databases have. -/
theorem start_resolve_of_defined {session : Session} {value : Value}
    (hstart : start options around = .ok session) (henvironment : options.noEnvironment = true)
    (hdefined : firstValue key (textValues options.definitions) = some value)
    (hexecution : Store.executionValue? key session.position = none) :
    (∃ alone, start { options with defaultsFile := none } around = .ok alone ∧
      alone.position = session.position ∧
      alone.store.resolve key alone.position = some value) ∧
    (∃ loaded, defaults options around = .ok loaded ∧
      session.store.resolve key session.position =
        (firstValue key (Source.database.entries options around loaded)).or (some value) ∧
      (session.store.resolve key session.position = some value ↔
        ∀ p ∈ Source.database.entries options around loaded,
          keyMatches p.1 key = true → p.2 = value)) ∧
    ((∀ name ∈ Profile.parameterKeys, keyMatches name key = false) →
      session.store.resolve key session.position = some value) := by
  obtain ⟨loaded, condition, hloaded, hcondition, hlocals, rfl⟩ := start_eq_ok_iff.1 hstart
  have hname : executionName? options key = none :=
    (executionValue?_chain? options key).symm.trans hexecution
  have hresolve := (resolve_history options around loaded condition key).trans
    (valueOf_of_defined henvironment hname hdefined)
  have hiff : (firstValue key (Source.database.entries options around loaded)).or (some value) =
      some value ↔ ∀ p ∈ Source.database.entries options around loaded,
        keyMatches p.1 key = true → p.2 = value :=
    firstValue_or_eq_iff fun p hp q hq => eq_of_mem_database hp hq
  refine ⟨?_, ⟨loaded, hloaded, hresolve, by rw [hresolve, hiff]⟩, ?_⟩
  · refine ⟨_, start_eq_ok_iff.2 ⟨{}, condition, rfl, hcondition, hlocals, rfl⟩, rfl, ?_⟩
    exact (resolve_history { options with defaultsFile := none } around {} condition key).trans
      (valueOf_of_defined henvironment hname hdefined)
  · intro hforeign
    rw [hresolve, hiff]
    intro p hp hpkey
    rw [hforeign p.1 (fst_mem_parameterKeys_of_mem_database hp)] at hpkey
    cases hpkey

/-- A definition of the schema prevails against a file with a schema and a database. -/
theorem start_resolve_of_defined_schema :
    let options : Options :=
      { defaultsFile := some "d.toml", definitions := [("schema", "app")], noEnvironment := true }
    let text := "[parameter]\nschema = \"file\"\n[database]\nshortName = \"h2\"\n"
    let around : Surroundings := { text? := fun _ => some text }
    ∃ session, start options around = .ok session ∧ options.noEnvironment = true ∧
      firstValue "schema" (textValues options.definitions) = some (.string "app") ∧
      Store.executionValue? "schema" session.position = none ∧
      session.store.resolve "schema" session.position = some (.string "app") := by
  intro options text around
  let loaded : Defaults :=
    { entries := [("parameter.schema", .string "file")], database := some { shortName := "h2" } }
  have hloaded : defaults options around = .ok loaded := by decide +kernel
  have hstart := start_eq_ok_iff.2 ⟨loaded, none, hloaded, rfl, fun _ => rfl, rfl⟩
  have hdefined : firstValue "schema" (textValues options.definitions) = some (.string "app") := by
    decide +kernel
  have hforeign : ∀ name ∈ Profile.parameterKeys, keyMatches name "schema" = false := by
    decide +kernel
  obtain ⟨-, -, hprevails⟩ := start_resolve_of_defined hstart rfl hdefined rfl
  exact ⟨_, hstart, rfl, hdefined, rfl, hprevails hforeign⟩

/-- A definition does not prevail against every defaults file: the type of a database that the file
describes has the value that the file gives to it. -/
theorem not_definitions_prevail :
    ¬ ∀ (options : Options) (around : Surroundings) (session : Session) (key : String)
      (value : Value), start options around = .ok session → options.noEnvironment = true →
        firstValue key (textValues options.definitions) = some value →
        Store.executionValue? key session.position = none →
          session.store.resolve key session.position = some value := by
  intro h
  let options : Options :=
    { defaultsFile := some "d.toml", definitions := [("database.typeName", "cli")],
      noEnvironment := true }
  let around : Surroundings := { text? := fun _ => some "[database]\nshortName = \"h2\"\n" }
  let loaded : Defaults := { database := some { shortName := "h2" } }
  have hloaded : defaults options around = .ok loaded := by decide +kernel
  have hstart := start_eq_ok_iff.2 ⟨loaded, none, hloaded, rfl, fun _ => rfl, rfl⟩
  have hdefined : firstValue "database.typeName" (textValues options.definitions) =
      some (.string "cli") := by
    decide +kernel
  have hvalue : valueOf options around loaded "database.typeName" = some (.string "h2") := by
    decide +kernel
  have hresolve := h options around _ "database.typeName" (.string "cli") hstart rfl hdefined rfl
  rw [resolve_history, hvalue] at hresolve
  exact absurd hresolve (by decide)

end Session

end ChangelogParameters.CommandLine
