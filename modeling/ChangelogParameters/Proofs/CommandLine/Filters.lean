import ChangelogParameters.CommandLine
import ChangelogParameters.Proofs.CommandLine.Sessions
import ChangelogParameters.Proofs.Store.Explanation
import ChangelogParameters.Proofs.Store.View

/-!
# Options for the filter

Three options say what the filter of a session is: the active contexts, the condition on labels and
the database.  But nothing that a session registers has restrictions, and a filter can only hide
what has some.  So these options have no influence on any answer, as long as the condition on labels
can be read.

The way from the arguments to an answer is gone twice, with two sets of these options.
`Request.ofItems_unfiltered` says that arguments make the same request but for these options,
`start_congr` that the sessions have the same store but for the filter, and
`Store.Unrestricted.sameAnswersTo` that the filter of such a store is of no account.
-/

namespace ChangelogParameters

/-! ### Filters of stores without restrictions -/

namespace Store

variable {store : Store}

/-- Replacing the filter restricts nothing. -/
lemma Unrestricted.withFilter (h : store.Unrestricted) (filter : Filter) :
    { store with filter := filter }.Unrestricted :=
  ⟨h.system, h.globals, h.locals⟩

/-- Every filter accepts every entry that is seen. -/
lemma Unrestricted.accepts_entry (h : store.Unrestricted) {position : Option Position}
    {entry : Entry} (hentry : entry ∈ store.entries position) (filter : Filter) :
    filter.accepts entry.parameter = true :=
  (h.withFilter filter).accepts (List.mem_map_of_mem hentry)

/-- All candidates of an explanation are accepted. -/
lemma Unrestricted.accepted_of_mem (h : store.Unrestricted) {key : String}
    {position : Option Position} {c : Candidate}
    (hc : c ∈ (store.explain key position).candidates) : c.accepted = true := by
  obtain ⟨entry, hentry, rfl⟩ := List.mem_map.1 hc
  exact h.accepts_entry (List.mem_filter.1 hentry).1 store.filter

/-- Without an execution value the first candidate wins, if there is one. -/
lemma Unrestricted.winner_eq_zero (h : store.Unrestricted) {key : String}
    {position : Option Position} (hexecution : executionValue? key position = none)
    (hne : (store.explain key position).candidates ≠ []) :
    (store.explain key position).winner = some 0 := by
  have hwinner : (store.explain key position).winner =
      (store.explain key position).candidates.findIdx? (·.accepted) :=
    store.winner_eq_findIdx? hexecution
  rw [hwinner]
  cases hcandidates : (store.explain key position).candidates with
  | nil => exact absurd hcandidates hne
  | cons first rest =>
    have hmem : first ∈ (store.explain key position).candidates := by
      rw [hcandidates]
      exact List.mem_cons_self
    have hfirst : first.accepted = true := h.accepted_of_mem hmem
    rw [List.findIdx?_cons, if_pos hfirst]

/-- The filter of a store without restrictions is of no account. -/
theorem Unrestricted.sameAnswersTo (h : store.Unrestricted) (filter : Filter) (key : String)
    (position : Option Position) :
    SameAnswersTo key store position { store with filter := filter } position := by
  have haccepts : ∀ entry ∈ store.entries position,
      store.filter.accepts entry.parameter = filter.accepts entry.parameter := by
    intro entry hentry
    rw [h.accepts_entry hentry store.filter, h.accepts_entry hentry filter]
  exact store.sameAnswersTo_of_accepts haccepts key

end Store

namespace CommandLine

/-! ### Options without those for the filter -/

/-- Two steps of which the second needs the first succeed if both do. -/
lemma bind_eq_ok_iff {ε α β : Type} {f : α → Except ε β} {outcome : Except ε α} {b : β} :
    outcome >>= f = .ok b ↔ ∃ a, outcome = .ok a ∧ f a = .ok b := by
  cases outcome <;> simp [bind, Except.bind]

/-- Whether a setting says what the filter is. -/
def Setting.isFilter : Setting → Bool
  | contexts | labels | database => true
  | _ => false

/-- Whether an item is a setting that says what the filter is. -/
def Item.isFilter : Item → Bool
  | .setting s _ => s.isFilter
  | _ => false

@[simp] lemma Item.isFilter_setting (setting : Setting) (text : String) :
    (Item.setting setting text).isFilter = setting.isFilter := rfl

@[simp] lemma Item.isFilter_switch (switch : Switch) : (Item.switch switch).isFilter = false := rfl

@[simp] lemma Item.isFilter_operand (text : String) : (Item.operand text).isFilter = false := rfl

@[simp] lemma Item.isFilter_endOfOptions : Item.endOfOptions.isFilter = false := rfl

/-- What arguments say, apart from what they say about the filter. -/
def ordinaryItems (arguments : List String) : List Item :=
  (items arguments).filter fun item => !item.isFilter

namespace Options

/-- The options that are not for the filter. -/
def unfiltered (o : Options) : Options :=
  { o with contexts := none, labels := none, database := none }

/-- Options that say nothing say nothing about the filter. -/
@[simp] lemma unfiltered_silent : ({} : Options).unfiltered = {} := rfl

/-- A setting for the filter changes no other options. -/
lemma unfiltered_of_give {o after : Options} {setting : Setting} {text : String}
    (hfilter : setting.isFilter = true) (h : o.give setting text = .ok after) :
    after.unfiltered = o.unfiltered := by
  cases setting with
  | contexts | labels | database =>
    obtain ⟨value, -, hafter⟩ := bind_eq_ok_iff.1 h
    obtain rfl := Except.ok.inj hafter
    rfl
  | _ => cases hfilter

/-- A setting that is not for the filter is given whatever is said about the filter. -/
lemma give_unfiltered {o after : Options} {setting : Setting} {text : String}
    (hfilter : setting.isFilter = false) (h : o.give setting text = .ok after) :
    o.unfiltered.give setting text = .ok after.unfiltered := by
  cases setting with
  | contexts | labels | database => cases hfilter
  | _ =>
    obtain ⟨value, hvalue, hafter⟩ := bind_eq_ok_iff.1 h
    obtain rfl := Except.ok.inj hafter
    exact bind_eq_ok_iff.2 ⟨value, hvalue, rfl⟩

/-- A switch is turned on whatever is said about the filter. -/
lemma turnOn_unfiltered {o after : Options} {switch : Switch} (h : o.turnOn switch = .ok after) :
    o.unfiltered.turnOn switch = .ok after.unfiltered := by
  cases switch with
  | _ =>
    obtain ⟨value, hvalue, hafter⟩ := bind_eq_ok_iff.1 h
    obtain rfl := Except.ok.inj hafter
    exact bind_eq_ok_iff.2 ⟨value, hvalue, rfl⟩

/-- A step that takes a setting is left out with the setting, or else is taken all the same. -/
lemma bind_give_unfiltered {o : Options} {setting : Setting} {text : String}
    {next : Options → Except Misuse Request} {request request' : Request}
    (h : o.give setting text >>= next = .ok request) (next' : Options → Except Misuse Request)
    (hnext : ∀ {after}, next after = .ok request → next' after.unfiltered = .ok request') :
    (if setting.isFilter then next' o.unfiltered else o.unfiltered.give setting text >>= next') =
      .ok request' := by
  obtain ⟨after, hgive, hafter⟩ := bind_eq_ok_iff.1 h
  split
  case isTrue hfilter =>
    rw [← unfiltered_of_give hfilter hgive]
    exact hnext hafter
  case isFalse hfilter =>
    have hgive' := give_unfiltered (Bool.eq_false_iff.2 hfilter) hgive
    exact bind_eq_ok_iff.2 ⟨after.unfiltered, hgive', hnext hafter⟩

/-- A step that turns a switch on is taken all the same. -/
lemma bind_turnOn_unfiltered {o : Options} {switch : Switch}
    {next : Options → Except Misuse Request} {request request' : Request}
    (h : o.turnOn switch >>= next = .ok request) (next' : Options → Except Misuse Request)
    (hnext : ∀ {after}, next after = .ok request → next' after.unfiltered = .ok request') :
    o.unfiltered.turnOn switch >>= next' = .ok request' := by
  obtain ⟨after, hturn, hafter⟩ := bind_eq_ok_iff.1 h
  exact bind_eq_ok_iff.2 ⟨after.unfiltered, turnOn_unfiltered hturn, hnext hafter⟩

end Options

/-! ### Requests -/

namespace Request

variable {options : Options} {query : Query} {its : List Item}

/-- Of a setting that comes first, only one for the filter is left out. -/
lemma filter_setting_cons (setting : Setting) (text : String) (rest : List Item) :
    (Item.setting setting text :: rest).filter (fun item => !item.isFilter) =
      if setting.isFilter then rest.filter (fun item => !item.isFilter)
      else .setting setting text :: rest.filter fun item => !item.isFilter := by
  cases h : setting.isFilter <;> simp [h]

/-- The items after the name of a query make the same request without the settings for the filter,
but for these settings. -/
lemma ofQueryItems_unfiltered {outer inner : Options} {form : String → Query}
    {operand : Option String}
    (h : ofQueryItems outer form inner operand its = .ok (.query options query)) :
    ofQueryItems outer.unfiltered form inner.unfiltered operand
      (its.filter fun item => !item.isFilter) = .ok (.query options.unfiltered query) := by
  induction its generalizing inner operand with
  | nil =>
    cases operand with
    | none => cases h
    | some text =>
      obtain ⟨rfl, rfl⟩ : inner.merge outer = options ∧ form text = query := by
        simpa [ofQueryItems] using h
      rfl
  | cons item rest ih =>
    let next (inner : Options) := ofQueryItems outer.unfiltered form inner operand
      (rest.filter fun item => !item.isFilter)
    cases item with
    | setting setting value =>
      simp only [ofQueryItems] at h
      have hstep := Options.bind_give_unfiltered h next fun hafter => ih hafter
      rw [filter_setting_cons]
      split
      case isTrue hfilter => simpa [hfilter] using hstep
      case isFalse hfilter => simpa [ofQueryItems, hfilter] using hstep
    | switch switch =>
      simp only [ofQueryItems] at h
      have hstep := Options.bind_turnOn_unfiltered h next fun hafter => ih hafter
      simpa [ofQueryItems] using hstep
    | endOfOptions =>
      simp only [ofQueryItems] at h
      simpa [ofQueryItems] using ih h
    | operand text =>
      cases operand with
      | none => exact ih h
      | some _ => simp [ofQueryItems] at h
    | help | version | misuse => simp [ofQueryItems] at h

/-- Who wants help about a command makes no query. -/
lemma ofHelpItems_ne_query (its : List Item) : ofHelpItems its ≠ .ok (.query options query) := by
  unfold ofHelpItems
  split
  · simp
  · split <;> simp
  · simp

/-- The items of arguments make the same request without the settings for the filter, but for these
settings. -/
lemma ofItems_unfiltered {before : Options} (h : ofItems before its = .ok (.query options query)) :
    ofItems before.unfiltered (its.filter fun item => !item.isFilter) =
      .ok (.query options.unfiltered query) := by
  induction its generalizing before with
  | nil => cases h
  | cons item rest ih =>
    let next (before : Options) := ofItems before (rest.filter fun item => !item.isFilter)
    cases item with
    | setting setting value =>
      simp only [ofItems] at h
      have hstep := Options.bind_give_unfiltered h next fun hafter => ih hafter
      rw [filter_setting_cons]
      split
      case isTrue hfilter => simpa [hfilter] using hstep
      case isFalse hfilter => simpa [ofItems, hfilter] using hstep
    | switch switch =>
      simp only [ofItems] at h
      exact Options.bind_turnOn_unfiltered h next fun hafter => ih hafter
    | operand name =>
      cases hform : Query.ofName? name with
      | none =>
        simp only [ofItems, hform] at h
        split at h
        · exact absurd h (ofHelpItems_ne_query rest)
        · cases h
      | some form =>
        simp only [ofItems, hform] at h
        have hrest := ofQueryItems_unfiltered h
        simpa [ofItems, hform] using hrest
    | help | version | misuse | endOfOptions => simp [ofItems] at h

end Request

/-! ### Sessions -/

namespace Session

variable {options options' : Options} {condition condition' : Option Condition}

/-- Two sessions give the same answers. -/
structure SameAnswers (session session' : Session) : Prop where
  position : session.position = session'.position
  about (key : String) :
    Store.SameAnswersTo key session.store session.position session'.store session'.position
  expand (text : String) :
    session.store.expand text session.position = session'.store.expand text session'.position

/-- A query has the same answer in both sessions. -/
lemma SameAnswers.answer_eq {session session' : Session} (h : session.SameAnswers session')
    (json : Bool) (query : Query) : session.answer json query = session'.answer json query := by
  cases query with
  | resolve key => simp only [answer, (h.about key).resolve]
  | expand text => simp only [answer, h.expand text]
  | explain key => simp only [answer, (h.about key).explain]

/-- The policy of a session is set when its store is built, and never afterwards. -/
lemma missingMode_history (options : Options) (around : Surroundings) (loaded : Defaults)
    (condition : Option Condition) :
    (history options around loaded condition).missingMode =
      (options.missingMode <|> loaded.missingMode).getD .preserve := by
  have hnone : (operations options around loaded condition).filterMap
      Store.Operation.missingMode? = [] := by
    refine List.filterMap_eq_nil_iff.2 ?_
    intro operation hoperation
    rcases List.mem_append.1 hoperation with hglobal | hlocal
    · have hthree := by simpa using hglobal
      rcases hthree with rfl | rfl | rfl <;> rfl
    · obtain ⟨entry, -, rfl⟩ := List.mem_map.1 hlocal
      rfl
  simp only [Store.History.missingMode, Store.lastSet, history, hnone]
  rfl

/-- The store of a session is the one without the options for the filter, with another filter. -/
lemma store_history_unfiltered (options : Options) (around : Surroundings) (loaded : Defaults)
    (condition : Option Condition) :
    (history options around loaded condition).store =
      { (history options.unfiltered around loaded none).store with
        filter := (history options around loaded condition).filter } := by
  rw [Store.History.store_eq, Store.History.store_eq, log_history, log_history,
    missingMode_history, missingMode_history]
  rfl

/-- Histories of options that differ in the filter at most end in stores that differ in the filter
at most. -/
lemma store_history_congr (hoptions : options.unfiltered = options'.unfiltered)
    (around : Surroundings) (loaded : Defaults) (condition condition' : Option Condition) :
    (history options' around loaded condition').store =
      { (history options around loaded condition).store with
        filter := (history options' around loaded condition').filter } := by
  rw [store_history_unfiltered options', store_history_unfiltered options, hoptions]

/-- Sessions of options that differ in the filter at most give the same answers. -/
lemma sameAnswers_history (hoptions : options.unfiltered = options'.unfiltered)
    (around : Surroundings) (loaded : Defaults) (condition condition' : Option Condition) :
    SameAnswers
      ⟨(history options around loaded condition).store, Position.chain? options.changelogs⟩
      ⟨(history options' around loaded condition').store, Position.chain? options'.changelogs⟩ := by
  have hchangelogs : options.changelogs = options'.changelogs := congrArg (·.changelogs) hoptions
  have hfree := unrestricted_history options around loaded condition
  rw [store_history_congr hoptions around loaded condition, ← hchangelogs]
  have habout := fun key => hfree.sameAnswersTo
    (history options' around loaded condition').filter key (Position.chain? options.changelogs)
  exact ⟨rfl, habout, Store.expand_congr rfl fun key => (habout key).resolve⟩

/-- Options that differ in the filter at most start sessions with the same answers, or fail alike.
-/
lemma start_congr (around : Surroundings) (hoptions : options.unfiltered = options'.unfiltered)
    (hcondition : labels options = .ok condition) (hcondition' : labels options' = .ok condition') :
    (∃ session session', start options around = .ok session ∧
      start options' around = .ok session' ∧ session.SameAnswers session') ∨
    ∃ e, start options around = .error e ∧ start options' around = .error e := by
  have hfile : defaults options' around = defaults options around := by
    have hname : options'.defaultsFile = options.defaultsFile :=
      (congrArg (·.defaultsFile) hoptions).symm
    rw [defaults, defaults, hname]
  have hchangelogs : options'.changelogs = options.changelogs :=
    (congrArg (·.changelogs) hoptions).symm
  have hdefinitions : options'.localDefinitions = options.localDefinitions :=
    (congrArg (·.localDefinitions) hoptions).symm
  cases hloaded : defaults options around with
  | error e =>
    refine .inr ⟨e, ?_, ?_⟩
    · simp [start, hloaded, bind, Except.bind]
    · simp [start, hfile, hloaded, bind, Except.bind]
  | ok loaded =>
    have hloaded' : defaults options' around = .ok loaded := hfile.trans hloaded
    by_cases hplace : options.changelogs = [] → options.localDefinitions = []
    · left
      refine ⟨_, _, start_eq_ok_iff.2 ⟨loaded, condition, hloaded, hcondition, hplace, rfl⟩,
        start_eq_ok_iff.2 ⟨loaded, condition', hloaded', hcondition', ?_, rfl⟩,
        sameAnswers_history hoptions around loaded condition condition'⟩
      rwa [hchangelogs, hdefinitions]
    · right
      obtain ⟨hnone, hlocals⟩ := Classical.not_imp.1 hplace
      obtain ⟨⟨key, value⟩, rest, hfirst⟩ := List.exists_cons_of_ne_nil hlocals
      exact ⟨_, start_eq_missingChangelog hloaded hcondition hnone hfirst,
        start_eq_missingChangelog hloaded' hcondition' (hchangelogs.trans hnone)
          (hdefinitions.trans hfirst)⟩

end Session

/-! ### The program -/

/-- Arguments that say the same but for the filter make the same request but for the filter. -/
lemma Request.eq_of_ordinaryItems {arguments arguments' : List String} {options options' : Options}
    {query query' : Query} (hitems : ordinaryItems arguments = ordinaryItems arguments')
    (hread : Request.read arguments = .ok (.query options query))
    (hread' : Request.read arguments' = .ok (.query options' query')) :
    options.unfiltered = options'.unfiltered ∧ query = query' := by
  have hordinary := ofItems_unfiltered hread
  have hordinary' := ofItems_unfiltered hread'
  rw [← ordinaryItems] at hordinary hordinary'
  rw [hitems, hordinary'] at hordinary
  obtain ⟨hoptions, hquery⟩ := by simpa using hordinary
  exact ⟨hoptions.symm, hquery.symm⟩

/-- **Options for the filter.**  Two invocations may differ in the active contexts, in the condition
on labels and in the database, and nothing else, and both conditions can be read.  Then both ask the
same query and the program ends in the same way; and if it starts a session, it starts one with both
options, in which every key has the same value and the same explanation and every text the same
expansion.  All candidates of an explanation are accepted, and without an execution value the first
of them wins. -/
theorem run_eq_of_ordinaryItems (around : Surroundings) (arguments arguments' : List String)
    (options options' : Options) (query query' : Query) (condition condition' : Option Condition)
    (hread : Request.read arguments = .ok (.query options query))
    (hread' : Request.read arguments' = .ok (.query options' query'))
    (hitems : ordinaryItems arguments = ordinaryItems arguments')
    (hcondition : Session.labels options = .ok condition)
    (hcondition' : Session.labels options' = .ok condition') :
    run around arguments = run around arguments' ∧ query = query' ∧
      ∀ session, Session.start options around = .ok session →
        (∃ session', Session.start options' around = .ok session' ∧
          session.SameAnswers session') ∧
        ∀ key,
          (∀ c ∈ (session.store.explain key session.position).candidates, c.accepted = true) ∧
          (Store.executionValue? key session.position = none →
            (session.store.explain key session.position).candidates ≠ [] →
              (session.store.explain key session.position).winner = some 0) := by
  obtain ⟨hoptions, rfl⟩ := Request.eq_of_ordinaryItems hitems hread hread'
  have hjson : options.json = options'.json := congrArg (·.json) hoptions
  refine ⟨?_, rfl, ?_⟩
  · simp only [run, hread, hread']
    rcases Session.start_congr around hoptions hcondition hcondition' with
      ⟨session, session', hstart, hstart', hsame⟩ | ⟨e, hstart, hstart'⟩
    · simp only [hstart, hstart', hsame.answer_eq, hjson]
    · simp only [hstart, hstart']
  · intro session hsession
    constructor
    · rcases Session.start_congr around hoptions hcondition hcondition' with
        ⟨session', session'', hstart, hstart', hsame⟩ | ⟨e, hstart, -⟩
      · obtain rfl := Except.ok.inj (hsession.symm.trans hstart)
        exact ⟨session'', hstart', hsame⟩
      · rw [hsession] at hstart
        cases hstart
    · intro key
      obtain ⟨loaded, condition, -, -, -, rfl⟩ := Session.start_eq_ok_iff.1 hsession
      have hfree := Session.unrestricted_history options around loaded condition
      exact ⟨fun c hc => hfree.accepted_of_mem hc, hfree.winner_eq_zero⟩

/-- An invocation with contexts explains a key as one with labels and a database does, though the
options for the filter stand at other places. -/
theorem run_eq_of_ordinaryItems_schema :
    let arguments := ["-D", "schema=a", "--contexts", "prod", "-D", "Schema=b", "explain", "schema"]
    let arguments' := ["-D", "schema=a", "--labels=x and !y", "-D", "Schema=b", "explain", "schema",
      "--database", "h2"]
    let definitions := [("schema", "a"), ("Schema", "b")]
    let options : Options := { definitions, contexts := some "prod" }
    let options' : Options := { definitions, labels := some "x and !y", database := some "h2" }
    let condition : Condition := ⟨"x and !y", some (.and [.name "x", .not (.name "y")])⟩
    Request.read arguments = .ok (.query options (.explain "schema")) ∧
      Request.read arguments' = .ok (.query options' (.explain "schema")) ∧
      ordinaryItems arguments = ordinaryItems arguments' ∧
      Session.labels options = .ok none ∧ Session.labels options' = .ok (some condition) ∧
      run {} arguments = run {} arguments' ∧
      ∃ session, Session.start options {} = .ok session ∧
        Store.executionValue? "schema" session.position = none ∧
        (session.store.explain "schema" session.position).candidates.length = 2 ∧
        (session.store.explain "schema" session.position).winner = some 0 := by
  intro arguments arguments' definitions options options' condition
  let store : Store := (Store.build {}).setAll [("schema", .string "a"), ("Schema", .string "b")]
  let session : Session := ⟨{ store with filter := ⟨some (.parse "prod"), none, none⟩ }, none⟩
  have hread : Request.read arguments = .ok (.query options (.explain "schema")) := by
    decide +kernel
  have hread' : Request.read arguments' = .ok (.query options' (.explain "schema")) := by
    decide +kernel
  have hitems : ordinaryItems arguments = ordinaryItems arguments' := by decide +kernel
  have hcondition' : Session.labels options' = .ok (some condition) := by decide +kernel
  have hstart : Session.start options {} = .ok session := by decide +kernel
  have hlength : (session.store.explain "schema" session.position).candidates.length = 2 := by
    decide +kernel
  have hne : (session.store.explain "schema" session.position).candidates ≠ [] := by
    intro hnil
    rw [hnil] at hlength
    cases hlength
  obtain ⟨hrun, -, hsession⟩ := run_eq_of_ordinaryItems {} arguments arguments' options options' _ _
    none (some condition) hread hread' hitems rfl hcondition'
  exact ⟨hread, hread', hitems, rfl, hcondition', hrun, session, hstart, rfl, hlength,
    ((hsession session hstart).2 "schema").2 rfl hne⟩

end CommandLine

end ChangelogParameters
