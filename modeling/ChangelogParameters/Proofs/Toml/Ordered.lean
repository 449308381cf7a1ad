import ChangelogParameters.Proofs.Text.Reader
import ChangelogParameters.Proofs.Value.Ordered
import ChangelogParameters.Toml.Document

/-!
# Ordered values in TOML

The statements of a document put values into a tree of tables, and at the end all tables become
objects.  Objects that are made in this way are ordered, so a document stands for an ordered value
if the values in its statements are ordered, and these are either scalars or made of smaller values
in the same way.
-/

namespace ChangelogParameters.Toml

/-! ### Trees -/

/-- All values in the tree are ordered. -/
inductive Node.Ordered : Node → Prop
  | leaf {v : Value} (hvalue : v.Ordered) : Ordered (.leaf v)
  | table (origin : Origin) {entries : List (String × Node)}
    (hentries : ∀ entry ∈ entries, Ordered entry.2) : Ordered (.table origin entries)
  | tables {done : List (List (String × Node))} {last : List (String × Node)}
    (hdone : ∀ entries ∈ done, ∀ entry ∈ entries, Ordered entry.2)
    (hlast : ∀ entry ∈ last, Ordered entry.2) : Ordered (.tables done last)

/-- All values in a table are ordered. -/
def OrderedEntries (entries : Entries) : Prop :=
  ∀ entry ∈ entries, entry.2.Ordered

/-- A table without keys has no values. -/
lemma orderedEntries_nil : OrderedEntries [] := fun _ hentry => absurd hentry List.not_mem_nil

/-- The values of the entries of a table, one by one. -/
lemma toMembers_eq_map (entries : List (String × Node)) :
    toMembers entries = entries.map fun (key, node) => (key, node.toValue) := by
  induction entries with
  | nil => rfl
  | cons entry rest ih => rw [toMembers, ih, List.map_cons]

/-- The values of several tables, one by one. -/
lemma toValues_eq_map (tables : List (List (String × Node))) :
    toValues tables = tables.map fun entries => .ofMembers (toMembers entries) := by
  induction tables with
  | nil => rfl
  | cons entries rest ih => rw [toValues, ih, List.map_cons]

/-- A table of nodes with ordered values is an ordered object. -/
lemma ordered_ofMembers_toMembers {entries : List (String × Node)}
    (h : ∀ entry ∈ entries, entry.2.toValue.Ordered) :
    (Value.ofMembers (toMembers entries)).Ordered := by
  refine Value.Ordered.ofMembers fun member hmember => ?_
  rw [toMembers_eq_map] at hmember
  obtain ⟨entry, hentry, rfl⟩ := List.mem_map.1 hmember
  exact h entry hentry

/-- A tree of ordered values stands for an ordered value. -/
lemma Node.Ordered.toValue {node : Node} (h : node.Ordered) : node.toValue.Ordered := by
  induction h with
  | leaf hvalue => exact hvalue
  | table origin hentries ih => exact ordered_ofMembers_toMembers ih
  | tables hdone hlast ihdone ihlast =>
    refine .array fun item hitem => ?_
    rcases List.mem_append.1 hitem with hitem | hitem
    · rw [toValues_eq_map] at hitem
      obtain ⟨entries, hentries, rfl⟩ := List.mem_map.1 hitem
      exact ordered_ofMembers_toMembers (ihdone entries hentries)
    · obtain rfl := List.mem_singleton.1 hitem
      exact ordered_ofMembers_toMembers ihlast

/-! ### Changes -/

/-- What is found in a table of ordered values has ordered values. -/
lemma OrderedEntries.of_find? {entries : Entries} (h : OrderedEntries entries) {key : String}
    {node : Node} (hfind : find? key entries = some node) : node.Ordered := by
  obtain ⟨entry, hentry, rfl⟩ := Option.map_eq_some_iff.1 hfind
  exact h entry (List.mem_of_find?_eq_some hentry)

/-- Values stay ordered if what comes for a key is ordered. -/
lemma OrderedEntries.put {entries : Entries} (h : OrderedEntries entries) (key : String)
    {node : Node} (hnode : node.Ordered) : OrderedEntries (put key node entries) := by
  induction entries with
  | nil => exact List.forall_mem_singleton.2 hnode
  | cons entry rest ih =>
    obtain ⟨hentry, hrest⟩ := List.forall_mem_cons.1 h
    simp only [Toml.put]
    split
    · exact List.forall_mem_cons.2 ⟨hnode, hrest⟩
    · exact List.forall_mem_cons.2 ⟨hentry, ih hrest⟩

/-- A change leaves ordered values behind where it finds such. -/
def KeepsOrder (change : Entries → Option Entries) : Prop :=
  ∀ entries after, change entries = some after → OrderedEntries entries → OrderedEntries after

/-- A change of a table somewhere in the tree keeps the order in the tree. -/
lemma keepsOrder_descend (origin : Origin) (path : List String)
    {change : Origin → Entries → Option Entries} (hchange : ∀ there, KeepsOrder (change there))
    (here : Origin) : KeepsOrder (descend origin path change here) := by
  induction path generalizing here with
  | nil => exact hchange here
  | cons key path ih =>
    intro entries after hafter h
    simp only [descend] at hafter
    split at hafter
    · obtain ⟨inner, hinner, rfl⟩ := Option.map_eq_some_iff.1 hafter
      exact h.put key (.table origin (ih origin [] inner hinner orderedEntries_nil))
    · cases hafter
    · next there inner hfind =>
      split at hafter
      · cases hafter
      · obtain ⟨changed, hchanged, rfl⟩ := Option.map_eq_some_iff.1 hafter
        obtain _ | ⟨_, hinner⟩ := h.of_find? hfind
        exact h.put key (.table there (ih there inner changed hchanged hinner))
    · next done last hfind =>
      obtain ⟨changed, hchanged, rfl⟩ := Option.map_eq_some_iff.1 hafter
      obtain _ | _ | ⟨hdone, hlast⟩ := h.of_find? hfind
      exact h.put key (.tables hdone (ih .defined last changed hchanged hlast))

/-- An ordered value can be given to a key. -/
lemma keepsOrder_assign (path : List String) (key : String) {v : Value} (hvalue : v.Ordered)
    (here : Origin) : KeepsOrder (assign path key v here) := by
  refine keepsOrder_descend .dotted path (fun there entries after hafter h => ?_) here
  split at hafter
  · cases hafter
  · cases hafter
    exact h.put key (.leaf hvalue)

/-- Opening a table adds no values. -/
lemma keepsOrder_openTable (key : String) : KeepsOrder (openTable key) := by
  intro entries after hafter h
  rw [openTable] at hafter
  split at hafter
  · cases hafter
    exact h.put key (.table .defined orderedEntries_nil)
  · next inner hfind =>
    cases hafter
    obtain _ | ⟨_, hinner⟩ := h.of_find? hfind
    exact h.put key (.table .defined hinner)
  · cases hafter

/-- Beginning the next of several tables adds no values. -/
lemma keepsOrder_openNext (key : String) : KeepsOrder (openNext key) := by
  intro entries after hafter h
  rw [openNext] at hafter
  split at hafter
  · cases hafter
    exact h.put key (.tables (fun _ hmem => absurd hmem List.not_mem_nil) orderedEntries_nil)
  · next done last hfind =>
    cases hafter
    obtain _ | _ | ⟨hdone, hlast⟩ := h.of_find? hfind
    refine h.put key (.tables (fun entries hmem => ?_) orderedEntries_nil)
    rcases List.mem_append.1 hmem with hmem | hmem
    · exact hdone entries hmem
    · obtain rfl := List.mem_singleton.1 hmem
      exact hlast
  · cases hafter

/-- A header leads to a change that keeps the order. -/
lemma keepsOrder_atHeader (path : List String) {change : String → Entries → Option Entries}
    (hchange : ∀ key, KeepsOrder (change key)) : KeepsOrder (atHeader path change) := by
  intro root after hafter h
  rw [atHeader] at hafter
  split at hafter
  · next key _ =>
    exact keepsOrder_descend .implied path.dropLast (fun _ => hchange key) .defined root after
      hafter h
  · cases hafter

/-! ### Values -/

/-- The value of an inline table with ordered values is ordered. -/
lemma ordered_inlineTable? {assignments : List (List String × Value)}
    (h : ∀ assignment ∈ assignments, assignment.2.Ordered) {v : Value}
    (hv : inlineTable? assignments = some v) : v.Ordered := by
  obtain ⟨entries, hentries, rfl⟩ := Option.map_eq_some_iff.1 hv
  have hstep : ∀ assignment ∈ assignments, ∀ before after : Entries,
      assignInline before assignment = some after → OrderedEntries before →
        OrderedEntries after := by
    rintro ⟨path, value⟩ hmem before after hafter hbefore
    simp only [assignInline] at hafter
    split at hafter
    · next key _ =>
      exact keepsOrder_assign path.dropLast key (h _ hmem) .defined before after hafter hbefore
    · cases hafter
  exact Node.Ordered.toValue
    (.table .defined (Value.foldlM_keeps hstep hentries orderedEntries_nil))

/-- The value of a moment is ordered. -/
lemma ordered_moment? {cs : List Char} {v : Value} (h : moment? cs = some v) : v.Ordered := by
  rw [moment?] at h
  split at h
  · cases h
    exact .object (List.pairwise_singleton _ _) (List.forall_mem_singleton.2 (.string _))
  · cases h

/-- The value of a floating point number is ordered. -/
lemma ordered_real? {cs : List Char} {v : Value} (h : real? cs = some v) : v.Ordered := by
  simp only [real?] at h
  split at h
  · cases h
    exact .null
  · obtain ⟨x, -, h⟩ := Option.bind_eq_some_iff.1 h
    split at h
    · cases h
      exact .number _
    · split at h
      · cases h
        exact .null
      · cases h

/-- The value of an unquoted scalar is ordered. -/
lemma ordered_scalar? {cs : List Char} {v : Value} (h : scalar? cs = some v) : v.Ordered := by
  rw [scalar?] at h
  split at h
  · cases h
    exact .bool true
  · split at h
    · cases h
      exact .bool false
    · split at h
      · next hmoment =>
        cases h
        exact ordered_moment? hmoment
      · cases h
        exact .number _
      · exact ordered_real? h

open Reader

/-- Scalars are ordered. -/
lemma yields_readScalar : Yields readScalar Value.Ordered := by
  refine .after fun cs => .after fun more => ?_
  split
  · next hscalar => exact yields_pure (ordered_scalar? hscalar)
  · exact yields_fail

/-- Scalars and quoted texts are ordered. -/
lemma yields_readLeaf : Yields readLeaf Value.Ordered := by
  refine .after fun next => ?_
  split
  · exact .after fun text => yields_pure (.string text)
  · exact .after fun text => yields_pure (.string text)
  · exact yields_readScalar

/-- The items of an array are ordered if items are. -/
lemma yields_readItems {item : Reader Value} (h : Yields item Value.Ordered) :
    Yields (readItems item) fun items => ∀ v ∈ items, v.Ordered := by
  refine (Yields.many (P := fun item => item.1.Ordered) ?_).bind fun items hitems => ?_
  · refine .after fun _ => h.bind fun v hv => .after fun _ => .after fun next => ?_
    split
    · exact .after fun _ => yields_pure hv
    · exact yields_pure hv
  · refine .after fun _ => .after fun _ => ?_
    split
    · exact yields_pure (List.forall_mem_map.2 hitems)
    · exact yields_fail

/-- The values in an inline table are ordered if values are. -/
lemma yields_readAssignments {item : Reader Value} (h : Yields item Value.Ordered) :
    Yields (readAssignments item) fun assignments =>
      ∀ assignment ∈ assignments, assignment.2.Ordered := by
  refine .after fun _ => .after fun next => ?_
  split
  · exact .after fun _ => yields_pure fun _ hmem => absurd hmem List.not_mem_nil
  · refine (Yields.separated ?_ _).bind fun assignments hassignments => .after fun _ =>
      yields_pure hassignments
    refine .after fun path => .after fun _ => .after fun _ => h.bind fun v hv => .after fun _ => ?_
    exact yields_pure hv

/-- Values are ordered, however deeply they are nested. -/
lemma yields_readValue (bound : Nat) : Yields (readValue bound) Value.Ordered := by
  induction bound with
  | zero => exact yields_readLeaf
  | succ bound ih =>
    rw [readValue]
    refine .after fun next => ?_
    split
    · refine .after fun _ => (yields_readItems ih).bind fun items hitems => ?_
      exact yields_pure (.array hitems)
    · refine .after fun _ => (yields_readAssignments ih).bind fun assignments hassignments => ?_
      split
      · next hv => exact yields_pure (ordered_inlineTable? hassignments hv)
      · exact yields_fail
    · exact yields_readLeaf

/-! ### Statements -/

/-- The value in a statement, if it has one, is ordered. -/
def Statement.Ordered : Statement → Prop
  | .assignment _ v => v.Ordered
  | _ => True

/-- A statement with an ordered value leaves ordered values behind. -/
lemma Statement.Ordered.perform {statement : Statement} (h : statement.Ordered)
    {state after : List String × Entries} (hafter : statement.perform state = some after)
    (hstate : OrderedEntries state.2) : OrderedEntries after.2 := by
  cases statement with
  | header path =>
    obtain ⟨root, hroot, rfl⟩ := Option.map_eq_some_iff.1 hafter
    exact keepsOrder_atHeader path keepsOrder_openTable state.2 root hroot hstate
  | nextHeader path =>
    obtain ⟨root, hroot, rfl⟩ := Option.map_eq_some_iff.1 hafter
    exact keepsOrder_atHeader path keepsOrder_openNext state.2 root hroot hstate
  | assignment path v =>
    simp only [Statement.perform] at hafter
    split at hafter
    · next key _ =>
      obtain ⟨root, hroot, rfl⟩ := Option.map_eq_some_iff.1 hafter
      exact keepsOrder_descend .implied state.1 (keepsOrder_assign path.dropLast key h) .defined
        state.2 root hroot hstate
    · cases hafter

/-- The values in statements are ordered. -/
lemma yields_readStatement : Yields readStatement Statement.Ordered := by
  refine .after fun _ => .after fun next => ?_
  have hend : ∀ statement : Statement, statement.Ordered →
      Yields (do endLine; pure statement) Statement.Ordered :=
    fun statement hstatement => .after fun _ => yields_pure hstatement
  dsimp only
  split
  · refine .after fun _ => .after fun second => ?_
    split
    · exact .after fun _ => .after fun path => .after fun _ => (yields_pure trivial).bind hend
    · exact .after fun path => .after fun _ => (yields_pure trivial).bind hend
  · refine .after fun path => .after fun _ => .after fun _ => ?_
    refine (yields_readValue nestingBound).bind fun v hv => ?_
    have hassignment : (Statement.assignment path v).Ordered := hv
    exact (yields_pure hassignment).bind hend

/-- The values in the statements of a document are ordered. -/
lemma yields_readStatements :
    Yields readStatements fun statements => ∀ statement ∈ statements, statement.Ordered := by
  refine .after fun _ => (Yields.many yields_readStatement).bind fun statements hstatements => ?_
  exact .after fun _ => .after fun _ => yields_pure hstatements

/-- **Ordered values in TOML.**  A document stands for an ordered value. -/
theorem ordered_parse? {s : String} {v : Value} (h : parse? s = some v) : v.Ordered := by
  obtain ⟨statements, hread, h⟩ := Option.bind_eq_some_iff.1 h
  obtain ⟨⟨path, root⟩, hroot, h⟩ := Option.bind_eq_some_iff.1 h
  cases h
  have hstatements := yields_readStatements.of_run hread
  have hordered := Value.foldlM_keeps (fun statement hmem state after hafter hstate =>
    (hstatements statement hmem).perform hafter hstate) hroot orderedEntries_nil
  exact Node.Ordered.toValue (.table .defined hordered)

end ChangelogParameters.Toml
