import ChangelogParameters.Proofs.Value.Ordered
import ChangelogParameters.Yaml.Document

/-!
# Ordered values in YAML

The events of a document put nodes together one by one: a scalar has a value of its own, a reference
has that of a node before, and a collection that ends has one made of its members.  The value of a
mapping is an object that is made of its pairs one by one, so every value is ordered if those before
it are (`Composer.Ordered.step`), and with them that of the whole document (`ordered_parse?`).
-/

namespace ChangelogParameters.Yaml

/-! ### Scalars -/

/-- A floating point number is ordered. -/
lemma ordered_float? {s : String} {v : Value} (h : float? s = some v) : v.Ordered := by
  rw [float?] at h
  split at h
  · cases h
    exact .null
  · obtain ⟨x, -, rfl⟩ := Option.map_eq_some_iff.1 h
    exact .number _

/-- An integer is ordered. -/
lemma ordered_integerValue? {n : Int} {v : Value} (h : integerValue? n = some v) : v.Ordered := by
  rw [integerValue?] at h
  split at h
  · cases h
    exact .number _
  · cases h

/-- The value of a plain scalar is ordered. -/
lemma ordered_resolve? {s : String} {v : Value} (h : resolve? s = some v) : v.Ordered := by
  rw [resolve?] at h
  split at h
  · cases h
    exact .null
  split at h
  · cases h
    exact .bool _
  split at h
  · exact ordered_integerValue? h
  split at h
  · cases h
    exact .string s
  · cases h
    cases hfloat : float? s with
    | none => exact .string s
    | some w => exact ordered_float? hfloat

/-- The value of a scalar without a tag is ordered. -/
lemma ordered_untagged? {quoted : Bool} {s : String} {v : Value} (h : untagged? quoted s = some v) :
    v.Ordered := by
  rw [untagged?] at h
  split at h
  · cases h
    exact .string s
  · exact ordered_resolve? h

/-- The value of a scalar with a tag is ordered. -/
lemma ordered_tagged? {tag : Tag} {quoted : Bool} {s : String} {v : Value}
    (h : tagged? tag quoted s = some v) : v.Ordered := by
  rw [tagged?] at h
  split at h
  · cases h
  -- the types that every document knows
  split at h
  · obtain ⟨b, -, rfl⟩ := Option.map_eq_some_iff.1 h
    exact .bool b
  split at h
  · obtain ⟨n, -, hn⟩ := Option.bind_eq_some_iff.1 h
    exact ordered_integerValue? hn
  split at h
  · exact ordered_float? h
  split at h
  · split at h
    · cases h
      exact .null
    · cases h
  -- other tags
  split at h
  · exact ordered_untagged? h
  · cases h
    exact .string s

/-- The value of a scalar is ordered. -/
lemma ordered_scalarValue? {tag : Option Tag} {quoted : Bool} {s : String} {v : Value}
    (h : scalarValue? tag quoted s = some v) : v.Ordered := by
  cases tag with
  | none => exact ordered_untagged? h
  | some tag => exact ordered_tagged? h

/-! ### Nodes -/

namespace Node

/-- The value of a node, if there is one, is ordered. -/
def Ordered (n : Node) : Prop := ∀ v, n.value = some v → v.Ordered

/-- The items of a sequence of ordered nodes are ordered. -/
lemma ordered_of_mapM {members : List Node} {items : List Value}
    (h : members.mapM value = some items) (hmembers : ∀ n ∈ members, n.Ordered) :
    ∀ item ∈ items, item.Ordered := by
  induction members generalizing items with
  | nil =>
    cases h
    exact List.forall_mem_nil _
  | cons n rest ih =>
    rw [List.mapM_cons] at h
    obtain ⟨v, hv, h⟩ := Option.bind_eq_some_iff.1 h
    obtain ⟨others, hothers, h⟩ := Option.bind_eq_some_iff.1 h
    cases h
    obtain ⟨hn, hrest⟩ := List.forall_mem_cons.1 hmembers
    exact List.forall_mem_cons.2 ⟨hn v hv, ih hothers hrest⟩

/-- The values of pairs of ordered nodes are ordered. -/
lemma ordered_of_pairs? {members : List Node} {pairs : List (String × Value)}
    (h : pairs? members = some pairs) (hmembers : ∀ n ∈ members, n.Ordered) :
    ∀ pair ∈ pairs, pair.2.Ordered := by
  fun_induction pairs? members generalizing pairs with
  | case1 =>
    cases h
    exact List.forall_mem_nil _
  | case2 => cases h
  | case3 key value rest ih =>
    obtain ⟨text, -, h⟩ := Option.bind_eq_some_iff.1 h
    obtain ⟨v, hv, h⟩ := Option.bind_eq_some_iff.1 h
    obtain ⟨others, hothers, h⟩ := Option.bind_eq_some_iff.1 h
    cases h
    obtain ⟨-, hvalue, hrest⟩ := by simpa only [List.forall_mem_cons] using hmembers
    exact List.forall_mem_cons.2 ⟨hvalue v hv, ih hothers hrest⟩

/-- A collection of ordered nodes is ordered. -/
lemma ordered_ofMembers (kind : Kind) (tag : Option Tag) {members : List Node}
    (hmembers : ∀ n ∈ members, n.Ordered) : (ofMembers kind tag members).Ordered := by
  intro v hv
  simp only [ofMembers] at hv
  split at hv
  · cases hv
  cases kind with
  | sequence =>
    obtain ⟨items, hitems, rfl⟩ := Option.map_eq_some_iff.1 hv
    exact .array (ordered_of_mapM hitems hmembers)
  | mapping =>
    obtain ⟨pairs, hpairs, rfl⟩ := Option.map_eq_some_iff.1 hv
    exact .ofMembers (ordered_of_pairs? hpairs hmembers)

end Node

/-! ### Putting together -/

namespace Composer

variable {c c' : Composer} {n : Node}

/-- All nodes that have been put together are ordered. -/
structure Ordered (c : Composer) : Prop where
  /-- Those with anchors are. -/
  named : ∀ anchor n, (anchor, some n) ∈ c.named → n.Ordered
  /-- Those in collections that have not ended are. -/
  opened : ∀ collection ∈ c.opened, ∀ n ∈ collection.members, n.Ordered
  /-- The one that is in no collection is. -/
  root : ∀ n, c.root = some n → n.Ordered

/-- An ordered node may be put anywhere. -/
lemma Ordered.put (h : c.Ordered) (hn : n.Ordered) : (c.put n).Ordered := by
  rw [Composer.put]
  split
  · exact ⟨h.named, h.opened, fun m hm => Option.some.inj hm ▸ hn⟩
  · next innermost outer hopened =>
    obtain ⟨hinnermost, houter⟩ := List.forall_mem_cons.1 (hopened ▸ h.opened)
    exact ⟨h.named,
      List.forall_mem_cons.2 ⟨List.forall_mem_cons.2 ⟨hn, hinnermost⟩, houter⟩, h.root⟩

/-- An ordered node may get an anchor, as may one that has not ended. -/
lemma Ordered.name (h : c.Ordered) (anchor : Option String) {n : Option Node}
    (hn : ∀ m, n = some m → m.Ordered) : (c.name anchor n).Ordered := by
  refine ⟨fun a m hm => ?_, h.opened, h.root⟩
  rcases List.mem_append.1 hm with hm | hm
  · obtain ⟨b, -, heq⟩ := List.mem_map.1 hm
    exact hn m (Prod.ext_iff.1 heq).2
  · exact h.named a m hm

/-- Which nodes have anchors after one of them has ended. -/
lemma mem_of_mem_settle {m : Node} {anchor : String} {named : List (String × Option Node)}
    (h : (anchor, some m) ∈ settle n named) : m = n ∨ (anchor, some m) ∈ named := by
  fun_induction settle n named with
  | case1 => cases h
  | case2 a named =>
    rcases List.mem_cons.1 h with heq | h
    · exact .inl (by cases heq; rfl)
    · exact .inr (List.mem_cons_of_mem _ h)
  | case3 a k named ih =>
    rcases List.mem_cons.1 h with heq | h
    · exact .inr (heq ▸ List.mem_cons_self)
    · exact (ih h).imp_right (List.mem_cons_of_mem _)

/-- The end of a collection keeps all nodes ordered. -/
lemma Ordered.finish (h : c.Ordered) (hfinish : c.finish = some c') : c'.Ordered := by
  rw [Composer.finish] at hfinish
  split at hfinish
  · cases hfinish
  · next innermost outer hopened =>
    cases hfinish
    obtain ⟨hinnermost, houter⟩ := List.forall_mem_cons.1 (hopened ▸ h.opened)
    have hnode : innermost.node.Ordered :=
      Node.ordered_ofMembers _ _ fun m hm => hinnermost m (List.mem_reverse.1 hm)
    refine Ordered.put ⟨fun anchor m hm => ?_, houter, h.root⟩ hnode
    split at hm
    · rcases mem_of_mem_settle hm with rfl | hm
      · exact hnode
      · exact h.named anchor m hm
    · exact h.named anchor m hm

/-- One event keeps all nodes ordered. -/
lemma Ordered.step (h : c.Ordered) {event : Event} (hstep : c.step event = some c') :
    c'.Ordered := by
  cases event with
  | reference name =>
    obtain ⟨m, hm, hstep⟩ := Option.bind_eq_some_iff.1 hstep
    cases hstep
    obtain ⟨later, earlier, hnamed, -⟩ := List.lookup_eq_some_iff.1 (Option.join_eq_some_iff.1 hm)
    exact h.put (h.named name m (hnamed ▸ List.mem_append_right later List.mem_cons_self))
  | scalar properties quoted text =>
    cases hstep
    have hscalar : (Node.ofScalar properties.tag quoted text).Ordered :=
      fun v hv => ordered_scalarValue? hv
    exact (h.name _ fun m hm => Option.some.inj hm ▸ hscalar).put hscalar
  | start kind properties =>
    cases hstep
    have hname := h.name properties.anchor (n := none) nofun
    exact ⟨hname.named, List.forall_mem_cons.2 ⟨List.forall_mem_nil _, hname.opened⟩, hname.root⟩
  | finish => exact h.finish hstep

/-- The events of a document keep all nodes ordered. -/
lemma Ordered.run (h : c.Ordered) {events : List Event}
    (hrun : events.foldlM Composer.step c = some c') : c'.Ordered :=
  Value.foldlM_keeps (fun _ _ _ _ hstep hbefore => hbefore.step hstep) hrun h

end Composer

/-! ### Documents -/

/-- The value that events stand for is ordered. -/
lemma ordered_compose? {events : List Event} {v : Value} (h : compose? events = some v) :
    v.Ordered := by
  obtain ⟨last, hlast, h⟩ := Option.bind_eq_some_iff.1 h
  obtain ⟨root, hroot, h⟩ := Option.bind_eq_some_iff.1 h
  have hstart : Composer.Ordered {} := ⟨by simp, by simp, by simp⟩
  split at h
  · exact (hstart.run hlast).root root hroot v h
  · cases h

/-- **Ordered values in YAML.**  A document stands for an ordered value. -/
theorem ordered_parse? {s : String} {v : Value} (h : parse? s = some v) : v.Ordered := by
  rw [parse?] at h
  dsimp only at h
  split at h
  · cases h
  · obtain ⟨tokens, -, h⟩ := Option.bind_eq_some_iff.1 h
    obtain ⟨⟨events, rest⟩, -, h⟩ := Option.bind_eq_some_iff.1 h
    exact ordered_compose? h

/-- Keys are put in order, and a reference gives the value of the node with the anchor. -/
example : parse? "b: &x >-\n  c\n  d\na: [*x, !!str 1]\n" =
    some (.object [("a", .array [.string "c d", .string "1"]), ("b", .string "c d")]) := by
  decide +kernel

end ChangelogParameters.Yaml
