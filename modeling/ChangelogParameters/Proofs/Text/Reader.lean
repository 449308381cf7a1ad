import ChangelogParameters.Text.Reader
import Mathlib.Tactic.Lemma

/-!
# What readers yield

A reader yields a property if all that it can read has the property, whatever it reads from.  The
lemmas of this file follow the ways in which readers are composed, so that a property of what a
format can express is shown part by part.
-/

namespace ChangelogParameters.Reader

variable {τ α β : Type} {P : α → Prop} {Q : β → Prop}

/-- All that the reader can read has a property. -/
def Yields (reader : ListReader τ α) (P : α → Prop) : Prop :=
  ∀ cs a rest, reader cs = some (a, rest) → P a

/-- Every reader yields what is true of everything. -/
lemma yields_true (reader : ListReader τ α) : Yields reader fun _ => True :=
  fun _ _ _ _ => trivial

/-- A reader that fails yields anything. -/
lemma yields_fail : Yields (fail : ListReader τ α) P := by
  intro cs a rest h
  cases h

/-- Where nothing is read, what is returned has to have the property. -/
lemma yields_pure {a : α} (h : P a) : Yields (pure a : ListReader τ α) P := by
  intro cs b rest hread
  cases hread
  exact h

/-- A reader goes on with what the first part yields. -/
lemma Yields.bind {reader : ListReader τ α} {next : α → ListReader τ β} (hreader : Yields reader P)
    (hnext : ∀ a, P a → Yields (next a) Q) : Yields (reader >>= next) Q := by
  intro cs b rest h
  obtain ⟨⟨a, behind⟩, hfirst, hrest⟩ := Option.bind_eq_some_iff.1 h
  exact hnext a (hreader cs a behind hfirst) behind b rest hrest

/-- A reader whose first part may yield anything. -/
lemma Yields.after {reader : ListReader τ α} {next : α → ListReader τ β}
    (hnext : ∀ a, Yields (next a) Q) : Yields (reader >>= next) Q :=
  (yields_true reader).bind fun a _ => hnext a

/-- Repetition reads items and nothing else. -/
lemma Yields.mem_repeated {item : ListReader τ α} (h : Yields item P) (cs : List τ) :
    ∀ a ∈ (repeated item cs).1, P a := by
  fun_induction repeated item cs with
  | case1 cs hnone => simp
  | case2 cs a behind hitem hshorter more rest hmore ih =>
    rw [hmore] at ih
    exact List.forall_mem_cons.2 ⟨h cs a behind hitem, ih⟩
  | case3 cs a behind hitem hlonger => simp

/-- Of several items, each has what one of them has. -/
lemma Yields.many {item : ListReader τ α} (h : Yields item P) :
    Yields (many item) fun items => ∀ a ∈ items, P a := by
  intro cs items rest hread
  have hitems : repeated item cs = (items, rest) := Option.some.inj hread
  have hall := h.mem_repeated cs
  rwa [hitems] at hall

/-- The same holds if something stands between the items. -/
lemma Yields.separated {item : ListReader τ α} (h : Yields item P) (separator : ListReader τ β) :
    Yields (separated item separator) fun items => ∀ a ∈ items, P a := by
  have hnext : Yields (separator >>= fun _ => item) P := .after fun _ => h
  refine h.bind fun first hfirst => hnext.many.bind fun rest hrest => ?_
  exact yields_pure (List.forall_mem_cons.2 ⟨hfirst, hrest⟩)

/-- What a whole text is read as has what the reader yields. -/
lemma Yields.of_run {reader : Reader α} (h : Yields reader P) {s : String} {a : α}
    (hread : reader.run s = some a) : P a := by
  rw [run] at hread
  split at hread
  · next b hb =>
    cases hread
    exact h _ _ _ hb
  · cases hread

end ChangelogParameters.Reader
