import ChangelogParameters.Tag.Expr.Parser
import Mathlib.Tactic.Common

/-!
# The grammar of tag expressions

A phrase of a level is a sequence of operands with the joint of the level between them.  The
operands of lists are disjunctions, those of disjunctions are conjunctions, and those of
conjunctions are terms: tag names, lists in parentheses, and negations of terms.

The derivations of the grammar are trees.  A tree has a text, which is the sequence of tokens at
its leaves, and it means an expression, in which an operand that stands alone means what it means
by itself.  `Phrase.eq_of_tokens_eq` says that the grammar is unambiguous: a sequence of tokens is
the text of at most one phrase of a level.
-/

namespace ChangelogParameters

namespace Expr

/-! ### Derivations -/

mutual

/-- A phrase of a level: an operand and any number of further ones. -/
inductive Phrase : Level → Type where
  | mk {level : Level} (first : Operand level) (more : Operands level) : Phrase level

/-- Further operands of a level, each behind a joint. -/
inductive Operands : Level → Type where
  | nil {level : Level} : Operands level
  | cons {level : Level} (next : Operand level) (more : Operands level) : Operands level

/-- An operand of a level. -/
inductive Operand : Level → Type where
  | disjunction (phrase : Phrase .disjunction) : Operand .list
  | conjunction (phrase : Phrase .conjunction) : Operand .disjunction
  | term (term : Term) : Operand .conjunction

/-- A term: what negations apply to and conjunctions consist of. -/
inductive Term : Type where
  | name (n : String) : Term
  | group (phrase : Phrase .list) : Term
  | not (term : Term) : Term

end

/-! ### Texts -/

/-- The token that joins the operands of a level. -/
def Level.joint : Level → Token
  | .list => .comma
  | .disjunction => .or
  | .conjunction => .and

mutual

/-- The tokens of a phrase. -/
def Phrase.tokens {level : Level} : Phrase level → List Token
  | .mk first more => first.tokens ++ more.tokens

/-- The tokens of further operands. -/
def Operands.tokens {level : Level} : Operands level → List Token
  | .nil => []
  | .cons next more => level.joint :: (next.tokens ++ more.tokens)

/-- The tokens of an operand. -/
def Operand.tokens {level : Level} : Operand level → List Token
  | .disjunction phrase => phrase.tokens
  | .conjunction phrase => phrase.tokens
  | .term term => term.tokens

/-- The tokens of a term. -/
def Term.tokens : Term → List Token
  | .name n => [.word n]
  | .group phrase => .leftParen :: (phrase.tokens ++ [.rightParen])
  | .not term => .not :: term.tokens

end

/-! ### Meanings -/

/-- The expression for the operands of a level; an operand that stands alone is not wrapped. -/
def Level.combine : Level → Expr → List Expr → Expr
  | _, e, [] => e
  | .list, e, es => .or (e :: es)
  | .disjunction, e, es => .or (e :: es)
  | .conjunction, e, es => .and (e :: es)

mutual

/-- The expression that a phrase means. -/
def Phrase.expr {level : Level} : Phrase level → Expr
  | .mk first more => level.combine first.expr more.exprs

/-- The expressions that further operands mean. -/
def Operands.exprs {level : Level} : Operands level → List Expr
  | .nil => []
  | .cons next more => next.expr :: more.exprs

/-- The expression that an operand means. -/
def Operand.expr {level : Level} : Operand level → Expr
  | .disjunction phrase => phrase.expr
  | .conjunction phrase => phrase.expr
  | .term term => term.expr

/-- The expression that a term means. -/
def Term.expr : Term → Expr
  | .name n => .name n
  | .group phrase => phrase.expr
  | .not term => .not term.expr

end

/-! ### Where phrases end -/

/-- A sequence of tokens does not begin with the joint of a level up to the given rank, so
that no phrase of such a level goes on with it. -/
def EndsAt (rank : Nat) (rest : List Token) : Prop :=
  ∀ level : Level, level.rank ≤ rank → rest.head? ≠ some level.joint

lemma Level.rank_pos (level : Level) : 0 < level.rank := by
  cases level <;> decide

/-- Different levels have different joints. -/
lemma Level.joint_inj {level level' : Level} (h : level.joint = level'.joint) :
    level = level' := by
  cases level <;> cases level' <;> first | rfl | cases h

lemma EndsAt.mono {rank rank' : Nat} {rest : List Token} (h : EndsAt rank rest)
    (hle : rank' ≤ rank) : EndsAt rank' rest :=
  fun level hlevel => h level (Nat.le_trans hlevel hle)

@[simp] lemma endsAt_nil (rank : Nat) : EndsAt rank [] :=
  fun _ _ => nofun

/-- Every phrase ends before a closing parenthesis. -/
@[simp] lemma endsAt_rightParen (rank : Nat) (rest : List Token) :
    EndsAt rank (.rightParen :: rest) := by
  rintro (_ | _ | _) _ <;> simp [Level.joint]

/-- An operand ends before further operands of its level, and where they end. -/
lemma endsAt_operands {level : Level} (more : Operands level) {rest : List Token}
    (h : EndsAt level.rank rest) : EndsAt (level.rank - 1) (more.tokens ++ rest) := by
  cases more with
  | nil => exact h.mono (Nat.sub_le _ _)
  | cons next more =>
    intro inner hinner hhead
    have hjoint : level.joint = inner.joint := by simpa [Operands.tokens] using hhead
    have hpos := inner.rank_pos
    rw [Level.joint_inj hjoint] at hinner
    omega

/-! ### The grammar is unambiguous -/

mutual

/-- The tokens up to the end of a phrase determine the phrase. -/
lemma Phrase.unique {level : Level} : ∀ (p p' : Phrase level) {rest rest' : List Token},
    EndsAt level.rank rest → EndsAt level.rank rest' →
    p.tokens ++ rest = p'.tokens ++ rest' → p = p' ∧ rest = rest'
  | .mk first more, .mk first' more', rest, rest', hrest, hrest', h => by
    simp only [Phrase.tokens, List.append_assoc] at h
    obtain ⟨rfl, hmore⟩ := first.unique first' (endsAt_operands more hrest)
      (endsAt_operands more' hrest') h
    obtain ⟨rfl, rfl⟩ := more.unique more' hrest hrest' hmore
    exact ⟨rfl, rfl⟩
termination_by structural p => p

/-- The tokens up to the end of further operands determine the operands. -/
lemma Operands.unique {level : Level} : ∀ (more more' : Operands level) {rest rest' : List Token},
    EndsAt level.rank rest → EndsAt level.rank rest' →
    more.tokens ++ rest = more'.tokens ++ rest' → more = more' ∧ rest = rest'
  | .nil, .nil, _, _, _, _, h => ⟨rfl, h⟩
  | .nil, .cons next more, rest, rest', hrest, _, h => by
    have hhead : rest.head? = some level.joint := by
      simp only [Operands.tokens, List.nil_append] at h
      simp [h]
    exact absurd hhead (hrest level (Nat.le_refl _))
  | .cons next more, .nil, rest, rest', _, hrest', h => by
    have hhead : rest'.head? = some level.joint := by
      simp only [Operands.tokens, List.nil_append] at h
      simp [← h]
    exact absurd hhead (hrest' level (Nat.le_refl _))
  | .cons next more, .cons next' more', rest, rest', hrest, hrest', h => by
    simp only [Operands.tokens, List.cons_append, List.append_assoc, List.cons.injEq,
      true_and] at h
    obtain ⟨rfl, hmore⟩ := next.unique next' (endsAt_operands more hrest)
      (endsAt_operands more' hrest') h
    obtain ⟨rfl, rfl⟩ := more.unique more' hrest hrest' hmore
    exact ⟨rfl, rfl⟩
termination_by structural more => more

/-- The tokens up to the end of an operand determine the operand. -/
lemma Operand.unique {level : Level} : ∀ (o o' : Operand level) {rest rest' : List Token},
    EndsAt (level.rank - 1) rest → EndsAt (level.rank - 1) rest' →
    o.tokens ++ rest = o'.tokens ++ rest' → o = o' ∧ rest = rest'
  | .disjunction p, .disjunction p', _, _, hrest, hrest', h => by
    obtain ⟨rfl, rfl⟩ := p.unique p' hrest hrest' h
    exact ⟨rfl, rfl⟩
  | .conjunction p, .conjunction p', _, _, hrest, hrest', h => by
    obtain ⟨rfl, rfl⟩ := p.unique p' hrest hrest' h
    exact ⟨rfl, rfl⟩
  | .term t, .term t', _, _, _, _, h => by
    obtain ⟨rfl, rfl⟩ := t.unique t' h
    exact ⟨rfl, rfl⟩
termination_by structural o => o

/-- The tokens from the beginning of a term on determine the term. -/
lemma Term.unique : ∀ (t t' : Term) {rest rest' : List Token},
    t.tokens ++ rest = t'.tokens ++ rest' → t = t' ∧ rest = rest'
  | .name n, .name n', _, _, h => by
    simpa [Term.tokens] using h
  | .group p, .group p', rest, rest', h => by
    simp only [Term.tokens, List.cons_append, List.append_assoc, List.nil_append,
      List.cons.injEq, true_and] at h
    obtain ⟨rfl, hrest⟩ := p.unique p' (endsAt_rightParen _ rest) (endsAt_rightParen _ rest') h
    exact ⟨rfl, List.tail_eq_of_cons_eq hrest⟩
  | .not t, .not t', _, _, h => by
    simp only [Term.tokens, List.cons_append, List.cons.injEq, true_and] at h
    obtain ⟨rfl, rfl⟩ := t.unique t' h
    exact ⟨rfl, rfl⟩
  | .name _, .group _, _, _, h | .name _, .not _, _, _, h | .group _, .name _, _, _, h
  | .group _, .not _, _, _, h | .not _, .name _, _, _, h | .not _, .group _, _, _, h => by
    simp [Term.tokens] at h
termination_by structural t => t

end

/-- A sequence of tokens is the text of at most one phrase of a level. -/
theorem Phrase.eq_of_tokens_eq {level : Level} {p p' : Phrase level} (h : p.tokens = p'.tokens) :
    p = p' :=
  (p.unique p' (endsAt_nil _) (endsAt_nil _) (congrArg (· ++ []) h)).1

end Expr

end ChangelogParameters
