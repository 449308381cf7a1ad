import ChangelogParameters.Proofs.Tag.Reading

/-!
# Stages of reading

Between two tokens only two things decide how a tag expression can go on: whether an operand is
due or one is complete, and how many parentheses are open.  This is a stage.  A token leads from
one stage to the next, unless it cannot stand there.

The stages know nothing of the levels of the grammar, because all joints are alike: each follows
a complete operand and makes another one due.  Still they find every fault: `ofTokens_eq_error_iff`
says that reading fails exactly where the stages cannot go on, with the fault of that place, and
`exists_phrase_iff_run?` says that the sequences of tokens that lead to a complete operand outside
all parentheses are those of the grammar.
-/

namespace ChangelogParameters

namespace Expr

/-! ### Stages -/

/-- How far a tag expression has come between two tokens. -/
inductive Stage where
  /-- An operand is due behind the given token, or at the start, in so many parentheses. -/
  | due (after : Option Token) (depth : Nat)
  /-- An operand is complete, in so many parentheses. -/
  | complete (depth : Nat)
deriving DecidableEq, Repr

namespace Stage

/-- The stage before the first token. -/
def start : Stage :=
  .due none 0

/-- The stage behind a token; none if the token cannot stand there. -/
def next? : Stage → Token → Option Stage
  | due _ depth, .word _ => some (complete depth)
  | due _ depth, .leftParen => some (due (some .leftParen) (depth + 1))
  | due _ depth, .not => some (due (some .not) depth)
  | complete depth, .comma => some (due (some .comma) depth)
  | complete depth, .and => some (due (some .and) depth)
  | complete depth, .or => some (due (some .or) depth)
  | complete (depth + 1), .rightParen => some (complete depth)
  | _, _ => none

/-- The stage behind several tokens. -/
def run? (stage : Stage) (ts : List Token) : Option Stage :=
  ts.foldlM next? stage

/-- What is wrong with a token that cannot stand at a stage, or with the end of the text there. -/
def fault : Stage → Option Token → Fault
  | due after _, none => .missingOperand after
  | due after _, some .rightParen => .missingOperand after
  | due _ _, some t => .unexpectedToken t
  | complete 0, some .rightParen => .unbalancedParentheses
  | complete 0, some t => .unexpectedToken t
  | complete _, _ => .unbalancedParentheses

/-- The first thing that is wrong with the tokens behind a stage, and the tokens from there on;
none if they complete an operand outside all parentheses. -/
def failure? (stage : Stage) : List Token → Option Failure
  | [] => if stage = complete 0 then none else some ⟨stage.fault none, []⟩
  | t :: ts =>
    match stage.next? t with
    | some stage' => stage'.failure? ts
    | none => some ⟨stage.fault (some t), t :: ts⟩

/-! ### Runs -/

@[simp] lemma run?_nil (stage : Stage) : stage.run? [] = some stage := rfl

@[simp] lemma run?_cons (stage : Stage) (t : Token) (ts : List Token) :
    stage.run? (t :: ts) = (stage.next? t).bind (·.run? ts) := rfl

lemma run?_append (stage : Stage) (ts ts' : List Token) :
    stage.run? (ts ++ ts') = (stage.run? ts).bind (·.run? ts') :=
  List.foldlM_append

/-- Runs can be put together. -/
lemma run?_append_of_eq_some {stage stage' : Stage} {ts : List Token}
    (h : stage.run? ts = some stage') (ts' : List Token) :
    stage.run? (ts ++ ts') = stage'.run? ts' := by
  rw [run?_append, h, Option.bind_some]

@[simp] lemma next?_due_leftParen (after : Option Token) (depth : Nat) :
    (due after depth).next? .leftParen = some (due (some .leftParen) (depth + 1)) := rfl

@[simp] lemma next?_due_not (after : Option Token) (depth : Nat) :
    (due after depth).next? .not = some (due (some .not) depth) := rfl

@[simp] lemma next?_complete_joint (depth : Nat) (level : Level) :
    (complete depth).next? level.joint = some (due (some level.joint) depth) := by
  cases level <;> cases depth <;> rfl

@[simp] lemma next?_rightParen (depth : Nat) :
    (complete (depth + 1)).next? .rightParen = some (complete depth) := rfl

/-- What an open parenthesis waits for is the other one. -/
@[simp] lemma fault_complete_succ (depth : Nat) (t : Option Token) :
    (complete (depth + 1)).fault t = .unbalancedParentheses := rfl

lemma failure?_cons_of_eq_some {stage stage' : Stage} {t : Token}
    (h : stage.next? t = some stage') (ts : List Token) :
    stage.failure? (t :: ts) = stage'.failure? ts := by
  rw [failure?, h]

lemma failure?_cons_of_eq_none {stage : Stage} {t : Token} (h : stage.next? t = none)
    (ts : List Token) : stage.failure? (t :: ts) = some ⟨stage.fault (some t), t :: ts⟩ := by
  rw [failure?, h]

/-- Nothing is wrong with the tokens of a run. -/
lemma failure?_append {stage stage' : Stage} {ts : List Token}
    (h : stage.run? ts = some stage') (rest : List Token) :
    stage.failure? (ts ++ rest) = stage'.failure? rest := by
  induction ts generalizing stage with
  | nil =>
    cases h
    rfl
  | cons t ts ih =>
    rw [run?_cons] at h
    obtain ⟨next, hnext, hrun⟩ := Option.bind_eq_some_iff.1 h
    rw [List.cons_append, failure?_cons_of_eq_some hnext, ih hrun]

/-- Nothing is wrong exactly if an operand is complete outside all parentheses. -/
lemma failure?_eq_none_iff {stage : Stage} {ts : List Token} :
    stage.failure? ts = none ↔ stage.run? ts = some (complete 0) := by
  induction ts generalizing stage with
  | nil => simp [failure?]
  | cons t ts ih =>
    rw [run?_cons]
    cases hnext : stage.next? t with
    | none => simp [failure?_cons_of_eq_none hnext]
    | some stage' => rw [failure?_cons_of_eq_some hnext, Option.bind_some, ih]

end Stage

/-! ### Phrases complete operands -/

mutual

/-- A phrase is the operand that is due. -/
lemma Phrase.run?_tokens {level : Level} : ∀ (p : Phrase level) (after : Option Token)
    (depth : Nat), (Stage.due after depth).run? p.tokens = some (.complete depth)
  | .mk first more, after, depth => by
    rw [Phrase.tokens, Stage.run?_append_of_eq_some (first.run?_tokens after depth)]
    exact more.run?_tokens depth
termination_by structural p => p

/-- With further operands an operand stays complete. -/
lemma Operands.run?_tokens {level : Level} : ∀ (more : Operands level) (depth : Nat),
    (Stage.complete depth).run? more.tokens = some (.complete depth)
  | .nil, depth => rfl
  | .cons next more, depth => by
    rw [Operands.tokens, Stage.run?_cons, Stage.next?_complete_joint, Option.bind_some,
      Stage.run?_append_of_eq_some (next.run?_tokens _ depth)]
    exact more.run?_tokens depth
termination_by structural more => more

/-- An operand is the one that is due. -/
lemma Operand.run?_tokens {level : Level} : ∀ (o : Operand level) (after : Option Token)
    (depth : Nat), (Stage.due after depth).run? o.tokens = some (.complete depth)
  | .disjunction p, after, depth => p.run?_tokens after depth
  | .conjunction p, after, depth => p.run?_tokens after depth
  | .term t, after, depth => t.run?_tokens after depth
termination_by structural o => o

/-- A term is the operand that is due. -/
lemma Term.run?_tokens : ∀ (t : Term) (after : Option Token) (depth : Nat),
    (Stage.due after depth).run? t.tokens = some (.complete depth)
  | .name n, _, _ => rfl
  | .group p, after, depth => by
    rw [Term.tokens, Stage.run?_cons, Stage.next?_due_leftParen, Option.bind_some,
      Stage.run?_append_of_eq_some (p.run?_tokens _ (depth + 1))]
    rfl
  | .not t, after, depth => by
    rw [Term.tokens, Stage.run?_cons, Stage.next?_due_not, Option.bind_some]
    exact t.run?_tokens _ depth
termination_by structural t => t

end

/-! ### Where reading stops -/

/-- What ends before a looser level, and does not begin with the joint of the next one, ends
before that too. -/
lemma endsAt_of_head?_ne {level : Level} {rest : List Token} (h : EndsAt (level.rank - 1) rest)
    (hhead : rest.head? ≠ some level.joint) : EndsAt level.rank rest := by
  intro inner hinner
  by_cases hle : inner.rank ≤ level.rank - 1
  · exact h inner hle
  · have hrank : inner.rank = level.rank := by omega
    have heq : inner = level := by cases inner <;> cases level <;> first | rfl | cases hrank
    rwa [heq]

/-- Further operands are read up to a token that does not go on with them. -/
lemma endsAt_of_yields_readMore {level : Level}
    (hoperand : ∀ {previous ts rest e}, Yields (readOperand level previous ts) e rest →
      EndsAt (level.rank - 1) rest)
    {ts rest : List Token} {es : List Expr} (hts : EndsAt (level.rank - 1) ts)
    (h : Yields (readMore level ts) es rest) : EndsAt level.rank rest := by
  by_cases hhead : ts.head? = some level.joint
  · obtain ⟨ts', hcons⟩ := List.head?_eq_some_iff.1 hhead
    have hlen : ts.length = ts'.length + 1 := by rw [hcons, List.length_cons]
    rw [hcons] at h
    obtain ⟨e, rest₁, es', hnext, hmore, rfl⟩ := yields_readMore_cons_iff.1 h
    have hlt : rest₁.length < ts'.length := hnext.1
    exact endsAt_of_yields_readMore hoperand (hoperand hnext) hmore
  · obtain ⟨rfl, rfl⟩ := (yields_readMore_of_ne hhead).1 h
    exact endsAt_of_head?_ne hts hhead
termination_by ts.length
decreasing_by omega

/-- A phrase is read up to a token that does not go on with it. -/
lemma endsAt_of_yields_readChain {level : Level} {previous : Option Token}
    {ts rest : List Token} {e : Expr} (h : Yields (readChain level previous ts) e rest) :
    EndsAt level.rank rest := by
  have hchain : ∀ {level : Level}, (∀ {previous ts rest e},
      Yields (readOperand level previous ts) e rest → EndsAt (level.rank - 1) rest) →
      ∀ {previous ts rest e}, Yields (readChain level previous ts) e rest →
        EndsAt level.rank rest := by
    intro level hoperand previous ts rest e h
    obtain ⟨first, rest₁, es, hfirst, hmore, -⟩ := yields_readChain_iff.1 h
    exact endsAt_of_yields_readMore hoperand (hoperand hfirst) hmore
  -- a term ends with its own last token, so below conjunctions there is nothing to exclude
  have hconjunction : ∀ {previous ts rest e},
      Yields (readChain .conjunction previous ts) e rest → EndsAt Level.conjunction.rank rest := by
    refine hchain fun _ level hle => ?_
    exact absurd level.rank_pos (Nat.not_lt.2 hle)
  have hdisjunction : ∀ {previous ts rest e},
      Yields (readChain .disjunction previous ts) e rest → EndsAt Level.disjunction.rank rest := by
    refine hchain fun hfirst => ?_
    rw [readOperand_disjunction] at hfirst
    exact hconjunction hfirst
  cases level with
  | conjunction => exact hconjunction h
  | disjunction => exact hdisjunction h
  | list =>
    refine hchain (fun hfirst => ?_) h
    rw [readOperand_list] at hfirst
    exact hdisjunction hfirst

/-! ### Reading fails where the stages cannot go on -/

/-- A phrase fails in its first operand or in a further one. -/
lemma readChain_eq_error {level : Level} {previous : Option Token} {ts : List Token}
    {failure : Failure} (h : readChain level previous ts = .error failure) :
    readOperand level previous ts = .error failure ∨
      ∃ e rest, Yields (readOperand level previous ts) e rest ∧
        readMore level rest = .error failure := by
  rw [readChain] at h
  split at h
  case h_1 hfirst =>
    cases h
    exact .inl hfirst
  case h_2 e rest hlt hfirst =>
    split at h
    case h_1 hmore =>
      cases h
      exact .inr ⟨e, rest, ⟨hlt, hfirst⟩, hmore⟩
    case h_2 => cases h

/-- Further operands fail behind a joint, in the operand there or in a later one. -/
lemma readMore_eq_error {level : Level} {ts : List Token} {failure : Failure}
    (h : readMore level ts = .error failure) :
    ∃ ts', ts = level.joint :: ts' ∧
      (readOperand level (some level.joint) ts' = .error failure ∨
        ∃ e rest, Yields (readOperand level (some level.joint) ts') e rest ∧
          readMore level rest = .error failure) := by
  cases ts with
  | nil =>
    rw [readMore] at h
    cases h
  | cons t ts =>
    rw [readMore, Level.separator_eq_joint] at h
    split at h
    case isFalse => cases h
    case isTrue ht =>
      subst ht
      refine ⟨ts, rfl, ?_⟩
      split at h
      case h_1 hnext =>
        cases h
        exact .inl hnext
      case h_2 e rest hlt hnext =>
        split at h
        case h_1 hmore =>
          cases h
          exact .inr ⟨e, rest, ⟨hlt, hnext⟩, hmore⟩
        case h_2 => cases h

/-- A negation fails in what it applies to. -/
lemma readNegation_not_eq_error {previous : Option Token} {ts : List Token} {failure : Failure}
    (h : readNegation previous (.not :: ts) = .error failure) :
    readNegation (some .not) ts = .error failure := by
  rw [readNegation] at h
  split at h
  case h_1 hread =>
    cases h
    exact hread
  case h_2 => cases h

/-- A group fails in the list behind its parenthesis, or because the list does not end with the
other parenthesis. -/
lemma readPrimary_leftParen_eq_error {previous : Option Token} {ts : List Token}
    {failure : Failure} (h : readPrimary previous (.leftParen :: ts) = .error failure) :
    readChain .list (some .leftParen) ts = .error failure ∨
      ∃ e rest, Yields (readChain .list (some .leftParen) ts) e rest ∧
        rest.head? ≠ some .rightParen ∧ failure = ⟨.unbalancedParentheses, rest⟩ := by
  rw [readPrimary] at h
  split at h
  case h_1 hread =>
    cases h
    exact .inl hread
  case h_2 e rest hlt hread =>
    split at h
    case h_1 => cases h
    case h_2 hne =>
      cases h
      refine .inr ⟨e, rest, ⟨hlt, hread⟩, ?_, rfl⟩
      intro hhead
      obtain ⟨rest', rfl⟩ := List.head?_eq_some_iff.1 hhead
      exact hne rest' hlt rfl HEq.rfl

namespace Stage

/-- Where a list of the grammar ends, only a closing parenthesis can stand. -/
lemma next?_complete_of_endsAt {t : Token} {rest : List Token}
    (hend : EndsAt Level.list.rank (t :: rest)) (hclose : t ≠ .rightParen) (depth : Nat) :
    (complete depth).next? t = none := by
  have hcomma : t ≠ .comma := fun ht => hend .list (by decide) (by rw [ht]; rfl)
  have hor : t ≠ .or := fun ht => hend .disjunction (by decide) (by rw [ht]; rfl)
  have hand : t ≠ .and := fun ht => hend .conjunction (by decide) (by rw [ht]; rfl)
  cases t <;> cases depth <;> first | contradiction | rfl

/-- Inside parentheses a list has to be closed. -/
lemma failure?_complete_succ {rest : List Token} (hend : EndsAt Level.list.rank rest)
    (hclose : rest.head? ≠ some .rightParen) (depth : Nat) :
    (complete (depth + 1)).failure? rest = some ⟨.unbalancedParentheses, rest⟩ := by
  cases rest with
  | nil => rfl
  | cons t rest =>
    have ht : t ≠ .rightParen := fun ht => hclose (by rw [ht]; rfl)
    rw [failure?_cons_of_eq_none (next?_complete_of_endsAt hend ht _), fault_complete_succ]

/-- Outside all parentheses nothing can stand behind a list. -/
lemma failure?_complete_zero {t : Token} {rest : List Token}
    (hend : EndsAt Level.list.rank (t :: rest)) (hclose : t ≠ .rightParen) :
    (complete 0).failure? (t :: rest) = some ⟨.unexpectedToken t, t :: rest⟩ := by
  have hfault : (complete 0).fault (some t) = .unexpectedToken t := by
    cases t <;> first | contradiction | rfl
  rw [failure?_cons_of_eq_none (next?_complete_of_endsAt hend hclose 0), hfault]

end Stage

mutual

/-- Where reading a phrase fails, an operand was due and the stages cannot go on. -/
lemma failure?_of_readChain {level : Level} {previous : Option Token} {ts : List Token}
    {failure : Failure} (h : readChain level previous ts = .error failure) (depth : Nat) :
    (Stage.due previous depth).failure? ts = some failure := by
  rcases readChain_eq_error h with hfirst | ⟨e, rest, hfirst, hmore⟩
  · exact failure?_of_readOperand hfirst depth
  · have hlt : rest.length < ts.length := hfirst.1
    obtain ⟨o, rfl, -⟩ := exists_operand_of_yields hfirst
    rw [Stage.failure?_append (o.run?_tokens previous depth)]
    exact failure?_of_readMore hmore depth
termination_by 8 * ts.length + 2 * level.rank + 1
decreasing_by all_goals omega

/-- Where reading further operands fails, an operand was complete. -/
lemma failure?_of_readMore {level : Level} {ts : List Token} {failure : Failure}
    (h : readMore level ts = .error failure) (depth : Nat) :
    (Stage.complete depth).failure? ts = some failure := by
  obtain ⟨ts', hcons, hread⟩ := readMore_eq_error h
  have hlen : ts.length = ts'.length + 1 := by rw [hcons, List.length_cons]
  rw [hcons, Stage.failure?_cons_of_eq_some (Stage.next?_complete_joint depth level)]
  rcases hread with hnext | ⟨e, rest, hnext, hmore⟩
  · exact failure?_of_readOperand hnext depth
  · have hlt : rest.length < ts'.length := hnext.1
    obtain ⟨o, rfl, -⟩ := exists_operand_of_yields hnext
    rw [Stage.failure?_append (o.run?_tokens _ depth)]
    exact failure?_of_readMore hmore depth
termination_by 8 * ts.length
decreasing_by
  all_goals
    have := level.rank_le
    omega

/-- Where reading an operand fails, one was due. -/
lemma failure?_of_readOperand {level : Level} {previous : Option Token} {ts : List Token}
    {failure : Failure} (h : readOperand level previous ts = .error failure) (depth : Nat) :
    (Stage.due previous depth).failure? ts = some failure := by
  match hlevel : level with
  | .list =>
    rw [readOperand_list] at h
    exact failure?_of_readChain h depth
  | .disjunction =>
    rw [readOperand_disjunction] at h
    exact failure?_of_readChain h depth
  | .conjunction =>
    rw [readOperand_conjunction] at h
    exact failure?_of_readNegation h depth
termination_by 8 * ts.length + 2 * level.rank
decreasing_by all_goals simp only [Level.rank]; omega

/-- Where reading a term fails, an operand was due. -/
lemma failure?_of_readNegation {previous : Option Token} {ts : List Token} {failure : Failure}
    (h : readNegation previous ts = .error failure) (depth : Nat) :
    (Stage.due previous depth).failure? ts = some failure := by
  match ts with
  | .not :: ts =>
    exact failure?_of_readNegation (readNegation_not_eq_error h) depth
  | .leftParen :: ts =>
    rw [readNegation_of_ne (by simp)] at h
    rcases readPrimary_leftParen_eq_error h with hread | ⟨e, rest, hread, hhead, rfl⟩
    · exact failure?_of_readChain hread (depth + 1)
    · -- the list is complete inside the parenthesis that opened it
      obtain ⟨p, rfl, -⟩ := exists_phrase_of_yields hread
      rw [Stage.failure?_cons_of_eq_some (Stage.next?_due_leftParen previous depth),
        Stage.failure?_append (p.run?_tokens _ (depth + 1))]
      exact Stage.failure?_complete_succ (endsAt_of_yields_readChain hread) hhead depth
  | .word n :: ts =>
    rw [readNegation_of_ne (by simp), readPrimary] at h
    cases h
  | [] | .rightParen :: ts | .comma :: ts | .and :: ts | .or :: ts =>
    rw [readNegation_of_ne (by simp), readPrimary.eq_def] at h
    cases h
    rfl
termination_by 8 * ts.length + 1
decreasing_by all_goals simp only [List.length_cons, Level.rank]; omega

end

/-! ### Whole texts -/

/-- Where reading a whole sequence of tokens fails, the stages cannot go on. -/
lemma failure?_of_ofTokens {ts : List Token} {failure : Failure}
    (h : ofTokens ts = .error failure) : Stage.start.failure? ts = some failure := by
  rw [ofTokens] at h
  split at h
  case isTrue => cases h
  case isFalse =>
    split at h
    case h_1 hread =>
      cases h
      exact failure?_of_readChain hread 0
    case h_2 e rest hlt hread =>
      have hyields : Yields (readChain .list none ts) e rest := ⟨hlt, hread⟩
      have hend := endsAt_of_yields_readChain hyields
      obtain ⟨p, rfl, -⟩ := exists_phrase_of_yields hyields
      rw [Stage.start, Stage.failure?_append (p.run?_tokens none 0)]
      split at h
      case h_1 => cases h
      case h_2 =>
        cases h
        rfl
      case h_3 =>
        cases h
        exact Stage.failure?_complete_zero hend (by assumption)

/-- Reading fails exactly where the stages cannot go on. -/
lemma ofTokens_eq_error_iff {ts : List Token} {failure : Failure} :
    ofTokens ts = .error failure ↔ ts ≠ [] ∧ Stage.start.failure? ts = some failure := by
  constructor
  · intro h
    refine ⟨?_, failure?_of_ofTokens h⟩
    rintro rfl
    cases h
  · rintro ⟨hne, hfailure⟩
    rcases hread : ofTokens ts with failure' | (_ | e)
    · have hfailure' := failure?_of_ofTokens hread
      rw [hfailure] at hfailure'
      rw [Option.some.inj hfailure']
    · exact absurd (ofTokens_eq_none_iff.1 hread) hne
    · obtain ⟨-, hyields⟩ := ofTokens_eq_some_iff.1 hread
      obtain ⟨p, rfl, -⟩ := yields_readChain_nil_iff.1 hyields
      have hnone : Stage.start.failure? p.tokens = none :=
        Stage.failure?_eq_none_iff.2 (p.run?_tokens none 0)
      rw [hnone] at hfailure
      cases hfailure

/-- The fault of a text is the one at which the stages cannot go on. -/
lemma parse_eq_error_iff {s source : String} {fault : Fault} :
    parse s = .error ⟨fault, source⟩ ↔
      source = s ∧ Token.scan s ≠ [] ∧
        ∃ rest, Stage.start.failure? (Token.scan s) = some ⟨fault, rest⟩ := by
  rw [parse]
  constructor
  · intro h
    split at h
    case h_1 failure hread =>
      cases h
      obtain ⟨hne, hfailure⟩ := ofTokens_eq_error_iff.1 hread
      exact ⟨rfl, hne, failure.rest, hfailure⟩
    case h_2 => cases h
  · rintro ⟨rfl, hne, rest, hfailure⟩
    rw [ofTokens_eq_error_iff.2 ⟨hne, hfailure⟩]

/-- The sequences of tokens that complete an operand outside all parentheses are those of the
grammar. -/
lemma exists_phrase_iff_run? {ts : List Token} :
    (∃ p : Phrase .list, p.tokens = ts) ↔ Stage.start.run? ts = some (.complete 0) := by
  constructor
  · rintro ⟨p, rfl⟩
    exact p.run?_tokens none 0
  · intro hrun
    rcases hread : ofTokens ts with failure | (_ | e)
    · have hfailure := failure?_of_ofTokens hread
      rw [Stage.failure?_eq_none_iff.2 hrun] at hfailure
      cases hfailure
    · rw [ofTokens_eq_none_iff.1 hread] at hrun
      cases hrun
    · obtain ⟨-, hyields⟩ := ofTokens_eq_some_iff.1 hread
      obtain ⟨p, hp, -⟩ := yields_readChain_nil_iff.1 hyields
      exact ⟨p, hp⟩

end Expr

end ChangelogParameters
