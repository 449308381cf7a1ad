import ChangelogParameters.Proofs.Tag.Stages

/-!
# Reading by positions

Tokens can also be read in place, with a position that goes up as tokens are taken.  A token is also
taken where there is none, so reading can fail one place behind the end.  The functions below call
one another, mostly without taking a token in between, and nothing in their definitions says that
this comes to an end.  They are told how deeply calls may be nested, and have no result where that
is not enough.

`Procedure.endsWith_read` says that eight calls for each token that is left and for the end are
enough, and that the result is what the readers of token lists make of the tokens from the position
on.
-/

namespace ChangelogParameters

namespace Expr

/-! ### Positions -/

/-- What reading ends with, an expression or an error, and the position at which it ends. -/
abbrev Outcome := Except ParseError Expr × Nat

/-- The token before a position, if there is one. -/
def previousAt (ts : List Token) (pos : Nat) : Option Token :=
  if pos = 0 then none else ts[pos - 1]?

mutual

/-- Reads operands of a level with its separator between them, from a position on. -/
def chainAt (source : String) (ts : List Token) (level : Level) :
    (bound pos : Nat) → Option Outcome
  | 0, _ => none
  | bound + 1, pos => do
    match ← operandAt source ts level bound pos with
    | (.error e, pos) => return (.error e, pos)
    | (.ok e, pos) => moreAt source ts level [e] bound pos
termination_by structural bound => bound

/-- Reads further operands of a level behind those that have been read, as long as its separator
comes next. -/
def moreAt (source : String) (ts : List Token) (level : Level) (es : List Expr) :
    (bound pos : Nat) → Option Outcome
  | 0, _ => none
  | bound + 1, pos => do
    if ts[pos]? = some level.separator then
      match ← operandAt source ts level bound (pos + 1) with
      | (.error e, pos) => return (.error e, pos)
      | (.ok e, pos) => moreAt source ts level (es ++ [e]) bound pos
    else return (.ok (level.join es), pos)
termination_by structural bound => bound

/-- Reads one operand of a level. -/
def operandAt (source : String) (ts : List Token) (level : Level) :
    (bound pos : Nat) → Option Outcome
  | 0, _ => none
  | bound + 1, pos =>
    match level with
    | .list => chainAt source ts .disjunction bound pos
    | .disjunction => chainAt source ts .conjunction bound pos
    | .conjunction => negationAt source ts bound pos
termination_by structural bound => bound

/-- Reads any number of negations and what they apply to. -/
def negationAt (source : String) (ts : List Token) : (bound pos : Nat) → Option Outcome
  | 0, _ => none
  | bound + 1, pos => do
    if ts[pos]? = some .not then
      match ← negationAt source ts bound (pos + 1) with
      | (.error e, pos) => return (.error e, pos)
      | (.ok e, pos) => return (.ok (.not e), pos)
    else primaryAt source ts bound pos
termination_by structural bound => bound

/-- Reads a tag name or a list in parentheses.  The token at the position is taken in any case. -/
def primaryAt (source : String) (ts : List Token) : (bound pos : Nat) → Option Outcome
  | 0, _ => none
  | bound + 1, pos => do
    match ts[pos]? with
    | some (.word n) => return (.ok (.name n), pos + 1)
    | some .leftParen =>
      match ← chainAt source ts .list bound (pos + 1) with
      | (.error e, pos) => return (.error e, pos)
      | (.ok e, pos) =>
        if ts[pos]? = some .rightParen then return (.ok e, pos + 1)
        else return (.error ⟨.unbalancedParentheses, source⟩, pos)
    | none => return (.error ⟨.missingOperand (previousAt ts pos), source⟩, pos + 1)
    | some .rightParen => return (.error ⟨.missingOperand (previousAt ts pos), source⟩, pos + 1)
    | some t => return (.error ⟨.unexpectedToken t, source⟩, pos + 1)
termination_by structural bound => bound

end

/-! ### Positions and rests -/

/-- How many tokens are taken at the place of a fault.  Where a parenthesis should close it is only
looked for. -/
def Fault.taken : Fault → Nat
  | .unbalancedParentheses => 0
  | _ => 1

/-- What reading tokens from a position on ends with, if reading a list of tokens that they end with
has the given outcome. -/
def outcomeOf (source : String) (ts : List Token) {α : Type} {P : List Token → Prop}
    (toExpr : α → Expr) : Except Failure (α × { rest : List Token // P rest }) → Outcome
  | .ok (a, rest) => (.ok (toExpr a), ts.length - rest.1.length)
  | .error failure =>
    (.error ⟨failure.fault, source⟩, ts.length - failure.rest.length + failure.fault.taken)

variable {ts : List Token} {pos : Nat}

/-- What ends a list of tokens is what is left from the position on where it begins. -/
lemma drop_of_suffix {rest : List Token} (h : rest <:+ ts.drop pos) :
    ts.drop (ts.length - rest.length) = rest :=
  (List.suffix_iff_eq_drop.1 (h.trans (List.drop_suffix pos ts))).symm

/-- The token at a position is the first one that is left from there on. -/
lemma getElem?_of_drop {rest : List Token} (h : ts.drop pos = rest) : ts[pos]? = rest.head? := by
  rw [← h, List.head?_drop]

/-- If a token is left, one fewer is left behind it, and it is the one before what is left then. -/
lemma of_drop_cons {t : Token} {rest : List Token} (h : ts.drop pos = t :: rest) :
    pos < ts.length ∧ ts.drop (pos + 1) = rest ∧ previousAt ts (pos + 1) = some t := by
  have hget : ts[pos]? = some t := getElem?_of_drop h
  obtain ⟨hlt, -⟩ := List.getElem?_eq_some_iff.1 hget
  refine ⟨hlt, ?_, ?_⟩
  · rw [← List.tail_drop, h, List.tail_cons]
  · simpa [previousAt] using hget

/-- A phrase leaves the end of the tokens. -/
lemma Yields.suffix_of_readChain {level : Level} {previous : Option Token} {us rest : List Token}
    {e : Expr} (h : Yields (readChain level previous us) e rest) : rest <:+ us := by
  obtain ⟨p, hp, -⟩ := exists_phrase_of_yields h
  exact ⟨p.tokens, hp⟩

/-- An operand leaves the end of the tokens. -/
lemma Yields.suffix_of_readOperand {level : Level} {previous : Option Token} {us rest : List Token}
    {e : Expr} (h : Yields (readOperand level previous us) e rest) : rest <:+ us := by
  obtain ⟨o, ho, -⟩ := exists_operand_of_yields h
  exact ⟨o.tokens, ho⟩

/-! ### Reading in place -/

mutual

/-- Operands are read in place as they are read from what is left. -/
lemma chainAt_eq (source : String) (level : Level) {ts : List Token} {pos bound : Nat}
    (hpos : pos ≤ ts.length) (hbound : 8 * (ts.length - pos) + 2 * level.rank + 1 < bound) :
    chainAt source ts level bound pos =
      some (outcomeOf source ts id (readChain level (previousAt ts pos) (ts.drop pos))) := by
  obtain ⟨bound, rfl⟩ : ∃ less, bound = less + 1 := ⟨bound - 1, by omega⟩
  have hlength : (ts.drop pos).length = ts.length - pos := List.length_drop
  rw [chainAt, operandAt_eq source level hpos (by omega), readChain]
  cases hread : readOperand level (previousAt ts pos) (ts.drop pos) with
  | error failure => rfl
  | ok result =>
    obtain ⟨e, rest, hrest⟩ := result
    have hsuffix : rest <:+ ts.drop pos := Yields.suffix_of_readOperand ⟨hrest, hread⟩
    have hmore := moreAt_eq source level [e] (Nat.sub_le ts.length rest.length)
      (show 8 * (ts.length - (ts.length - rest.length)) < bound by omega)
    rw [drop_of_suffix hsuffix] at hmore
    simp only [outcomeOf, id_eq, Option.bind_eq_bind, Option.bind_some, hmore]
    cases readMore level rest <;> rfl
termination_by bound

/-- Further operands are read in place as they are read from what is left. -/
lemma moreAt_eq (source : String) (level : Level) (es : List Expr) {ts : List Token}
    {pos bound : Nat} (hpos : pos ≤ ts.length) (hbound : 8 * (ts.length - pos) < bound) :
    moreAt source ts level es bound pos =
      some (outcomeOf source ts (fun es' => level.join (es ++ es'))
        (readMore level (ts.drop pos))) := by
  have hrank := level.rank_le
  obtain ⟨bound, rfl⟩ : ∃ less, bound = less + 1 := ⟨bound - 1, by omega⟩
  rw [moreAt]
  cases hdrop : ts.drop pos with
  | nil =>
    have hlength : ts.length - pos = 0 := by rw [← List.length_drop, hdrop, List.length_nil]
    rw [getElem?_of_drop hdrop, readMore]
    simp [outcomeOf]
    omega
  | cons t rest =>
    obtain ⟨hlt, hbehind, hprevious⟩ := of_drop_cons hdrop
    have hlength : ts.length - pos = rest.length + 1 := by
      rw [← List.length_drop, hdrop, List.length_cons]
    rw [getElem?_of_drop hdrop, readMore]
    by_cases ht : t = level.separator
    · subst ht
      have hnext := operandAt_eq source level (Nat.succ_le_of_lt hlt)
        (show 8 * (ts.length - (pos + 1)) + 2 * level.rank < bound by omega)
      rw [hprevious, hbehind] at hnext
      simp only [List.head?_cons, if_true, hnext, Option.bind_eq_bind, Option.bind_some]
      cases hread : readOperand level (some level.separator) rest with
      | error failure => rfl
      | ok result =>
        obtain ⟨e, rest', hrest'⟩ := result
        have hsuffix : rest' <:+ ts.drop (pos + 1) := by
          rw [hbehind]
          exact Yields.suffix_of_readOperand ⟨hrest', hread⟩
        have hmore := moreAt_eq source level (es ++ [e]) (Nat.sub_le ts.length rest'.length)
          (show 8 * (ts.length - (ts.length - rest'.length)) < bound by omega)
        rw [drop_of_suffix hsuffix] at hmore
        simp only [outcomeOf, id_eq, hmore]
        cases readMore level rest' <;> simp
    · have hne : (t :: rest).head? ≠ some level.separator := by simpa using ht
      rw [if_neg hne, if_neg ht]
      simp only [outcomeOf, List.append_nil, List.length_cons]
      refine congrArg (fun stop => some (_, stop)) ?_
      omega
termination_by bound

/-- An operand is read in place as it is read from what is left. -/
lemma operandAt_eq (source : String) (level : Level) {ts : List Token} {pos bound : Nat}
    (hpos : pos ≤ ts.length) (hbound : 8 * (ts.length - pos) + 2 * level.rank < bound) :
    operandAt source ts level bound pos =
      some (outcomeOf source ts id (readOperand level (previousAt ts pos) (ts.drop pos))) := by
  obtain ⟨bound, rfl⟩ : ∃ less, bound = less + 1 := ⟨bound - 1, by omega⟩
  cases level with
  | list =>
    rw [Level.rank] at hbound
    rw [operandAt, readOperand_list]
    exact chainAt_eq source .disjunction hpos (by rw [Level.rank]; omega)
  | disjunction =>
    rw [Level.rank] at hbound
    rw [operandAt, readOperand_disjunction]
    exact chainAt_eq source .conjunction hpos (by rw [Level.rank]; omega)
  | conjunction =>
    rw [Level.rank] at hbound
    rw [operandAt, readOperand_conjunction]
    exact negationAt_eq source hpos (by omega)
termination_by bound

/-- Negations are read in place as they are read from what is left. -/
lemma negationAt_eq (source : String) {ts : List Token} {pos bound : Nat} (hpos : pos ≤ ts.length)
    (hbound : 8 * (ts.length - pos) + 1 < bound) :
    negationAt source ts bound pos =
      some (outcomeOf source ts id (readNegation (previousAt ts pos) (ts.drop pos))) := by
  obtain ⟨bound, rfl⟩ : ∃ less, bound = less + 1 := ⟨bound - 1, by omega⟩
  rw [negationAt]
  by_cases hhead : ts[pos]? = some .not
  · obtain ⟨rest, hdrop⟩ := List.head?_eq_some_iff.1 (List.head?_drop.trans hhead)
    obtain ⟨hlt, hbehind, hprevious⟩ := of_drop_cons hdrop
    have hinner := negationAt_eq source (Nat.succ_le_of_lt hlt)
      (show 8 * (ts.length - (pos + 1)) + 1 < bound by omega)
    rw [hprevious, hbehind] at hinner
    rw [if_pos hhead, hdrop, readNegation, hinner]
    cases readNegation (some .not) rest <;> rfl
  · rw [if_neg hhead, readNegation_of_ne (by rwa [List.head?_drop])]
    exact primaryAt_eq source hpos (by omega)
termination_by bound

/-- Names and groups are read in place as they are read from what is left. -/
lemma primaryAt_eq (source : String) {ts : List Token} {pos bound : Nat} (hpos : pos ≤ ts.length)
    (hbound : 8 * (ts.length - pos) < bound) :
    primaryAt source ts bound pos =
      some (outcomeOf source ts id (readPrimary (previousAt ts pos) (ts.drop pos))) := by
  obtain ⟨bound, rfl⟩ : ∃ less, bound = less + 1 := ⟨bound - 1, by omega⟩
  have hstop : ts.length - (ts.drop pos).length = pos := by
    rw [List.length_drop]
    omega
  rw [primaryAt]
  cases hdrop : ts.drop pos with
  | nil =>
    rw [hdrop] at hstop
    rw [getElem?_of_drop hdrop, readPrimary]
    simp only [List.head?_nil, outcomeOf, hstop, Fault.taken]
    rfl
  | cons t rest =>
    obtain ⟨hlt, hbehind, hprevious⟩ := of_drop_cons hdrop
    rw [hdrop] at hstop
    have hnext : ts.length - rest.length = pos + 1 := by
      rw [← hbehind, List.length_drop]
      omega
    rw [getElem?_of_drop hdrop]
    cases t with
    | word n =>
      simp only [readPrimary, outcomeOf, hnext]
      rfl
    | leftParen =>
      have hlist := chainAt_eq source .list (Nat.succ_le_of_lt hlt)
        (show 8 * (ts.length - (pos + 1)) + 2 * Level.list.rank + 1 < bound by
          rw [Level.rank]
          omega)
      rw [hprevious, hbehind] at hlist
      simp only [List.head?_cons, hlist, readPrimary, Option.bind_eq_bind, Option.bind_some]
      cases hread : readChain .list (some .leftParen) rest with
      | error failure => rfl
      | ok result =>
        obtain ⟨e, rest', hrest'⟩ := result
        have hsuffix : rest' <:+ ts.drop (pos + 1) := by
          rw [hbehind]
          exact Yields.suffix_of_readChain ⟨hrest', hread⟩
        simp only [outcomeOf, id_eq, getElem?_of_drop (drop_of_suffix hsuffix)]
        cases rest' with
        | nil => rfl
        | cons next behind =>
          cases next with
          | rightParen =>
            have hlast : ts.length - (Token.rightParen :: behind).length + 1 =
                ts.length - behind.length := by
              rw [List.length_cons] at hrest' ⊢
              omega
            rw [List.head?_cons, if_pos rfl, hlast]
            rfl
          | _ => rfl
    | rightParen | comma | not | and | or =>
      simp only [readPrimary, outcomeOf, hstop]
      rfl
termination_by bound

end

/-! ### The token before -/

/-- No operand can begin with these tokens: there is none, or a parenthesis closes. -/
def LacksOperand (us : List Token) : Prop :=
  us.head? = none ∨ us.head? = some .rightParen

/-- Of the token before, reading uses nothing but its name, and this only to say that an operand is
missing right behind it. -/
structure NamesPrevious {us : List Token} (read : Option Token → Reading us) : Prop where
  missing : LacksOperand us → ∀ previous, read previous = .error ⟨.missingOperand previous, us⟩
  same : ¬ LacksOperand us → ∀ previous previous', read previous = read previous'

/-- A name or a group begins with a token of its own. -/
lemma namesPrevious_readPrimary (us : List Token) : NamesPrevious (readPrimary · us) where
  missing hlacks previous := by
    rcases us with _ | ⟨t, us⟩
    · rw [readPrimary]
    · have ht : t = .rightParen := by simpa [LacksOperand] using hlacks
      rw [ht, readPrimary]
  same hlacks previous previous' := by
    rcases us with _ | ⟨t, us⟩
    · exact absurd (.inl rfl) hlacks
    · cases t with
      | rightParen => exact absurd (.inr rfl) hlacks
      | _ => simp only [readPrimary]

/-- A negation hands on its own sign. -/
lemma namesPrevious_readNegation (us : List Token) : NamesPrevious (readNegation · us) := by
  by_cases hhead : us.head? = some .not
  · obtain ⟨rest, rfl⟩ := List.head?_eq_some_iff.1 hhead
    refine ⟨fun hlacks => ?_, fun _ previous previous' => by rw [readNegation, readNegation]⟩
    rcases hlacks with hlacks | hlacks <;> cases hlacks
  · simp only [readNegation_of_ne hhead]
    exact namesPrevious_readPrimary us

/-- A phrase hands the token before on to its first operand. -/
lemma NamesPrevious.readChain {level : Level} {us : List Token}
    (h : NamesPrevious (readOperand level · us)) : NamesPrevious (readChain level · us) where
  missing hlacks previous := by rw [Expr.readChain, h.missing hlacks previous]
  same hlacks previous previous' := by
    rw [Expr.readChain, Expr.readChain, h.same hlacks previous previous']

/-- Phrases of all levels begin with a term. -/
lemma namesPrevious_readChain (level : Level) (us : List Token) :
    NamesPrevious (readChain level · us) := by
  have hconjunction : NamesPrevious (readChain .conjunction · us) := by
    apply NamesPrevious.readChain
    simp only [readOperand_conjunction]
    exact namesPrevious_readNegation us
  have hdisjunction : NamesPrevious (readChain .disjunction · us) := by
    apply NamesPrevious.readChain
    simp only [readOperand_disjunction]
    exact hconjunction
  cases level with
  | conjunction => exact hconjunction
  | disjunction => exact hdisjunction
  | list =>
    apply NamesPrevious.readChain
    simp only [readOperand_list]
    exact hdisjunction

/-! ### Where reading fails -/

/-- What is left where the stages cannot go on is the end of the tokens. -/
lemma Stage.suffix_of_failure? {stage : Stage} {us : List Token} {failure : Failure}
    (h : stage.failure? us = some failure) : failure.rest <:+ us := by
  induction us generalizing stage with
  | nil =>
    rw [Stage.failure?] at h
    split at h
    · cases h
    · cases h
      exact List.suffix_rfl
  | cons t us ih =>
    cases hnext : stage.next? t with
    | none =>
      rw [failure?_cons_of_eq_none hnext] at h
      cases h
      exact List.suffix_rfl
    | some stage' =>
      rw [failure?_cons_of_eq_some hnext] at h
      exact (ih h).trans (List.suffix_cons t us)

/-- Where reading a name or a group fails, the end of the tokens is left. -/
lemma suffix_of_readPrimary_eq_error {previous : Option Token} {us : List Token}
    {failure : Failure} (h : readPrimary previous us = .error failure) : failure.rest <:+ us := by
  by_cases hhead : us.head? = some .not
  · obtain ⟨rest, rfl⟩ := List.head?_eq_some_iff.1 hhead
    simp only [readPrimary] at h
    cases h
    exact List.suffix_rfl
  · rw [← readNegation_of_ne hhead] at h
    exact Stage.suffix_of_failure? (failure?_of_readNegation h 0)

/-! ### Procedures -/

/-- The procedures that read phrases. -/
inductive Procedure where
  /-- Reads a list, a disjunction or a conjunction. -/
  | chain (level : Level)
  /-- Reads a term with its negations. -/
  | negation
  /-- Reads a name or a group. -/
  | primary
deriving DecidableEq, Repr

namespace Procedure

/-- Carries out a procedure in place, from a position on, with calls nested up to a bound. -/
def readAt (source : String) (ts : List Token) : Procedure → (bound pos : Nat) → Option Outcome
  | chain level => chainAt source ts level
  | negation => negationAt source ts
  | primary => primaryAt source ts

/-- From a position on a procedure comes to an end with an outcome, as soon as calls may be nested
eight deep for each token that is left and for the end. -/
def EndsWith (procedure : Procedure) (source : String) (ts : List Token) (pos : Nat)
    (outcome : Outcome) : Prop :=
  ∀ bound, 8 * (ts.length - pos) + 7 < bound → procedure.readAt source ts bound pos = some outcome

/-- Carries out a procedure on the tokens behind a given one. -/
def read (procedure : Procedure) (previous : Option Token) (us : List Token) : Reading us :=
  match procedure with
  | chain level => readChain level previous us
  | negation => readNegation previous us
  | primary => readPrimary previous us

/-- A procedure comes to an end in place, and as it does on what is left. -/
lemma endsWith_read (procedure : Procedure) (source : String) {ts : List Token} {pos : Nat}
    (hpos : pos ≤ ts.length) :
    procedure.EndsWith source ts pos
      (outcomeOf source ts id (procedure.read (previousAt ts pos) (ts.drop pos))) := by
  intro bound hbound
  cases procedure with
  | chain level =>
    have hrank := level.rank_le
    exact chainAt_eq source level hpos (by omega)
  | negation => exact negationAt_eq source hpos (by omega)
  | primary => exact primaryAt_eq source hpos (by omega)

lemma namesPrevious (procedure : Procedure) (us : List Token) :
    NamesPrevious (procedure.read · us) := by
  cases procedure with
  | chain level => exact namesPrevious_readChain level us
  | negation => exact namesPrevious_readNegation us
  | primary => exact namesPrevious_readPrimary us

lemma suffix_of_eq_error {procedure : Procedure} {previous : Option Token} {us : List Token}
    {failure : Failure} (h : procedure.read previous us = .error failure) :
    failure.rest <:+ us := by
  cases procedure with
  | chain level => exact Stage.suffix_of_failure? (failure?_of_readChain h 0)
  | negation => exact Stage.suffix_of_failure? (failure?_of_readNegation h 0)
  | primary => exact suffix_of_readPrimary_eq_error h

/-! ### Where procedures end -/

/-- Where a phrase is read a token is taken, and none behind the end. -/
lemma lt_of_outcomeOf_eq_ok {source : String} {reading : Reading (ts.drop pos)} {e : Expr}
    {stop : Nat} (h : outcomeOf source ts id reading = (.ok e, stop)) :
    pos < stop ∧ stop ≤ ts.length := by
  rcases reading with failure | ⟨e', rest, hrest⟩
  · cases h
  · cases h
    rw [List.length_drop] at hrest
    dsimp only
    omega

/-- Where reading fails the end of the text may be taken too. -/
lemma le_of_outcomeOf_eq_error {source : String} {reading : Reading (ts.drop pos)}
    {error : ParseError} {stop : Nat} (h : outcomeOf source ts id reading = (.error error, stop)) :
    stop ≤ ts.length + 1 := by
  rcases reading with failure | ⟨e', rest, hrest⟩
  · cases h
    have htaken : failure.fault.taken ≤ 1 := by cases failure.fault <;> simp [Fault.taken]
    omega
  · cases h

/-- Readings of the same tokens end equally far behind the positions where these begin, if they
leave the same end of them. -/
lemma add_eq_add_of_drop_eq {us : List Token} {pos' : Nat} (hpos : pos ≤ ts.length)
    (hpos' : pos' ≤ us.length) (hdrop : us.drop pos' = ts.drop pos) {left : Nat}
    (hleft : left ≤ (ts.drop pos).length) (taken : Nat) :
    us.length - left + taken + pos = ts.length - left + taken + pos' := by
  have hlength := congrArg List.length hdrop
  rw [List.length_drop] at hlength hleft
  rw [List.length_drop] at hlength
  omega

/-- **Reading in place.**  From every position on each procedure comes to an end, with the outcome
of the same procedure on the tokens that are left.  If it reads a phrase it has taken at least one
token and none behind the end of the text, and if it fails it has taken at most one behind the end.
Where the same tokens are left of another text, it takes as many of them and has the same result;
only an operand that is missing right at the beginning is said to be missing behind the token
before, whatever that is. -/
theorem exists_endsWith (procedure : Procedure) (source : String) {ts : List Token} {pos : Nat}
    (hpos : pos ≤ ts.length) :
    ∃ result stop, procedure.EndsWith source ts pos (result, stop) ∧
      (result, stop) =
        outcomeOf source ts id (procedure.read (previousAt ts pos) (ts.drop pos)) ∧
      (∀ e, result = .ok e → pos < stop ∧ stop ≤ ts.length) ∧
      (∀ error, result = .error error → stop ≤ ts.length + 1) ∧
      ∀ (us : List Token) (pos' : Nat), pos' ≤ us.length → us.drop pos' = ts.drop pos →
        ∃ result' stop', procedure.EndsWith source us pos' (result', stop') ∧
          stop' + pos = stop + pos' ∧
          (result' = result ∨ LacksOperand (ts.drop pos) ∧ stop = pos + 1 ∧
            result = .error ⟨.missingOperand (previousAt ts pos), source⟩ ∧
            result' = .error ⟨.missingOperand (previousAt us pos'), source⟩) := by
  refine ⟨_, _, procedure.endsWith_read source hpos, rfl, ?_, ?_, ?_⟩
  · intro e he
    exact lt_of_outcomeOf_eq_ok (Prod.ext he rfl)
  · intro error herror
    exact le_of_outcomeOf_eq_error (Prod.ext herror rfl)
  · intro us pos' hpos' hdrop
    refine ⟨_, _, procedure.endsWith_read source hpos', ?_⟩
    rw [hdrop]
    obtain ⟨hmissing, hsame⟩ := procedure.namesPrevious (ts.drop pos)
    by_cases hlacks : LacksOperand (ts.drop pos)
    · have hleft := add_eq_add_of_drop_eq hpos hpos' hdrop (Nat.le_refl _) 1
      have hstop : ts.length - (ts.drop pos).length + 1 = pos + 1 := by
        rw [List.length_drop]
        omega
      rw [hmissing hlacks, hmissing hlacks]
      exact ⟨hleft, .inr ⟨hlacks, hstop, rfl, rfl⟩⟩
    · rw [hsame hlacks (previousAt us pos') (previousAt ts pos)]
      cases hread : procedure.read (previousAt ts pos) (ts.drop pos) with
      | error failure =>
        have hleft := add_eq_add_of_drop_eq hpos hpos' hdrop (suffix_of_eq_error hread).length_le
          failure.fault.taken
        exact ⟨hleft, .inl rfl⟩
      | ok result =>
        obtain ⟨e, rest, hrest⟩ := result
        have hleft := add_eq_add_of_drop_eq hpos hpos' hdrop (Nat.le_of_lt hrest) 0
        exact ⟨hleft, .inl rfl⟩

/-- The same phrase behind a conjunction and inside a parenthesis that does not close. -/
theorem exists_endsWith_not_b :
    let source := "a and ! b"
    let ts : List Token := [.word "a", .and, .not, .word "b"]
    let us : List Token := [.leftParen, .not, .word "b"]
    2 ≤ ts.length ∧ 1 ≤ us.length ∧ us.drop 1 = ts.drop 2 ∧
      (chain .list).EndsWith source ts 2 (.ok (.not (.name "b")), 4) ∧
      (chain .list).EndsWith source us 1 (.ok (.not (.name "b")), 3) := by
  intro source ts us
  have hpos : 2 ≤ ts.length := by decide
  have hpos' : 1 ≤ us.length := by decide
  have hdrop : us.drop 1 = ts.drop 2 := rfl
  obtain ⟨result, stop, hends, houtcome, -, -, hsame⟩ :=
    exists_endsWith (chain .list) source hpos
  obtain ⟨result', stop', hends', hstop, hresult⟩ := hsame us 1 hpos' hdrop
  have hbegins : ¬ LacksOperand (ts.drop 2) := by simp [ts, LacksOperand]
  have hvalue : (result, stop) = (.ok (.not (.name "b")), 4) :=
    houtcome.trans (by decide +kernel)
  obtain ⟨rfl, rfl⟩ := Prod.mk.inj hvalue
  obtain rfl := hresult.resolve_right fun h => hbegins h.1
  obtain rfl : stop' = 3 := by omega
  exact ⟨hpos, hpos', hdrop, hends, hends'⟩

end Procedure

end Expr

end ChangelogParameters
