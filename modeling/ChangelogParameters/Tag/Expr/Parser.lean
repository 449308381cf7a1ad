import ChangelogParameters.Tag.Expr

/-!
# Reading tag expressions

The grammar has three levels at which operands are joined by a separator, each looser than the
next: lists (by commas), disjunctions (by `or`) and conjunctions (by `and`).  An operand of a
conjunction is a tag name, a parenthesised list, or the negation of such an operand.

Reading proceeds from left to right over the tokens, one function per kind of phrase.  Each
returns the expression it has read with the tokens that are left, which are fewer than it was
given; or the fault it has met, with the tokens from the offending one on.
-/

namespace ChangelogParameters

namespace Expr

/-! ### Faults -/

/-- Why a text is not a tag expression. -/
inductive Fault where
  /-- The parentheses do not pair up. -/
  | unbalancedParentheses
  /-- An operand is due, but a parenthesis closes or the text ends; the token before is named,
  if there is one. -/
  | missingOperand (after : Option Token)
  /-- A token stands where none of its kind can. -/
  | unexpectedToken (token : Token)
deriving DecidableEq, Repr

/-- A fault together with the text in which it was found. -/
structure ParseError where
  /-- What is wrong. -/
  fault : Fault
  /-- The text, as given. -/
  source : String
deriving DecidableEq, Repr

/-- The message for the user. -/
def ParseError.message (e : ParseError) : String :=
  match e.fault with
  | .unbalancedParentheses => "unbalanced parentheses in expression: '" ++ e.source ++ "'"
  | .missingOperand after =>
    "missing operand after '" ++ (after.map Token.text).getD "start" ++ "' in expression: '" ++
      e.source ++ "'"
  | .unexpectedToken token =>
    "unexpected '" ++ token.text ++ "' in expression: '" ++ e.source ++ "'"

/-- A fault met while reading tokens, and the tokens from the offending one on. -/
structure Failure where
  /-- What is wrong. -/
  fault : Fault
  /-- The tokens from the offending one on; none if the end of the text is what offends. -/
  rest : List Token
deriving DecidableEq, Repr

/-! ### Levels -/

/-- The levels of the grammar at which operands are joined by a separator. -/
inductive Level where
  | list
  | disjunction
  | conjunction
deriving DecidableEq, Repr

namespace Level

/-- The token between two operands. -/
def separator : Level → Token
  | list => .comma
  | disjunction => .or
  | conjunction => .and

/-- How loosely the operands are joined. -/
def rank : Level → Nat
  | list => 3
  | disjunction => 2
  | conjunction => 1

/-- The expression for several operands joined by the separator; a single operand stands for
itself. -/
def join : Level → List Expr → Expr
  | _, [e] => e
  | conjunction, es => .and es
  | _, es => .or es

theorem rank_le (level : Level) : level.rank ≤ 3 := by
  cases level <;> decide

end Level

/-! ### Phrases -/

/-- The outcome of reading a phrase at the front of `ts`: its expression and fewer tokens than
before, or a failure. -/
abbrev Reading (ts : List Token) :=
  Except Failure (Expr × { rest : List Token // rest.length < ts.length })

/-- The outcome of reading any number of further operands, possibly none. -/
abbrev Continuation (ts : List Token) :=
  Except Failure (List Expr × { rest : List Token // rest.length ≤ ts.length })

mutual

/-- Reads operands of a level with its separator between them. -/
def readChain (level : Level) (previous : Option Token) (ts : List Token) : Reading ts :=
  match readOperand level previous ts with
  | .error failure => .error failure
  | .ok (e, ⟨rest, h⟩) =>
    match readMore level rest with
    | .error failure => .error failure
    | .ok (es, ⟨rest', h'⟩) => .ok (level.join (e :: es), ⟨rest', Nat.lt_of_le_of_lt h' h⟩)
termination_by 8 * ts.length + 2 * level.rank + 1
decreasing_by all_goals omega

/-- Reads further operands of a level, as long as its separator comes next. -/
def readMore (level : Level) (ts : List Token) : Continuation ts :=
  match ts with
  | [] => .ok ([], ⟨[], Nat.le_refl _⟩)
  | t :: rest =>
    if t = level.separator then
      match readOperand level (some t) rest with
      | .error failure => .error failure
      | .ok (e, ⟨rest', h⟩) =>
        match readMore level rest' with
        | .error failure => .error failure
        | .ok (es, ⟨rest'', h'⟩) =>
          .ok (e :: es, ⟨rest'', by simp only [List.length_cons]; omega⟩)
    else .ok ([], ⟨t :: rest, Nat.le_refl _⟩)
termination_by 8 * ts.length
decreasing_by
  all_goals
    have := level.rank_le
    simp only [List.length_cons]
    omega

/-- Reads one operand of a level: a chain of the next level, or a negation. -/
def readOperand (level : Level) (previous : Option Token) (ts : List Token) : Reading ts :=
  match level with
  | .list => readChain .disjunction previous ts
  | .disjunction => readChain .conjunction previous ts
  | .conjunction => readNegation previous ts
termination_by 8 * ts.length + 2 * level.rank
decreasing_by all_goals simp only [Level.rank]; omega

/-- Reads any number of negations and what they apply to. -/
def readNegation (previous : Option Token) (ts : List Token) : Reading ts :=
  match ts with
  | .not :: rest =>
    match readNegation (some .not) rest with
    | .error failure => .error failure
    | .ok (e, ⟨rest', h⟩) => .ok (.not e, ⟨rest', by simp only [List.length_cons]; omega⟩)
  | ts => readPrimary previous ts
termination_by 8 * ts.length + 1
decreasing_by all_goals (try simp only [List.length_cons]); omega

/-- Reads a tag name or a list in parentheses. -/
def readPrimary (previous : Option Token) (ts : List Token) : Reading ts :=
  match ts with
  | .word n :: rest => .ok (.name n, ⟨rest, Nat.lt_succ_self _⟩)
  | .leftParen :: rest =>
    match readChain .list (some .leftParen) rest with
    | .error failure => .error failure
    | .ok (e, ⟨rest', h⟩) =>
      match rest', h with
      | .rightParen :: rest'', h =>
        .ok (e, ⟨rest'', by simp only [List.length_cons] at h ⊢; omega⟩)
      | rest', _ => .error ⟨.unbalancedParentheses, rest'⟩
  | [] => .error ⟨.missingOperand previous, []⟩
  | .rightParen :: rest => .error ⟨.missingOperand previous, .rightParen :: rest⟩
  | t :: rest => .error ⟨.unexpectedToken t, t :: rest⟩
termination_by 8 * ts.length
decreasing_by simp only [List.length_cons, Level.rank]; omega

end

/-! ### Whole texts -/

/-- The expression that a sequence of tokens stands for; none if there are no tokens. -/
def ofTokens (ts : List Token) : Except Failure (Option Expr) :=
  if ts = [] then .ok none
  else match readChain .list none ts with
    | .error failure => .error failure
    | .ok (e, ⟨rest, _⟩) =>
      match rest with
      | [] => .ok (some e)
      | .rightParen :: rest => .error ⟨.unbalancedParentheses, .rightParen :: rest⟩
      | t :: rest => .error ⟨.unexpectedToken t, t :: rest⟩

/-- The expression written in a text; none if the text has no tokens. -/
def parse (s : String) : Except ParseError (Option Expr) :=
  match ofTokens (Token.scan s) with
  | .error failure => .error ⟨failure.fault, s⟩
  | .ok e => .ok e

end Expr

end ChangelogParameters
