import ChangelogParameters.Decimal.Binary64

/-!
# Values

The payload of a parameter: null, a truth value, a number, a text, an array or an object.  The
members of an object stand in ascending order of their keys, and of several members with one
key the last counts.
-/

namespace ChangelogParameters

/-- A number is either an integer or a binary floating point number; `1` and `1.0` differ. -/
inductive Number where
  | integer (n : Int)
  | real (x : Binary64)
deriving DecidableEq, Repr, Inhabited

/-- The payload of a parameter. -/
inductive Value where
  | null
  | bool (b : Bool)
  | number (n : Number)
  | string (s : String)
  | array (items : List Value)
  | object (members : List (String × Value))
deriving Inhabited

namespace Value

/-! ### Equality -/

mutual

/-- Whether two values are the same. -/
def same : Value → Value → Bool
  | null, null => true
  | bool a, bool b => a == b
  | number a, number b => a == b
  | string a, string b => a == b
  | array as, array bs => sameItems as bs
  | object as, object bs => sameMembers as bs
  | _, _ => false

/-- Whether two arrays have the same items. -/
def sameItems : List Value → List Value → Bool
  | [], [] => true
  | a :: as, b :: bs => same a b && sameItems as bs
  | _, _ => false

/-- Whether two objects have the same members. -/
def sameMembers : List (String × Value) → List (String × Value) → Bool
  | [], [] => true
  | (k, a) :: as, (l, b) :: bs => k == l && same a b && sameMembers as bs
  | _, _ => false

end

mutual

theorem same_iff : ∀ a b : Value, same a b = true ↔ a = b
  | null, b => by cases b <;> simp [same]
  | bool _, b => by cases b <;> simp [same]
  | number _, b => by cases b <;> simp [same]
  | string _, b => by cases b <;> simp [same]
  | array as, b => by cases b <;> simp [same, sameItems_iff as]
  | object as, b => by cases b <;> simp [same, sameMembers_iff as]

theorem sameItems_iff : ∀ as bs : List Value, sameItems as bs = true ↔ as = bs
  | [], bs => by cases bs <;> simp [sameItems]
  | a :: as, bs => by cases bs <;> simp [sameItems, same_iff a, sameItems_iff as]

theorem sameMembers_iff :
    ∀ as bs : List (String × Value), sameMembers as bs = true ↔ as = bs
  | [], bs => by cases bs <;> simp [sameMembers]
  | (_, a) :: as, bs => by
    cases bs <;> simp [sameMembers, same_iff a, sameMembers_iff as, Prod.ext_iff]

end

instance : DecidableEq Value := fun a b => decidable_of_iff (same a b = true) (same_iff a b)

/-! ### Members -/

/-- The members with one more, in its place; it replaces a member of the same key. -/
def insertMember (key : String) (value : Value) :
    List (String × Value) → List (String × Value)
  | [] => [(key, value)]
  | (k, v) :: rest =>
    if key < k then (key, value) :: (k, v) :: rest
    else if key = k then (key, value) :: rest
    else (k, v) :: insertMember key value rest

/-- The object with the given members, of which later ones replace earlier ones. -/
def ofMembers (members : List (String × Value)) : Value :=
  .object (members.foldl (fun done (key, value) => insertMember key value done) [])

/-- The member of a key. -/
def lookup? (key : String) (members : List (String × Value)) : Option Value :=
  (members.find? fun (k, _) => k == key).map (·.2)

/-- The members without those of a key. -/
def without (key : String) (members : List (String × Value)) : List (String × Value) :=
  members.filter fun (k, _) => k != key

@[simp] theorem lookup?_nil (key : String) : lookup? key [] = none := rfl

theorem lookup?_cons (key k : String) (v : Value) (rest : List (String × Value)) :
    lookup? key ((k, v) :: rest) = if key = k then some v else lookup? key rest := by
  by_cases h : key = k
  · simp [lookup?, h]
  · simp [lookup?, h, Ne.symm h]

/-- Nothing is found under a key that was taken away, and all else as before. -/
theorem lookup?_without (asked key : String) (members : List (String × Value)) :
    lookup? asked (without key members) = if asked = key then none else lookup? asked members := by
  induction members with
  | nil => simp [without]
  | cons member rest ih =>
    obtain ⟨k, v⟩ := member
    by_cases hk : k = key
    · subst hk
      rw [show without k ((k, v) :: rest) = without k rest by simp [without], ih, lookup?_cons]
      split <;> rfl
    · rw [show without key ((k, v) :: rest) = (k, v) :: without key rest by simp [without, hk],
        lookup?_cons, lookup?_cons, ih]
      by_cases ha : asked = k
      · subst ha; simp [hk]
      · simp [ha]

/-- Whether the value is null. -/
def isNull : Value → Bool
  | null => true
  | _ => false

/-! ### Numbers -/

/-- The integers that are kept as integers: those that fit 64 bits, with or without a sign. -/
def fitsInteger (n : Int) : Bool :=
  -9223372036854775808 ≤ n && n < 18446744073709551616

/-- The value of an integer. -/
def ofInt (n : Int) : Value := .number (.integer n)

/-- The value of an optional text, null if there is none. -/
def ofOption (text : Option String) : Value :=
  (text.map string).getD null

end Value

end ChangelogParameters
