import ChangelogParameters.Proofs.Template.Concatenation

/-!
# Searching bytes

The brace that closes a placeholder can be looked for byte by byte, with one byte of foresight.  The
search knows nothing of characters; what makes it right is that a byte below 128 is a character of
its own in UTF-8 (`le_of_mem_utf8EncodeChar`), so neither a dollar sign nor a brace can come from
inside another character.

`Closes.closingBrace_eq` says that the search finds the brace behind a balanced text, at the offset
that is the size of this text.
-/

namespace ChangelogParameters

namespace Template

/-! ### Bytes of characters -/

/-- The bytes of a text. -/
def bytesOf (text : String) : List UInt8 := text.toByteArray.data.toList

/-- The bytes of a text are those of its characters, one after the other. -/
lemma bytesOf_ofList (cs : List Char) :
    bytesOf (String.ofList cs) = cs.flatMap String.utf8EncodeChar := by
  rw [bytesOf, String.toByteArray_ofList, List.utf8Encode, List.data_toByteArray]

/-- A text has as many bytes as its size says. -/
lemma length_bytesOf (text : String) : (bytesOf text).length = text.utf8ByteSize := by
  rw [bytesOf, Array.length_toList, ByteArray.size_data, String.size_toByteArray]

/-- The characters below 128 are one byte, with the same number. -/
lemma utf8EncodeChar_of_lt {c : Char} (h : c.toNat < 128) :
    String.utf8EncodeChar c = [UInt8.ofNat c.toNat] := by
  have hle : c.val.toNat ≤ 127 := Nat.le_of_lt_succ h
  rw [String.utf8EncodeChar, if_pos hle]
  rfl

/-- All bytes of the other characters are 128 or more. -/
lemma le_of_mem_utf8EncodeChar {c : Char} (h : 128 ≤ c.toNat) :
    ∀ b ∈ String.utf8EncodeChar c, 128 ≤ b.toNat := by
  have hnot : ¬ c.val.toNat ≤ 127 := Nat.not_le.2 h
  rw [String.utf8EncodeChar, if_neg hnot]
  split
  · simp only [List.forall_mem_cons, UInt8.toNat_ofNat', List.not_mem_nil, false_imp_iff,
      implies_true, and_true]
    omega
  · split
    · simp only [List.forall_mem_cons, UInt8.toNat_ofNat', List.not_mem_nil, false_imp_iff,
        implies_true, and_true]
      omega
    · simp only [List.forall_mem_cons, UInt8.toNat_ofNat', List.not_mem_nil, false_imp_iff,
        implies_true, and_true]
      omega

/-- A byte below 128 comes from the one character that it is. -/
lemma eq_of_mem_utf8EncodeChar {c d : Char} (hd : d.toNat < 128)
    (hmem : UInt8.ofNat d.toNat ∈ String.utf8EncodeChar c) : c = d := by
  have hbyte : (UInt8.ofNat d.toNat).toNat = d.toNat := by
    rw [UInt8.toNat_ofNat']
    omega
  by_cases hc : c.toNat < 128
  · rw [utf8EncodeChar_of_lt hc, List.mem_singleton] at hmem
    have hnumber := congrArg UInt8.toNat hmem
    rw [hbyte, UInt8.toNat_ofNat', Nat.mod_eq_of_lt (by omega)] at hnumber
    exact Char.toNat_inj.1 hnumber.symm
  · have hle := le_of_mem_utf8EncodeChar (Nat.not_lt.1 hc) _ hmem
    omega

/-- If the bytes of a text begin with a byte below 128, the text begins with the character. -/
lemma head?_of_head?_flatMap {cs : List Char} {d : Char} (hd : d.toNat < 128)
    (h : (cs.flatMap String.utf8EncodeChar).head? = some (UInt8.ofNat d.toNat)) :
    cs.head? = some d := by
  cases cs with
  | nil => cases h
  | cons c cs =>
    rw [List.flatMap_cons, List.head?_append_of_ne_nil _ String.utf8EncodeChar_ne_nil] at h
    rw [List.head?_cons, eq_of_mem_utf8EncodeChar hd (List.mem_of_head? h)]

/-! ### The search -/

/-- What the search for a closing brace ends with. -/
inductive Search where
  /-- The brace is at an offset. -/
  | found (offset : Nat)
  /-- There is no such brace. -/
  | missing
  /-- More is closed than is open. -/
  | underflow
deriving DecidableEq, Repr

/-- Searches bytes from an offset on, where `depth` placeholders are open. -/
def closingFrom (bytes : List UInt8) (depth offset : Nat) : Search :=
  if _h : offset < bytes.length then
    if bytes[offset] = 0x24 ∧ bytes[offset + 1]? = some 0x7b then
      closingFrom bytes (depth + 1) (offset + 2)
    else if bytes[offset] = 0x7d then
      match depth with
      | 0 => .underflow
      | 1 => .found offset
      | depth + 2 => closingFrom bytes (depth + 1) (offset + 1)
    else closingFrom bytes depth (offset + 1)
  else .missing
termination_by bytes.length - offset

/-- Searches a text that stands behind an opening for the brace that closes it. -/
def closingBrace (text : String) : Search := closingFrom (bytesOf text) 1 0

/-- What is searched next, seen from the bytes before and those behind. -/
lemma closingFrom_append (front behind : List UInt8) (b : UInt8) (depth : Nat) :
    closingFrom (front ++ b :: behind) depth front.length =
      if b = 0x24 ∧ behind.head? = some 0x7b then
        closingFrom (front ++ b :: behind) (depth + 1) (front.length + 2)
      else if b = 0x7d then
        match depth with
        | 0 => .underflow
        | 1 => .found front.length
        | depth + 2 => closingFrom (front ++ b :: behind) (depth + 1) (front.length + 1)
      else closingFrom (front ++ b :: behind) depth (front.length + 1) := by
  have hlt : front.length < (front ++ b :: behind).length := by simp
  have hnext : (front ++ b :: behind)[front.length + 1]? = behind.head? := by
    simp [List.getElem?_append_right, List.head?_eq_getElem?]
  rw [closingFrom.eq_def, dif_pos hlt, hnext, List.getElem_append_right (Nat.le_refl _)]
  simp only [Nat.sub_self, List.getElem_cons_zero]

/-- At the end of the bytes nothing is found. -/
lemma closingFrom_length (bytes : List UInt8) (depth : Nat) :
    closingFrom bytes depth bytes.length = .missing := by
  rw [closingFrom.eq_def, dif_neg (Nat.lt_irrefl _)]

/-- The search passes over bytes of which none is a dollar sign or closes. -/
lemma closingFrom_skip (front skipped behind : List UInt8) (depth : Nat)
    (h : ∀ b ∈ skipped, b ≠ 0x24 ∧ b ≠ 0x7d) :
    closingFrom (front ++ skipped ++ behind) depth front.length =
      closingFrom (front ++ skipped ++ behind) depth (front ++ skipped).length := by
  induction skipped generalizing front with
  | nil => simp
  | cons b skipped ih =>
    obtain ⟨⟨hdollar, hclosing⟩, hskipped⟩ := List.forall_mem_cons.1 h
    have hrest := ih (front ++ [b]) hskipped
    rw [List.append_assoc front [b] skipped, List.singleton_append] at hrest
    rw [← hrest, List.append_assoc, List.cons_append, closingFrom_append,
      if_neg fun h => hdollar h.1, if_neg hclosing, List.length_append, List.length_singleton]

/-- The bytes of openings and closings. -/
lemma flatMap_opening (cs : List Char) :
    ('$' :: '\x7b' :: cs).flatMap String.utf8EncodeChar =
      0x24 :: 0x7b :: cs.flatMap String.utf8EncodeChar := rfl

lemma flatMap_closing (cs : List Char) :
    ('\x7d' :: cs).flatMap String.utf8EncodeChar = 0x7d :: cs.flatMap String.utf8EncodeChar := rfl

/-- The search passes over a character that neither opens nor closes. -/
lemma closingFrom_cons (front : List UInt8) (depth : Nat) {c : Char} {cs : List Char}
    (hopening : ¬ opening <+: c :: cs) (hclosing : c ≠ '\x7d') :
    closingFrom (front ++ (c :: cs).flatMap String.utf8EncodeChar) depth front.length =
      closingFrom (front ++ String.utf8EncodeChar c ++ cs.flatMap String.utf8EncodeChar) depth
        (front ++ String.utf8EncodeChar c).length := by
  rw [List.flatMap_cons, ← List.append_assoc]
  by_cases hdollar : c = '$'
  · subst hdollar
    have hnext : (cs.flatMap String.utf8EncodeChar).head? ≠ some 0x7b := by
      intro hhead
      obtain ⟨rest, rfl⟩ := List.head?_eq_some_iff.1
        (head?_of_head?_flatMap (d := '\x7b') (by decide) hhead)
      exact hopening ⟨rest, rfl⟩
    have hbyte : String.utf8EncodeChar '$' = [0x24] := rfl
    rw [hbyte, List.append_assoc, List.singleton_append, closingFrom_append,
      if_neg fun h => hnext h.2, if_neg (by decide), List.length_append, List.length_singleton]
  · refine closingFrom_skip front _ _ depth fun b hb => ⟨?_, ?_⟩
    · rintro rfl
      exact hdollar (eq_of_mem_utf8EncodeChar (d := '$') (by decide) hb)
    · rintro rfl
      exact hclosing (eq_of_mem_utf8EncodeChar (d := '\x7d') (by decide) hb)

/-- The search among bytes finds what the search among characters finds, and never closes more than
is open. -/
lemma closingFrom_eq_elim (front : List UInt8) (depth : Nat) (text : List Char) :
    closingFrom (front ++ text.flatMap String.utf8EncodeChar) (depth + 1) front.length =
      (splitAtClosing depth text).elim .missing fun (body, _) =>
        .found (front ++ body.flatMap String.utf8EncodeChar).length := by
  fun_induction splitAtClosing depth text generalizing front with
  | case1 depth => simpa using closingFrom_length front (depth + 1)
  | case2 depth cs ih =>
    have hlength : (front ++ [0x24, 0x7b]).length = front.length + 2 := List.length_append
    have hrest := ih (front ++ [0x24, 0x7b])
    rw [hlength] at hrest
    rw [flatMap_opening, closingFrom_append, if_pos ⟨rfl, rfl⟩, Option.elim_map]
    simpa only [Function.comp_def, opening, flatMap_opening, List.append_assoc, List.cons_append,
      List.nil_append] using hrest
  | case3 cs =>
    rw [flatMap_closing, closingFrom_append, if_neg (by simp), if_pos rfl]
    simp
  | case4 depth cs ih =>
    have hlength : (front ++ [0x7d]).length = front.length + 1 := List.length_append
    have hrest := ih (front ++ [0x7d])
    rw [hlength] at hrest
    rw [flatMap_closing, closingFrom_append, if_neg (by simp), if_pos rfl, Option.elim_map]
    simpa only [Function.comp_def, flatMap_closing, List.append_assoc, List.singleton_append]
      using hrest
  | case5 depth c cs hopen hzero hsucc ih =>
    have hopening : ¬ opening <+: c :: cs := not_opening_prefix hopen
    have hclosing : c ≠ '\x7d' := ne_closing hzero hsucc
    rw [closingFrom_cons front (depth + 1) hopening hclosing, ih, Option.elim_map]
    simp [Function.comp_def]

/-- What the search ends with for a text, told by the search among characters. -/
lemma closingBrace_eq_elim (text : String) :
    closingBrace text = (splitAtClosing 0 text.toList).elim .missing fun (body, _) =>
      .found (String.ofList body).utf8ByteSize := by
  have hbytes := closingFrom_eq_elim [] 0 text.toList
  rw [List.nil_append, ← bytesOf_ofList, String.ofList_toList] at hbytes
  simp only [closingBrace, ← length_bytesOf, bytesOf_ofList]
  exact hbytes

/-- A text begins with a balanced text and a brace, behind which a rest stands. -/
structure Closes (text body rest : String) : Prop where
  eq_append : text = body ++ "\x7d" ++ rest
  balanced : Balanced body.toList

/-- What a brace closes in a text can be found by a search among its characters. -/
lemma closes_iff {text body rest : String} :
    Closes text body rest ↔ splitAtClosing 0 text.toList = some (body.toList, rest.toList) := by
  have happend : text = body ++ "\x7d" ++ rest ↔
      text.toList = body.toList ++ '\x7d' :: rest.toList := by
    rw [← String.toList_inj]
    simp
  rw [splitAtClosing_eq_some_iff, ← happend]
  exact ⟨fun h => ⟨h.balanced, h.eq_append⟩, fun h => ⟨h.2, h.1⟩⟩

/-- The balanced text at the beginning of a text is the only one with a brace behind it. -/
lemma Closes.unique {text body rest body' rest' : String} (h : Closes text body rest)
    (h' : Closes text body' rest') : body = body' ∧ rest = rest' := by
  have heq := (closes_iff.1 h).symm.trans (closes_iff.1 h')
  simpa [String.toList_inj] using heq

/-- The search for a closing brace finds the one behind a balanced text. -/
lemma Closes.closingBrace_eq {text body rest : String} (h : Closes text body rest) :
    closingBrace text = .found body.utf8ByteSize := by
  rw [closingBrace_eq_elim, closes_iff.1 h]
  simp only [Option.elim_some, String.ofList_toList]

/-- The search ends without finding a brace exactly if there is none that closes something. -/
lemma closingBrace_eq_missing_iff {text : String} :
    closingBrace text = .missing ↔ ∀ body rest, ¬ Closes text body rest := by
  constructor
  · intro hmissing body rest hcloses
    rw [hcloses.closingBrace_eq] at hmissing
    cases hmissing
  · intro hnone
    rw [closingBrace_eq_elim]
    cases hsplit : splitAtClosing 0 text.toList with
    | none => rfl
    | some split =>
      refine absurd (closes_iff.2 ?_) (hnone (String.ofList split.1) (String.ofList split.2))
      simpa using hsplit

/-- The search finds the size of a balanced text or nothing, and never closes more than is open. -/
lemma closingBrace_cases (text : String) :
    closingBrace text = .missing ∨
      ∃ body rest, Closes text body rest ∧ closingBrace text = .found body.utf8ByteSize := by
  by_cases hnone : ∀ body rest, ¬ Closes text body rest
  · exact .inl (closingBrace_eq_missing_iff.2 hnone)
  · simp only [not_forall, not_not] at hnone
    obtain ⟨body, rest, hcloses⟩ := hnone
    exact .inr ⟨body, rest, hcloses, hcloses.closingBrace_eq⟩

end Template

end ChangelogParameters
