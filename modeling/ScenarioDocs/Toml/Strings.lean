import ScenarioDocs.Text.Hex
import ScenarioDocs.Toml.Basic

/-!
# TOML strings

Basic strings stand in double quotes and know escapes, literal ones stand in
single quotes and do not. Three quotes open the form that may span lines.
Every reader gives the text read and what follows the closing quotes.
-/

namespace ScenarioDocs.Toml

/-! ## Escapes -/

def readCodePoint (n : Nat) (s : Text) : Option (Char × Text) :=
  match Text.readHex n s with
  | none => none
  | some (v, rest) => if v.isValidChar then some (Char.ofNat v, rest) else none

def readEscape : Text → Option (Char × Text)
  | 'b' :: s => some ('\x08', s)
  | 't' :: s => some ('\t', s)
  | 'n' :: s => some ('\n', s)
  | 'f' :: s => some ('\x0c', s)
  | 'r' :: s => some ('\r', s)
  | '"' :: s => some ('"', s)
  | '\\' :: s => some ('\\', s)
  | 'u' :: s => readCodePoint 4 s
  | 'U' :: s => readCodePoint 8 s
  | _ => none

theorem length_readCodePoint {n : Nat} {s rest : Text} {c : Char}
    (h : readCodePoint n s = some (c, rest)) : rest.length ≤ s.length := by
  unfold readCodePoint at h
  split at h
  · cases h
  · rename_i hv
    split at h
    · cases h
      exact Text.length_readHex hv
    · cases h

theorem length_readEscape {s rest : Text} {c : Char} (h : readEscape s = some (c, rest)) :
    rest.length < s.length := by
  unfold readEscape at h
  split at h
  all_goals first
    | cases h; exact Nat.lt_succ_self _
    | exact Nat.lt_succ_of_le (length_readCodePoint h)
    | cases h

/-! ## Strings on one line -/

def readBasic (s : Text) : Option (Text × Text) :=
  match s with
  | [] => none
  | '"' :: rest => some ([], rest)
  | '\\' :: r =>
    match _h : readEscape r with
    | none => none
    | some (c, r') => (readBasic r').map fun (t, rest) => (c :: t, rest)
  | c :: r => if isPlain c then (readBasic r).map fun (t, rest) => (c :: t, rest) else none
termination_by s.length
decreasing_by
  · have := length_readEscape _h
    simp only [List.length_cons]
    omega
  · simp

def readLiteral : Text → Option (Text × Text)
  | [] => none
  | '\'' :: rest => some ([], rest)
  | c :: s => if isPlain c then (readLiteral s).map fun (t, rest) => (c :: t, rest) else none

/-! ## Strings over several lines -/

/-- At three or more quotes: the up to two that still belong to the text, and what follows the
closing three. -/
def closing? (quote : Char) (s : Text) : Option (Text × Text) :=
  let run := s.takeWhile (· = quote)
  if run.length < 3 then none
  else
    let inner := min (run.length - 3) 2
    some (run.take inner, s.drop (inner + 3))

def skipBlankLines : Text → Text
  | '\r' :: '\n' :: s => skipBlankLines s
  | c :: s => if isSpace c || c = '\n' then skipBlankLines s else c :: s
  | [] => []

theorem length_skipBlankLines_le (s : Text) : (skipBlankLines s).length ≤ s.length := by
  fun_induction skipBlankLines s with
  | case1 s ih => simp only [List.length_cons]; omega
  | case2 c s _ _ ih => exact Nat.le_succ_of_le ih
  | case3 => exact Nat.le_refl _
  | case4 => exact Nat.le_refl _

/-- After a backslash that ends its line: the text from the next visible character on. -/
def continued? (s : Text) : Option Text :=
  match skipSpaces s with
  | '\n' :: r => some (skipBlankLines r)
  | '\r' :: '\n' :: r => some (skipBlankLines r)
  | _ => none

theorem length_continued? {s r : Text} (h : continued? s = some r) : r.length ≤ s.length := by
  have hs : (skipSpaces s).length ≤ s.length := (List.dropWhile_sublist _).length_le
  unfold continued? at h
  split at h
  · rename_i r' hr
    cases h
    have := length_skipBlankLines_le r'
    rw [hr, List.length_cons] at hs
    omega
  · rename_i r' hr
    cases h
    have := length_skipBlankLines_le r'
    rw [hr, List.length_cons, List.length_cons] at hs
    omega
  · cases h

def readLongBasic (s : Text) : Option (Text × Text) :=
  match closing? '"' s with
  | some end_ => some end_
  | none =>
    match s with
    | [] => none
    | '\\' :: r =>
      match _hc : continued? r with
      | some r' => readLongBasic r'
      | none =>
        match _h : readEscape r with
        | none => none
        | some (c, r') => (readLongBasic r').map fun (t, rest) => (c :: t, rest)
    | '\r' :: '\n' :: r => (readLongBasic r).map fun (t, rest) => ('\n' :: t, rest)
    | c :: r =>
      if isPlain c || c = '\n' then (readLongBasic r).map fun (t, rest) => (c :: t, rest) else none
termination_by s.length
decreasing_by
  · have := length_continued? _hc
    simp only [List.length_cons]
    omega
  · have := length_readEscape _h
    simp only [List.length_cons]
    omega
  · simp only [List.length_cons]
    omega
  · simp

def readLongLiteral (s : Text) : Option (Text × Text) :=
  match closing? '\'' s with
  | some end_ => some end_
  | none =>
    match s with
    | [] => none
    | '\r' :: '\n' :: r => (readLongLiteral r).map fun (t, rest) => ('\n' :: t, rest)
    | c :: r =>
      if isPlain c || c = '\n' then (readLongLiteral r).map fun (t, rest) => (c :: t, rest)
      else none
termination_by s.length
decreasing_by
  · simp only [List.length_cons]
    omega
  · simp

/-- A line end right after the opening quotes is not part of the text. -/
def skipFirstLineEnd : Text → Text
  | '\n' :: s => s
  | '\r' :: '\n' :: s => s
  | s => s

def readString : Text → Option (Text × Text)
  | '"' :: '"' :: '"' :: s => readLongBasic (skipFirstLineEnd s)
  | '"' :: s => readBasic s
  | '\'' :: '\'' :: '\'' :: s => readLongLiteral (skipFirstLineEnd s)
  | '\'' :: s => readLiteral s
  | _ => none

end ScenarioDocs.Toml
