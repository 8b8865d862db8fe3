import ScenarioDocs.Marker.Argument

/-!
# Reading marker arguments

Values are quoted strings, bare words, `{a,b}` lists or `a;b` lists. Blanks
around keys and values do not count. Each reader takes the text still to be
read and gives back what is left; `size` is the length of the whole argument
text, so the offset of a rest `s` is `size - s.length`.
-/

namespace ScenarioDocs.Marker

open Text

/-- Cuts at the first `=`, provided no comma stands before it. -/
def cutKey : Text → Option (Text × Text)
  | [] => none
  | c :: s =>
    if c = '=' then some ([], s)
    else if c = ',' then none
    else (cutKey s).map fun (key, rest) => (c :: key, rest)

def readKey (size : Nat) (s : Text) : Except Fault (Text × Text) :=
  match cutKey s with
  | none => .error (.missingEquals (size - s.length))
  | some (raw, rest) =>
    if trim raw = [] then .error (.emptyKey (size - s.length)) else .ok (trim raw, rest)

def readQuoted : Text → Option (Text × Text)
  | [] => none
  | '"' :: s => some ([], s)
  | '\\' :: c :: s => (readQuoted s).map fun (t, rest) => (c :: t, rest)
  | c :: s => (readQuoted s).map fun (t, rest) => (c :: t, rest)

/-- Reads one quoted item, or a bare one up to the first character in `stop`. -/
def readItem (size : Nat) (stop : Char → Bool) (s : Text) : Except Fault (Text × Text) :=
  match trimStart s with
  | '"' :: r =>
    match readQuoted r with
    | some (t, rest) => .ok (t, trimStart rest)
    | none => .error (.openString (size - (r.length + 1)))
  | r => .ok (trimEnd (r.takeWhile fun c => !stop c), r.dropWhile fun c => !stop c)

/-! ## What is left is no longer than what was read -/

theorem length_cutKey : ∀ {s key rest : Text}, cutKey s = some (key, rest) → rest.length < s.length
  | [], _, _, h => by simp [cutKey] at h
  | c :: s, key, rest, h => by
    unfold cutKey at h
    split at h
    · simp only [Option.some.injEq, Prod.mk.injEq] at h
      simp [h.2]
    · split at h
      · cases h
      · obtain ⟨⟨k, r⟩, hk, he⟩ := Option.map_eq_some_iff.1 h
        simp only [Prod.mk.injEq] at he
        rw [← he.2]
        exact Nat.lt_succ_of_lt (length_cutKey hk)

theorem length_readKey {size : Nat} {s key rest : Text} (h : readKey size s = .ok (key, rest)) :
    rest.length < s.length := by
  unfold readKey at h
  split at h
  · cases h
  · rename_i hc
    split at h
    · cases h
    · simp only [Except.ok.injEq, Prod.mk.injEq] at h
      rw [← h.2]
      exact length_cutKey hc

theorem length_readQuoted {s t rest : Text} (h : readQuoted s = some (t, rest)) :
    rest.length < s.length := by
  fun_induction readQuoted s generalizing t rest with
  | case1 => cases h
  | case2 => simp_all
  | case3 c s ih =>
    obtain ⟨⟨u, r⟩, hu, he⟩ := Option.map_eq_some_iff.1 h
    simp only [Prod.mk.injEq] at he
    have := ih (he.2 ▸ hu)
    simp only [List.length_cons]
    omega
  | case4 c s _ _ ih =>
    obtain ⟨⟨u, r⟩, hu, he⟩ := Option.map_eq_some_iff.1 h
    simp only [Prod.mk.injEq] at he
    exact Nat.lt_succ_of_lt (ih (he.2 ▸ hu))

theorem length_readItem {size : Nat} {stop : Char → Bool} {s t rest : Text}
    (h : readItem size stop s = .ok (t, rest)) : rest.length ≤ s.length := by
  have hs := length_trimStart_le s
  unfold readItem at h
  split at h
  · rename_i r hr
    split at h
    · rename_i u r' hq
      simp only [Except.ok.injEq, Prod.mk.injEq] at h
      have := length_readQuoted hq
      have := length_trimStart_le r'
      rw [← h.2]
      rw [hr, List.length_cons] at hs
      omega
    · cases h
  · simp only [Except.ok.injEq, Prod.mk.injEq] at h
    rw [← h.2]
    exact Nat.le_trans (List.dropWhile_sublist _).length_le hs

/-! ## Values and arguments -/

def plainStop (c : Char) : Bool := c == ',' || c == ';'

def bracedStop (c : Char) : Bool := c == ',' || c == '}'

def readItems (size : Nat) (s : Text) : Except Fault (List Text × Text) :=
  match _h : readItem size plainStop s with
  | .error e => .error e
  | .ok (item, ';' :: r) => (readItems size r).map fun (items, rest) => (item :: items, rest)
  | .ok (item, rest) => .ok ([item], rest)
termination_by s.length
decreasing_by exact length_readItem (by assumption)

def readBraced (size : Nat) (s : Text) : Except Fault (List Text × Text) :=
  match _h : readItem size bracedStop s with
  | .error e => .error e
  | .ok (item, ',' :: r) => (readBraced size r).map fun (items, rest) => (item :: items, rest)
  | .ok (item, '}' :: rest) => .ok ([item], rest)
  | .ok _ => .error .openList
termination_by s.length
decreasing_by exact length_readItem (by assumption)

/-- One item without braces is a text, more are a list. -/
def Value.ofItems : List Text → Value
  | [t] => .text t
  | items => .list items

def readValue (size : Nat) (s : Text) : Except Fault (Value × Text) :=
  match trimStart s with
  | '{' :: r =>
    match trimStart r with
    | '}' :: rest => .ok (.list [], rest)
    | r => (readBraced size r).map fun (items, rest) => (.list items, rest)
  | r => (readItems size r).map fun (items, rest) => (Value.ofItems items, rest)

theorem length_readItems {size : Nat} {s : Text} {items : List Text} {rest : Text}
    (h : readItems size s = .ok (items, rest)) : rest.length ≤ s.length := by
  fun_induction readItems size s generalizing items rest with
  | case1 => cases h
  | case2 s item r hr ih =>
    cases hq : readItems size r with
    | error e => rw [hq] at h; cases h
    | ok p =>
      rw [hq] at h
      cases h
      have := ih hq
      have := length_readItem hr
      simp only [List.length_cons] at this
      omega
  | case3 s item r _ hr =>
    cases h
    exact length_readItem hr

theorem length_readBraced {size : Nat} {s : Text} {items : List Text} {rest : Text}
    (h : readBraced size s = .ok (items, rest)) : rest.length < s.length := by
  fun_induction readBraced size s generalizing items rest with
  | case1 => cases h
  | case2 s item r hr ih =>
    cases hq : readBraced size r with
    | error e => rw [hq] at h; cases h
    | ok p =>
      rw [hq] at h
      cases h
      have := ih hq
      have := length_readItem hr
      simp only [List.length_cons] at this
      omega
  | case3 s item r hr =>
    cases h
    exact length_readItem hr
  | case4 => cases h

theorem length_readValue {size : Nat} {s : Text} {value : Value} {rest : Text}
    (h : readValue size s = .ok (value, rest)) : rest.length ≤ s.length := by
  have hs := length_trimStart_le s
  unfold readValue at h
  split at h
  · rename_i r hr
    rw [hr, List.length_cons] at hs
    have hr' := length_trimStart_le r
    split at h
    · rename_i r' he
      cases h
      rw [he, List.length_cons] at hr'
      omega
    · cases hq : readBraced size (trimStart r) with
      | error e => rw [hq] at h; cases h
      | ok p =>
        rw [hq] at h
        cases h
        have := length_readBraced hq
        omega
  · cases hq : readItems size (trimStart s) with
    | error e => rw [hq] at h; cases h
    | ok p =>
      rw [hq] at h
      cases h
      exact Nat.le_trans (length_readItems hq) hs

def readArguments (size : Nat) (s : Text) : Except Fault (List Argument) :=
  match _hk : readKey size s with
  | .error e => .error e
  | .ok (key, r) =>
    match _hv : readValue size r with
    | .error e => .error e
    | .ok (value, r') =>
      match hr : trimStart r' with
      | [] => .ok [⟨key, value⟩]
      | ',' :: rest => (readArguments size rest).map (⟨key, value⟩ :: ·)
      | c :: rest => .error (.unexpected c (size - (rest.length + 1)))
termination_by s.length
decreasing_by
  have := length_readKey _hk
  have := length_readValue _hv
  have := length_trimStart_le r'
  rw [hr, List.length_cons] at this
  omega

def parse (s : Text) : Except Fault (List Argument) :=
  match trimStart s with
  | [] => .ok []
  | r => readArguments s.length r

end ScenarioDocs.Marker
