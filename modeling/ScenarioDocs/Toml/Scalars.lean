import ScenarioDocs.Toml.Strings

/-!
# TOML numbers, points in time and truth values

Every reader takes the longest spelling it knows from the front of a text. An
underscore may stand between two digits.
-/

namespace ScenarioDocs.Toml

/-! ## Digits -/

def isHexDigit (c : Char) : Bool := (Text.hexDigit? c).isSome

def isOctalDigit (c : Char) : Bool := '0' ≤ c && c ≤ '7'

def isBinaryDigit (c : Char) : Bool := c = '0' || c = '1'

/-- The digits after a first one, underscores dropped. -/
def moreDigits (p : Char → Bool) : Text → Text × Text
  | '_' :: c :: s =>
    if p c then ((c :: (moreDigits p s).1), (moreDigits p s).2) else ([], '_' :: c :: s)
  | c :: s => if p c then ((c :: (moreDigits p s).1), (moreDigits p s).2) else ([], c :: s)
  | [] => ([], [])

def readDigits (p : Char → Bool) : Text → Option (Text × Text)
  | c :: s => if p c then some (c :: (moreDigits p s).1, (moreDigits p s).2) else none
  | [] => none

def digitsValue (base : Nat) (digits : Text) : Nat :=
  digits.foldl (fun n c => n * base + (Text.hexDigit? c).getD 0) 0

def readSign : Text → Bool × Text
  | '-' :: s => (true, s)
  | '+' :: s => (false, s)
  | s => (false, s)

def readWhole : Text → Option (Text × Text)
  | '0' :: s => some (['0'], s)
  | s => readDigits Char.isDigit s

/-! ## Integers -/

/-- The least magnitude that does not fit into 64 bits, without and with a minus sign. -/
def integerBound (negative : Bool) : Nat := if negative then 0x8000000000000001 else 0x8000000000000000

def signed (negative : Bool) (n : Nat) : Int := if negative then -(n : Int) else n

def readRadix (base : Nat) (p : Char → Bool) (s : Text) : Option (Toml × Text) := do
  let (digits, rest) ← readDigits p s
  let n := digitsValue base digits
  if n < integerBound false then return (.integer n, rest) else none

def readInteger : Text → Option (Toml × Text)
  | '0' :: 'x' :: s => readRadix 16 isHexDigit s
  | '0' :: 'o' :: s => readRadix 8 isOctalDigit s
  | '0' :: 'b' :: s => readRadix 2 isBinaryDigit s
  | s => do
    let (negative, s) := readSign s
    let (digits, rest) ← readWhole s
    let n := digitsValue 10 digits
    if n < integerBound negative then return (.integer (signed negative n), rest) else none

/-! ## Numbers with a fraction or an exponent -/

/-- The least value that rounds to infinity in 64 bits: half a step above the largest double. -/
def doubleBound : Nat := Nat.pow 2 1024 - Nat.pow 2 970

/-- Whether `n * 10 ^ e` rounds to infinity. Values whose number of digits decides are not
computed. -/
def roundsToInfinity (n : Nat) (e : Int) : Bool :=
  let size := (Nat.toDigits 10 n).length + e
  if n = 0 ∨ size < 309 then false
  else if 310 < size then true
  else doubleBound * Nat.pow 10 (-e).toNat ≤ n * Nat.pow 10 e.toNat

def readFraction : Text → Option (Text × Text)
  | '.' :: s => readDigits Char.isDigit s
  | _ => none

def readExponent : Text → Option (Int × Text)
  | c :: s =>
    if c = 'e' ∨ c = 'E' then
      let (negative, s) := readSign s
      (readDigits Char.isDigit s).map fun (digits, rest) =>
        (signed negative (digitsValue 10 digits), rest)
    else none
  | [] => none

/-- The part after the whole number: its fraction digits and exponent, one of them present. -/
def readTail (s : Text) : Option (Text × Int × Text) :=
  match readExponent s with
  | some (e, rest) => some ([], e, rest)
  | none =>
    match readFraction s with
    | none => none
    | some (fraction, r) =>
      match readExponent r with
      | some (e, rest) => some (fraction, e, rest)
      | none => some (fraction, 0, r)

def spelling (s rest : Text) : Text := s.take (s.length - rest.length)

def readDecimal (s : Text) : Option (Toml × Text) := do
  let (negative, r) := readSign s
  let (whole, r) ← readWhole r
  let (fraction, e, rest) ← readTail r
  let n := digitsValue 10 (whole ++ fraction)
  if ¬negative ∧ roundsToInfinity n (e - fraction.length) then none
  else return (.float (spelling s rest), rest)

def readSpecial (s : Text) : Option (Toml × Text) :=
  match (readSign s).2 with
  | 'i' :: 'n' :: 'f' :: rest => some (.float (spelling s rest), rest)
  | 'n' :: 'a' :: 'n' :: rest => some (.float (spelling s rest), rest)
  | _ => none

/-! ## Points in time -/

def readFixed (n : Nat) (s : Text) : Option (Nat × Text) :=
  if n ≤ s.length ∧ (s.take n).all Char.isDigit then some (digitsValue 10 (s.take n), s.drop n)
  else none

def readChar (c : Char) : Text → Option Text
  | d :: s => if c = d then some s else none
  | [] => none

def daysInMonth (year month : Nat) : Nat :=
  if month = 2 then
    if year % 4 = 0 ∧ (year % 100 ≠ 0 ∨ year % 400 = 0) then 29 else 28
  else if month = 4 ∨ month = 6 ∨ month = 9 ∨ month = 11 then 30
  else 31

def readDate (s : Text) : Option Text := do
  let (year, s) ← readFixed 4 s
  let (month, s) ← readFixed 2 (← readChar '-' s)
  let (day, s) ← readFixed 2 (← readChar '-' s)
  if 1 ≤ month ∧ month ≤ 12 ∧ 1 ≤ day ∧ day ≤ daysInMonth year month then return s else none

/-- A second may be the sixtieth. -/
def readTime (s : Text) : Option Text := do
  let (hour, s) ← readFixed 2 s
  let (minute, s) ← readFixed 2 (← readChar ':' s)
  let (second, s) ← readFixed 2 (← readChar ':' s)
  if 23 < hour ∨ 59 < minute ∨ 60 < second then none
  else match s with
    | '.' :: c :: s => if c.isDigit then return s.dropWhile Char.isDigit else none
    | '.' :: [] => none
    | s => return s

def readOffset : Text → Option Text
  | [] => none
  | c :: s =>
    if c = 'Z' ∨ c = 'z' then some s
    else if c = '+' ∨ c = '-' then do
      let (hour, s) ← readFixed 2 s
      let (minute, s) ← readFixed 2 (← readChar ':' s)
      if 23 < hour ∨ 59 < minute then none else return s
    else none

def readTimeOfDay : Text → Option Text
  | [] => none
  | c :: s =>
    if c = 'T' ∨ c = 't' ∨ c = ' ' then (readTime s).map fun rest => (readOffset rest).getD rest
    else none

def readMoment (s : Text) : Option (Toml × Text) :=
  match readDate s with
  | some r =>
    let rest := (readTimeOfDay r).getD r
    some (.moment (spelling s rest), rest)
  | none => (readTime s).map fun rest => (.moment (spelling s rest), rest)

/-! ## Scalars -/

def readBoolean : Text → Option (Toml × Text)
  | 't' :: 'r' :: 'u' :: 'e' :: s => some (.boolean true, s)
  | 'f' :: 'a' :: 'l' :: 's' :: 'e' :: s => some (.boolean false, s)
  | _ => none

def readScalar (s : Text) : Option (Toml × Text) :=
  ((readString s).map fun (t, rest) => (.string t, rest)) <|>
    readBoolean s <|> readMoment s <|> readDecimal s <|> readSpecial s <|> readInteger s

end ScenarioDocs.Toml
