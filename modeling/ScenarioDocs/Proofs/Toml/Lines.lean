import ScenarioDocs.Proofs.Toml.Strings
import ScenarioDocs.Toml.Reader

/-!
# Reading printed TOML lines

What the reader makes of the values, the keys and the lines that the printer
writes, one line at a time.
-/

namespace ScenarioDocs.Toml

variable {c : Char} {key s t rest : Text} {ts : List Text} {v : Toml} {levels : Nat} {d : Draft}
  {item : Text → Option (Toml × Text)}

/-! ## Values -/

theorem printString_eq_cons (t : Text) : ∃ c s, printString t = c :: s ∧ (c = '"' ∨ c = '\'') := by
  unfold printString
  extract_lets control newLine backslash
  split_ifs
  · exact ⟨'"', _, rfl, .inl rfl⟩
  · exact ⟨'\'', _, rfl, .inr rfl⟩
  · exact ⟨'"', _, rfl, .inl rfl⟩
  · exact ⟨'\'', _, rfl, .inr rfl⟩
  · exact ⟨'"', _, rfl, .inl rfl⟩
  · exact ⟨'"', _, rfl, .inl rfl⟩

theorem readValue_printString (levels : Nat) (t : Text) (hrest : Unquoted rest) :
    readValue (levels + 1) (printString t ++ rest) = some (.string t, rest) := by
  have hread := readString_printString t hrest
  obtain ⟨c, s, hs, hc⟩ := printString_eq_cons t
  have hscalar : readValue (levels + 1) (printString t ++ rest) = readScalar (printString t ++ rest) := by
    rw [hs, List.cons_append, readValue]
    · obtain rfl | rfl := hc
      · simp
      · simp
    · obtain rfl | rfl := hc
      · simp
      · simp
  rw [hscalar, readScalar, hread]
  rfl

theorem skipTrivia_printString (t s : Text) : skipTrivia false (printString t ++ s) = printString t ++ s := by
  obtain ⟨c, r, hr, rfl | rfl⟩ := printString_eq_cons t
  · rw [hr]
    rfl
  · rw [hr]
    rfl

theorem head?_printString (t s : Text) : (printString t ++ s).head? ≠ some ']' := by
  obtain ⟨c, r, hr, rfl | rfl⟩ := printString_eq_cons t
  · simp [hr]
  · simp [hr]

theorem readItems_close (hs : skipTrivia false s = ']' :: rest) : readItems item s = some ([], rest) := by
  rw [readItems, hs]
  rfl

theorem readItems_last (hs : skipTrivia false s = t) (ht : t.head? ≠ some ']') (hitem : item t = some (v, r))
    (hr : skipTrivia false r = ']' :: rest) : readItems item s = some ([v], rest) := by
  rw [readItems, hs]
  split
  · simp at ht
  · rw [hitem]
    simp [hr]

theorem readItems_more (hs : skipTrivia false s = t) (ht : t.head? ≠ some ']') (hitem : item t = some (v, r))
    (hr : skipTrivia false r = ',' :: rest) (hlength : rest.length < s.length) :
    readItems item s = (readItems item rest).map fun (vs, r) => (v :: vs, r) := by
  rw [readItems, hs]
  split
  · simp at ht
  · rw [hitem]
    simp [hr, hlength]

/-- By induction on the texts; after each comma the reader is before the line end again. -/
theorem readItems_printItem (levels : Nat) (ts : List Text) (rest : Text) :
    readItems (readValue (levels + 1)) ('\n' :: (ts.flatMap printItem ++ ']' :: rest)) =
      some (ts.map .string, rest) := by
  induction ts with
  | nil => exact readItems_close rfl
  | cons t ts ih =>
    have hsplit : (t :: ts).flatMap printItem ++ ']' :: rest =
        "    " ++ (printString t ++ ',' :: '\n' :: (ts.flatMap printItem ++ ']' :: rest)) := by
      simp [printItem]
    have hs : skipTrivia false
        ('\n' :: ("    " ++ (printString t ++ ',' :: '\n' :: (ts.flatMap printItem ++ ']' :: rest)))) =
        printString t ++ ',' :: '\n' :: (ts.flatMap printItem ++ ']' :: rest) := skipTrivia_printString t _
    rw [hsplit, readItems_more hs (head?_printString t _)
      (readValue_printString levels t (unquoted_cons (by decide) (by decide))) rfl, ih]
    · rfl
    · simp only [List.length_cons, List.length_append]
      omega

theorem readValue_printTexts (levels : Nat) (ts : List Text) (rest : Text) :
    readValue (levels + 2) (printTexts ts ++ rest) = some (.array (ts.map .string), rest) := by
  have hitems {s : Text} {vs : List Toml} (h : readItems (readValue (levels + 1)) s = some (vs, rest)) :
      readValue (levels + 2) ('[' :: s) = some (.array vs, rest) := by
    rw [readValue, if_neg (Nat.succ_ne_zero levels), h]
    rfl
  match ts with
  | [] => exact hitems (readItems_close rfl)
  | [t] =>
    have hsplit : printTexts [t] ++ rest = '[' :: (printString t ++ ']' :: rest) := by simp [printTexts]
    rw [hsplit]
    exact hitems (readItems_last (skipTrivia_printString t _) (head?_printString t _)
      (readValue_printString levels t (unquoted_cons (by decide) (by decide))) rfl)
  | t :: u :: ts =>
    have hsplit : printTexts (t :: u :: ts) ++ rest =
        '[' :: '\n' :: ((t :: u :: ts).flatMap printItem ++ ']' :: rest) := by simp [printTexts]
    rw [hsplit]
    exact hitems (readItems_printItem levels _ rest)

/-! ## Keys -/

structure Bare (key : Text) : Prop where
  ne_nil : key ≠ []
  chars : ∀ c ∈ key, isBareKeyChar c = true

theorem Bare.exists_cons (h : Bare key) : ∃ c s, key = c :: s ∧ isBareKeyChar c = true := by
  obtain ⟨c, s, rfl⟩ := List.exists_cons_of_ne_nil h.ne_nil
  exact ⟨c, s, rfl, h.chars c (List.mem_cons_self ..)⟩

theorem ne_of_isBareKeyChar {x : Char} (hc : isBareKeyChar c = true) (hx : isBareKeyChar x = false) : c ≠ x := by
  intro h
  rw [h, hx] at hc
  cases hc

theorem takeWhile_key (h : ∀ c ∈ key, isBareKeyChar c = true) (hs : ∀ c ∈ s.head?, isBareKeyChar c = false) :
    (key ++ s).takeWhile isBareKeyChar = key ∧ (key ++ s).dropWhile isBareKeyChar = s := by
  rw [List.takeWhile_append_of_pos h, List.dropWhile_append_of_pos h]
  cases s with
  | nil => simp
  | cons c s =>
    have hc : isBareKeyChar c = false := hs c rfl
    simp [hc]

theorem Bare.readSimpleKey_append (h : Bare key) (hs : ∀ c ∈ s.head?, isBareKeyChar c = false) :
    readSimpleKey (key ++ s) = some (key, s) := by
  have hkey := takeWhile_key h.chars hs
  have hne := h.ne_nil
  obtain ⟨c, r, rfl, hc⟩ := h.exists_cons
  unfold readSimpleKey
  split
  · exact absurd (List.cons.inj ‹_›).1 (ne_of_isBareKeyChar hc rfl)
  · exact absurd (List.cons.inj ‹_›).1 (ne_of_isBareKeyChar hc rfl)
  · rw [hkey.1, hkey.2, if_neg hne]

theorem Bare.skipSpaces_append (h : Bare key) (s : Text) : skipSpaces (key ++ s) = key ++ s := by
  obtain ⟨c, r, rfl, hc⟩ := h.exists_cons
  have hspace : c ≠ ' ' := ne_of_isBareKeyChar hc rfl
  have htab : c ≠ '\t' := ne_of_isBareKeyChar hc rfl
  exact List.dropWhile_cons_of_neg (by simp [isSpace, hspace, htab])

theorem Bare.readKey_append (h : Bare key) (hs : ∀ c ∈ s.head?, isBareKeyChar c = false)
    (hdot : (skipSpaces s).head? ≠ some '.') : readKey (key ++ s) = some ([key], skipSpaces s) := by
  have hparts : readKeyParts (key ++ s) = some ([key], skipSpaces s) := by
    rw [readKeyParts, h.skipSpaces_append, h.readSimpleKey_append hs]
    dsimp only
    split
    · simp_all
    · rfl
  rw [readKey, hparts]
  rfl

/-! ## Lines -/

/-- The text is read as the value up to the end of its line. -/
def Spells (value : Text) (v : Toml) : Prop :=
  ∀ rest, skipSpaces (value ++ '\n' :: rest) = value ++ '\n' :: rest ∧
    readValue depthLimit (value ++ '\n' :: rest) = some (v, '\n' :: rest)

theorem spells_printString (t : Text) : Spells (printString t) (.string t) := by
  intro rest
  refine ⟨?_, readValue_printString 79 t (unquoted_cons (by decide) (by decide))⟩
  obtain ⟨c, r, hr, rfl | rfl⟩ := printString_eq_cons t
  · rw [hr]
    rfl
  · rw [hr]
    rfl

theorem spells_printTexts (ts : List Text) : Spells (printTexts ts) (.array (ts.map .string)) := by
  intro rest
  refine ⟨?_, readValue_printTexts 78 ts _⟩
  match ts with
  | [] => rfl
  | [_] => rfl
  | _ :: _ :: _ => rfl

theorem readLines_step {next : Option Draft} (hline : readLine d (skipSpaces s) = next.map (·, '\n' :: rest))
    (hlength : rest.length < s.length) : readLines d s = next.bind fun d => readLines d rest := by
  have hne : s ≠ [] := List.ne_nil_of_length_pos (by omega)
  have hend : readLineEnd ('\n' :: rest) = some rest := rfl
  rw [readLines, if_neg hne, hline]
  cases next with
  | none => rfl
  | some d' => simp [hend, hlength]

theorem readLines_blank (d : Draft) (rest : Text) : readLines d ('\n' :: rest) = readLines d rest := by
  have hline : readLine d (skipSpaces ('\n' :: rest)) = (some d).map (·, '\n' :: rest) := rfl
  exact readLines_step hline (Nat.lt_succ_self _)

theorem Bare.readLines_header (h : Bare key) (d : Draft) (rest : Text) :
    readLines d ('[' :: (key ++ ']' :: '\n' :: rest)) = (d.openTable [key]).bind fun d => readLines d rest := by
  have hkey : readKey (key ++ ']' :: '\n' :: rest) = some ([key], ']' :: '\n' :: rest) := by
    rw [h.readKey_append]
    · rfl
    · simp [isBareKeyChar]
    · simp [skipSpaces, isSpace]
  obtain ⟨c, r, hr, hc⟩ := h.exists_cons
  have hc : c ≠ '[' := ne_of_isBareKeyChar hc rfl
  have hline : readLine d ('[' :: (key ++ ']' :: '\n' :: rest)) = (d.openTable [key]).map (·, '\n' :: rest) := by
    rw [readLine, hkey]
    · cases hopen : d.openTable [key] <;> simp [readChar, hopen]
    · simp [hr, hc]
  apply readLines_step hline
  simp only [List.length_cons, List.length_append]
  omega

theorem Bare.readPair_printPair (h : Bare key) {value : Text} (hvalue : Spells value v) (rest : Text) :
    readPair (readValue depthLimit) (printPair key value ++ rest) = some ([key], v, '\n' :: rest) := by
  obtain ⟨hspaces, hread⟩ := hvalue rest
  have hkey : readKey (printPair key value ++ rest) = some ([key], '=' :: ' ' :: (value ++ '\n' :: rest)) := by
    have hsplit : printPair key value ++ rest = key ++ ' ' :: '=' :: ' ' :: (value ++ '\n' :: rest) := by
      simp [printPair]
    rw [hsplit, h.readKey_append]
    · rfl
    · simp [isBareKeyChar]
    · simp [skipSpaces, isSpace]
  have hblank : skipSpaces (' ' :: (value ++ '\n' :: rest)) = value ++ '\n' :: rest := hspaces
  simp [readPair, hkey, readChar, hblank, hread]

theorem Bare.readLines_pair (h : Bare key) {value : Text} (hvalue : Spells value v) (d : Draft) (rest : Text) :
    readLines d (printPair key value ++ rest) = (d.addPair [key] v).bind fun d => readLines d rest := by
  have hpair := h.readPair_printPair hvalue rest
  have hspaces : skipSpaces (printPair key value ++ rest) = printPair key value ++ rest := by
    rw [printPair, List.append_assoc, List.append_assoc, List.append_assoc]
    exact h.skipSpaces_append _
  have hline : readLine d (printPair key value ++ rest) = (d.addPair [key] v).map (·, '\n' :: rest) := by
    obtain ⟨c, r, rfl, hc⟩ := h.exists_cons
    have hbracket : c ≠ '[' := ne_of_isBareKeyChar hc rfl
    have hcomment : c ≠ '#' := ne_of_isBareKeyChar hc rfl
    have hn : c ≠ '\n' := ne_of_isBareKeyChar hc rfl
    have hr : c ≠ '\r' := ne_of_isBareKeyChar hc rfl
    have hcons : printPair (c :: r) value ++ rest = c :: (printPair r value ++ rest) := rfl
    rw [hcons] at hpair ⊢
    rw [readLine, hpair]
    · cases hadd : d.addPair [c :: r] v <;> simp [hadd]
    all_goals simp [hbracket, hcomment, hn, hr]
  apply readLines_step
  · rw [hspaces, hline]
  · simp [printPair]
    omega

end ScenarioDocs.Toml
