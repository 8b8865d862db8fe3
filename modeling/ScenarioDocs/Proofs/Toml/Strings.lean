import Mathlib.Data.List.TakeWhile
import ScenarioDocs.Proofs.Text.Hex
import ScenarioDocs.Toml.Printer
import ScenarioDocs.Toml.Strings

/-!
# Reading printed TOML strings

`readString_printString`: every text is read back from the form the printer
chooses for it. The printer never leaves more than two quotes side by side
inside a form that three quotes close, so the reader sees a run of three only
at the end, where up to two of a longer run belong to the text.
-/

namespace ScenarioDocs.Toml

variable {c quote : Char} {t s r rest : Text} {k n quotes : Nat}

/-! ## Single characters -/

/-- The spelling is a backslash with an escape for the character, and not a continued line. -/
def Escapes (spelled : Text) (c : Char) : Prop :=
  ∃ e, spelled = '\\' :: e ∧ ∀ s, continued? (e ++ s) = none ∧ readEscape (e ++ s) = some (c, s)

theorem readCodePoint_of_readHex (h : Text.readHex n s = some (c.toNat, rest)) :
    readCodePoint n s = some (c, rest) := by
  have hc : c.toNat.isValidChar := c.valid
  simp [readCodePoint, h, hc]

theorem isPlain_of_not_isControl (h : isControl c = false) (hn : c ≠ '\n') : isPlain c = true := by
  simp only [isControl, isPlain, ne_eq] at *
  grind

theorem escapes_quote : Escapes "\\\"" '"' := ⟨['"'], rfl, fun _ => ⟨rfl, rfl⟩⟩

theorem escapes_newLine : Escapes "\\n" '\n' := ⟨['n'], rfl, fun _ => ⟨rfl, rfl⟩⟩

theorem escapeControl_cases (c : Char) :
    Escapes (escapeControl c) c ∨ escapeControl c = [c] ∧ c ≠ '\\' ∧ isPlain c = true := by
  by_cases hb : c = '\x08'
  · subst hb; exact .inl ⟨['b'], rfl, fun _ => ⟨rfl, rfl⟩⟩
  by_cases ht : c = '\t'
  · subst ht; exact .inl ⟨['t'], rfl, fun _ => ⟨rfl, rfl⟩⟩
  by_cases hf : c = '\x0c'
  · subst hf; exact .inl ⟨['f'], rfl, fun _ => ⟨rfl, rfl⟩⟩
  by_cases hr : c = '\r'
  · subst hr; exact .inl ⟨['r'], rfl, fun _ => ⟨rfl, rfl⟩⟩
  by_cases hback : c = '\\'
  · subst hback; exact .inl ⟨['\\'], rfl, fun _ => ⟨rfl, rfl⟩⟩
  rw [escapeControl, if_neg hb, if_neg ht, if_neg hf, if_neg hr, if_neg hback]
  by_cases hlow : c.toNat < 0x10
  · refine .inl ⟨'u' :: ("000" ++ upperHex c.toNat), by rw [if_pos hlow]; rfl, fun s => ⟨rfl, ?_⟩⟩
    exact readCodePoint_of_readHex (Text.readHex_of_lt Text.keepsDigits_toUpper hlow)
  rw [if_neg hlow]
  by_cases hhigh : c.toNat < 0x20 || c.toNat = 0x7F
  · refine .inl ⟨'u' :: ("00" ++ upperHex c.toNat), by rw [if_pos hhigh]; rfl, fun s => ⟨rfl, ?_⟩⟩
    have hlt : c.toNat < 256 := by grind
    exact readCodePoint_of_readHex (Text.readHex_two Text.keepsDigits_toUpper (Nat.le_of_not_lt hlow) hlt)
  · refine .inr ⟨if_neg hhigh, hback, ?_⟩
    simp [isPlain] at hhigh ⊢
    grind

/-! ## On one line -/

theorem readBasic_escape (h : readEscape r = some (c, s)) :
    readBasic ('\\' :: r) = (readBasic s).map fun (t, rest) => (c :: t, rest) := by
  rw [readBasic]
  split <;> simp_all

theorem readBasic_plain (hquote : c ≠ '"') (hback : c ≠ '\\') (hc : isPlain c = true) :
    readBasic (c :: s) = (readBasic s).map fun (t, rest) => (c :: t, rest) := by
  rw [readBasic, if_pos hc]
  · exact hquote
  · exact hback

theorem readBasic_escapes {spelled : Text} (h : Escapes spelled c) :
    readBasic (spelled ++ s) = (readBasic s).map fun (t, rest) => (c :: t, rest) := by
  obtain ⟨e, rfl, he⟩ := h
  exact readBasic_escape (he s).2

theorem escapeShort_cons (c : Char) (t : Text) :
    escapeShort (c :: t) =
      (if c = '"' then ("\\\"" : Text) else if c = '\n' then "\\n" else escapeControl c) ++ escapeShort t :=
  List.flatMap_cons

theorem readBasic_escapeShort (t rest : Text) :
    readBasic (escapeShort t ++ '"' :: rest) = some (t, rest) := by
  induction t with
  | nil => exact readBasic.eq_2 rest
  | cons c t ih =>
    rw [escapeShort_cons, List.append_assoc]
    by_cases hquote : c = '"'
    · rw [if_pos hquote, hquote, readBasic_escapes escapes_quote, ih]
      rfl
    rw [if_neg hquote]
    by_cases hn : c = '\n'
    · rw [if_pos hn, hn, readBasic_escapes escapes_newLine, ih]
      rfl
    rw [if_neg hn]
    obtain h | ⟨h, hback, hc⟩ := escapeControl_cases c
    · rw [readBasic_escapes h, ih]
      rfl
    · rw [h, List.singleton_append, readBasic_plain hquote hback hc, ih]
      rfl

theorem readLiteral_append (h : ∀ c ∈ t, c ≠ '\'' ∧ isPlain c = true) (rest : Text) :
    readLiteral (t ++ '\'' :: rest) = some (t, rest) := by
  induction t with
  | nil => rfl
  | cons c t ih =>
    rw [List.forall_mem_cons] at h
    rw [List.cons_append, readLiteral, if_pos h.1.2, ih h.2]
    · rfl
    · exact h.1.1

/-! ## Runs of quotes -/

theorem takeWhile_replicate_append (k : Nat) (hs : s.head? ≠ some quote) :
    (List.replicate k quote ++ s).takeWhile (· = quote) = List.replicate k quote := by
  rw [List.takeWhile_append_of_pos (by simp)]
  cases s with
  | nil => simp
  | cons c s => simp [show c ≠ quote by simpa using hs]

theorem closing?_replicate (hk : k ≤ 2) (hrest : rest.head? ≠ some quote) :
    closing? quote (List.replicate k quote ++ quote :: quote :: quote :: rest) =
      some (List.replicate k quote, rest) := by
  have hsplit : List.replicate k quote ++ quote :: quote :: quote :: rest =
      List.replicate (k + 3) quote ++ rest := by
    rw [← List.replicate_append_replicate, List.append_assoc]
    rfl
  rw [closing?, hsplit, takeWhile_replicate_append _ hrest]
  simp [List.drop_append, List.take_replicate]
  omega

theorem closing?_eq_none (h : (s.takeWhile (· = quote)).length < 3) : closing? quote s = none := by
  rw [closing?]
  exact if_pos h

/-! ## On several lines -/

theorem readLongBasic_closing (h : closing? '"' s = some (t, rest)) : readLongBasic s = some (t, rest) := by
  unfold readLongBasic
  rw [h]

theorem readLongLiteral_closing (h : closing? '\'' s = some (t, rest)) : readLongLiteral s = some (t, rest) := by
  unfold readLongLiteral
  rw [h]

theorem readLongBasic_escape (hclosing : closing? '"' ('\\' :: r) = none) (hcontinued : continued? r = none)
    (h : readEscape r = some (c, s)) :
    readLongBasic ('\\' :: r) = (readLongBasic s).map fun (t, rest) => (c :: t, rest) := by
  rw [readLongBasic, hclosing]
  dsimp only
  split
  · simp_all
  · split
    · simp_all
    · simp_all

theorem readLongBasic_plain (hclosing : closing? '"' (c :: s) = none) (hback : c ≠ '\\') (hr : c ≠ '\r')
    (hc : isPlain c = true ∨ c = '\n') :
    readLongBasic (c :: s) = (readLongBasic s).map fun (t, rest) => (c :: t, rest) := by
  rw [readLongBasic, hclosing]
  · simp [hc]
  · exact hback
  · exact fun _ h => absurd h hr

theorem readLongLiteral_plain (hclosing : closing? '\'' (c :: s) = none) (hr : c ≠ '\r')
    (hc : isPlain c = true ∨ c = '\n') :
    readLongLiteral (c :: s) = (readLongLiteral s).map fun (t, rest) => (c :: t, rest) := by
  rw [readLongLiteral, hclosing]
  · simp [hc]
  · exact fun _ h => absurd h hr

theorem escapeLong_quote_two : escapeLong 2 ('"' :: t) = "\\\"" ++ escapeLong 0 t := rfl

theorem escapeLong_quote (hquotes : quotes ≠ 2) :
    escapeLong quotes ('"' :: t) = '"' :: escapeLong (quotes + 1) t := by
  rw [escapeLong, if_pos rfl, if_neg hquotes]

theorem escapeLong_newLine : escapeLong quotes ('\n' :: t) = '\n' :: escapeLong 0 t := rfl

theorem escapeLong_of_ne (hquote : c ≠ '"') (hn : c ≠ '\n') :
    escapeLong quotes (c :: t) = escapeControl c ++ escapeLong 0 t := by
  rw [escapeLong, if_neg hquote, if_neg hn]

theorem escapeLong_replicate (h : k + quotes ≤ 2) :
    escapeLong quotes (List.replicate k '"') = List.replicate k '"' := by
  induction k generalizing quotes with
  | zero => rfl
  | succ k ih => rw [List.replicate_succ, escapeLong_quote (by omega), ih (by omega)]

theorem takeWhile_escapeLong_of_ne (hquote : c ≠ '"') (s : Text) :
    (escapeLong quotes (c :: t) ++ s).takeWhile (· = '"') = [] := by
  by_cases hn : c = '\n'
  · subst hn
    rw [escapeLong_newLine]
    rfl
  rw [escapeLong_of_ne hquote hn]
  obtain ⟨e, h, -⟩ | ⟨h, -⟩ := escapeControl_cases c
  · rw [h]
    rfl
  · rw [h]
    simp [hquote]

/-- Unless only quotes are left to write, their run ends before the third. -/
theorem run_escapeLong (hquotes : quotes ≤ 2) (t : Text) :
    (∃ k, k + quotes ≤ 2 ∧ t = List.replicate k '"') ∨
      ∀ s, ((escapeLong quotes t ++ s).takeWhile (· = '"')).length + quotes ≤ 2 := by
  induction t generalizing quotes with
  | nil => exact .inl ⟨0, by omega, rfl⟩
  | cons c t ih =>
    by_cases hquote : c = '"'
    · subst hquote
      by_cases htwo : quotes = 2
      · subst htwo
        exact .inr fun s => by rw [escapeLong_quote_two]; rfl
      · obtain ⟨k, hk, rfl⟩ | h := ih (show quotes + 1 ≤ 2 by omega)
        · exact .inl ⟨k + 1, by omega, rfl⟩
        · refine .inr fun s => ?_
          have := h s
          rw [escapeLong_quote htwo, List.cons_append, List.takeWhile_cons_of_pos (by simp), List.length_cons]
          omega
    · refine .inr fun s => ?_
      rw [takeWhile_escapeLong_of_ne hquote]
      simpa using hquotes

theorem readLongBasic_escapes {spelled : Text} (h : Escapes spelled c) :
    readLongBasic (spelled ++ s) = (readLongBasic s).map fun (t, rest) => (c :: t, rest) := by
  obtain ⟨e, rfl, he⟩ := h
  exact readLongBasic_escape (closing?_eq_none (by simp)) (he s).1 (he s).2

theorem readLongBasic_escapeLong (hquotes : quotes ≤ 2) (t : Text) (hrest : rest.head? ≠ some '"') :
    readLongBasic (escapeLong quotes t ++ '"' :: '"' :: '"' :: rest) = some (t, rest) := by
  induction t generalizing quotes with
  | nil => exact readLongBasic_closing (closing?_replicate (Nat.zero_le 2) hrest)
  | cons c t ih =>
    obtain ⟨k, hk, hall⟩ | hrun := run_escapeLong hquotes (c :: t)
    · rw [hall, escapeLong_replicate hk]
      exact readLongBasic_closing (closing?_replicate (by omega) hrest)
    -- the quotes that come next are too few to close the string
    have hclosing : closing? '"' (escapeLong quotes (c :: t) ++ '"' :: '"' :: '"' :: rest) = none := by
      apply closing?_eq_none
      have := hrun ('"' :: '"' :: '"' :: rest)
      omega
    by_cases hquote : c = '"'
    · subst hquote
      by_cases htwo : quotes = 2
      · subst htwo
        rw [escapeLong_quote_two, List.append_assoc, readLongBasic_escapes escapes_quote, ih (Nat.zero_le 2)]
        rfl
      · rw [escapeLong_quote htwo, List.cons_append] at hclosing ⊢
        rw [readLongBasic_plain hclosing (by decide) (by decide) (.inl rfl), ih (by omega)]
        rfl
    by_cases hn : c = '\n'
    · subst hn
      rw [escapeLong_newLine, List.cons_append] at hclosing ⊢
      rw [readLongBasic_plain hclosing (by decide) (by decide) (.inr rfl), ih (Nat.zero_le 2)]
      rfl
    rw [escapeLong_of_ne hquote hn, List.append_assoc] at hclosing ⊢
    obtain h | ⟨h, hback, hc⟩ := escapeControl_cases c
    · rw [readLongBasic_escapes h, ih (Nat.zero_le 2)]
      rfl
    · have hr : c ≠ '\r' := by
        intro hr
        rw [hr] at hc
        cases hc
      rw [h, List.singleton_append] at hclosing ⊢
      rw [readLongBasic_plain hclosing hback hr (.inl hc), ih (Nat.zero_le 2)]
      rfl

theorem hasTriple_of_cons (h : hasTriple quote (c :: t) = false) : hasTriple quote t = false := by
  match t with
  | [] => rfl
  | [_] => rfl
  | _ :: _ :: _ => exact (Bool.or_eq_false_iff.1 h).2

theorem length_run_le (h : hasTriple quote t = false) : (t.takeWhile (· = quote)).length ≤ 2 := by
  match t with
  | [] => simp
  | [_] => exact Nat.le_trans (List.takeWhile_sublist _).length_le (by simp)
  | [_, _] => exact (List.takeWhile_sublist _).length_le
  | a :: b :: c :: t =>
    have habc := (Bool.or_eq_false_iff.1 h).1
    by_cases ha : a = quote
    · by_cases hb : b = quote
      · have hc : c ≠ quote := by simpa [ha, hb] using habc
        simp [ha, hb, hc]
      · simp [ha, hb]
    · simp [ha]

/-- Without three quotes side by side, a text is at most two quotes or its first run is short. -/
theorem run_of_not_hasTriple (h : hasTriple quote t = false) :
    (∃ k ≤ 2, t = List.replicate k quote) ∨ ∀ s, ((t ++ s).takeWhile (· = quote)).length ≤ 2 := by
  have hrun := length_run_le h
  by_cases hall : t.takeWhile (· = quote) = t
  · rw [hall] at hrun
    refine .inl ⟨t.length, hrun, List.eq_replicate_of_mem ?_⟩
    simpa using List.takeWhile_eq_self_iff.1 hall
  · refine .inr fun s => ?_
    rw [List.takeWhile_append, if_neg]
    · exact hrun
    · exact fun hlength => hall ((List.takeWhile_sublist _).eq_of_length hlength)

theorem readLongLiteral_append (h : ∀ c ∈ t, isControl c = false) (htriple : hasTriple '\'' t = false)
    (hrest : rest.head? ≠ some '\'') :
    readLongLiteral (t ++ '\'' :: '\'' :: '\'' :: rest) = some (t, rest) := by
  induction t with
  | nil => exact readLongLiteral_closing (closing?_replicate (Nat.zero_le 2) hrest)
  | cons c t ih =>
    obtain ⟨k, hk, hall⟩ | hrun := run_of_not_hasTriple htriple
    · rw [hall]
      exact readLongLiteral_closing (closing?_replicate hk hrest)
    have hclosing := closing?_eq_none (Nat.lt_succ_of_le (hrun ('\'' :: '\'' :: '\'' :: rest)))
    rw [List.forall_mem_cons] at h
    have hr : c ≠ '\r' := by
      intro hr
      rw [hr] at h
      cases h.1
    have hc : isPlain c = true ∨ c = '\n' := by
      by_cases hn : c = '\n'
      · exact .inr hn
      · exact .inl (isPlain_of_not_isControl h.1 hn)
    rw [List.cons_append] at hclosing ⊢
    rw [readLongLiteral_plain hclosing hr hc, ih h.2 (hasTriple_of_cons htriple)]
    rfl

/-! ## The form that was chosen -/

theorem readString_basic (h : ∀ r, s ≠ '"' :: '"' :: r) : readString ('"' :: s) = readBasic s := by
  unfold readString
  split <;> simp_all

theorem readString_literal (h : ∀ r, s ≠ '\'' :: '\'' :: r) : readString ('\'' :: s) = readLiteral s := by
  unfold readString
  split <;> simp_all

theorem head?_escapeControl_ne (hn : c ≠ '\n') (s : Text) :
    (escapeControl c ++ s).head? ≠ some '\n' ∧ (escapeControl c ++ s).head? ≠ some '\r' := by
  obtain ⟨e, h, -⟩ | ⟨h, -, hc⟩ := escapeControl_cases c
  · simp [h]
  · have hr : c ≠ '\r' := by
      intro hr
      rw [hr] at hc
      cases hc
    simp [h, hn, hr]

theorem readString_shortBasic (t : Text) (hrest : rest.head? ≠ some '"') :
    readString (shortBasic t ++ rest) = some (t, rest) := by
  have hsplit : shortBasic t ++ rest = '"' :: (escapeShort t ++ '"' :: rest) := by simp [shortBasic]
  rw [hsplit, readString_basic, readBasic_escapeShort]
  intro r hr
  cases t with
  | nil =>
    rw [(List.cons.inj hr).2] at hrest
    exact hrest rfl
  | cons c t =>
    have hhead := congrArg List.head? hr
    rw [escapeShort_cons, List.append_assoc] at hhead
    by_cases hquote : c = '"'
    · simp [hquote] at hhead
    by_cases hn : c = '\n'
    · simp [hn] at hhead
    rw [if_neg hquote, if_neg hn] at hhead
    obtain ⟨e, h, -⟩ | ⟨h, -⟩ := escapeControl_cases c
    · simp [h] at hhead
    · simp [h, hquote] at hhead

theorem readString_shortLiteral (hne : t ≠ []) (h : ∀ c ∈ t, c ≠ '\'' ∧ isPlain c = true) (rest : Text) :
    readString (shortLiteral t ++ rest) = some (t, rest) := by
  have hsplit : shortLiteral t ++ rest = '\'' :: (t ++ '\'' :: rest) := by simp [shortLiteral]
  rw [hsplit, readString_literal, readLiteral_append h]
  intro r hr
  obtain ⟨c, t, rfl⟩ := List.exists_cons_of_ne_nil hne
  exact (h c (List.mem_cons_self ..)).1 (List.cons.inj hr).1

theorem skipFirstLineEnd_lineStart (h : '\n' ∉ t → s.head? ≠ some '\n' ∧ s.head? ≠ some '\r') :
    skipFirstLineEnd (lineStart t ++ s) = s := by
  by_cases hn : '\n' ∈ t
  · rw [lineStart, if_pos (by simpa using hn)]
    rfl
  · rw [lineStart, if_neg (by simpa using hn), List.nil_append]
    have hs := h hn
    unfold skipFirstLineEnd
    split <;> simp_all

theorem readString_longBasic (t : Text) (hrest : rest.head? ≠ some '"') :
    readString (longBasic t ++ rest) = some (t, rest) := by
  have hsplit : longBasic t ++ rest =
      '"' :: '"' :: '"' :: (lineStart t ++ (escapeLong 0 t ++ '"' :: '"' :: '"' :: rest)) := by
    simp [longBasic]
  rw [hsplit, readString, skipFirstLineEnd_lineStart, readLongBasic_escapeLong (Nat.zero_le 2) t hrest]
  intro hn
  cases t with
  | nil => simp [escapeLong]
  | cons c t =>
    rw [List.mem_cons, not_or] at hn
    by_cases hquote : c = '"'
    · subst hquote
      simp [escapeLong]
    · rw [escapeLong_of_ne hquote (Ne.symm hn.1), List.append_assoc]
      exact head?_escapeControl_ne (Ne.symm hn.1) _

theorem readString_longLiteral (h : ∀ c ∈ t, isControl c = false) (htriple : hasTriple '\'' t = false)
    (hrest : rest.head? ≠ some '\'') : readString (longLiteral t ++ rest) = some (t, rest) := by
  have hsplit : longLiteral t ++ rest =
      '\'' :: '\'' :: '\'' :: (lineStart t ++ (t ++ '\'' :: '\'' :: '\'' :: rest)) := by
    simp [longLiteral]
  rw [hsplit, readString, skipFirstLineEnd_lineStart, readLongLiteral_append h htriple hrest]
  intro hn
  cases t with
  | nil => simp
  | cons c t =>
    rw [List.mem_cons, not_or] at hn
    have hr : c ≠ '\r' := by
      intro hr
      rw [hr] at h
      cases h _ (List.mem_cons_self ..)
    exact ⟨by simpa using Ne.symm hn.1, by simpa using hr⟩

/-- No quote comes next that could be taken for one of the closing quotes. -/
def Unquoted (rest : Text) : Prop := rest.head? ≠ some '"' ∧ rest.head? ≠ some '\''

theorem unquoted_cons (hbasic : c ≠ '"') (hliteral : c ≠ '\'') : Unquoted (c :: s) :=
  ⟨by simpa using hbasic, by simpa using hliteral⟩

theorem readString_printString (t : Text) (hrest : Unquoted rest) :
    readString (printString t ++ rest) = some (t, rest) := by
  obtain ⟨hbasic, hliteral⟩ := hrest
  unfold printString
  extract_lets control newLine backslash
  have hcontrol : ¬control → ∀ c ∈ t, isControl c = false := by simp [control]
  -- the cases of the printer, in its order
  by_cases hshort : ¬control ∧ ¬newLine ∧ ¬t.contains '"' ∧ ¬backslash
  · rw [if_pos hshort]
    exact readString_shortBasic t hbasic
  rw [if_neg hshort]
  by_cases hsingle : ¬control ∧ ¬newLine ∧ ¬t.contains '\''
  · rw [if_pos hsingle]
    have hn : '\n' ∉ t := by simpa [newLine] using hsingle.2.1
    have hquote : '\'' ∉ t := by simpa using hsingle.2.2
    apply readString_shortLiteral
    · intro ht
      subst ht
      exact hshort ⟨hsingle.1, hsingle.2.1, by simp, by simp [backslash]⟩
    · intro c hc
      have hcn : c ≠ '\n' := fun h => hn (h ▸ hc)
      exact ⟨fun h => hquote (h ▸ hc), isPlain_of_not_isControl (hcontrol hsingle.1 c hc) hcn⟩
  rw [if_neg hsingle]
  by_cases hlong : ¬control ∧ ¬backslash ∧ ¬hasTriple '"' t
  · rw [if_pos hlong]
    exact readString_longBasic t hbasic
  rw [if_neg hlong]
  by_cases hliterals : ¬control ∧ ¬hasTriple '\'' t
  · rw [if_pos hliterals]
    exact readString_longLiteral (hcontrol hliterals.1) (by simpa using hliterals.2) hliteral
  rw [if_neg hliterals]
  by_cases hnewLine : newLine
  · rw [if_pos hnewLine]
    exact readString_longBasic t hbasic
  · rw [if_neg hnewLine]
    exact readString_shortBasic t hbasic

end ScenarioDocs.Toml
