import ScenarioDocs.Proofs.Marker.Reading

/-!
# Where an argument text goes wrong

A fault tells what is wrong and, but for a list that does not end, at which
character. What comes before that place can be read.
-/

namespace ScenarioDocs.Marker

open Text

variable {size : Nat} {s t u p rest : Text} {fault : Fault} {stop : Char → Bool}

/-! ## What a fault says -/

/-- An argument may start after `n` characters: there is the first one that is not blank, or before
it stand other arguments and a comma. -/
def StartsArgument (s : Text) (n : Nat) : Prop :=
  (AllBlank (s.take n) ∧ ∃ c, s[n]? = some c ∧ isBlank c = false) ∨
    ∃ m args, n = m + 1 ∧ s[m]? = some ',' ∧ ¬AllBlank (s.take m) ∧ parse (s.take m) = .ok args

def NoList (r : Text) : Prop := ∀ u rest, r = u ++ '}' :: rest →
  ¬AllBlank u ∧ ∀ items, ¬Separated ',' (ItemText [',', '}']) u items

def backslashes (t : Text) : Nat := (t.reverse.takeWhile (· = '\\')).length

namespace Fault

def offset? : Fault → Option Nat
  | .unexpected _ n => some n
  | .missingEquals n => some n
  | .emptyKey n => some n
  | .openList => none
  | .openString n => some n

def Fits (s : Text) : Fault → Prop
  | .unexpected c n => s[n]? = some c ∧ isBlank c = false ∧ c ≠ ',' ∧ ∃ args, parse (s.take n) = .ok args
  | .missingEquals n => StartsArgument s n ∧ '=' ∉ (s.drop n).takeWhile (· ≠ ',')
  | .emptyKey n => StartsArgument s n ∧ ∃ b rest, s.drop n = b ++ '=' :: rest ∧ AllBlank b
  | .openList => ∃ n key b r, StartsArgument s n ∧ s.drop n = key ++ '=' :: (b ++ '{' :: r) ∧
      ¬AllBlank key ∧ '=' ∉ key ∧ ',' ∉ key ∧ AllBlank b ∧ NoList r
  -- a quote after an odd number of backslashes is an escaped one
  | .openString n => s[n]? = some '"' ∧
      ∀ t rest, s.drop (n + 1) = t ++ '"' :: rest → backslashes t % 2 = 1

end Fault

/-! ## Strings that do not end -/

theorem backslashes_cons (c : Char) (t : Text) :
    backslashes (c :: t) = if c = '\\' ∧ backslashes t = t.length then backslashes t + 1 else backslashes t := by
  unfold backslashes
  rw [List.reverse_cons, List.takeWhile_append, List.length_reverse]
  by_cases hall : (t.reverse.takeWhile (· = '\\')).length = t.length
  · by_cases hc : c = '\\' <;> simp [hall, hc]
  · simp [hall]

theorem backslashes_le (t : Text) : backslashes t ≤ t.length := by
  rw [← List.length_reverse]
  exact (List.takeWhile_sublist _).length_le

theorem backslashes_escaped (c : Char) (t : Text) : backslashes ('\\' :: c :: t) % 2 = backslashes t % 2 := by
  have hne : backslashes t ≠ t.length + 1 := Nat.ne_of_lt (Nat.lt_succ_of_le (backslashes_le t))
  rw [backslashes_cons, backslashes_cons, List.length_cons]
  by_cases hall : c = '\\' ∧ backslashes t = t.length
  · simp only [hall, and_self, if_true]
    omega
  · simp [hall, hne]

/-- If reading a string comes to the end of the text, all quotes in it are escaped. -/
theorem backslashes_of_readQuoted (h : readQuoted s = none) (hs : s = t ++ '"' :: rest) :
    backslashes t % 2 = 1 := by
  fun_induction readQuoted s generalizing t with
  | case1 => simp at hs
  | case2 => cases h
  | case3 c s ih =>
    rcases t with _ | ⟨d, _ | ⟨e, t⟩⟩
    · simp at hs
    · cases hs
      rfl
    · cases hs
      rw [backslashes_escaped]
      exact ih (by simpa using h) rfl
  | case4 c s hquote hslash ih =>
    rcases t with _ | ⟨d, t⟩
    · cases hs
      exact absurd rfl hquote
    · cases hs
      have hne : c ≠ '\\' := by
        rintro rfl
        -- a backslash with nothing after it leaves no room for the quote
        cases t with
        | nil => exact hslash '"' rest rfl rfl
        | cons d t => exact hslash d (t ++ '"' :: rest) rfl rfl
      rw [backslashes_cons, if_neg fun h => hne h.1]
      exact ih (by simpa using h) rfl

/-- Somewhere in `s` a string opens that does not end, and the fault is about its first quote. -/
def OpensString (size : Nat) (s : Text) (fault : Fault) : Prop :=
  ∃ p r, s = p ++ '"' :: r ∧ readQuoted r = none ∧ fault = .openString (size - (r.length + 1))

theorem OpensString.prepend (h : OpensString size s fault) (p : Text) : OpensString size (p ++ s) fault := by
  obtain ⟨q, r, rfl, hr⟩ := h
  exact ⟨p ++ q, r, by rw [List.append_assoc], hr⟩

theorem OpensString.of_suffix (h : OpensString size s fault) (hs : s <:+ t) : OpensString size t fault := by
  obtain ⟨p, rfl⟩ := hs
  exact h.prepend p

/-! ## Readers that fail -/

theorem cutKey_eq_none (h : cutKey s = none) : '=' ∉ s.takeWhile (· ≠ ',') := by
  fun_induction cutKey s with
  | case1 => simp
  | case2 => cases h
  | case3 => simp
  | case4 c s hne hcomma ih =>
    simpa [hcomma, Ne.symm hne] using ih (by simpa using h)

theorem readKey_error (h : readKey size s = .error fault) :
    (fault = .missingEquals (size - s.length) ∧ '=' ∉ s.takeWhile (· ≠ ',')) ∨
      fault = .emptyKey (size - s.length) ∧ ∃ b rest, s = b ++ '=' :: rest ∧ AllBlank b := by
  unfold readKey at h
  split at h
  · rename_i hcut
    cases h
    exact .inl ⟨rfl, cutKey_eq_none hcut⟩
  · rename_i k r hcut
    split at h
    · rename_i hblank
      cases h
      exact .inr ⟨rfl, k, r, (cutKey_sound hcut).1, trim_eq_nil_iff.1 hblank⟩
    · cases h

theorem readItem_error (h : readItem size stop s = .error fault) : OpensString size s fault := by
  obtain ⟨a, -, hs⟩ := exists_blank_append_trimStart s
  unfold readItem at h
  split at h
  · rename_i r hr
    split at h
    · cases h
    · rename_i hq
      cases h
      exact ⟨a, r, by rw [hs, hr], hq, rfl⟩
  · cases h

theorem readItems_error (h : readItems size s = .error fault) : OpensString size s fault := by
  fun_induction readItems size s with
  | case1 s e hr =>
    cases h
    exact readItem_error hr
  | case2 s item r hr ih =>
    obtain ⟨u, hu, -⟩ := readItem_sound isStop_plain hr
    exact (ih (map_eq_error_iff.1 h)).of_suffix ⟨u ++ [';'], by simp [hu]⟩
  | case3 => cases h

theorem readBraced_error (h : readBraced size s = .error fault) : OpensString size s fault ∨ fault = .openList := by
  fun_induction readBraced size s with
  | case1 s e hr =>
    cases h
    exact .inl (readItem_error hr)
  | case2 s item r hr ih =>
    obtain ⟨u, hu, -⟩ := readItem_sound isStop_braced hr
    exact (ih (map_eq_error_iff.1 h)).imp_left fun h => h.of_suffix ⟨u ++ [','], by simp [hu]⟩
  | case3 => cases h
  | case4 =>
    cases h
    exact .inr rfl

theorem readValue_error (h : readValue size s = .error fault) : OpensString size s fault ∨
    fault = .openList ∧ ∃ b r, s = b ++ '{' :: r ∧ AllBlank b ∧ NoList r := by
  obtain ⟨b, hb, hs⟩ := exists_blank_append_trimStart s
  by_cases hh : (trimStart s).head? = some '{'
  · obtain ⟨r, hr⟩ := List.head?_eq_some_iff.1 hh
    rw [hr] at hs
    by_cases hc : (trimStart r).head? = some '}'
    · obtain ⟨rest, hrest⟩ := List.head?_eq_some_iff.1 hc
      rw [readValue_empty hr hrest] at h
      cases h
    · rw [readValue_braced hr hc, map_eq_error_iff] at h
      have hsuffix : trimStart r <:+ s := by
        rw [hs]
        exact (List.dropWhile_suffix isBlank).trans ((List.suffix_cons _ _).trans (List.suffix_append _ _))
      have hlist : NoList r := by
        rintro u rest rfl
        have hu : ¬AllBlank u := fun hu => hc (by rw [trimStart_append hu, trimStart_cons (by decide)]; rfl)
        refine ⟨hu, fun items hi => ?_⟩
        have hi := hi.trimmed (by decide) fun h => h.trimmed
        rw [trimStart_append_of_not_allBlank hu, readBraced_complete hi] at h
        cases h
      exact (readBraced_error h).imp (fun h => h.of_suffix hsuffix) fun hf => ⟨hf, b, r, hs, hb, hlist⟩
  · rw [readValue_plain hh, map_eq_error_iff] at h
    exact .inl ((readItems_error h).of_suffix (List.dropWhile_suffix isBlank))

/-! ## Arguments -/

inductive Before (s : Text) : Text → Prop
  | blank {b : Text} : AllBlank b → (∃ c, s.head? = some c ∧ isBlank c = false) → Before s b
  | arguments {q : Text} {args : List Argument} : Separated ',' ArgumentText q args → Before s (q ++ [','])

theorem Before.startsArgument (h : Before s p) : StartsArgument (p ++ s) p.length := by
  cases h with
  | blank hp hs =>
    refine .inl ⟨by simpa using hp, ?_⟩
    rwa [List.getElem?_append_right (Nat.le_refl _), Nat.sub_self, ← List.head?_eq_getElem?]
  | @arguments q args hq =>
    refine .inr ⟨q.length, args, by simp, ?_⟩
    simpa using ⟨arguments_not_allBlank hq, parse_complete (.arguments hq)⟩

/-- With one more argument after it, the text is an argument text. -/
theorem Before.concat {arg : Argument} (h : Before s p) (ht : ArgumentText t arg) :
    ∃ args, Separated ',' ArgumentText (p ++ t) args := by
  cases h with
  | blank hp => exact ⟨[arg], .one (ht.blank_append hp)⟩
  | @arguments q args hq => exact ⟨args ++ [arg], by simpa using hq.concat ht⟩

theorem OpensString.fits (h : OpensString s.length s fault) : fault.Fits s := by
  obtain ⟨p, r, rfl, hr, rfl⟩ := h
  have hlength : (p ++ '"' :: r).length - (r.length + 1) = p.length := by simp
  have hdrop : (p ++ '"' :: r).drop (p.length + 1) = r := by
    rw [List.append_cons]
    exact List.drop_left' (by simp)
  rw [hlength]
  exact ⟨by simp, fun t rest hrest => backslashes_of_readQuoted hr (hdrop ▸ hrest)⟩

theorem fits_of_readKey (h : readKey (p ++ s).length s = .error fault) (hp : Before s p) : fault.Fits (p ++ s) := by
  have hlength : (p ++ s).length - s.length = p.length := by simp
  have hstart := hp.startsArgument
  rcases readKey_error h with ⟨rfl, hs⟩ | ⟨rfl, b, rest, hs, hb⟩
  · rw [hlength]
    exact ⟨hstart, by simpa using hs⟩
  · rw [hlength]
    exact ⟨hstart, b, rest, by simpa using hs, hb⟩

theorem fits_of_readValue {key : Text} (hk : readKey (p ++ s).length s = .ok (key, t))
    (h : readValue (p ++ s).length t = .error fault) (hp : Before s p) : fault.Fits (p ++ s) := by
  obtain ⟨k, hs, heq, hcomma, hblank, -⟩ := readKey_sound hk
  rcases readValue_error h with hstring | ⟨rfl, b, r, ht, hb, hr⟩
  · have hsuffix : t <:+ p ++ s := ⟨p ++ (k ++ ['=']), by simp [hs]⟩
    exact (hstring.of_suffix hsuffix).fits
  · refine ⟨p.length, k, b, r, hp.startsArgument, ?_, hblank, heq, hcomma, hb, hr⟩
    rw [List.drop_left, hs, ht]

theorem fits_unexpected {c : Char} {arg : Argument} (hu : ArgumentText u arg) (hs : s = u ++ c :: rest)
    (hc : isBlank c = false) (hne : c ≠ ',') (hp : Before s p) :
    (Fault.unexpected c ((p ++ s).length - (rest.length + 1))).Fits (p ++ s) := by
  obtain ⟨args, hargs⟩ := hp.concat hu
  have hlength : (p ++ s).length - (rest.length + 1) = (p ++ u).length := by
    rw [hs, ← List.append_assoc, List.length_append, List.length_cons, Nat.add_sub_cancel]
  rw [hlength, hs, ← List.append_assoc]
  exact ⟨by simp, hc, hne, args, by rw [List.take_left]; exact parse_complete (.arguments hargs)⟩

/-- The arguments before the fault count as read: `p` grows by one of them at each comma. -/
theorem readArguments_error (h : readArguments size s = .error fault) (hsize : size = (p ++ s).length)
    (hp : Before s p) : fault.Fits (p ++ s) := by
  fun_induction readArguments size s generalizing p with
  | case1 s e hk =>
    cases h
    exact fits_of_readKey (hsize ▸ hk) hp
  | case2 s key r hk e hv =>
    cases h
    exact fits_of_readValue (hsize ▸ hk) (hsize ▸ hv) hp
  | case3 => cases h
  | case4 s key r hk value r' hv rest hr ih =>
    obtain ⟨u, hs, hu⟩ := readArgument_sound hk hv
    rw [hr] at hs
    obtain ⟨args, hargs⟩ := hp.concat hu
    have hwhole : p ++ s = p ++ u ++ [','] ++ rest := by simp [hs]
    rw [hwhole]
    exact ih (map_eq_error_iff.1 h) (hwhole ▸ hsize) (.arguments hargs)
  | case5 s key r hk value r' hv c rest hne hr =>
    cases h
    obtain ⟨u, hs, hu⟩ := readArgument_sound hk hv
    rw [hr] at hs
    rw [hsize]
    exact fits_unexpected hu hs (not_isBlank_of_trimStart hr) hne hp

/-! ## Whole texts -/

theorem StartsArgument.le {n : Nat} (h : StartsArgument s n) : n ≤ s.length := by
  rcases h with ⟨-, c, hc, -⟩ | ⟨m, args, rfl, hc, -⟩
  · exact Nat.le_of_lt (List.getElem?_eq_some_iff.1 hc).1
  · exact (List.getElem?_eq_some_iff.1 hc).1

namespace Fault

theorem Fits.offset_le {n : Nat} (h : fault.Fits s) (hn : fault.offset? = some n) : n ≤ s.length := by
  cases fault with
  | unexpected =>
    cases hn
    exact Nat.le_of_lt (List.getElem?_eq_some_iff.1 h.1).1
  | missingEquals =>
    cases hn
    exact h.1.le
  | emptyKey =>
    cases hn
    exact h.1.le
  | openList => cases hn
  | openString =>
    cases hn
    exact Nat.le_of_lt (List.getElem?_eq_some_iff.1 h.1).1

theorem exists_message {n : Nat} (hn : fault.offset? = some n) :
    ∃ what : Text, fault.message = what ++ " at offset " ++ decimal n := by
  cases fault with
  | unexpected c =>
    cases hn
    exact ⟨"unexpected `" ++ [c] ++ "`", rfl⟩
  | missingEquals =>
    cases hn
    exact ⟨"expected `key=value`", rfl⟩
  | emptyKey =>
    cases hn
    exact ⟨"empty key", rfl⟩
  | openList => cases hn
  | openString =>
    cases hn
    exact ⟨"unterminated string starting", rfl⟩

end Fault

/-- A text that cannot be read has the fault that is reported, at the place that is reported. -/
theorem parse_error_fits (h : parse s = .error fault) : fault.Fits s ∧
    ∀ n, fault.offset? = some n → n ≤ s.length ∧ ∃ what : Text, fault.message = what ++ " at offset " ++ decimal n := by
  have hfits : fault.Fits s := by
    obtain ⟨b, hb, hs⟩ := exists_blank_append_trimStart s
    unfold parse at h
    split at h
    · cases h
    · rename_i hne
      obtain ⟨c, r, hr⟩ := List.exists_cons_of_ne_nil hne
      rw [hs]
      exact readArguments_error h (congrArg _ hs) (.blank hb ⟨c, by rw [hr]; rfl, not_isBlank_of_trimStart hr⟩)
  exact ⟨hfits, fun n hn => ⟨hfits.offset_le hn, Fault.exists_message hn⟩⟩

/-- A quote that is escaped ends no string; after one that ends a string comes something unexpected. -/
theorem parse_error_fits_quoted :
    let s : Text := "a=\x7bx\x7d, b=\"\\\" c"
    let t : Text := "a=\x7bx\x7d, b=\"\\\"\" c"
    (parse s = .error (.openString 9) ∧ (Fault.openString 9).Fits s) ∧
      parse t = .error (.unexpected 'c' 14) ∧ (Fault.unexpected 'c' 14).Fits t ∧ 14 ≤ t.length := by
  intro s t
  have hs : parse s = .error (.openString 9) := by decide +kernel
  have ht : parse t = .error (.unexpected 'c' 14) := by decide +kernel
  obtain ⟨hfits, hoffset⟩ := parse_error_fits ht
  exact ⟨⟨hs, (parse_error_fits hs).1⟩, ht, hfits, (hoffset 14 rfl).1⟩

end ScenarioDocs.Marker
