import ScenarioDocs.Marker.Parser
import ScenarioDocs.Proofs.Marker.Grammar
import ScenarioDocs.Proofs.Outcome

/-!
# The reader and the grammar

A reader that succeeds has taken a text of the grammar off the front of what
it was given (soundness), and it takes any such text off if what comes after
it stops the reader there (completeness). `parse_eq_ok_iff` puts the two
together for whole argument texts.
-/

namespace ScenarioDocs.Marker

open Text

variable {size : Nat} {k s t u q rest : Text}

/-! ## Keys -/

theorem cutKey_sound (h : cutKey s = some (k, rest)) : s = k ++ '=' :: rest ∧ '=' ∉ k ∧ ',' ∉ k := by
  fun_induction cutKey s generalizing k rest with
  | case1 => cases h
  | case2 s =>
    cases h
    exact ⟨rfl, List.not_mem_nil, List.not_mem_nil⟩
  | case3 => cases h
  | case4 c s hne hnc ih =>
    obtain ⟨⟨k', r⟩, hk, he⟩ := Option.map_eq_some_iff.1 h
    cases he
    obtain ⟨rfl, he, hc⟩ := ih hk
    exact ⟨rfl, List.not_mem_cons_of_ne_of_not_mem (Ne.symm hne) he,
      List.not_mem_cons_of_ne_of_not_mem (Ne.symm hnc) hc⟩

theorem cutKey_complete (he : '=' ∉ k) (hc : ',' ∉ k) : cutKey (k ++ '=' :: rest) = some (k, rest) := by
  induction k with
  | nil => simp [cutKey]
  | cons c k ih =>
    rw [List.mem_cons, not_or] at he hc
    simp [cutKey, Ne.symm he.1, Ne.symm hc.1, ih he.2 hc.2]

theorem readKey_sound {key : Text} (h : readKey size s = .ok (key, rest)) :
    ∃ k, s = k ++ '=' :: rest ∧ '=' ∉ k ∧ ',' ∉ k ∧ ¬AllBlank k ∧ key = trim k := by
  unfold readKey at h
  split at h
  · cases h
  · rename_i k r hc
    obtain ⟨hs, he, hm⟩ := cutKey_sound hc
    split at h
    · cases h
    · rename_i hne
      cases h
      exact ⟨k, hs, he, hm, mt trim_eq_nil_iff.2 hne, rfl⟩

theorem readKey_complete (he : '=' ∉ k) (hm : ',' ∉ k) (hk : ¬AllBlank k) :
    readKey size (k ++ '=' :: rest) = .ok (trim k, rest) := by
  simp [readKey, cutKey_complete he hm, mt trim_eq_nil_iff.1 hk]

/-! ## Items -/

theorem readQuoted_sound (h : readQuoted s = some (t, rest)) :
    ∃ q, QuotedText q t ∧ s = q ++ '"' :: rest := by
  fun_induction readQuoted s generalizing t rest with
  | case1 => cases h
  | case2 s =>
    cases h
    exact ⟨[], .nil, rfl⟩
  | case3 c s ih =>
    obtain ⟨⟨v, r⟩, hv, he⟩ := Option.map_eq_some_iff.1 h
    cases he
    obtain ⟨q, hq, rfl⟩ := ih hv
    exact ⟨'\\' :: c :: q, .escaped hq, rfl⟩
  | case4 c s hquote hslash ih =>
    obtain ⟨⟨v, r⟩, hv, he⟩ := Option.map_eq_some_iff.1 h
    cases he
    obtain ⟨q, hq, rfl⟩ := ih hv
    refine ⟨c :: q, .plain hquote ?_ hq, rfl⟩
    -- a backslash at the very end would have left nothing to close the quotes
    rintro rfl
    cases q with
    | nil => exact hslash '"' rest rfl rfl
    | cons d q => exact hslash d (q ++ '"' :: rest) rfl rfl

theorem readQuoted_complete (h : QuotedText q t) : readQuoted (q ++ '"' :: rest) = some (t, rest) := by
  induction h with
  | nil => simp [readQuoted]
  | plain hquote hslash _ ih =>
    rw [List.cons_append, readQuoted, ih, Option.map_some]
    · exact hquote
    · intro d s h
      exact absurd h hslash
  | escaped _ ih => rw [List.cons_append, List.cons_append, readQuoted, ih, Option.map_some]

theorem readItem_of_quote (h : trimStart s = '"' :: u) (hq : readQuoted u = some (t, rest)) :
    readItem size stop s = .ok (t, trimStart rest) := by
  simp [readItem, h, hq]

theorem readItem_of_bare {stop : Char → Bool} (h : (trimStart s).head? ≠ some '"') :
    readItem size stop s = .ok (trimEnd ((trimStart s).takeWhile fun c => !stop c),
      (trimStart s).dropWhile fun c => !stop c) := by
  unfold readItem
  split
  · rename_i hs
    rw [hs] at h
    exact absurd rfl h
  · rfl

structure IsStop (stop : Char → Bool) (stops : List Char) : Prop where
  mem : ∀ c, stop c = true ↔ c ∈ stops
  notBlank : ∀ c ∈ stops, isBlank c = false
  notQuote : '"' ∉ stops

theorem isStop_comma : IsStop (· == ',') [','] :=
  ⟨fun c => by simp, by simp [isBlank], by decide⟩

theorem isStop_plain : IsStop plainStop [',', ';'] :=
  ⟨fun c => by simp [plainStop], plainStops_not_blank, by decide⟩

theorem isStop_braced : IsStop bracedStop [',', '}'] :=
  ⟨fun c => by simp [bracedStop], bracedStops_not_blank, by decide⟩

def Halts (stop : Char → Bool) (rest : Text) : Prop := ∀ c ∈ rest.head?, stop c = true

theorem head?_append_ne {c : Char} (ht : t.head? ≠ some c) (hr : rest.head? ≠ some c) :
    (t ++ rest).head? ≠ some c := by
  cases t with
  | nil => exact hr
  | cons d t => exact ht

section
variable {stop : Char → Bool}

theorem halts_nil : Halts stop [] := by
  intro c hc
  cases hc

theorem halts_cons {c : Char} (h : stop c = true) : Halts stop (c :: rest) := by
  intro d hd
  cases hd
  exact h

theorem Halts.head?_ne {c : Char} (hr : Halts stop rest) (h : stop c = false) : rest.head? ≠ some c := by
  intro hc
  have := hr c hc
  rw [h] at this
  cases this

theorem Halts.takeWhile_append (hr : Halts stop rest) (hu : ∀ c ∈ u, stop c = false) :
    (u ++ rest).takeWhile (fun c => !stop c) = u := by
  rw [List.takeWhile_append_of_pos (by simpa using hu)]
  cases rest with
  | nil => simp
  | cons c r => simp [hr c rfl]

theorem Halts.dropWhile_append (hr : Halts stop rest) (hu : ∀ c ∈ u, stop c = false) :
    (u ++ rest).dropWhile (fun c => !stop c) = rest := by
  rw [List.dropWhile_append_of_pos (by simpa using hu)]
  cases rest with
  | nil => rfl
  | cons c r => simp [hr c rfl]

end

section
variable {stop : Char → Bool} {stops : List Char} (hst : IsStop stop stops)
include hst

theorem IsStop.eq_false {c : Char} (h : c ∉ stops) : stop c = false := by
  rw [← hst.mem c] at h
  simpa using h

theorem Halts.trimStart_eq (hr : Halts stop rest) : trimStart rest = rest := by
  cases rest with
  | nil => rfl
  | cons c r => exact trimStart_cons (hst.notBlank c ((hst.mem c).1 (hr c rfl)))

theorem readItem_sound (h : readItem size stop s = .ok (t, rest)) :
    ∃ u, s = u ++ rest ∧ ItemText stops u t ∧ trimStart rest = rest := by
  obtain ⟨a, ha, hs⟩ := exists_blank_append_trimStart s
  by_cases hh : (trimStart s).head? = some '"'
  · obtain ⟨r, hr⟩ := List.head?_eq_some_iff.1 hh
    cases hq : readQuoted r with
    | none => simp [readItem, hr, hq] at h
    | some p =>
      obtain ⟨v, e⟩ := p
      rw [readItem_of_quote hr hq] at h
      cases h
      obtain ⟨q, hqt, rfl⟩ := readQuoted_sound hq
      obtain ⟨b, hb, he⟩ := exists_blank_append_trimStart e
      refine ⟨a ++ '"' :: q ++ '"' :: b, ?_, .quoted ha hqt hb, trimStart_trimStart e⟩
      rw [hs, hr, he, trimStart_append hb, trimStart_trimStart]
      simp
  · rw [readItem_of_bare hh] at h
    cases h
    -- a bare item goes up to the first character that stops it
    have hhalt : Halts stop ((trimStart s).dropWhile fun c => !stop c) := by
      intro c hc
      have := List.head?_dropWhile_not (fun c => !stop c) (trimStart s)
      rw [hc] at this
      simpa using this
    have hbare : ∀ c ∈ (trimStart s).takeWhile fun c => !stop c, c ∉ stops := by
      intro c hc
      have := List.mem_takeWhile_imp hc
      rw [← hst.mem c]
      simpa using this
    have hhead : ((trimStart s).takeWhile fun c => !stop c).head? ≠ some '"' := by
      rw [List.head?_takeWhile]
      intro hq
      exact hh (Option.eq_some_of_filter_eq_some hq)
    refine ⟨a ++ (trimStart s).takeWhile fun c => !stop c, ?_, ?_, hhalt.trimStart_eq hst⟩
    · rw [List.append_assoc, List.takeWhile_append_dropWhile, ← hs]
    · have hi : ItemText stops ((trimStart s).takeWhile fun c => !stop c)
          (trim ((trimStart s).takeWhile fun c => !stop c)) :=
        .bare hbare (by rwa [trimStart_takeWhile])
      rw [trim, trimStart_takeWhile] at hi
      exact hi.blank_append hst.notBlank ha

theorem readItem_complete (h : ItemText stops u t) (hr : Halts stop rest) :
    readItem size stop (u ++ rest) = .ok (t, rest) := by
  have hrest := hr.trimStart_eq hst
  cases h with
  | @quoted a q _ b ha hq hb =>
    have hs : trimStart (a ++ '"' :: q ++ '"' :: b ++ rest) = '"' :: (q ++ '"' :: (b ++ rest)) := by
      rw [List.append_assoc, List.append_assoc, trimStart_append ha, List.cons_append,
        trimStart_cons (by decide)]
      simp
    rw [readItem_of_quote hs (readQuoted_complete hq), trimStart_append hb, hrest]
  | bare hu hh =>
    have hs : trimStart (u ++ rest) = trimStart u ++ rest := trimStart_append_of_trimStart hrest
    have hnot : ∀ c ∈ trimStart u, stop c = false := by
      intro c hc
      apply hst.eq_false
      exact hu c ((List.dropWhile_sublist isBlank).subset hc)
    have hhead : (trimStart (u ++ rest)).head? ≠ some '"' := by
      rw [hs]
      exact head?_append_ne hh (hr.head?_ne (hst.eq_false hst.notQuote))
    rw [readItem_of_bare hhead, hs, hr.takeWhile_append hnot, hr.dropWhile_append hnot, trim]

end

theorem readItems_sound {items : List Text} (h : readItems size s = .ok (items, rest)) :
    ∃ u, s = u ++ rest ∧ Separated ';' (ItemText [',', ';']) u items ∧ trimStart rest = rest := by
  fun_induction readItems size s generalizing items rest with
  | case1 => cases h
  | case2 s item r hr ih =>
    obtain ⟨⟨is, e⟩, hq, he⟩ := map_eq_ok_iff.1 h
    cases he
    obtain ⟨u, rfl, hu, -⟩ := readItem_sound isStop_plain hr
    obtain ⟨v, rfl, hv, hrest⟩ := ih hq
    exact ⟨u ++ ';' :: v, by simp, .more hu hv, hrest⟩
  | case3 s item r _ hr =>
    cases h
    obtain ⟨u, hs, hu, hrest⟩ := readItem_sound isStop_plain hr
    exact ⟨u, hs, .one hu, hrest⟩

theorem readItems_last (h : readItem size plainStop s = .ok (t, rest)) (hne : ∀ r, rest ≠ ';' :: r) :
    readItems size s = .ok ([t], rest) := by
  rw [readItems]
  split
  · simp_all
  · rename_i r he
    rw [h] at he
    cases he
    exact absurd rfl (hne r)
  · simp_all

theorem readItems_next (h : readItem size plainStop s = .ok (t, ';' :: u)) :
    readItems size s = (readItems size u).map fun (items, rest) => (t :: items, rest) := by
  rw [readItems]
  split <;> simp_all

theorem readItems_complete {items : List Text} (h : Separated ';' (ItemText [',', ';']) u items)
    (hr : Halts (· == ',') rest) : readItems size (u ++ rest) = .ok (items, rest) := by
  induction h with
  | one h =>
    have hh : Halts plainStop rest := fun c hc => by simp [plainStop, beq_iff_eq.1 (hr c hc)]
    refine readItems_last (readItem_complete isStop_plain h hh) ?_
    rintro r rfl
    exact hr.head?_ne (by decide) rfl
  | more h _ ih =>
    rw [List.append_assoc, List.cons_append,
      readItems_next (readItem_complete isStop_plain h (halts_cons rfl)), ih]
    rfl

/-! ## Lists in braces -/

theorem readBraced_sound {items : List Text} (h : readBraced size s = .ok (items, rest)) :
    ∃ u, s = u ++ '}' :: rest ∧ Separated ',' (ItemText [',', '}']) u items := by
  fun_induction readBraced size s generalizing items rest with
  | case1 => cases h
  | case2 s item r hr ih =>
    obtain ⟨⟨is, e⟩, hq, he⟩ := map_eq_ok_iff.1 h
    cases he
    obtain ⟨u, rfl, hu, -⟩ := readItem_sound isStop_braced hr
    obtain ⟨v, rfl, hv⟩ := ih hq
    exact ⟨u ++ ',' :: v, by simp, .more hu hv⟩
  | case3 s item r hr =>
    cases h
    obtain ⟨u, hs, hu, -⟩ := readItem_sound isStop_braced hr
    exact ⟨u, hs, .one hu⟩
  | case4 => cases h

theorem readBraced_last (h : readItem size bracedStop s = .ok (t, '}' :: rest)) :
    readBraced size s = .ok ([t], rest) := by
  rw [readBraced]
  split <;> simp_all

theorem readBraced_next (h : readItem size bracedStop s = .ok (t, ',' :: u)) :
    readBraced size s = (readBraced size u).map fun (items, rest) => (t :: items, rest) := by
  rw [readBraced]
  split <;> simp_all

theorem readBraced_complete {items : List Text} (h : Separated ',' (ItemText [',', '}']) u items) :
    readBraced size (u ++ '}' :: rest) = .ok (items, rest) := by
  induction h with
  | one h =>
    apply readBraced_last
    exact readItem_complete isStop_braced h (halts_cons rfl)
  | more h _ ih =>
    rw [List.append_assoc, List.cons_append,
      readBraced_next (readItem_complete isStop_braced h (halts_cons rfl)), ih]
    rfl

/-! ## Values -/

theorem readValue_empty (h : trimStart s = '{' :: u) (hu : trimStart u = '}' :: rest) :
    readValue size s = .ok (.list [], rest) := by
  simp [readValue, h, hu]

theorem readValue_braced (h : trimStart s = '{' :: u) (hu : (trimStart u).head? ≠ some '}') :
    readValue size s = (readBraced size (trimStart u)).map fun (items, rest) => (.list items, rest) := by
  simp only [readValue, h]
  split
  · rename_i he
    rw [he] at hu
    exact absurd rfl hu
  · rfl

theorem readValue_plain (h : (trimStart s).head? ≠ some '{') :
    readValue size s =
      (readItems size (trimStart s)).map fun (items, rest) => (Value.ofItems items, rest) := by
  unfold readValue
  split
  · rename_i he
    rw [he] at h
    exact absurd rfl h
  · rfl

theorem ValueText.ofItems {items : List Text} (hh : (trimStart s).head? ≠ some '{')
    (h : Separated ';' (ItemText [',', ';']) s items) : ValueText s (Value.ofItems items) := by
  cases h with
  | one h => exact .single hh h
  | @more u r a as h hr =>
    obtain ⟨b, bs, rfl⟩ := List.exists_cons_of_ne_nil hr.ne_nil
    exact .several hh (by simp) (.more h hr)

theorem readValue_sound {v : Value} (h : readValue size s = .ok (v, rest)) :
    ∃ u, s = u ++ rest ∧ ValueText u v := by
  obtain ⟨a, ha, hs⟩ := exists_blank_append_trimStart s
  by_cases hh : (trimStart s).head? = some '{'
  · obtain ⟨r, hr⟩ := List.head?_eq_some_iff.1 hh
    obtain ⟨b, hb, hrb⟩ := exists_blank_append_trimStart r
    by_cases hc : (trimStart r).head? = some '}'
    · obtain ⟨e, he⟩ := List.head?_eq_some_iff.1 hc
      rw [readValue_empty hr he] at h
      cases h
      refine ⟨a ++ '{' :: b ++ '}' :: [], ?_, .empty ha hb (by simp [AllBlank])⟩
      rw [hs, hr, hrb, he]
      simp
    · rw [readValue_braced hr hc] at h
      obtain ⟨⟨items, e⟩, hq, he⟩ := map_eq_ok_iff.1 h
      cases he
      obtain ⟨u, hu, hi⟩ := readBraced_sound hq
      -- after blanks alone the closing brace would have come first
      have hne : ¬AllBlank (b ++ u) := by
        intro hbu
        have hblank := (allBlank_append.1 hbu).2
        rw [← trimStart_trimStart, hu, trimStart_append hblank] at hc
        exact hc rfl
      refine ⟨a ++ '{' :: (b ++ u) ++ '}' :: [], ?_, .braced ha hne (by simp [AllBlank]) ?_⟩
      · rw [hs, hr, hrb, hu]
        simp
      · exact hi.prepend fun h => h.blank_append bracedStops_not_blank hb
  · rw [readValue_plain hh] at h
    obtain ⟨⟨items, e⟩, hq, he⟩ := map_eq_ok_iff.1 h
    cases he
    obtain ⟨u, hu, hi, -⟩ := readItems_sound hq
    have hhu : (trimStart u).head? ≠ some '{' := by
      cases u with
      | nil => simp [trimStart]
      | cons c u =>
        rw [trimStart_cons (not_isBlank_of_trimStart hu)]
        rwa [hu] at hh
    refine ⟨a ++ u, by rw [List.append_assoc, ← hu, ← hs], ?_⟩
    exact (ValueText.ofItems hhu hi).blank_append ha

theorem ofItems_of_length {items : List Text} (h : 2 ≤ items.length) :
    Value.ofItems items = .list items := by
  match items, h with
  | _ :: _ :: _, _ => rfl

theorem ItemText.head?_ne {stops : List Char} {c : Char} (h : ItemText stops s t) (hc : c ∈ stops)
    (hq : c ≠ '"') : (trimStart s).head? ≠ some c := by
  cases h with
  | quoted ha =>
    rw [List.append_assoc, trimStart_append ha, List.cons_append, trimStart_cons (by decide)]
    rintro ⟨⟩
    exact hq rfl
  | bare hs =>
    intro hh
    exact hs c ((List.dropWhile_sublist _).subset (List.mem_of_mem_head? hh)) hc

/-- The first item of a list does not start with the brace that would end it. -/
theorem head?_ne_close {items : List Text} (h : Separated ',' (ItemText [',', '}']) s items) :
    (trimStart s).head? ≠ some '}' := by
  cases h with
  | one h => exact h.head?_ne (by simp) (by decide)
  | @more u r a as h =>
    rw [trimStart_append_of_trimStart (trimStart_cons (by decide))]
    apply head?_append_ne (h.head?_ne (by simp) (by decide))
    simp

theorem readValue_complete {v : Value} (h : ValueText u v) (hr : Halts (· == ',') rest) :
    ∃ e, readValue size (u ++ rest) = .ok (v, e) ∧ trimStart e = rest := by
  have hrest := hr.trimStart_eq isStop_comma
  have hplain : ∀ {items}, (trimStart u).head? ≠ some '{' →
      Separated ';' (ItemText [',', ';']) u items →
      readValue size (u ++ rest) = .ok (Value.ofItems items, rest) := by
    intro items hh hi
    have hi := hi.trimmed (by decide) fun h => h.trimmed
    rw [readValue_plain, trimStart_append_of_trimStart hrest, readItems_complete hi hr]
    · rfl
    · rw [trimStart_append_of_trimStart hrest]
      exact head?_append_ne hh (hr.head?_ne (by decide))
  cases h with
  | @empty a b c ha hb hc =>
    refine ⟨c ++ rest, readValue_empty (u := b ++ '}' :: (c ++ rest)) ?_ ?_, by rw [trimStart_append hc, hrest]⟩
    · rw [List.append_assoc, List.append_assoc, trimStart_append ha, List.cons_append,
        trimStart_cons (by decide)]
      simp
    · rw [trimStart_append hb, trimStart_cons (by decide)]
  | @braced a m c items ha hm hc hi =>
    refine ⟨c ++ rest, ?_, by rw [trimStart_append hc, hrest]⟩
    have hh := head?_ne_close hi
    have hi := hi.trimmed (by decide) fun h => h.trimmed
    rw [readValue_braced (u := m ++ '}' :: (c ++ rest)), trimStart_append_of_not_allBlank hm,
      readBraced_complete hi]
    · rfl
    · rw [List.append_assoc, List.append_assoc, trimStart_append ha, List.cons_append,
        trimStart_cons (by decide)]
      simp
    · rw [trimStart_append_of_not_allBlank hm, List.head?_append_of_ne_nil _ (mt trimStart_eq_nil_iff.1 hm)]
      exact hh
  | single hh hi => exact ⟨rest, hplain hh (.one hi), hrest⟩
  | several hh hl hi => exact ⟨rest, by rw [hplain hh hi, ofItems_of_length hl], hrest⟩

/-! ## Arguments -/

theorem readArgument_sound {key : Text} {v : Value} (hk : readKey size s = .ok (key, t))
    (hv : readValue size t = .ok (v, rest)) : ∃ u, s = u ++ trimStart rest ∧ ArgumentText u ⟨key, v⟩ := by
  obtain ⟨k, rfl, he, hc, hb, rfl⟩ := readKey_sound hk
  obtain ⟨u, rfl, hu⟩ := readValue_sound hv
  obtain ⟨b, hbb, hrest⟩ := exists_blank_append_trimStart rest
  refine ⟨k ++ '=' :: (u ++ b), ?_, .pair hb he hc (hu.append_blank hbb)⟩
  rw [List.append_assoc, List.cons_append, List.append_assoc, ← hrest]

theorem readArguments_sound {args : List Argument} (h : readArguments size s = .ok args) :
    Separated ',' ArgumentText s args := by
  fun_induction readArguments size s generalizing args with
  | case1 => cases h
  | case2 => cases h
  | case3 s key r hk value r' hv hr =>
    cases h
    obtain ⟨u, rfl, hu⟩ := readArgument_sound hk hv
    rw [hr, List.append_nil]
    exact .one hu
  | case4 s key r hk value r' hv rest hr ih =>
    obtain ⟨as, hq, rfl⟩ := map_eq_ok_iff.1 h
    obtain ⟨u, rfl, hu⟩ := readArgument_sound hk hv
    rw [hr]
    exact .more hu (ih hq)
  | case5 => cases h

theorem readArguments_last {key : Text} {v : Value} (hk : readKey size s = .ok (key, t))
    (hv : readValue size t = .ok (v, u)) (hu : trimStart u = []) :
    readArguments size s = .ok [⟨key, v⟩] := by
  rw [readArguments]
  split <;> simp_all
  split <;> simp_all
  split <;> simp_all

theorem readArguments_next {key : Text} {v : Value} (hk : readKey size s = .ok (key, t))
    (hv : readValue size t = .ok (v, u)) (hu : trimStart u = ',' :: rest) :
    readArguments size s = (readArguments size rest).map (⟨key, v⟩ :: ·) := by
  rw [readArguments]
  split <;> simp_all
  split <;> simp_all
  split <;> simp_all

theorem readArguments_complete {args : List Argument} (h : Separated ',' ArgumentText s args) :
    readArguments size s = .ok args := by
  induction h with
  | one h =>
    cases h with
    | @pair k v value hb he hc hv =>
      obtain ⟨e, hv, he'⟩ := readValue_complete hv halts_nil
      rw [List.append_nil] at hv
      exact readArguments_last (readKey_complete he hc hb) hv he'
  | @more _ r a as h _ ih =>
    cases h with
    | @pair k v value hb he hc hv =>
      have hh : Halts (· == ',') (',' :: r) := halts_cons rfl
      obtain ⟨e, hv, he'⟩ := readValue_complete hv hh
      rw [List.append_assoc, List.cons_append,
        readArguments_next (readKey_complete he hc hb) hv he', ih]
      rfl

theorem parse_sound {args : List Argument} (h : parse s = .ok args) : ArgumentsText s args := by
  unfold parse at h
  split at h
  · rename_i hs
    cases h
    exact .blank (trimStart_eq_nil_iff.1 hs)
  · obtain ⟨a, ha, hs⟩ := exists_blank_append_trimStart s
    rw [hs]
    exact .arguments ((readArguments_sound h).prepend fun h => h.blank_append ha)

theorem parse_complete {args : List Argument} (h : ArgumentsText s args) : parse s = .ok args := by
  unfold parse
  cases h with
  | blank h => rw [trimStart_eq_nil_iff.2 h]
  | arguments h =>
    have ht := h.trimmed (by decide) fun h => h.trimmed
    split
    · rename_i hs
      exact absurd (trimStart_eq_nil_iff.1 hs) (arguments_not_allBlank h)
    · exact readArguments_complete ht

/-- The grammar says what an argument text means, and nothing else is accepted. -/
theorem parse_eq_ok_iff {args : List Argument} : parse s = .ok args ↔ ArgumentsText s args :=
  ⟨parse_sound, parse_complete⟩

end ScenarioDocs.Marker
