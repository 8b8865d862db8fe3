import ScenarioDocs.Json.Printer
import ScenarioDocs.Json.Reader
import ScenarioDocs.Proofs.Text.Hex

/-!
# Reading printed JSON

`parse?_pretty`: the reader gets back every value that holds no numbers from
the text the printer makes of it. The levels the reader allows are never used
up, because a value is printed with a bracket of its own for each of them.
-/

namespace ScenarioDocs.Json

variable {c : Char} {t s rest pad : Text} {j item : Json} {items : List Json}
  {key : Text} {value : Json} {members : List (Text × Json)} {level below levels : Nat}
  {read : Text → Option (Json × Text)}

/-! ## Strings -/

theorem readUnits_of_readHex (h : Text.readHex 4 s = some (c.toNat, rest)) :
    readUnits s = some (c, rest) := by
  have hc : c.toNat.isValidChar := c.valid
  simp [readUnits, h, hc]

theorem escape_cases (c : Char) :
    (∃ e, escape c = '\\' :: e ∧ ∀ s, readEscape (e ++ s) = some (c, s)) ∨
      escape c = [c] ∧ c ≠ '"' ∧ c ≠ '\\' ∧ ¬c.toNat < 0x20 := by
  by_cases hquote : c = '"'
  · subst hquote; exact .inl ⟨['"'], rfl, fun _ => rfl⟩
  by_cases hback : c = '\\'
  · subst hback; exact .inl ⟨['\\'], rfl, fun _ => rfl⟩
  by_cases hb : c = '\x08'
  · subst hb; exact .inl ⟨['b'], rfl, fun _ => rfl⟩
  by_cases hf : c = '\x0c'
  · subst hf; exact .inl ⟨['f'], rfl, fun _ => rfl⟩
  by_cases hn : c = '\n'
  · subst hn; exact .inl ⟨['n'], rfl, fun _ => rfl⟩
  by_cases hr : c = '\r'
  · subst hr; exact .inl ⟨['r'], rfl, fun _ => rfl⟩
  by_cases ht : c = '\t'
  · subst ht; exact .inl ⟨['t'], rfl, fun _ => rfl⟩
  rw [escape, if_neg hquote, if_neg hback, if_neg hb, if_neg hf, if_neg hn, if_neg hr, if_neg ht]
  by_cases hlow : c.toNat < 0x10
  · refine .inl ⟨'u' :: ("000" ++ Text.hex c.toNat), by rw [if_pos hlow]; rfl, fun s => ?_⟩
    have h := Text.readHex_of_lt (s := s) Text.keepsDigits_id hlow
    rw [List.map_id] at h
    exact readUnits_of_readHex h
  rw [if_neg hlow]
  by_cases hhigh : c.toNat < 0x20
  · refine .inl ⟨'u' :: ("00" ++ Text.hex c.toNat), by rw [if_pos hhigh]; rfl, fun s => ?_⟩
    have h := Text.readHex_two (s := s) Text.keepsDigits_id (Nat.le_of_not_lt hlow) (by omega)
    rw [List.map_id] at h
    exact readUnits_of_readHex h
  · exact .inr ⟨if_neg hhigh, hquote, hback, hhigh⟩

theorem readString_escape (t rest : Text) :
    readString (t.flatMap escape ++ '"' :: rest) = some (t, rest) := by
  induction t with
  | nil => rw [List.flatMap_nil, List.nil_append, readString]
  | cons c t ih =>
    rw [List.flatMap_cons, List.append_assoc]
    obtain ⟨e, he, hread⟩ | ⟨he, hquote, hback, hc⟩ := escape_cases c
    · rw [he, List.cons_append, readString, hread]
      simp [ih]
    · rw [he, List.singleton_append, readString, if_neg hc, ih]
      · rfl
      · exact hquote
      · exact hback

/-! ## Blanks -/

theorem forall_mem_newLine (level : Nat) : ∀ c ∈ newLine level, isSpace c := by
  intro c hc
  rw [newLine, List.mem_cons, List.mem_replicate] at hc
  obtain rfl | ⟨-, rfl⟩ := hc
  · rfl
  · rfl

theorem skipSpaces_append (hpad : ∀ c ∈ pad, isSpace c) : skipSpaces (pad ++ s) = skipSpaces s :=
  List.dropWhile_append_of_pos hpad

theorem skipSpaces_cons (hc : isSpace c = false) : skipSpaces (c :: s) = c :: s :=
  List.dropWhile_cons_of_neg (by simp [hc])

theorem skipSpaces_newLine (hc : isSpace c = false) : skipSpaces (newLine level ++ c :: s) = c :: s := by
  rw [skipSpaces_append (forall_mem_newLine level), skipSpaces_cons hc]

/-! ## Arrays and objects -/

inductive Numberless : Json → Prop
  | null : Numberless .null
  | bool (b : Bool) : Numberless (.bool b)
  | string (t : Text) : Numberless (.string t)
  | array {items : List Json} (h : ∀ j ∈ items, Numberless j) : Numberless (.array items)
  | object {members : List (Text × Json)} (h : ∀ m ∈ members, Numberless m.2) :
      Numberless (.object members)

theorem Numberless.print_eq_cons (hj : j.Numberless) (level : Nat) :
    ∃ c s, print level j = c :: s ∧ isSpace c = false ∧ c ≠ ']' := by
  cases hj with
  | null => exact ⟨'n', _, rfl, rfl, by decide⟩
  | bool b =>
    cases b with
    | false => exact ⟨'f', _, rfl, rfl, by decide⟩
    | true => exact ⟨'t', _, rfl, rfl, by decide⟩
  | string t => exact ⟨'"', _, rfl, rfl, by decide⟩
  | @array items _ =>
    cases items with
    | nil => exact ⟨'[', _, rfl, rfl, by decide⟩
    | cons item items => exact ⟨'[', _, rfl, rfl, by decide⟩
  | @object members _ =>
    cases members with
    | nil => exact ⟨'\x7b', _, rfl, rfl, by decide⟩
    | cons m members => exact ⟨'\x7b', _, rfl, rfl, by decide⟩

/-! ### Items and members

A reader of values is taken to get values back from their texts at one level;
then so do the loops over items and members. -/

def Reads (read : Text → Option (Json × Text)) (level : Nat) (j : Json) : Prop :=
  ∀ pad s, (∀ c ∈ pad, isSpace c) → read (skipSpaces (pad ++ (print level j ++ s))) = some (j, s)

theorem printItems_cons :
    printItems level (j :: items) = "," ++ newLine level ++ print level j ++ printItems level items := rfl

theorem printItems_append :
    printItems level (j :: items) ++ s =
      ',' :: (newLine level ++ (print level j ++ (printItems level items ++ s))) := by
  simp [printItems_cons]

theorem printMembers_cons :
    printMembers level ((key, value) :: members) =
      "," ++ newLine level ++ quote key ++ ": " ++ print level value ++ printMembers level members := rfl

theorem printMembers_append :
    printMembers level ((key, value) :: members) ++ s =
      ',' :: (newLine level ++ '"' :: (key.flatMap escape ++ '"' :: ':' :: ' ' ::
        (print level value ++ (printMembers level members ++ s)))) := by
  simp [printMembers_cons, quote]

theorem readItems_last (hitem : read (skipSpaces s) = some (j, t)) (ht : skipSpaces t = ']' :: rest) :
    readItems read s = some ([j], rest) := by
  rw [readItems, hitem]
  simp [ht]

theorem readItems_more (hitem : read (skipSpaces s) = some (j, t)) (ht : skipSpaces t = ',' :: rest)
    (hlength : rest.length < s.length) :
    readItems read s = (readItems read rest).map fun (vs, r) => (j :: vs, r) := by
  rw [readItems, hitem]
  simp [ht, hlength]

theorem readItems_print (hread : ∀ j ∈ item :: items, Reads read level j)
    (hpad : ∀ c ∈ pad, isSpace c) (below : Nat) (rest : Text) :
    readItems read (pad ++ (print level item ++ (printItems level items ++
      (newLine below ++ ']' :: rest)))) = some (item :: items, rest) := by
  have hitem := hread item (List.mem_cons_self ..) pad
  induction items generalizing item pad with
  | nil =>
    apply readItems_last (hitem _ hpad)
    rw [printItems, List.nil_append, skipSpaces_newLine rfl]
  | cons next items ih =>
    have hitems := ih (fun j hm => hread j (List.mem_cons_of_mem _ hm)) (forall_mem_newLine level)
      (hread next (by simp) (newLine level))
    rw [printItems_append, readItems_more (hitem _ hpad) (skipSpaces_cons rfl), hitems]
    · rfl
    · simp only [List.length_append, List.length_cons]
      omega

theorem readMember_print (hread : Reads read level value) (hpad : ∀ c ∈ pad, isSpace c) (key s : Text) :
    readMember read (pad ++ '"' :: (key.flatMap escape ++ '"' :: ':' :: ' ' :: (print level value ++ s))) =
      some (key, value, s) := by
  have hvalue := hread [' '] s (by simp [isSpace])
  rw [List.singleton_append] at hvalue
  rw [readMember, skipSpaces_append hpad, skipSpaces_cons rfl]
  simp only [readString_escape]
  rw [skipSpaces_cons rfl]
  simp [hvalue]

theorem readMembers_last (hmember : readMember read s = some (key, value, t))
    (ht : skipSpaces t = '}' :: rest) : readMembers read s = some ([(key, value)], rest) := by
  rw [readMembers, hmember]
  simp [ht]

theorem readMembers_more (hmember : readMember read s = some (key, value, t))
    (ht : skipSpaces t = ',' :: rest) (hlength : rest.length < s.length) :
    readMembers read s = (readMembers read rest).map fun (ms, r) => ((key, value) :: ms, r) := by
  rw [readMembers, hmember]
  simp [ht, hlength]

theorem readMembers_print (hread : ∀ m ∈ (key, value) :: members, Reads read level m.2)
    (hpad : ∀ c ∈ pad, isSpace c) (below : Nat) (rest : Text) :
    readMembers read (pad ++ '"' :: (key.flatMap escape ++ '"' :: ':' :: ' ' :: (print level value ++
      (printMembers level members ++ (newLine below ++ '\x7d' :: rest))))) =
        some ((key, value) :: members, rest) := by
  have hmember := readMember_print (hread (key, value) (List.mem_cons_self ..)) hpad key
  induction members generalizing key value pad with
  | nil =>
    apply readMembers_last (hmember _)
    rw [printMembers, List.nil_append, skipSpaces_newLine rfl]
  | cons next members ih =>
    obtain ⟨k, v⟩ := next
    have hmembers := ih (fun m hm => hread m (List.mem_cons_of_mem _ hm)) (forall_mem_newLine level)
      (readMember_print (hread (k, v) (by simp)) (forall_mem_newLine level) k)
    rw [printMembers_append, readMembers_more (hmember _) (skipSpaces_cons rfl), hmembers]
    · rfl
    · simp only [List.length_append, List.length_cons]
      omega

/-! ### Values -/

theorem print_array_cons :
    print level (.array (item :: items)) =
      "[" ++ newLine (level + 1) ++ print (level + 1) item ++ printItems (level + 1) items ++
        newLine level ++ "]" := rfl

theorem print_object_cons :
    print level (.object ((key, value) :: members)) =
      "\x7b" ++ newLine (level + 1) ++ quote key ++ ": " ++ print (level + 1) value ++
        printMembers (level + 1) members ++ newLine level ++ "\x7d" := rfl

theorem print_array_append :
    print level (.array (item :: items)) ++ s =
      '[' :: (newLine (level + 1) ++ (print (level + 1) item ++ (printItems (level + 1) items ++
        (newLine level ++ ']' :: s)))) := by
  simp [print_array_cons]

theorem print_object_append :
    print level (.object ((key, value) :: members)) ++ s =
      '\x7b' :: (newLine (level + 1) ++ '"' :: (key.flatMap escape ++ '"' :: ':' :: ' ' ::
        (print (level + 1) value ++ (printMembers (level + 1) members ++
          (newLine level ++ '\x7d' :: s))))) := by
  simp [print_object_cons, quote]

theorem length_print_lt_items (level : Nat) (hm : j ∈ items) :
    (print level j).length < (printItems level items).length := by
  induction items with
  | nil => simp at hm
  | cons item items ih =>
    simp [printItems_cons]
    obtain rfl | hm := List.mem_cons.1 hm
    · omega
    · have := ih hm
      omega

theorem length_print_lt_members {m : Text × Json} (level : Nat) (hm : m ∈ members) :
    (print level m.2).length < (printMembers level members).length := by
  induction members with
  | nil => simp at hm
  | cons next members ih =>
    obtain ⟨key, value⟩ := next
    simp [printMembers_cons]
    obtain rfl | hm := List.mem_cons.1 hm
    · dsimp only
      omega
    · have := ih hm
      omega

theorem length_print_lt_array (level : Nat) (hm : j ∈ items) :
    (print (level + 1) j).length < (print level (.array items)).length := by
  have h := length_print_lt_items (level + 1) hm
  cases items with
  | nil => simp at hm
  | cons item items =>
    simp [printItems_cons, print_array_cons] at h ⊢
    omega

theorem length_print_lt_object {m : Text × Json} (level : Nat) (hm : m ∈ members) :
    (print (level + 1) m.2).length < (print level (.object members)).length := by
  have h := length_print_lt_members (level + 1) hm
  cases members with
  | nil => simp at hm
  | cons next members =>
    obtain ⟨key, value⟩ := next
    simp [printMembers_cons, print_object_cons] at h ⊢
    omega

theorem Numberless.skipSpaces_print (hj : j.Numberless) (hpad : ∀ c ∈ pad, isSpace c) (level : Nat)
    (s : Text) :
    skipSpaces (pad ++ (print level j ++ s)) = print level j ++ s := by
  obtain ⟨c, r, hr, hc, -⟩ := hj.print_eq_cons level
  rw [skipSpaces_append hpad, hr, List.cons_append, skipSpaces_cons hc]

theorem readValue_array (hs : skipSpaces s = c :: t) (hc : c ≠ ']') :
    readValue (levels + 1) ('[' :: s) =
      (readItems (readValue levels) (c :: t)).map fun (items, rest) => (.array items, rest) := by
  rw [readValue]
  simp only [hs]
  split
  · simp_all
  · rfl

theorem readValue_object (hs : skipSpaces s = '"' :: t) :
    readValue (levels + 1) ('\x7b' :: s) =
      (readMembers (readValue levels) ('"' :: t)).map fun (members, rest) => (.object members, rest) := by
  rw [readValue]
  simp only [hs]
  rfl

theorem Numberless.reads (hj : j.Numberless)
    (h : ∀ s, read (print level j ++ s) = some (j, s)) : Reads read level j := by
  intro pad s hpad
  rw [hj.skipSpaces_print hpad, h]

theorem readValue_items (hj : item.Numberless)
    (hread : ∀ j ∈ item :: items, Reads (readValue levels) (level + 1) j) :
    readValue (levels + 1) (print level (.array (item :: items)) ++ s) =
      some (.array (item :: items), s) := by
  obtain ⟨c, r, hr, -, hc⟩ := hj.print_eq_cons (level + 1)
  have hitems := readItems_print hread (List.forall_mem_nil _) level s
  rw [List.nil_append, hr, List.cons_append] at hitems
  rw [print_array_append, readValue_array _ hc, hitems]
  · rfl
  · rw [hj.skipSpaces_print (forall_mem_newLine _), hr, List.cons_append]

theorem readValue_members
    (hread : ∀ m ∈ (key, value) :: members, Reads (readValue levels) (level + 1) m.2) :
    readValue (levels + 1) (print level (.object ((key, value) :: members)) ++ s) =
      some (.object ((key, value) :: members), s) := by
  have hmembers := readMembers_print hread (List.forall_mem_nil _) level s
  rw [List.nil_append] at hmembers
  rw [print_object_append, readValue_object (skipSpaces_newLine rfl), hmembers]
  rfl

/-- By induction on the value; an item is shorter than its array, so one level less is enough. -/
theorem Numberless.readValue_print (hj : j.Numberless) (hlevels : (print level j).length < levels) :
    readValue levels (print level j ++ s) = some (j, s) := by
  induction hj generalizing level levels s with
  | null => cases levels with
    | zero => cases hlevels
    | succ levels => rfl
  | bool b => cases levels with
    | zero => cases hlevels
    | succ levels => cases b <;> rfl
  | string t => cases levels with
    | zero => cases hlevels
    | succ levels =>
      show readValue (levels + 1) (quote t ++ s) = _
      simp [quote, readValue, readString_escape]
  | @array items hj ih => cases levels with
    | zero => cases hlevels
    | succ levels => cases items with
      | nil => rfl
      | cons item items =>
        apply readValue_items (hj item (List.mem_cons_self ..))
        intro j hm
        have := length_print_lt_array level hm
        exact (hj j hm).reads fun s => ih j hm (by omega)
  | @object members hj ih => cases levels with
    | zero => cases hlevels
    | succ levels => cases members with
      | nil => rfl
      | cons next members =>
        obtain ⟨key, value⟩ := next
        apply readValue_members
        intro m hm
        have := length_print_lt_object level hm
        exact (hj m hm).reads fun s => ih m hm (by omega)

theorem Numberless.parse?_pretty (hj : j.Numberless) : parse? j.pretty = some j := by
  have hskip := hj.skipSpaces_print (List.forall_mem_nil _) 0 []
  have hread := hj.readValue_print (s := []) (Nat.lt_succ_self (print 0 j).length)
  rw [List.nil_append, List.append_nil] at hskip
  rw [List.append_nil] at hread
  rw [parse?, pretty, hskip, hread]
  rfl

end ScenarioDocs.Json
