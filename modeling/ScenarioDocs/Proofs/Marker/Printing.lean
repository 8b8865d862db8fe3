import ScenarioDocs.Marker.Printer
import ScenarioDocs.Proofs.Marker.Reading
import ScenarioDocs.Proofs.Source.Spelling

/-!
# Printed arguments

Printing gives every list of arguments whose keys can stand in a text an
argument text of its own. The keys that a text can bring about are no others,
so whatever was read once may be printed and read again.
-/

namespace ScenarioDocs.Marker

open Text

variable {s key : Text} {arg : Argument} {args : List Argument}

/-! ## Keys -/

theorem isKey_iff : IsKey key ↔ key ≠ [] ∧ (∀ c ∈ key.head?, isBlank c = false) ∧
    (∀ c ∈ key.getLast?, isBlank c = false) ∧ '=' ∉ key ∧ ',' ∉ key := by
  constructor
  · rintro ⟨hne, htrim, heq, hcomma⟩
    obtain ⟨hfirst, hlast⟩ := trim_eq_self_iff.1 htrim
    exact ⟨hne, hfirst, hlast, heq, hcomma⟩
  · rintro ⟨hne, hfirst, hlast, heq, hcomma⟩
    exact ⟨hne, trim_eq_self_iff.2 ⟨hfirst, hlast⟩, heq, hcomma⟩

theorem ArgumentText.isKey (h : ArgumentText s arg) : IsKey arg.key := by
  cases h with
  | @pair k v value hk heq hcomma hv =>
    have hsub : trim k ⊆ k := (trim_sublist k).subset
    exact ⟨mt trim_eq_nil_iff.1 hk, trim_trim k, fun h => heq (hsub h), fun h => hcomma (hsub h)⟩

theorem ArgumentsText.isKey (h : ArgumentsText s args) : ∀ arg ∈ args, IsKey arg.key := by
  cases h with
  | blank => simp
  | arguments h => exact h.forall_mem (List.Subset.refl s) fun ha _ => ha.isKey

/-! ## Printed texts belong to the grammar -/

theorem separated_join {α : Type} {sep : Char} {element : Text → α → Prop} {print : α → Text} {as : List α}
    (hne : as ≠ []) (h : ∀ a ∈ as, element (print a) a) : Separated sep element (join [sep] (as.map print)) as := by
  induction as with
  | nil => exact absurd rfl hne
  | cons a as ih =>
    have ha := h a (by simp)
    cases as with
    | nil => exact .one ha
    | cons b as =>
      have hrest := ih (by simp) fun c hc => h c (by simp [hc])
      rw [List.map_cons, List.map_cons, join, List.append_assoc]
      exact .more ha hrest

theorem itemText_printText (stops : List Char) (t : Text) : ItemText stops (printText t) t :=
  TextSpelling.quoted.itemText

theorem valueText_print (v : Value) : ValueText v.print v := by
  have hnil : AllBlank [] := by simp [AllBlank]
  cases v with
  | text t =>
    refine .single ?_ (itemText_printText _ t)
    rw [Value.print, printText, List.cons_append, trimStart_cons (by decide)]
    simp
  | list items =>
    cases items with
    | nil => exact .empty hnil hnil hnil
    | cons t ts =>
      have hitems : Separated ',' (ItemText [',', '}']) (join [','] ((t :: ts).map printText)) (t :: ts) :=
        separated_join (by simp) fun u _ => itemText_printText _ u
      have hquote : '"' ∈ join [','] ((t :: ts).map printText) := by
        cases ts <;> simp [join, printText]
      exact .braced hnil (fun hblank => hblank.not_mem (by decide) hquote) hnil hitems

theorem argumentText_print (h : IsKey arg.key) : ArgumentText arg.print arg := by
  obtain ⟨key, value⟩ := arg
  obtain ⟨hne, htrim, heq, hcomma⟩ := h
  have hpair : ArgumentText (key ++ '=' :: value.print) ⟨trim key, value⟩ :=
    .pair (mt trim_eq_nil_iff.2 (htrim.symm ▸ hne)) heq hcomma (valueText_print value)
  rwa [htrim] at hpair

theorem argumentsText_print (h : ∀ arg ∈ args, IsKey arg.key) : ArgumentsText (print args) args := by
  cases args with
  | nil => exact .blank (by simp [print, join, AllBlank])
  | cons arg args => exact .arguments (separated_join (by simp) fun a ha => argumentText_print (h a ha))

/-! ## The normal form -/

/-- Arguments can be read from some text exactly if their keys have no blanks outside and neither `=`
nor a comma, whatever their values are. Then they are read from their printed form, so printing what
was read and reading that again changes nothing. -/
theorem print_normal_form :
    (∀ key, IsKey key ↔ key ≠ [] ∧ (∀ c ∈ key.head?, isBlank c = false) ∧
      (∀ c ∈ key.getLast?, isBlank c = false) ∧ '=' ∉ key ∧ ',' ∉ key) ∧
    (∀ args, (∃ s, parse s = .ok args) ↔ ∀ arg ∈ args, IsKey arg.key) ∧
    (∀ args, (∀ arg ∈ args, IsKey arg.key) → parse (print args) = .ok args) ∧
    ∀ s args, parse s = .ok args → parse (print args) = .ok args := by
  have hread {s args} (h : parse s = .ok args) : ∀ arg ∈ args, IsKey arg.key := (parse_sound h).isKey
  have hprint {args : List Argument} (h : ∀ arg ∈ args, IsKey arg.key) : parse (print args) = .ok args :=
    parse_complete (argumentsText_print h)
  exact ⟨fun _ => isKey_iff, fun args => ⟨fun ⟨_, h⟩ => hread h, fun h => ⟨print args, hprint h⟩⟩,
    fun _ => hprint, fun _ _ h => hprint (hread h)⟩

/-- Values may hold anything, a list of one is no text, and nothing keeps a key from standing twice. -/
theorem print_normal_form_twice :
    let args : List Argument := [⟨"a b", .list ["\x7d\"", []]⟩, ⟨"a b", .list ["\\"]⟩, ⟨"\x7b", .text " ;,="⟩]
    (∀ arg ∈ args, IsKey arg.key) ∧ parse (print args) = .ok args ∧
      print args = "a b=\x7b\"\x7d\\\"\",\"\"\x7d,a b=\x7b\"\\\\\"\x7d,\x7b=\" ;,=\"".toList := by
  intro args
  have hkeys : ∀ arg ∈ args, IsKey arg.key := by
    rw [← print_normal_form.2.1]
    exact ⟨" a b = \x7b \"\x7d\\\"\" , \x7d , a b=\x7b\\\x7d,\x7b=\" ;,=\"", by decide +kernel⟩
  exact ⟨hkeys, print_normal_form.2.2.1 args hkeys, by decide⟩

end ScenarioDocs.Marker
