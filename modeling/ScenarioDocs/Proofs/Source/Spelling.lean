import ScenarioDocs.Proofs.Marker.Grammar
import ScenarioDocs.Source.Spelling

/-!
# Spelled arguments are argument texts

Every spelling of an argument belongs to the grammar of argument texts. Its
meaning there is the argument itself, but for a list of one that is spelled
like a text and only becomes a list again in its field.
-/

namespace ScenarioDocs.Marker

open Text

variable {a b s t u : Text} {stops : List Char}

theorem quotedText_escape (t : Text) : QuotedText (escape t) t := by
  induction t with
  | nil => exact .nil
  | cons c t ih =>
    unfold escape
    split
    · exact .escaped ih
    · rename_i h
      rw [not_or] at h
      exact .plain h.1 h.2 ih

theorem TextSpelling.itemText (h : TextSpelling stops t u) : ItemText stops u t := by
  cases h with
  | quoted => exact .quoted (a := []) (b := []) (by simp [AllBlank]) (quotedText_escape t) (by simp [AllBlank])
  | bare ht hs hh =>
    have hi : ItemText stops t (trim t) := .bare hs (by rwa [trimStart_eq_self ht])
    rwa [ht] at hi

theorem TextSpelling.trimStart_eq (h : TextSpelling stops t u) : trimStart u = u := by
  cases h with
  | quoted => exact trimStart_cons (by decide)
  | bare ht => exact trimStart_eq_self ht

theorem ItemSpelling.itemText (hst : ∀ c ∈ stops, isBlank c = false) (h : ItemSpelling stops s t) :
    ItemText stops s t := by
  obtain ⟨u, hu, hp⟩ := h
  cases hp with
  | blanks ha hb => exact (hu.itemText.blank_append hst ha.1).append_blank hst hb.1

/-! ## Meanings -/

inductive Value.ReadAs : Value → Value → Prop
  | same {v : Value} : ReadAs v v
  | alone {t : Text} : ReadAs (.list [t]) (.text t)

def Argument.ReadAs (arg arg' : Argument) : Prop := arg'.key = arg.key ∧ arg.value.ReadAs arg'.value

theorem ValueSpelling.valueText {v : Value} (h : ValueSpelling v s) :
    ∃ v', ValueText s v' ∧ v.ReadAs v' := by
  have hnil : AllBlank [] := by simp [AllBlank]
  cases h with
  | @text t _ ht hh => exact ⟨.text t, .single (by rwa [ht.trimStart_eq]) ht.itemText, .same⟩
  | @alone t _ ht hh => exact ⟨.text t, .single (by rwa [ht.trimStart_eq]) ht.itemText, .alone⟩
  | empty hs => exact ⟨.list [], .empty hnil hs.1 hnil, .same⟩
  | @braced _ items hs hi =>
    have hi := hi.mono fun h => h.itemText bracedStops_not_blank
    exact ⟨.list items, .braced hnil hs hnil hi, .same⟩
  | @several _ items hh hl hi =>
    have hi := hi.mono fun h => h.itemText plainStops_not_blank
    exact ⟨.list items, .several hh hl hi, .same⟩

theorem ArgumentSpelling.argumentText {arg : Argument} (h : ArgumentSpelling s arg)
    (hkey : IsKey arg.key) :
    ∃ arg', ArgumentText s arg' ∧ arg.ReadAs arg' := by
  cases h with
  | @pair key k u v value hk hv hp =>
    obtain ⟨hne, htrim, heq, hcomma⟩ := hkey
    obtain ⟨v', hv', hread⟩ := hv.valueText
    cases hk with
    | @blanks a b ha hb =>
      have hvalue : ValueText v v' := by
        cases hp with
        | blanks hc hd => exact (hv'.blank_append hc.1).append_blank hd.1
      have htrim : trim (a ++ key ++ b) = key := by
        rw [trim_append_right hb.1, trim_append_left ha.1, htrim]
      have hnot : ∀ {c : Char}, isBlank c = false → c ∉ key → c ∉ a ++ key ++ b := by
        intro c hc hn
        simp [ha.1.not_mem hc, hb.1.not_mem hc, hn]
      refine ⟨⟨trim (a ++ key ++ b), v'⟩, .pair ?_ (hnot (by decide) heq) (hnot (by decide) hcomma) hvalue,
        htrim, hread⟩
      rw [← trim_eq_nil_iff, htrim]
      exact hne

/-! ## Line breaks -/

theorem escape_not_mem {c : Char} (hc : c ≠ '\\') (ht : c ∉ t) : c ∉ escape t := by
  induction t with
  | nil => simp [escape]
  | cons d t ih =>
    rw [List.mem_cons, not_or] at ht
    unfold escape
    split <;> simp [hc, ht.1, ih ht.2]

theorem TextSpelling.oneLine (h : TextSpelling stops t u) (ht : '\n' ∉ t) : '\n' ∉ u := by
  cases h with
  | quoted => simp [printText, escape_not_mem _ ht]
  | bare => exact ht

theorem Padded.oneLine (h : Padded t s) (ht : '\n' ∉ t) : '\n' ∉ s := by
  cases h with
  | blanks ha hb => simp [ha.2, hb.2, ht]

theorem ItemSpelling.oneLine (h : ItemSpelling stops s t) (ht : '\n' ∉ t) : '\n' ∉ s := by
  obtain ⟨u, hu, hp⟩ := h
  exact hp.oneLine (hu.oneLine ht)

theorem ValueSpelling.oneLine {v : Value} (h : ValueSpelling v s) (hv : ∀ t ∈ v.texts, '\n' ∉ t) :
    '\n' ∉ s := by
  cases h with
  | text ht => exact ht.oneLine (hv _ (by simp [Value.texts]))
  | alone ht => exact ht.oneLine (hv _ (by simp [Value.texts]))
  | empty hs => simp [hs.2]
  | braced _ hi =>
    have hs := hi.not_mem (c := '\n') (by decide) fun hm h => h.oneLine (hv _ hm)
    simp [hs]
  | several _ _ hi => exact hi.not_mem (by decide) fun hm h => h.oneLine (hv _ hm)

theorem ArgumentSpelling.oneLine {arg : Argument} (h : ArgumentSpelling s arg) (hkey : '\n' ∉ arg.key)
    (hv : ∀ t ∈ arg.value.texts, '\n' ∉ t) : '\n' ∉ s := by
  cases h with
  | pair hk hs hp => simp [hk.oneLine hkey, hp.oneLine (hs.oneLine hv)]

end ScenarioDocs.Marker
