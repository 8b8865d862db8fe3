import Mathlib.Data.List.Forall2
import ScenarioDocs.Marker.Grammar
import ScenarioDocs.Proofs.Text.Trimming

/-!
# Facts about the grammar

Blanks outside an item, a value or a key belong to it and leave its meaning
alone, and a meaning has no characters that its text does not have.
-/

namespace ScenarioDocs.Marker

open Text

section
variable {α : Type} {sep : Char} {element : Text → α → Prop} {s : Text} {as : List α}

/-- Text after the last element may be made part of it. -/
theorem Separated.append {b : Text} (hel : ∀ {s a}, element s a → element (s ++ b) a)
    (h : Separated sep element s as) : Separated sep element (s ++ b) as := by
  induction h with
  | one h => exact .one (hel h)
  | more h _ ih =>
    rw [List.append_assoc, List.cons_append]
    exact .more h ih

/-- Text before the first element may be made part of it. -/
theorem Separated.prepend {b : Text} (hel : ∀ {s a}, element s a → element (b ++ s) a)
    (h : Separated sep element s as) : Separated sep element (b ++ s) as := by
  cases h with
  | one h => exact .one (hel h)
  | more h hr =>
    rw [← List.append_assoc]
    exact .more (hel h) hr

/-- One more element at the end. -/
theorem Separated.concat {r : Text} {a : α} (h : Separated sep element s as) (hr : element r a) :
    Separated sep element (s ++ sep :: r) (as ++ [a]) := by
  induction h with
  | one h => exact .more h (.one hr)
  | more h _ ih =>
    rw [List.append_assoc, List.cons_append]
    exact .more h ih

theorem Separated.trimmed (hsep : isBlank sep = false)
    (hel : ∀ {s a}, element s a → element (trimStart s) a) (h : Separated sep element s as) :
    Separated sep element (trimStart s) as := by
  cases h with
  | one h => exact .one (hel h)
  | more h hr =>
    rw [trimStart_append_of_trimStart (trimStart_cons hsep)]
    exact .more (hel h) hr

theorem Separated.trimmedEnd (hsep : isBlank sep = false)
    (hel : ∀ {s a}, element s a → element (trimEnd s) a) (h : Separated sep element s as) :
    Separated sep element (trimEnd s) as := by
  induction h with
  | one h => exact .one (hel h)
  | @more u r _ _ h _ ih =>
    have hu : trimEnd (u ++ [sep]) = u ++ [sep] := trimEnd_concat hsep
    rw [List.append_cons, trimEnd_append_of_trimEnd hu, List.append_assoc]
    exact .more h ih

theorem Separated.ne_nil (h : Separated sep element s as) : as ≠ [] := by
  cases h <;> simp

theorem Separated.map {β : Type} {element' : Text → β → Prop} {R : α → β → Prop}
    (h : Separated sep element s as)
    (hel : ∀ {s a}, a ∈ as → element s a → ∃ b, element' s b ∧ R a b) :
    ∃ bs, Separated sep element' s bs ∧ List.Forall₂ R as bs := by
  induction h with
  | one h =>
    obtain ⟨b, hb, hR⟩ := hel (by simp) h
    exact ⟨[b], .one hb, .cons hR .nil⟩
  | more h _ ih =>
    obtain ⟨b, hb, hR⟩ := hel (by simp) h
    obtain ⟨bs, hbs, hRs⟩ := ih fun ha => hel (by simp [ha])
    exact ⟨b :: bs, .more hb hbs, .cons hR hRs⟩

theorem Separated.mono {element' : Text → α → Prop} (h : Separated sep element s as)
    (hel : ∀ {s a}, element s a → element' s a) : Separated sep element' s as := by
  induction h with
  | one h => exact .one (hel h)
  | more h _ ih => exact .more (hel h) ih

theorem Separated.forall_mem {whole : Text} {Q : α → Prop} (h : Separated sep element s as)
    (hs : s ⊆ whole) (hel : ∀ {u a}, element u a → u ⊆ whole → Q a) : ∀ a ∈ as, Q a := by
  induction h with
  | one h => simpa using hel h hs
  | more h _ ih =>
    rw [List.append_subset, List.cons_subset] at hs
    exact List.forall_mem_cons.2 ⟨hel h hs.1, ih hs.2.2⟩

theorem Separated.not_mem {c : Char} (h : Separated sep element s as) (hc : c ≠ sep)
    (hel : ∀ {s a}, a ∈ as → element s a → c ∉ s) : c ∉ s := by
  induction h with
  | one h => exact hel (by simp) h
  | more h _ ih =>
    have hr := ih fun ha => hel (by simp [ha])
    simp [hel (by simp) h, hc, hr]

end

def Value.texts : Value → List Text
  | .text t => [t]
  | .list items => items

/-! ## Blanks outside -/

variable {a b s t : Text} {stops : List Char}

section
variable (hst : ∀ c ∈ stops, isBlank c = false)
include hst

theorem not_mem_stops (hb : AllBlank b) : ∀ c ∈ b, c ∉ stops :=
  fun c hc hcs => hb.not_mem (hst c hcs) hc

theorem ItemText.append_blank (h : ItemText stops s t) (hb : AllBlank b) :
    ItemText stops (s ++ b) t := by
  cases h with
  | @quoted a q _ e ha hq he =>
    rw [List.append_assoc, List.cons_append]
    exact .quoted ha hq (allBlank_append.2 ⟨he, hb⟩)
  | bare hs hh =>
    rw [← trim_append_right hb]
    refine .bare (List.forall_mem_append.2 ⟨hs, not_mem_stops hst hb⟩) ?_
    rwa [head?_trimStart_append hb]

theorem ItemText.blank_append (h : ItemText stops s t) (ha : AllBlank a) :
    ItemText stops (a ++ s) t := by
  cases h with
  | @quoted e q _ b he hq hb =>
    rw [← List.append_assoc, ← List.append_assoc]
    exact .quoted (allBlank_append.2 ⟨ha, he⟩) hq hb
  | bare hs hh =>
    rw [← trim_append_left ha]
    refine .bare (List.forall_mem_append.2 ⟨not_mem_stops hst ha, hs⟩) ?_
    rwa [trimStart_append ha]

end

theorem ItemText.trimmed (h : ItemText stops s t) : ItemText stops (trimStart s) t := by
  cases h with
  | @quoted a q _ b ha hq hb =>
    rw [List.append_assoc, trimStart_append ha, List.cons_append, trimStart_cons (by decide)]
    exact .quoted (a := []) (by simp [AllBlank]) hq hb
  | bare hs hh =>
    rw [← trim_trimStart]
    refine .bare (fun c hc => hs c ((List.dropWhile_sublist _).subset hc)) ?_
    rwa [trimStart_trimStart]

theorem ItemText.trimmedEnd (h : ItemText stops s t) : ItemText stops (trimEnd s) t := by
  cases h with
  | @quoted a q _ b ha hq hb =>
    rw [List.append_cons, trimEnd_append hb, trimEnd_concat (by decide)]
    exact .quoted ha hq (by simp [AllBlank])
  | bare hs hh =>
    obtain ⟨b, hb, he⟩ := exists_trimEnd_append_blank s
    rw [← trim_trimEnd]
    refine .bare (fun c hc => hs c ((trimEnd_sublist s).subset hc)) ?_
    rwa [he, head?_trimStart_append hb] at hh

theorem plainStops_not_blank : ∀ c ∈ [',', ';'], isBlank c = false := by simp [isBlank]

theorem bracedStops_not_blank : ∀ c ∈ [',', '}'], isBlank c = false := by simp [isBlank]

theorem ValueText.append_blank {v : Value} (h : ValueText s v) (hb : AllBlank b) :
    ValueText (s ++ b) v := by
  cases h with
  | @empty a m c ha hm hc =>
    rw [List.append_assoc, List.cons_append]
    exact .empty ha hm (allBlank_append.2 ⟨hc, hb⟩)
  | @braced a m c items ha hm hc hi =>
    rw [List.append_assoc, List.cons_append]
    exact .braced ha hm (allBlank_append.2 ⟨hc, hb⟩) hi
  | single hh hi =>
    refine .single ?_ (hi.append_blank plainStops_not_blank hb)
    rwa [head?_trimStart_append hb]
  | several hh hl hi =>
    refine .several ?_ hl (hi.append fun h => h.append_blank plainStops_not_blank hb)
    rwa [head?_trimStart_append hb]

theorem ValueText.trimmedEnd {v : Value} (h : ValueText s v) : ValueText (trimEnd s) v := by
  have hnil : AllBlank [] := by simp [AllBlank]
  obtain ⟨b, hb, he⟩ := exists_trimEnd_append_blank s
  cases h with
  | @empty a m c ha hm hc =>
    rw [List.append_cons, trimEnd_append hc, trimEnd_concat (by decide)]
    exact .empty ha hm hnil
  | @braced a m c items ha hm hc hi =>
    rw [List.append_cons, trimEnd_append hc, trimEnd_concat (by decide)]
    exact .braced ha hm hnil hi
  | single hh hi =>
    refine .single ?_ hi.trimmedEnd
    rwa [he, head?_trimStart_append hb] at hh
  | several hh hl hi =>
    refine .several ?_ hl (hi.trimmedEnd (by decide) fun h => h.trimmedEnd)
    rwa [he, head?_trimStart_append hb] at hh

theorem ValueText.blank_append {v : Value} (h : ValueText s v) (ha : AllBlank a) :
    ValueText (a ++ s) v := by
  cases h with
  | @empty e m c he hm hc =>
    rw [← List.append_assoc, ← List.append_assoc]
    exact .empty (allBlank_append.2 ⟨ha, he⟩) hm hc
  | @braced e m c items he hm hc hi =>
    rw [← List.append_assoc, ← List.append_assoc]
    exact .braced (allBlank_append.2 ⟨ha, he⟩) hm hc hi
  | single hh hi =>
    refine .single ?_ (hi.blank_append plainStops_not_blank ha)
    rwa [trimStart_append ha]
  | several hh hl hi =>
    refine .several ?_ hl (hi.prepend fun h => h.blank_append plainStops_not_blank ha)
    rwa [trimStart_append ha]

theorem ArgumentText.blank_append {arg : Argument} (h : ArgumentText s arg) (ha : AllBlank a) :
    ArgumentText (a ++ s) arg := by
  cases h with
  | @pair k v value hk he hc hv =>
    have hnot : ∀ {c : Char}, isBlank c = false → c ∉ k → c ∉ a ++ k := by
      intro c hb hn
      simp [ha.not_mem hb, hn]
    rw [← List.append_assoc, ← trim_append_left ha]
    refine .pair ?_ (hnot (by decide) he) (hnot (by decide) hc) hv
    exact fun h => hk (allBlank_append.1 h).2

theorem ArgumentText.trimmed {arg : Argument} (h : ArgumentText s arg) :
    ArgumentText (trimStart s) arg := by
  cases h with
  | @pair k v value hk he hc hv =>
    have hsub : (trimStart k).Sublist k := List.dropWhile_sublist _
    rw [trimStart_append_of_not_allBlank hk, ← trim_trimStart]
    refine .pair ?_ (fun h => he (hsub.subset h)) (fun h => hc (hsub.subset h)) hv
    rwa [← trimStart_eq_nil_iff, trimStart_trimStart, trimStart_eq_nil_iff]

theorem ArgumentText.trimmedEnd {arg : Argument} (h : ArgumentText s arg) :
    ArgumentText (trimEnd s) arg := by
  cases h with
  | @pair k v value hk he hc hv =>
    have hk' : trimEnd (k ++ ['=']) = k ++ ['='] := trimEnd_concat (by decide)
    rw [List.append_cons, trimEnd_append_of_trimEnd hk', List.append_assoc]
    exact .pair hk he hc hv.trimmedEnd

theorem ArgumentText.not_allBlank {arg : Argument} (h : ArgumentText s arg) : ¬AllBlank s := by
  cases h with
  | pair hk => exact fun h => hk (allBlank_append.1 h).1

theorem arguments_not_allBlank {args : List Argument} (h : Separated ',' ArgumentText s args) :
    ¬AllBlank s := by
  cases h with
  | one h => exact h.not_allBlank
  | more h => exact fun hs => h.not_allBlank (allBlank_append.1 hs).1

/-! ## Characters -/

theorem QuotedText.subset (h : QuotedText s t) : t ⊆ s := by
  induction h with
  | nil => exact List.Subset.refl _
  | plain _ _ _ ih => exact List.cons_subset_cons _ ih
  | escaped _ ih => exact fun _ hc => List.mem_cons_of_mem _ (List.cons_subset_cons _ ih hc)

theorem ItemText.subset (h : ItemText stops s t) : t ⊆ s := by
  cases h with
  | quoted _ hq _ =>
    intro c hc
    have hm := hq.subset hc
    simp [hm]
  | bare => exact (trim_sublist s).subset

theorem Separated.texts_subset {sep : Char} {items : List Text} {whole : Text}
    (h : Separated sep (ItemText stops) s items) (hs : s ⊆ whole) : ∀ t ∈ items, t ⊆ whole :=
  h.forall_mem hs fun hi hsub => List.Subset.trans hi.subset hsub

theorem ValueText.texts_subset {v : Value} (h : ValueText s v) : ∀ t ∈ v.texts, t ⊆ s := by
  cases h with
  | empty => simp [Value.texts]
  | braced _ _ _ hi =>
    refine hi.texts_subset fun c hc => ?_
    simp [hc]
  | single _ hi => simpa [Value.texts] using hi.subset
  | several _ _ hi => exact hi.texts_subset (List.Subset.refl _)

theorem ArgumentsText.texts_subset {args : List Argument} (h : ArgumentsText s args) :
    ∀ arg ∈ args, ∀ t ∈ arg.value.texts, t ⊆ s := by
  cases h with
  | blank => simp
  | arguments h =>
    refine h.forall_mem (List.Subset.refl _) ?_
    rintro u _ ⟨_, _, _, hv⟩ hu t ht
    rw [List.append_subset, List.cons_subset] at hu
    exact List.Subset.trans (hv.texts_subset t ht) hu.2.2

end ScenarioDocs.Marker
