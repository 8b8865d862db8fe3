import ScenarioDocs.Document.Shown
import ScenarioDocs.Proofs.Document.Snapshots
import ScenarioDocs.Proofs.Text.Lines

/-!
# Documents tell what they show

Texts of one line cannot imitate the template around them: a line goes up to
its first line feed, and the sections of the pod spec start differently. So
the blocks of a document, and what each of them shows, can be read off it.
-/

namespace ScenarioDocs

open Text

variable {s t : Text}

theorem not_mem_join {c : Char} {sep : Text} (hsep : c ∉ sep) {ts : List Text} (h : ∀ t ∈ ts, c ∉ t) :
    c ∉ join sep ts := by
  induction ts with
  | nil => exact List.not_mem_nil
  | cons t ts ih =>
    obtain ⟨ht, hts⟩ := List.forall_mem_cons.1 h
    cases ts with
    | nil => exact ht
    | cons t' ts =>
      rw [join, List.mem_append, List.mem_append, not_or, not_or]
      exact ⟨⟨ht, hsep⟩, ih hts⟩

theorem line_inj {a b : Text} (ha : '\n' ∉ a) (hb : '\n' ∉ b) (h : a ++ '\n' :: s = b ++ '\n' :: t) :
    a = b ∧ s = t := by
  have hp := congrArg (pieces '\n') h
  rw [pieces_append ha, pieces_append hb, List.cons.injEq] at hp
  refine ⟨hp.1, ?_⟩
  rw [← join_pieces '\n' s, hp.2, join_pieces]

/-! ## The pod spec -/

namespace PodSpec

theorem optional_inj {word : Text} {p q : Bool} (hs : ¬word <+: s) (ht : ¬word <+: t)
    (h : (if p then word else []) ++ s = (if q then word else []) ++ t) : p = q ∧ s = t := by
  cases p with
  | true =>
    cases q with
    | true => exact ⟨rfl, List.append_cancel_left h⟩
    | false => exact absurd ⟨s, h⟩ ht
  | false =>
    cases q with
    | true => exact absurd ⟨t, h.symm⟩ hs
    | false => exact ⟨rfl, h⟩

theorem volumes_not_first (u : Text) : ¬volumes <+: "\x7d\n" ++ u := by
  rintro ⟨r, h⟩
  cases congrArg List.head? h

theorem initContainers_not_first (q : Bool) (u : Text) :
    ¬initContainers <+: (if q then volumes else []) ++ ("\x7d\n" ++ u) := by
  rintro ⟨r, h⟩
  cases q with
  | true => cases congrArg (·[4]?) h
  | false => cases congrArg List.head? h

theorem render_append_inj {i v i' v' : Bool} (h : render i v ++ s = render i' v' ++ t) :
    i = i' ∧ v = v' ∧ s = t := by
  simp only [render, List.append_assoc] at h
  obtain ⟨hi, h⟩ := optional_inj (initContainers_not_first v s) (initContainers_not_first v' t)
    (List.append_cancel_left h)
  obtain ⟨hv, h⟩ := optional_inj (volumes_not_first s) (volumes_not_first t) h
  exact ⟨hi, hv, List.append_cancel_left h⟩

end PodSpec

/-! ## One block -/

namespace Shown

def outcome (v : Shown) : Text :=
  match v.failure with
  | none => "\n\n"
  | some (states, reason) =>
    "- Fails to transition to **" ++ states ++ "** states\n\n" ++ "**Reason for failure**: " ++ reason ++ "\n"

def block (v : Shown) : Text :=
  "### Scenario: " ++ v.name ++ "\n\n**PodSpec**:\n```sh\n" ++
    PodSpec.render v.initContainer v.volume ++ "\n```\n\n" ++
    "- For the above pod spec, pod successfully transitions to **" ++ v.success ++ "** states\n" ++ v.outcome

structure OneLine (v : Shown) : Prop where
  name : '\n' ∉ v.name
  success : '\n' ∉ v.success
  failure : ∀ {states reason}, v.failure = some (states, reason) → '\n' ∉ states ∧ '\n' ∉ reason

variable {v w : Shown} {vs ws : List Shown}

theorem outcome_none (h : v.failure = none) (u : Text) : v.outcome ++ u = '\n' :: '\n' :: u := by
  rw [outcome, h]
  rfl

theorem outcome_some {states reason : Text} (h : v.failure = some (states, reason)) (u : Text) :
    v.outcome ++ u =
      "- Fails to transition to **" ++ (states ++ "** states" ++
        '\n' :: ("\n**Reason for failure**: " ++ (reason ++ '\n' :: u))) := by
  rw [outcome, h]
  simp only [List.append_assoc]
  rfl

theorem states_oneLine (h : '\n' ∉ s) : '\n' ∉ s ++ "** states" := by
  rw [List.mem_append, not_or]
  exact ⟨h, by decide⟩

theorem outcome_append_inj (hv : v.OneLine) (hw : w.OneLine) (h : v.outcome ++ s = w.outcome ++ t) :
    v.failure = w.failure ∧ s = t := by
  cases hvf : v.failure with
  | none =>
    cases hwf : w.failure with
    | none =>
      rw [outcome_none hvf, outcome_none hwf] at h
      cases h
      exact ⟨rfl, rfl⟩
    | some p =>
      -- one starts with a line feed, the other does not
      rw [outcome_none hvf, outcome_some hwf] at h
      cases congrArg List.head? h
  | some p =>
    cases hwf : w.failure with
    | none =>
      rw [outcome_some hvf, outcome_none hwf] at h
      cases congrArg List.head? h
    | some q =>
      obtain ⟨hp, hpr⟩ := hv.failure hvf
      obtain ⟨hq, hqr⟩ := hw.failure hwf
      rw [outcome_some hvf, outcome_some hwf] at h
      obtain ⟨hstates, h⟩ := line_inj (states_oneLine hp) (states_oneLine hq) (List.append_cancel_left h)
      obtain ⟨hreason, h⟩ := line_inj hpr hqr (List.append_cancel_left h)
      exact ⟨congrArg some (Prod.ext (List.append_cancel_right hstates) hreason), h⟩

theorem block_append (v : Shown) (u : Text) :
    v.block ++ u =
      "### Scenario: " ++ (v.name ++ '\n' :: ("\n**PodSpec**:\n```sh\n" ++
        (PodSpec.render v.initContainer v.volume ++ ("\n```\n\n" ++
          ("- For the above pod spec, pod successfully transitions to **" ++
            (v.success ++ "** states" ++ '\n' :: (v.outcome ++ u))))))) := by
  have hspec : "\n\n**PodSpec**:\n```sh\n".toList = '\n' :: "\n**PodSpec**:\n```sh\n".toList := rfl
  have hstates : "** states\n".toList = "** states".toList ++ ['\n'] := rfl
  unfold block
  rw [hspec, hstates]
  simp only [List.append_assoc, List.cons_append, List.nil_append]

theorem block_append_inj (hv : v.OneLine) (hw : w.OneLine) (h : v.block ++ s = w.block ++ t) : v = w ∧ s = t := by
  rw [block_append, block_append] at h
  obtain ⟨hname, h⟩ := line_inj hv.name hw.name (List.append_cancel_left h)
  obtain ⟨hinit, hvolume, h⟩ := PodSpec.render_append_inj (List.append_cancel_left h)
  obtain ⟨hsuccess, h⟩ := line_inj (states_oneLine hv.success) (states_oneLine hw.success)
    (List.append_cancel_left (List.append_cancel_left h))
  obtain ⟨hfailure, h⟩ := outcome_append_inj hv hw h
  refine ⟨?_, h⟩
  obtain ⟨_, _, _, _, _⟩ := v
  obtain ⟨_, _, _, _, _⟩ := w
  exact Shown.mk.injEq .. ▸ ⟨hname, List.append_cancel_right hsuccess, hinit, hvolume, hfailure⟩

theorem block_ne_nil (v : Shown) : v.block ≠ [] := by
  have h := block_append v []
  rw [List.append_nil] at h
  rw [h]
  exact List.cons_ne_nil _ _

theorem flatMap_block_inj (hv : ∀ v ∈ vs, v.OneLine) (hw : ∀ w ∈ ws, w.OneLine)
    (h : vs.flatMap block = ws.flatMap block) : vs = ws := by
  induction vs generalizing ws with
  | nil =>
    cases ws with
    | nil => rfl
    | cons w ws => exact absurd h.symm (List.append_ne_nil_of_left_ne_nil (block_ne_nil w) _)
  | cons v vs ih =>
    cases ws with
    | nil => exact absurd h (List.append_ne_nil_of_left_ne_nil (block_ne_nil v) _)
    | cons w ws =>
      obtain ⟨hv, hvs⟩ := List.forall_mem_cons.1 hv
      obtain ⟨hw, hws⟩ := List.forall_mem_cons.1 hw
      obtain ⟨rfl, hrest⟩ := block_append_inj hv hw h
      rw [ih hvs hws hrest]

end Shown

/-! ## Whole documents -/

theorem Scenario.block_eq (r : Scenario) : Document.block r = r.shown.block := by
  have houtcome : Document.outcome r = r.shown.outcome := by
    unfold Document.outcome Shown.outcome shown
    cases r.mode <;> rfl
  unfold Document.block Shown.block
  rw [houtcome]
  rfl

theorem Scenario.OneLine.shown {r : Scenario} (h : r.OneLine) : r.shown.OneLine where
  name := h r.name (by simp [texts])
  success := not_mem_join (by decide) fun t ht => h t (by simp [texts, ht])
  failure := by
    intro states reason hf
    unfold Scenario.shown at hf
    cases hm : r.mode with
    | successOnly => simp [hm] at hf
    | successAndFailure =>
      simp only [hm, Option.some.injEq, Prod.mk.injEq] at hf
      obtain ⟨rfl, rfl⟩ := hf
      exact ⟨not_mem_join (by decide) fun t ht => h t (by simp [texts, ht]), h _ (by simp [texts])⟩

namespace Document

variable {old new : List Scope}

def shown (scopes : List Scope) : List Shown := (scenarios scopes).map Scenario.shown

theorem text_eq_shown (scopes : List Scope) : text scopes = heading ++ (shown scopes).flatMap Shown.block := by
  rw [text_eq, ofScenarios, shown, List.flatMap_map]
  rw [funext Scenario.block_eq]

theorem shown_oneLine (h : ∀ r ∈ scenarios new, r.OneLine) : ∀ v ∈ shown new, v.OneLine :=
  List.forall_mem_map.2 fun r hr => (h r hr).shown

theorem text_eq_text_iff (hold : ∀ r ∈ scenarios old, r.OneLine) (hnew : ∀ r ∈ scenarios new, r.OneLine) :
    text old = text new ↔ shown old = shown new := by
  rw [text_eq_shown, text_eq_shown]
  constructor
  · intro h
    exact Shown.flatMap_block_inj (shown_oneLine hold) (shown_oneLine hnew) (List.append_cancel_left h)
  · intro h
    rw [h]

end Document

end ScenarioDocs
