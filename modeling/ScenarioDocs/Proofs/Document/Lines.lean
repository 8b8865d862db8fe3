import ScenarioDocs.Proofs.Document.Decodable

/-!
# The lines of a document

A document is its heading and the lines of its records, one record after the
other. Apart from the pod spec, whose lines are fixed, every line starts with
words that say what it is about; so the lines on a topic can be told by their
words, and a text of one line cannot pass for another line.
-/

namespace ScenarioDocs

open Text

/-- What a line of a document can tell about a record. -/
inductive Topic
  | name
  | success
  | failure
  | reason
  deriving DecidableEq

namespace Topic

def words : Topic → Text
  | .name => "### Scenario: "
  | .success => "- For the above pod spec"
  | .failure => "- Fails to transition to **"
  | .reason => "**Reason for failure**: "

def isOn (topic : Topic) (line : Text) : Bool := topic.words.isPrefixOf line

def before : Topic → Text
  | .name => "### Scenario: "
  | .success => "- For the above pod spec, pod successfully transitions to **"
  | .failure => "- Fails to transition to **"
  | .reason => "**Reason for failure**: "

def after : Topic → Text
  | .name => []
  | .success => "** states"
  | .failure => "** states"
  | .reason => []

def line (topic : Topic) (t : Text) : Text := topic.before ++ (t ++ topic.after)

def all : List Topic := [.name, .success, .failure, .reason]

theorem mem_all (topic : Topic) : topic ∈ all := by
  cases topic <;> decide

theorem isOn_line (topic other : Topic) (t : Text) : topic.isOn (other.line t) = decide (topic = other) := by
  cases topic <;> cases other <;> rfl

theorem oneLine_line (topic : Topic) {t : Text} (ht : '\n' ∉ t) : '\n' ∉ topic.line t := by
  have hbefore : '\n' ∉ topic.before := by
    cases topic <;> decide
  have hafter : '\n' ∉ topic.after := by
    cases topic <;> decide
  exact List.not_mem_append hbefore (List.not_mem_append ht hafter)

end Topic

namespace Scenario

/-- The line that a record has on a topic. Without failed states there is none on a failure, whatever the
reason. -/
def line? (r : Scenario) : Topic → Option Text
  | .name => some (Topic.name.line r.name)
  | .success => some (Topic.success.line (join " -> " r.successStates))
  | .failure => if r.failedStates = [] then none else some (Topic.failure.line (join ", " r.failedStates))
  | .reason => if r.failedStates = [] then none else some (Topic.reason.line r.failureReason)

def topicLines (r : Scenario) : List Text := Topic.all.filterMap r.line?

variable {r : Scenario} {topic : Topic} {line : Text}

theorem exists_line_of_line? (h : r.line? topic = some line) : ∃ t, line = topic.line t := by
  cases topic with
  | name => exact ⟨_, (Option.some.inj h).symm⟩
  | success => exact ⟨_, (Option.some.inj h).symm⟩
  | failure => exact ⟨_, (Option.some.inj (Option.ite_none_left_eq_some.1 h).2).symm⟩
  | reason => exact ⟨_, (Option.some.inj (Option.ite_none_left_eq_some.1 h).2).symm⟩

theorem exists_line_of_mem_topicLines (h : line ∈ r.topicLines) : ∃ topic t, line = Topic.line topic t := by
  obtain ⟨topic, -, h⟩ := List.mem_filterMap.1 h
  exact ⟨topic, exists_line_of_line? h⟩

theorem filter_topicLines (r : Scenario) (topic : Topic) : r.topicLines.filter topic.isOn = (r.line? topic).toList := by
  -- a line is on one topic only, whatever the text in it
  have hone (other : Topic) : (r.line? other).filter topic.isOn = if topic = other then r.line? topic else none := by
    cases h : r.line? other with
    | none =>
      split
      · rename_i heq
        rw [heq, h]
        rfl
      · rfl
    | some line =>
      obtain ⟨t, rfl⟩ := exists_line_of_line? h
      simp only [Option.filter_some, Topic.isOn_line, decide_eq_true_eq]
      split
      · rename_i heq
        rw [heq, h]
      · rfl
  rw [topicLines, List.filter_filterMap]
  simp only [hone]
  cases topic <;> cases h : r.line? _ <;> rfl

end Scenario

variable {v : Shown} {u line : Text} {scopes : List Scope} {topic : Topic}

/-! ## What the lines are -/

theorem pieces_newline (u : Text) : pieces '\n' ('\n' :: u) = [] :: pieces '\n' u :=
  pieces_append (t := []) List.not_mem_nil

namespace PodSpec

def lines (initContainer volume : Bool) : List Text :=
  pieces '\n' ("\n**PodSpec**:\n```sh\n" ++ (render initContainer volume ++ "\n```\n"))

def Plain (t : Text) : Prop := ∀ c ∈ t, c ∉ ['#', '*', 'F', '/']

instance (t : Text) : Decidable (Plain t) := List.decidableBAll (· ∉ ['#', '*', 'F', '/']) t

theorem plain_render (i v : Bool) : Plain (render i v) := by
  have hcontainers : Plain containers := by decide +kernel
  have hinit : Plain (if i then initContainers else []) := by cases i <;> decide +kernel
  have hvolumes : Plain (if v then volumes else []) := by cases v <;> decide +kernel
  have hclosed : Plain "\x7d\n" := by decide
  exact List.forall_mem_append.2 ⟨List.forall_mem_append.2 ⟨List.forall_mem_append.2 ⟨hcontainers, hinit⟩, hvolumes⟩,
    hclosed⟩

/-- Apart from its title every line of the pod spec is plain. -/
theorem forall_mem_lines {P : Text → Prop} (hplain : ∀ line, Plain line → P line) (htitle : P "**PodSpec**:")
    (i v : Bool) : ∀ line ∈ lines i v, P line := by
  have hlines : lines i v = [[], "**PodSpec**:".toList, "```sh".toList] ++ (pieces '\n' (render i v) ++
      ["```".toList, []]) := by
    have htop : "\n**PodSpec**:\n```sh\n".toList = "\n**PodSpec**:\n```sh".toList ++ ['\n'] := rfl
    have hbottom : "\n```\n".toList = '\n' :: "```\n".toList := rfl
    rw [lines, htop, hbottom, List.append_assoc, List.singleton_append, pieces_append_cons, pieces_append_cons]
    rfl
  have hempty : P [] := hplain [] (by decide)
  have hfence : P "```" := hplain "```" (by decide)
  have hshell : P "```sh" := hplain "```sh" (by decide)
  intro line hline
  simp only [hlines, List.mem_append, List.mem_cons, List.not_mem_nil, or_false] at hline
  rcases hline with (rfl | rfl | rfl) | hline | rfl | rfl
  · exact hempty
  · exact htitle
  · exact hshell
  · exact hplain line fun c hc => plain_render i v c ((sublist_of_mem_pieces _ line hline).subset hc)
  · exact hfence
  · exact hempty

end PodSpec

namespace Shown

def outcomeLines (v : Shown) : List Text :=
  match v.failure with
  | none => [[], []]
  | some (states, reason) => [Topic.failure.line states, [], Topic.reason.line reason]

def lines (v : Shown) : List Text :=
  Topic.name.line v.name :: (PodSpec.lines v.initContainer v.volume ++ Topic.success.line v.success :: v.outcomeLines)

theorem pieces_outcome (hv : v.OneLine) (u : Text) :
    pieces '\n' (v.outcome ++ u) = v.outcomeLines ++ pieces '\n' u := by
  unfold outcomeLines
  cases hf : v.failure with
  | none =>
    rw [outcome_none hf, pieces_newline, pieces_newline]
    rfl
  | some p =>
    obtain ⟨hstates, hreason⟩ := hv.failure hf
    have hnewline : "\n**Reason for failure**: ".toList = '\n' :: "**Reason for failure**: ".toList := rfl
    have houtcome : v.outcome ++ u = Topic.failure.line p.1 ++ '\n' :: '\n' :: (Topic.reason.line p.2 ++ '\n' :: u) := by
      rw [outcome_some hf, hnewline, Topic.line, Topic.line]
      simp only [List.append_assoc, List.cons_append]
      rfl
    rw [houtcome, pieces_append (Topic.oneLine_line _ hstates), pieces_newline,
      pieces_append (Topic.oneLine_line _ hreason)]
    rfl

theorem pieces_block (hv : v.OneLine) (u : Text) : pieces '\n' (v.block ++ u) = v.lines ++ pieces '\n' u := by
  have hblock : v.block ++ u = Topic.name.line v.name ++ '\n' ::
      (("\n**PodSpec**:\n```sh\n" ++ (PodSpec.render v.initContainer v.volume ++ "\n```\n")) ++
        '\n' :: (Topic.success.line v.success ++ '\n' :: (v.outcome ++ u))) := by
    have hfence : "\n```\n\n".toList = "\n```\n".toList ++ ['\n'] := rfl
    rw [block_append, hfence, Topic.line, Topic.line]
    simp only [List.append_assoc, List.cons_append, List.nil_append]
    rfl
  rw [hblock, pieces_append (Topic.oneLine_line _ hv.name), pieces_append_cons, ← PodSpec.lines,
    pieces_append (Topic.oneLine_line _ hv.success), pieces_outcome hv, lines, List.cons_append, List.append_assoc,
    List.cons_append]

theorem pieces_flatMap_block {vs : List Shown} (hvs : ∀ v ∈ vs, v.OneLine) :
    pieces '\n' (vs.flatMap block) = vs.flatMap lines ++ [[]] := by
  induction vs with
  | nil => rfl
  | cons v vs ih =>
    obtain ⟨hv, hvs⟩ := List.forall_mem_cons.1 hvs
    rw [List.flatMap_cons, pieces_block hv, ih hvs, List.flatMap_cons, List.append_assoc]

end Shown

theorem Document.pieces_text (h : ∀ r ∈ scenarios scopes, r.OneLine) : pieces '\n' (text scopes) =
    "# POD CONDITION TESTS".toList :: [] :: ((scenarios scopes).flatMap (fun r => r.shown.lines) ++ [[]]) := by
  have hheading : heading = "# POD CONDITION TESTS".toList ++ ['\n', '\n'] := rfl
  rw [text_eq_shown, hheading, List.append_assoc, List.cons_append, pieces_append (by decide), List.cons_append,
    pieces_newline, List.nil_append, Shown.pieces_flatMap_block (shown_oneLine h), shown, List.flatMap_map]

/-! ## Picking lines -/

section
variable {p : Text → Bool} (hspec : ∀ i v, ∀ line ∈ PodSpec.lines i v, p line = false) (hnil : p [] = false)
include hspec hnil

/-- Apart from the lines on a topic a record has those of the pod spec and empty ones. -/
theorem Scenario.filter_lines (r : Scenario) : r.shown.lines.filter p = r.topicLines.filter p := by
  have hpod (i v : Bool) : (PodSpec.lines i v).filter p = [] :=
    List.filter_eq_nil_iff.2 fun line hline => by simp [hspec i v line hline]
  obtain ⟨name, success, failed, reason, init, volume⟩ := r
  -- the template has two endings, by whether there are failed states
  cases failed with
  | nil =>
    have hlines : (Scenario.mk name success [] reason init volume).shown.lines =
        Topic.name.line name :: (PodSpec.lines init.isOn volume.isOn ++
          [Topic.success.line (join " -> " success), [], []]) := rfl
    have htopics : (Scenario.mk name success [] reason init volume).topicLines =
        [Topic.name.line name, Topic.success.line (join " -> " success)] := rfl
    rw [hlines, htopics]
    simp only [List.filter_cons, List.filter_append, List.filter_nil, hpod, hnil, List.nil_append, Bool.false_eq_true,
      if_false]
  | cons state states =>
    have hlines : (Scenario.mk name success (state :: states) reason init volume).shown.lines =
        Topic.name.line name :: (PodSpec.lines init.isOn volume.isOn ++
          [Topic.success.line (join " -> " success), Topic.failure.line (join ", " (state :: states)), [],
            Topic.reason.line reason]) := rfl
    have htopics : (Scenario.mk name success (state :: states) reason init volume).topicLines =
        [Topic.name.line name, Topic.success.line (join " -> " success),
          Topic.failure.line (join ", " (state :: states)), Topic.reason.line reason] := rfl
    rw [hlines, htopics]
    simp only [List.filter_cons, List.filter_append, List.filter_nil, hpod, hnil, List.nil_append, Bool.false_eq_true,
      if_false]

theorem Document.filter_text (hone : ∀ r ∈ scenarios scopes, r.OneLine) (htitle : p "# POD CONDITION TESTS" = false) :
    (pieces '\n' (text scopes)).filter p = (scenarios scopes).flatMap fun r => r.topicLines.filter p := by
  rw [pieces_text hone, List.filter_cons_of_neg (Bool.eq_false_iff.1 htitle),
    List.filter_cons_of_neg (Bool.eq_false_iff.1 hnil), List.filter_append, List.filter_flatMap,
    List.filter_cons_of_neg (Bool.eq_false_iff.1 hnil), List.filter_nil, List.append_nil]
  simp only [Scenario.filter_lines hspec hnil]

end

theorem PodSpec.not_isOn (topic : Topic) (i v : Bool) : ∀ line ∈ lines i v, topic.isOn line = false := by
  refine forall_mem_lines (fun line hplain => ?_) (by cases topic <;> decide) i v
  have hwords : ¬Plain topic.words := by
    cases topic <;> decide
  rw [Bool.eq_false_iff]
  exact fun hon => hwords fun c hc => hplain c ((List.isPrefixOf_iff_prefix.1 hon).subset hc)

theorem PodSpec.ne_heading (i v : Bool) : ∀ line ∈ lines i v, line ≠ "# POD CONDITION TESTS" := by
  refine forall_mem_lines (fun line hplain h => ?_) (by decide) i v
  rw [h] at hplain
  exact absurd hplain (by decide)

namespace Document

theorem filter_isOn (h : ∀ r ∈ scenarios scopes, r.OneLine) (topic : Topic) :
    (pieces '\n' (text scopes)).filter topic.isOn = (scenarios scopes).filterMap fun r => r.line? topic := by
  have htitle : topic.isOn "# POD CONDITION TESTS" = false := by
    cases topic <;> rfl
  have hnil : topic.isOn [] = false := by
    cases topic <;> rfl
  rw [filter_text (PodSpec.not_isOn topic) hnil h htitle, List.filterMap_eq_flatMap_toList]
  simp only [Scenario.filter_topicLines]

theorem any_isOn_of_mem_topicLines {r : Scenario} (hline : line ∈ r.topicLines) :
    Topic.all.any (·.isOn line) = true := by
  obtain ⟨topic, t, rfl⟩ := Scenario.exists_line_of_mem_topicLines hline
  exact List.any_eq_true.2 ⟨topic, topic.mem_all, by rw [Topic.isOn_line, decide_eq_true rfl]⟩

theorem filter_any_isOn (h : ∀ r ∈ scenarios scopes, r.OneLine) :
    (pieces '\n' (text scopes)).filter (fun line => Topic.all.any (·.isOn line)) =
      (scenarios scopes).flatMap Scenario.topicLines := by
  have hspec (i v : Bool) : ∀ line ∈ PodSpec.lines i v, Topic.all.any (·.isOn line) = false := fun line hline =>
    List.any_eq_false.2 fun topic _ => by simp [PodSpec.not_isOn topic i v line hline]
  rw [filter_text hspec rfl h rfl]
  refine List.flatMap_congr fun r _ => List.filter_eq_self.2 fun line hline => any_isOn_of_mem_topicLines hline

theorem heading_not_mem_lines (r : Scenario) : "# POD CONDITION TESTS".toList ∉ r.shown.lines := by
  intro hmem
  have hspec (i v : Bool) : ∀ line ∈ PodSpec.lines i v, decide (line = "# POD CONDITION TESTS".toList) = false :=
    fun line hline => decide_eq_false (PodSpec.ne_heading i v line hline)
  have hfilter : "# POD CONDITION TESTS".toList ∈ r.shown.lines.filter (· = "# POD CONDITION TESTS".toList) :=
    List.mem_filter.2 ⟨hmem, decide_eq_true rfl⟩
  rw [r.filter_lines hspec (by decide)] at hfilter
  cases any_isOn_of_mem_topicLines (List.mem_filter.1 hfilter).1

/-- The lines that start like those of a record are those of the records, one record after the other. -/
theorem text_lines (h : ∀ r ∈ scenarios scopes, r.OneLine) :
    (∃ rest, pieces '\n' (text scopes) = ("# POD CONDITION TESTS" : Text) :: rest ∧
        ("# POD CONDITION TESTS" : Text) ∉ rest) ∧
      (∀ topic : Topic,
        (pieces '\n' (text scopes)).filter topic.isOn = (scenarios scopes).filterMap fun r => r.line? topic) ∧
      (pieces '\n' (text scopes)).filter (fun line => Topic.all.any (·.isOn line)) =
        (scenarios scopes).flatMap fun r => Topic.all.filterMap r.line? := by
  refine ⟨⟨_, pieces_text h, ?_⟩, filter_isOn h, filter_any_isOn h⟩
  simp only [List.mem_cons, List.mem_append, List.mem_flatMap, List.not_mem_nil, or_false, not_or, not_exists, not_and]
  exact ⟨by decide, fun r _ => heading_not_mem_lines r, by decide⟩

/-- Texts that look like lines of a document, and a reason that does not count. -/
theorem text_lines_imitating :
    let plain : Scenario := { Scenario.ofSuccess "# POD CONDITION TESTS" ["- For the above pod spec"] with
      failureReason := "### Scenario: a" }
    let failing := (Scenario.ofSuccess "### Scenario: b" []).withFailure ["**Reason for failure**: "] "- Fails to"
    let scopes : List Scope := [⟨"s", [plain, failing]⟩, ⟨"t", [plain]⟩]
    (∀ r ∈ scenarios scopes, r.OneLine) ∧
      (pieces '\n' (text scopes)).filter (Topic.isOn .name) =
        ["### Scenario: # POD CONDITION TESTS", "### Scenario: ### Scenario: b",
          "### Scenario: # POD CONDITION TESTS"] ∧
      (pieces '\n' (text scopes)).filter (Topic.isOn .reason) = ["**Reason for failure**: - Fails to"] := by
  intro plain failing scopes
  have hone : ∀ r ∈ scenarios scopes, r.OneLine := by decide
  obtain ⟨-, htopics, -⟩ := text_lines hone
  exact ⟨hone, htopics .name, htopics .reason⟩

end Document

end ScenarioDocs
