import Mathlib.Data.List.Induction
import Mathlib.Data.List.Nodup
import Mathlib.Data.List.Sort
import ScenarioDocs.Proofs.Schema.Decoding

/-!
# What a shape accepts

Decoding succeeds exactly on arguments that fit the shape. It keeps every one
of them under its key, in whatever order they came; of arguments that do not
fit, the first that is wrong decides what is reported.
-/

namespace ScenarioDocs

open scoped List
open Marker (Argument Value)

variable {shape : Shape} {schema arguments location name key : Text} {field : Field} {arg : Argument}
  {args args' earlier : List Argument} {taken fields fields' : FieldValues} {v w : Value} {m : Mismatch} {a : Decoded}
  {e : Error}

/-! ## Fields in order -/

namespace FieldValues

theorem perm_insert : fields.insert key v ~ (key, v) :: fields := by
  induction fields with
  | nil => exact .refl _
  | cons p rest ih =>
    rw [FieldValues.insert]
    split
    · exact .refl _
    · exact (ih.cons p).trans (.swap _ _ _)

def Sorted (fields : FieldValues) : Prop := fields.Pairwise fun a b => a.1 < b.1

theorem Sorted.insert (h : fields.Sorted) (hnew : fields.lookup key = none) : (fields.insert key v).Sorted := by
  induction fields with
  | nil => exact List.pairwise_singleton ..
  | cons p rest ih =>
    obtain ⟨k, w⟩ := p
    obtain ⟨hfirst, hrest⟩ := List.pairwise_cons.1 h
    rw [lookup_cons] at hnew
    split at hnew
    · cases hnew
    · rename_i hne
      rw [FieldValues.insert]
      split
      · rename_i hlt
        refine List.pairwise_cons.2 ⟨fun p hp => ?_, h⟩
        rcases List.mem_cons.1 hp with rfl | hp
        · exact hlt
        · exact List.lt_trans hlt (hfirst p hp)
      · rename_i hge
        refine List.pairwise_cons.2 ⟨fun p hp => ?_, ih hrest hnew⟩
        rcases List.mem_cons.1 (perm_insert.mem_iff.1 hp) with rfl | hp
        · by_contra hlt
          exact hne (List.le_antisymm hlt hge)
        · exact hfirst p hp

theorem Sorted.eq_of_perm (h : fields.Sorted) (h' : fields'.Sorted) (hperm : fields ~ fields') : fields = fields' := by
  have hirrefl : Std.Irrefl fun a b : Text × Value => a.1 < b.1 := ⟨fun a => List.lt_irrefl a.1⟩
  have hantisymm : Std.Antisymm fun a b : Text × Value => a.1 < b.1 :=
    ⟨fun _ _ hab hba => (List.lt_asymm hab hba).elim⟩
  exact h.eq_of_mem_iff h' fun p => hperm.mem_iff

end FieldValues

/-! ## What fits -/

/-- The texts of a value; a single text stands for a list of one. -/
def Marker.Value.items : Value → List Text
  | .text t => [t]
  | .list ts => ts

namespace Shape

def FirstNamed (shape : Shape) (name : Text) (field : Field) : Prop :=
  field.name = name ∧ ∃ before after, shape.fields = before ++ field :: after ∧ ∀ f ∈ before, f.name ≠ name

/-- Arguments with different keys, each of a field, and with single texts for text fields. -/
structure Fits (shape : Shape) (args : List Argument) : Prop where
  named : ∀ arg ∈ args, ∃ field ∈ shape.fields, field.name = arg.key
  distinct : (args.map (·.key)).Nodup
  single : ∀ arg ∈ args, ∀ field, shape.FirstNamed arg.key field → field.kind = .text → ∃ t, arg.value = .text t

inductive Offends (shape : Shape) (schema : Text) (earlier : List Argument) (arg : Argument) : Mismatch → Prop
  | unknown : (∀ field ∈ shape.fields, field.name ≠ arg.key) →
      Offends shape schema earlier arg (.unknownField arg.key schema)
  | several {field : Field} {items : List Text} : shape.FirstNamed arg.key field → field.kind = .text →
      arg.value = .list items → Offends shape schema earlier arg (.severalValues arg.key)
  | repeated {field : Field} : shape.FirstNamed arg.key field →
      (field.kind = .text → ∃ t, arg.value = .text t) → arg.key ∈ earlier.map (·.key) →
      Offends shape schema earlier arg (.repeated arg.key)

structure Holds (shape : Shape) (schema : Text) (args : List Argument) (a : Decoded) : Prop where
  schema : a.schema = schema
  keys : a.fields.map (·.1) ~ args.map (·.key)
  text : ∀ arg ∈ args, ∀ field t, shape.FirstNamed arg.key field → field.kind = .text → arg.value = .text t →
    a.value? arg.key = some (.text t) ∧ a.text? arg.key = some t
  list : ∀ arg ∈ args, ∀ field, shape.FirstNamed arg.key field → field.kind = .list →
    a.value? arg.key = some (.list arg.value.items)
  items : ∀ arg ∈ args, a.list arg.key = arg.value.items

theorem field?_eq_some_iff : shape.field? name = some field ↔ shape.FirstNamed name field := by
  unfold field? FirstNamed
  rw [List.find?_eq_some_iff_append]
  simp

theorem field?_eq_none_iff : shape.field? name = none ↔ ∀ field ∈ shape.fields, field.name ≠ name := by
  unfold field?
  rw [List.find?_eq_none]
  simp

theorem FirstNamed.kept?_eq (h : shape.FirstNamed arg.key field) : shape.kept? arg = fit? field.kind arg.value := by
  rw [kept?, field?_eq_some_iff.2 h, Option.bind_some]

theorem fit?_eq_none_iff {kind : FieldKind} : fit? kind v = none ↔ kind = .text ∧ ∃ items, v = .list items := by
  cases kind <;> cases v <;> simp [fit?]

theorem fit?_isSome_iff {kind : FieldKind} : (fit? kind v).isSome ↔ (kind = .text → ∃ t, v = .text t) := by
  cases kind <;> cases v <;> simp [fit?]

theorem isSome_kept?_iff : (shape.kept? arg).isSome ↔ (∃ field ∈ shape.fields, field.name = arg.key) ∧
    ∀ field, shape.FirstNamed arg.key field → field.kind = .text → ∃ t, arg.value = .text t := by
  cases hf : shape.field? arg.key with
  | none =>
    have hnone := field?_eq_none_iff.1 hf
    rw [kept?, hf, Option.bind_none, Option.isSome_none]
    refine iff_of_false (by simp) ?_
    rintro ⟨⟨field, hmem, hname⟩, -⟩
    exact hnone field hmem hname
  | some field =>
    have hfirst := field?_eq_some_iff.1 hf
    have honly (f : Field) (h : shape.FirstNamed arg.key f) : field = f :=
      Option.some.inj (hf.symm.trans (field?_eq_some_iff.2 h))
    rw [hfirst.kept?_eq, fit?_isSome_iff]
    constructor
    · obtain ⟨hname, before, after, hfields, -⟩ := id hfirst
      exact fun h => ⟨⟨field, by simp [hfields], hname⟩, fun f hf => honly f hf ▸ h⟩
    · rintro ⟨-, h⟩
      exact h field hfirst

theorem fits_iff : shape.Fits args ↔ (args.map (·.key)).Nodup ∧ ∀ arg ∈ args, (shape.kept? arg).isSome := by
  constructor
  · intro h
    exact ⟨h.distinct, fun arg harg => isSome_kept?_iff.2 ⟨h.named arg harg, h.single arg harg⟩⟩
  · rintro ⟨hkeys, h⟩
    exact ⟨fun arg harg => (isSome_kept?_iff.1 (h arg harg)).1, hkeys,
      fun arg harg => (isSome_kept?_iff.1 (h arg harg)).2⟩

theorem Fits.perm (h : shape.Fits args) (hperm : args' ~ args) : shape.Fits args' := by
  rw [fits_iff] at h ⊢
  exact ⟨(hperm.map _).nodup_iff.2 h.1, fun arg harg => h.2 arg (hperm.mem_iff.1 harg)⟩

/-! ## Taking arguments -/

def keeps (shape : Shape) (args : List Argument) : FieldValues :=
  args.filterMap fun arg => (shape.kept? arg).map (arg.key, ·)

/-- Arguments that were taken have new keys, and all that is kept of them is added. -/
theorem take_inv (h : shape.take schema taken args = .ok fields) :
    (args.map (·.key)).Nodup ∧ (∀ arg ∈ args, (shape.kept? arg).isSome) ∧
      fields ~ taken ++ shape.keeps args ∧ (taken.Sorted → fields.Sorted) := by
  induction args generalizing taken with
  | nil =>
    cases h
    simp [keeps]
  | cons arg args ih =>
    obtain ⟨v, hv, hnew, h⟩ := take_cons_inv h
    obtain ⟨hkeys, hkept, hperm, hsorted⟩ := ih h
    refine ⟨?_, List.forall_mem_cons.2 ⟨by rw [hv]; rfl, hkept⟩, ?_, fun htaken => hsorted (htaken.insert hnew)⟩
    · rw [List.map_cons, List.nodup_cons]
      refine ⟨fun hmem => ?_, hkeys⟩
      obtain ⟨a, ha, hak⟩ := List.mem_map.1 hmem
      have hl := lookup_eq_none_of_take h a ha
      rw [FieldValues.lookup_insert hnew, if_pos hak] at hl
      cases hl
    · have hkeeps : shape.keeps (arg :: args) = (arg.key, v) :: shape.keeps args := by
        rw [keeps, List.filterMap_cons, hv]
        rfl
      rw [hkeeps]
      calc fields
        _ ~ taken.insert arg.key v ++ shape.keeps args := hperm
        _ ~ (arg.key, v) :: taken ++ shape.keeps args := FieldValues.perm_insert.append_right _
        _ ~ taken ++ (arg.key, v) :: shape.keeps args := List.perm_middle.symm

theorem exists_take_iff : (∃ fields, shape.take schema [] args = .ok fields) ↔ shape.Fits args := by
  rw [fits_iff]
  constructor
  · rintro ⟨fields, h⟩
    obtain ⟨hkeys, hkept, -⟩ := take_inv h
    exact ⟨hkeys, hkept⟩
  · rintro ⟨hkeys, hkept⟩
    exact exists_take_eq_ok hkeys (by simp) hkept

theorem take_perm (h : shape.take schema [] args = .ok fields) (hperm : args' ~ args) :
    shape.take schema [] args' = .ok fields := by
  obtain ⟨fields', h'⟩ := exists_take_iff.2 ((exists_take_iff.1 ⟨fields, h⟩).perm hperm)
  obtain ⟨-, -, hfields, hsorted⟩ := take_inv h
  obtain ⟨-, -, hfields', hsorted'⟩ := take_inv h'
  have hkeeps : shape.keeps args' ~ shape.keeps args := hperm.filterMap _
  rw [h', (hsorted' .nil).eq_of_perm (hsorted .nil) ((hfields'.trans hkeeps).trans hfields.symm)]

theorem keys_take (h : shape.take schema [] args = .ok fields) : fields.map (·.1) ~ args.map (·.key) := by
  obtain ⟨-, hkept, hperm, -⟩ := take_inv h
  have hkeys : (shape.keeps args).map (·.1) = args.map (·.key) := by
    rw [keeps, List.map_filterMap, ← List.filterMap_eq_map]
    refine List.filterMap_congr fun arg harg => ?_
    obtain ⟨v, hv⟩ := Option.isSome_iff_exists.1 (hkept arg harg)
    rw [hv]
    rfl
  exact hkeys ▸ hperm.map (·.1)

/-- Every argument is found under its key. -/
theorem lookup_key (h : shape.take schema [] args = .ok fields) (harg : arg ∈ args) :
    fields.lookup arg.key = shape.kept? arg := by
  have hkeys := (take_inv h).1
  have hfirst : args.find? (·.key = arg.key) = some arg := by
    obtain ⟨before, after, rfl⟩ := List.append_of_mem harg
    rw [List.map_append, List.map_cons, List.nodup_middle, List.nodup_cons, List.mem_append, not_or] at hkeys
    rw [List.find?_append, List.find?_eq_none.2, Option.none_or, List.find?_cons_of_pos (by simp)]
    intro a ha hak
    exact hkeys.1.1 (List.mem_map.2 ⟨a, ha, by simpa using hak⟩)
  rw [lookup_take h, hfirst, Option.bind_some, List.lookup_nil, Option.or_none]

theorem take_holds (h : shape.take schema [] args = .ok fields) : shape.Holds schema args ⟨schema, fields⟩ := by
  have hvalue (arg : Argument) (harg : arg ∈ args) : Decoded.value? ⟨schema, fields⟩ arg.key = shape.kept? arg :=
    lookup_key h harg
  refine ⟨rfl, keys_take h, fun arg harg field t hf hkind ht => ?_, fun arg harg field hf hkind => ?_,
    fun arg harg => ?_⟩
  · have htext : Decoded.value? ⟨schema, fields⟩ arg.key = some (.text t) := by
      rw [hvalue arg harg, hf.kept?_eq, hkind, ht]
      rfl
    exact ⟨htext, by rw [Decoded.text?, htext]⟩
  · rw [hvalue arg harg, hf.kept?_eq, hkind]
    cases arg.value <;> rfl
  · obtain ⟨w, hw⟩ := Option.isSome_iff_exists.1 ((take_inv h).2.1 arg harg)
    obtain ⟨field, -, hfit⟩ := Option.bind_eq_some_iff.1 hw
    rw [Decoded.list, hvalue arg harg, hw]
    revert hfit
    cases field.kind <;> cases arg.value <;> rintro ⟨⟩ <;> rfl

/-! ## The first fault -/

theorem take_append (schema : Text) (taken : FieldValues) (args args' : List Argument) :
    shape.take schema taken (args ++ args') =
      (shape.take schema taken args).bind fun fields => shape.take schema fields args' := by
  induction args generalizing taken with
  | nil => rfl
  | cons arg args ih =>
    rw [List.cons_append, take, take]
    split
    · rfl
    · split
      · rfl
      · split
        · rfl
        · exact ih _

theorem take_singleton_error_iff (h : shape.take schema [] earlier = .ok fields) :
    shape.take schema fields [arg] = .error m ↔ shape.Offends schema earlier arg m := by
  have hkey : (fields.lookup arg.key).isSome ↔ arg.key ∈ earlier.map (·.key) := by
    rw [← (keys_take h).mem_iff, lookup_isSome_iff_mem]
  rw [take]
  constructor
  · intro herror
    split at herror
    · rename_i hf
      cases herror
      exact .unknown (field?_eq_none_iff.1 hf)
    · rename_i field hf
      have hfirst := field?_eq_some_iff.1 hf
      split at herror
      · rename_i hfit
        cases herror
        obtain ⟨hkind, items, hv⟩ := fit?_eq_none_iff.1 hfit
        exact .several hfirst hkind hv
      · rename_i v hfit
        split at herror
        · rename_i hsome
          cases herror
          exact .repeated hfirst (fit?_isSome_iff.1 (hfit ▸ rfl)) (hkey.1 hsome)
        · cases herror
  · rintro (hnone | ⟨hfirst, hkind, hv⟩ | ⟨hfirst, hfit, hmem⟩)
    · rw [field?_eq_none_iff.2 hnone]
    · simp only [field?_eq_some_iff.2 hfirst, hkind, hv, fit?]
    · obtain ⟨v, hv⟩ := Option.isSome_iff_exists.1 (fit?_isSome_iff.2 hfit)
      simp only [field?_eq_some_iff.2 hfirst, hv, if_pos (hkey.2 hmem)]

/-- The error is about the first argument that offends. -/
theorem take_error_iff : shape.take schema [] args = .error m ↔
    ∃ earlier arg later, args = earlier ++ arg :: later ∧ shape.Fits earlier ∧ shape.Offends schema earlier arg m := by
  constructor
  · intro h
    -- the last argument is to blame only if all before it were taken
    induction args using List.reverseRecOn with
    | nil => cases h
    | append_singleton args arg ih =>
      rw [take_append] at h
      cases htaken : shape.take schema [] args with
      | error m' =>
        rw [htaken] at h
        cases h
        obtain ⟨earlier, x, later, rfl, hx⟩ := ih htaken
        exact ⟨earlier, x, later ++ [arg], by simp, hx⟩
      | ok fields =>
        rw [htaken] at h
        exact ⟨args, arg, [], rfl, exists_take_iff.1 ⟨fields, htaken⟩, (take_singleton_error_iff htaken).1 h⟩
  · rintro ⟨earlier, arg, later, rfl, hfits, hoffends⟩
    obtain ⟨fields, htaken⟩ := exists_take_iff.2 hfits
    have herror := (take_singleton_error_iff htaken).2 hoffends
    rw [take_append, htaken, Except.bind, ← List.singleton_append, take_append, herror]
    rfl

/-! ## Decoding -/

theorem annotate_ok_iff : shape.annotate schema arguments = .ok a ↔ ∃ args fields, Marker.parse arguments = .ok args ∧
    shape.take schema [] args = .ok fields ∧ a = ⟨schema, fields⟩ := by
  rw [annotate]
  cases Marker.parse arguments with
  | error fault => simp
  | ok args =>
    cases htake : shape.take schema [] args <;> simp [Except.map, htake, eq_comm]

theorem annotate_error_iff : shape.annotate schema arguments = .error m ↔
    (∃ fault, Marker.parse arguments = .error fault ∧ m = .malformed fault) ∨
      ∃ args, Marker.parse arguments = .ok args ∧ shape.take schema [] args = .error m := by
  rw [annotate]
  cases Marker.parse arguments with
  | error fault => simp [eq_comm]
  | ok args => cases htake : shape.take schema [] args <;> simp [Except.map, htake]

theorem decode_ok_iff : shape.decode schema arguments location = .ok a ↔ shape.annotate schema arguments = .ok a := by
  rw [decode]
  cases shape.annotate schema arguments <;> simp [Except.mapError]

theorem decode_error_iff : shape.decode schema arguments location = .error e ↔
    ∃ m, shape.annotate schema arguments = .error m ∧ e = .decode location m.reason := by
  rw [decode]
  cases shape.annotate schema arguments <;> simp [Except.mapError, eq_comm]

/-- Arguments are decoded exactly if they fit, and then all of them are kept, in whatever order they
stand. Otherwise the error has the given location and tells what is wrong with the text or, if it can
be read, with the first argument that offends. -/
theorem decode_fits_or_faults (shape : Shape) (schema arguments location : Text) :
    ((∃ a, shape.decode schema arguments location = .ok a) ↔
      ∃ args, Marker.parse arguments = .ok args ∧ shape.Fits args) ∧
    (∀ a args, shape.decode schema arguments location = .ok a → Marker.parse arguments = .ok args →
      shape.Holds schema args a ∧
        ∀ arguments' location' args', Marker.parse arguments' = .ok args' → args' ~ args →
          shape.decode schema arguments' location' = .ok a) ∧
    ∀ e, shape.decode schema arguments location = .error e ↔ ∃ m, e = .decode location m.reason ∧
      ((∃ fault, Marker.parse arguments = .error fault ∧ m = .malformed fault) ∨
        ∃ earlier arg later, Marker.parse arguments = .ok (earlier ++ arg :: later) ∧ shape.Fits earlier ∧
          shape.Offends schema earlier arg m) := by
  refine ⟨⟨?_, ?_⟩, fun a args hdecode hparse => ?_, fun e => ?_⟩
  · rintro ⟨a, h⟩
    obtain ⟨args, fields, hparse, htake, -⟩ := annotate_ok_iff.1 (decode_ok_iff.1 h)
    exact ⟨args, hparse, exists_take_iff.1 ⟨fields, htake⟩⟩
  · rintro ⟨args, hparse, hfits⟩
    obtain ⟨fields, htake⟩ := exists_take_iff.2 hfits
    exact ⟨⟨schema, fields⟩, decode_ok_iff.2 (annotate_ok_iff.2 ⟨args, fields, hparse, htake, rfl⟩)⟩
  · obtain ⟨args₀, fields, hparse₀, htake, rfl⟩ := annotate_ok_iff.1 (decode_ok_iff.1 hdecode)
    obtain rfl : args₀ = args := Except.ok.inj (hparse₀.symm.trans hparse)
    exact ⟨take_holds htake, fun arguments' location' args' hparse' hperm =>
      decode_ok_iff.2 (annotate_ok_iff.2 ⟨args', fields, hparse', take_perm htake hperm, rfl⟩)⟩
  · rw [decode_error_iff]
    refine exists_congr fun m => ?_
    rw [annotate_error_iff, and_comm]
    refine and_congr_right fun _ => or_congr_right ?_
    simp only [take_error_iff]
    constructor
    · rintro ⟨args, hparse, earlier, arg, later, rfl, hfirst⟩
      exact ⟨earlier, arg, later, hparse, hfirst⟩
    · rintro ⟨earlier, arg, later, hparse, hfirst⟩
      exact ⟨_, hparse, earlier, arg, later, rfl, hfirst⟩

def twice : Shape := ⟨[⟨"a", .text⟩, ⟨"b", .list⟩, ⟨"a", .list⟩]⟩

/-- Of two fields with one name the first counts, and the order of the arguments does not; a list for
a text is reported before a repetition and after what is wrong with an argument before it. -/
theorem decode_fits_or_faults_twice :
    (∃ a, twice.decode "s" "b=x, a=y" "f:1" = .ok a ∧ a.list "b" = ["x"] ∧ a.text? "a" = some "y" ∧
      twice.decode "s" "a=y, b=x" "g:2" = .ok a) ∧
    twice.decode "s" "a=y, a={x}, c=z" "f:1" = .error (.decode "f:1" "field `a` expects a single value") := by
  have hdecode : twice.decode "s" "b=x, a=y" "f:1" = .ok ⟨"s", [("a", .text "y"), ("b", .list ["x"])]⟩ := by
    decide +kernel
  have hparse : Marker.parse "b=x, a=y" = .ok [⟨"b", .text "x"⟩, ⟨"a", .text "y"⟩] := by
    decide +kernel
  have hother : Marker.parse "a=y, b=x" = .ok [⟨"a", .text "y"⟩, ⟨"b", .text "x"⟩] := by
    decide +kernel
  obtain ⟨hholds, hperm⟩ := (decode_fits_or_faults twice "s" "b=x, a=y" "f:1").2.1 _ _ hdecode hparse
  refine ⟨⟨_, hdecode, hholds.items ⟨"b", .text "x"⟩ (by simp), ?_, hperm _ "g:2" _ hother (.swap _ _ _)⟩, ?_⟩
  · exact (hholds.text ⟨"a", .text "y"⟩ (by simp) ⟨"a", .text⟩ "y" ⟨rfl, [], _, rfl, by simp⟩ rfl rfl).2
  · have hfaulty : Marker.parse "a=y, a={x}, c=z" =
        .ok ([⟨"a", .text "y"⟩] ++ ⟨"a", .list ["x"]⟩ :: [⟨"c", .text "z"⟩]) := by
      decide +kernel
    have hfits : twice.Fits [⟨"a", .text "y"⟩] := fits_iff.2 ⟨by simp, by decide⟩
    have hfirst : twice.FirstNamed "a" ⟨"a", .text⟩ := ⟨rfl, [], _, rfl, by simp⟩
    exact ((decode_fits_or_faults twice "s" "a=y, a={x}, c=z" "f:1").2.2 _).2
      ⟨.severalValues "a", rfl, .inr ⟨_, _, _, hfaulty, hfits, .several hfirst rfl rfl⟩⟩

end Shape

end ScenarioDocs
