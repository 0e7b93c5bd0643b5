import LayeredConfig.Proofs.Record.Fitting
import Mathlib.Tactic.SplitIfs

/-! # Preparation that changes nothing

Without mappers, hooks, a tag and refusals, and with weak typing, preparation takes from data only
what fitting passes over: data is extracted exactly if it fits, and as what it fits as. A union with
a record needs care, since a dictionary goes through the first record among the members even where
another member would take it. -/

namespace LayeredConfig

namespace Schema

open Fitted

/-! ## Types that are fitted as they are prepared -/

theorem eq_singleton_of_mem {α : Type} {xs : List α} (h : xs.length ≤ 1) {x : α} (hx : x ∈ xs) :
    xs = [x] := by
  match xs, h with
  | [y], _ => rw [List.mem_singleton.mp hx]

/-- No member of the union takes the dictionaries that go through another one: null has at most one
companion, no member is a record, or only one takes dictionaries at all. -/
def SettlesDicts (members : List Schema) : Prop :=
  (proper members).length ≤ 1 ∨ members.any isRecord = false ∨
    (members.filter takesDict).length ≤ 1

theorem SettlesDicts.decides {members : List Schema} (h : SettlesDicts members) {data : Value}
    {member : Schema}
    (hchosen : members.find? (ExtractOptions.isChosen members data) = some member) :
    Decides members data member := by
  have hmem := List.mem_of_find?_eq_some hchosen
  have his := List.find?_some hchosen
  unfold ExtractOptions.isChosen at his
  split_ifs at his with hone hdict
  · exact .proper (eq_singleton_of_mem (Nat.le_of_eq hone) (List.mem_filter.mpr ⟨hmem, his⟩))
  · cases data with
    | dict entries =>
        have hproper : member ∈ proper members := by
          refine List.mem_filter.mpr ⟨hmem, ?_⟩
          cases member with
          | record => rfl
          | _ => cases his
        have hdicts : member ∈ members.filter takesDict :=
          List.mem_filter.mpr ⟨hmem, takesDict_of_isRecord his⟩
        rcases h with hle | hnone | hle
        · exact .proper (eq_singleton_of_mem hle hproper)
        · exact (List.any_eq_false.mp hnone member hmem his).elim
        · exact .record his (eq_singleton_of_mem hle hdicts)
    | _ => cases hdict

/-- Fields are named in the way of their record, given under names of their own, and not left out
by them. -/
structure ReadsOwnNames (kind : RecordKind) (fields : List (FieldInfo × Schema)) : Prop where
  naming : ∀ field ∈ fields, kind = .tagged → ∃ keys, field.1.name.naming = .tags keys
  distinct : (fields.map fun field => givenName kind field.1).Nodup
  kept : ∀ field ∈ fields, givenName kind field.1 ≠ KeyMapper.skip

/-- Preparation for the type itself, apart from its parts, is not seen afterwards. -/
def IsTransparent : Schema → Prop
  | record type fields => ReadsOwnNames type.kind fields
  | union members => SettlesDicts members
  | _ => True

end Schema

/-! ## Fields -/

theorem FieldName.name_of_ownKey_eq_empty {field : FieldName} {tag : String}
    (h : field.ownKey tag = "") : field.name = "" := by
  obtain ⟨named, hnamed⟩ : ∃ named : Option String,
    field.ownKey tag = (named.filter (· != "")).getD field.name := ⟨_, rfl⟩
  rw [hnamed] at h
  cases hkey : named.filter (· != "") with
  | none => simpa [hkey] using h
  | some key =>
      have hne := (Option.filter_eq_some_iff.mp hkey).2
      rw [hkey, Option.getD_some] at h
      simp [h] at hne

theorem FieldName.key?_nil {field : FieldName} {tag : String}
    (h : field.ownKey tag ≠ KeyMapper.skip) : field.key? [] tag = some (field.ownKey tag) := by
  rw [key?, mapName]
  simp only [KeyMapper.answer?, List.map_nil, List.find?_nil, beq_iff_eq, h, if_false]
  split_ifs with hempty
  · rw [hempty, name_of_ownKey_eq_empty hempty]
  · rfl

namespace ExtractOptions

open Schema

theorem source?_eq_given? {kind : RecordKind} {fields : List (FieldInfo × Schema)}
    (h : ReadsOwnNames kind fields) {field : FieldInfo × Schema} (hfield : field ∈ fields)
    (entries : List (Value × Value)) :
    ({} : ExtractOptions).source? field.1 entries = Fitted.given? kind field.1 entries := by
  have hkey : field.1.name.key? [] "" = some (Fitted.givenName kind field.1) := by
    have hkept := h.kept field hfield
    cases kind with
    | model => exact FieldName.key?_nil hkept
    | tagged =>
        obtain ⟨keys, hnaming⟩ := h.naming field hfield rfl
        have hown : field.1.name.ownKey "" = field.1.name.name := by
          simp [FieldName.ownKey, hnaming]
        rw [FieldName.key?_nil (hown ▸ hkept), hown]
        rfl
  rw [source?, Fitted.given?, hkey]
  rfl

/-! ## Preparation is not seen -/

/-- A type fits data as it was and as it is prepared alike. -/
def FitsAlike (type : Schema) (data prepared : Value) : Prop := type.fit prepared = type.fit data

theorem fit_union_of_decides {members : List Schema} {data prepared : Value} {member : Schema}
    (hdecides : Decides members data member) (hshape : data.Reshaped prepared)
    (h : FitsAlike member data prepared) : FitsAlike (.union members) data prepared := by
  by_cases hnull : data = .null
  · subst hnull
    cases hshape
    rfl
  · have hnull' : prepared ≠ .null := by
      rintro rfl
      cases hshape
      exact hnull rfl
    rw [FitsAlike, fit_union fun h => (hnull' h).elim, fit_union fun h => (hnull h).elim,
      hdecides.fitMember_eq hshape, hdecides.fitMember_eq (.refl data), h]

theorem fit_items {type item : Schema} (hitem : type.item? = some item) {items others : List Value}
    (h : List.Forall₂ (FitsAlike item) items others) :
    FitsAlike type (.list items) (.list others) := by
  have hmapM := mapM_congr h
  cases type with
  | list | set | frozenSet | variadic =>
      cases hitem
      simp only [FitsAlike, fit, Fitted.items?, Option.bind_eq_bind, Option.bind_some, hmapM]
      rfl
  | sequence => cases hitem; simp [FitsAlike, fit, hmapM]
  | _ => cases hitem

theorem fit_entries {type key value : Schema} (hentry : type.keyAndValue? = some (key, value))
    {entries others : List (Value × Value)}
    (h : List.Forall₂ (fun entry other => other.1 = entry.1 ∧ FitsAlike value entry.2 other.2)
      entries others) : FitsAlike type (.dict entries) (.dict others) := by
  have hkeys : (others.mapM fun entry => key.fit entry.1) =
      entries.mapM fun entry => key.fit entry.1 :=
    mapM_congr (h.imp fun _ _ hother => by rw [hother.1])
  have hvalues : (others.mapM fun entry => value.fit entry.2) =
      entries.mapM fun entry => value.fit entry.2 :=
    mapM_congr (h.imp fun _ _ hother => hother.2)
  cases type with
  | dict | mapping => cases hentry; simp [FitsAlike, fit, hkeys, hvalues]
  | _ => cases hentry

theorem fit_tuple {types : List Schema} {items others : List Value}
    (h : TupleWise FitsAlike types items others) :
    FitsAlike (.tuple types) (.list items) (.list others) := by
  have heach : fitEach types others = fitEach types items := by
    induction h with
    | excess items => rfl
    | short types => rfl
    | cons h _ ih => rw [fitEach, fitEach, h, ih]
  simp only [FitsAlike, fit, Fitted.items?, Option.bind_eq_bind, Option.bind_some, heach]
  rfl

theorem fit_record {type : RecordName} {fields : List (FieldInfo × Schema)}
    (hfields : ReadsOwnNames type.kind fields) {entries others : List (Value × Value)}
    (hentries : Fitted.areNames type.kind entries = true)
    (hothers : Fitted.areNames type.kind others = true)
    (h : ∀ field ∈ fields, Option.Rel (FitsAlike field.2)
      (({} : ExtractOptions).source? field.1 entries) (Fitted.given? type.kind field.1 others)) :
    FitsAlike (.record type fields) (.dict entries) (.dict others) := by
  have hvalues : fitFields type.kind others fields = fitFields type.kind entries fields := by
    refine fitFields_congr fun field hfield => ?_
    have hrel := h field hfield
    rw [source?_eq_given? hfields hfield] at hrel
    generalize Fitted.given? type.kind field.1 entries = given at hrel
    generalize Fitted.given? type.kind field.1 others = prepared at hrel
    cases hrel with
    | none => rfl
    | some hfit => exact congrArg some hfit
  simp [FitsAlike, fit, hentries, hothers, hvalues]

theorem lifts_fitsAlike : ({} : ExtractOptions).Lifts IsTransparent FitsAlike where
  annotated h := h
  items hitem := fit_items hitem
  tuple := fit_tuple
  entries hentry := fit_entries hentry
  names h := h.distinct
  record hfields _ := fit_record hfields

/-- Data that is prepared fits into the type as it did before. -/
theorem ends_prepareAs_fitsAlike {type : Schema} (htype : type.Everywhere IsTransparent)
    {data : Value} (hdata : data.IsPlain) (place : String) (nullable : Bool) :
    Ends (fun _ => False) (FitsAlike type data)
      (({} : ExtractOptions).prepareAs place nullable type data) := by
  have hoptions := unhooked_of_no_refusals (show ({} : ExtractOptions).hooks = [] from rfl) rfl rfl
  refine lifts_fitsAlike.ends_prepareAs hoptions ?_ ?_ htype hdata place nullable
  · intro members data hsettles _ hmembers place nullable
    rw [prepareAs, prepareMember_eq]
    cases hchosen : members.find? (isChosen members data) with
    | none =>
        rw [leaf_of_weak rfl]
        exact .answer rfl
    | some member =>
        have hmember := hmembers member (List.mem_of_find?_eq_some hchosen) place nullable
        refine (hmember.and (reshaped_of_prepareAs rfl member)).mono (fun _ h => h) ?_
        rintro prepared ⟨hfit, hshape⟩
        exact fit_union_of_decides (hsettles.decides hchosen) hshape hfit
  · intro type data _ _ place nullable
    rw [leaf_of_weak rfl]
    exact .answer rfl

/-- Plain data is extracted exactly if it fits into the type, and as the value that it fits as, if
no union of the type has a record and another member that both take dictionaries. -/
theorem extract_eq_fit {type : Schema} (htype : type.Everywhere IsTransparent) {data : Value}
    (hdata : data.IsPlain) (place : String) :
    ({} : ExtractOptions).extract place type data =
      match type.fit data with
      | some fitted => .ok fitted.value
      | none => .error (.doesNotFit place type.name) := by
  obtain ⟨prepared, heq, hfit⟩ :=
    (ends_prepareAs_fitsAlike htype hdata place type.admitsNull).exists_answer
  rw [extract_eq rfl, heq, ← show type.fit prepared = type.fit data from hfit]
  rfl

/-- A port that is written as a text, in a record that may be missing. -/
theorem extract_eq_fit_port :
    let port : FieldInfo := { name := ⟨"port", .tags []⟩ }
    let type : Schema := .union [.record ⟨.tagged, "Server"⟩ [(port, .int)], .null]
    let data : Value := .dict [(.text "port", .text "80"), (.text "host", .text "db")]
    type.Everywhere IsTransparent ∧ data.IsPlain ∧
      ({} : ExtractOptions).extract "" type data =
        match type.fit data with
        | some fitted => .ok fitted.value
        | none => .error (.doesNotFit "" type.name) := by
  intro port type data
  have hfields : ReadsOwnNames .tagged [(port, Schema.int)] := {
    naming := by simp [port]
    distinct := by simp
    kept := List.forall_mem_singleton.mpr (by decide) }
  have htype : type.Everywhere IsTransparent := by
    refine .intro (.inl (by decide)) (List.forall_mem_cons.mpr ⟨.intro hfields ?_, ?_⟩)
    · exact List.forall_mem_singleton.mpr (.leaf rfl trivial)
    · exact List.forall_mem_singleton.mpr (.leaf rfl trivial)
  have hdata : data.IsPlain := by
    refine .dict (by simp) (List.forall_mem_cons.mpr ⟨.scalar rfl, ?_⟩)
    exact List.forall_mem_singleton.mpr (.scalar rfl)
  exact ⟨htype, hdata, extract_eq_fit htype hdata ""⟩

/-- A dictionary that only the second record takes is emptied for the first one. -/
theorem extract_second_record :
    let a : FieldInfo := { name := ⟨"a", .tags []⟩ }
    let b : FieldInfo := { name := ⟨"b", .tags []⟩ }
    let type : Schema :=
      .union [.record ⟨.tagged, "A"⟩ [(a, .int)], .record ⟨.tagged, "B"⟩ [(b, .int)]]
    let data : Value := .dict [(.text "b", .int 1)]
    (type.value? data = some (.record ⟨.tagged, "B"⟩ [(b.name, .int 1)])) ∧
      ({} : ExtractOptions).extract "" type data = .error (.doesNotFit "" "Union") := by
  exact ⟨rfl, rfl⟩

end ExtractOptions

end LayeredConfig
