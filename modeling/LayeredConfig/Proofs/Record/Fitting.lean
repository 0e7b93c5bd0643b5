import LayeredConfig.Proofs.Record.Preparation
import LayeredConfig.Record.Extract

/-! # Fitting, level by level

The value that data becomes for a type, in terms of the values that the data inside it becomes. -/

namespace LayeredConfig

namespace Schema

open Fitted

/-- The value that data of a type becomes. -/
def value? (type : Schema) (data : Value) : Option Value := (type.fit data).map (·.value)

/-- The container that values become as items of a type. -/
def built : Schema → List Value → Value
  | set _ | frozenSet _ => .setOf
  | variadic _ => .tuple
  | _ => .list

/-- The value of a field of a record, by what is given for it. -/
def fieldValue? (kind : RecordKind) (entries : List (Value × Value))
    (field : FieldInfo × Schema) : Option Value :=
  match given? kind field.1 entries with
  | none => field.1.default
  | some data => field.2.value? data

theorem value?_eq_some_iff {type : Schema} {data value : Value} :
    type.value? data = some value ↔ ∃ fitted, type.fit data = some fitted ∧ fitted.value = value :=
  Option.map_eq_some_iff

/-! ## Items -/

@[simp] theorem value_item (type : Schema) (fitted : Fitted) :
    (item type fitted).value = fitted.value := by
  cases type <;> rfl

theorem mapM_value? (type : Schema) (items : List Value) :
    items.mapM type.value? = (items.mapM type.fit).map fun parts => parts.map (·.value) :=
  mapM_map_eq type.fit (·.value) items

/-- The items of a container become its items. -/
theorem built_of_value? {type item : Schema} (hitem : type.item? = some item) {items : List Value}
    {value : Value} (h : type.value? (.list items) = some value) :
    ∃ values, items.mapM item.value? = some values ∧ value = type.built values := by
  obtain ⟨fitted, hfit, rfl⟩ := value?_eq_some_iff.mp h
  simp only [mapM_value?, Option.map_eq_some_iff]
  cases type with
  | list | variadic | sequence =>
      cases hitem
      simp only [fit, items?, Option.bind_eq_bind, Option.bind_some, Option.bind_eq_some_iff,
        Option.pure_def, Option.some.injEq] at hfit
      obtain ⟨parts, hparts, rfl⟩ := hfit
      exact ⟨_, ⟨parts, hparts, rfl⟩, by simp [gather, built, Function.comp_def]⟩
  | set | frozenSet =>
      cases hitem
      simp only [fit, items?, Option.bind_eq_bind, Option.bind_some,
        Option.bind_eq_some_iff] at hfit
      obtain ⟨parts, hparts, hset⟩ := hfit
      refine ⟨_, ⟨parts, hparts, rfl⟩, ?_⟩
      simp only [set?, Option.ite_none_right_eq_some, Option.some.injEq] at hset
      rw [← hset.2]
      simp [gather, built, Function.comp_def]
  | _ => cases hitem

theorem value?_list (item : Schema) (items : List Value) :
    (list item).value? (.list items) = (items.mapM item.value?).map .list := by
  rw [mapM_value?, value?, fit]
  cases h : items.mapM item.fit with
  | none => simp [items?, h]
  | some parts => simp [items?, h, gather, Function.comp_def]

theorem value?_tuple (types : List Schema) (items : List Value) :
    (tuple types).value? (.list items) =
      (fitEach types items).map fun parts => .tuple (parts.map (·.value)) := by
  rw [value?, fit]
  cases h : fitEach types items with
  | none => simp [items?, h]
  | some parts => simp [items?, h, gather]

/-! ## Entries and fields -/

theorem value?_entries {type key value : Schema} (hentry : type.keyAndValue? = some (key, value))
    (entries : List (Value × Value)) :
    type.value? (.dict entries) =
      (entries.mapM fun entry => key.value? entry.1).bind fun keys =>
        (entries.mapM fun entry => value.value? entry.2).map fun values =>
          .dictOfPairs (keys.zip values) := by
  simp only [value?, mapM_map_eq]
  cases type with
  | dict | mapping =>
      cases hentry
      rw [fit]
      cases entries.mapM fun entry => key.fit entry.1 with
      | none => rfl
      | some keys =>
          cases entries.mapM fun entry => value.fit entry.2 with
          | none => rfl
          | some values =>
              simp only [Option.map_some, Option.bind_some, List.zip_map]
              rfl
  | _ => cases hentry

theorem fitFields_cons (kind : RecordKind) (entries : List (Value × Value))
    (field : FieldInfo × Schema) (rest : List (FieldInfo × Schema)) :
    (fitFields kind entries (field :: rest)).map (·.1) =
      (fieldValue? kind entries field).bind fun value =>
        ((fitFields kind entries rest).map (·.1)).map (List.cons (field.1.name, value)) := by
  obtain ⟨field, type⟩ := field
  rw [fitFields, fieldValue?]
  cases given? kind field entries with
  | none =>
      cases field.default with
      | none => rfl
      | some value => cases fitFields kind entries rest <;> rfl
  | some data =>
      simp only [value?]
      cases type.fit data with
      | none => rfl
      | some fitted => cases fitFields kind entries rest <;> rfl

theorem fitFields_values (kind : RecordKind) (entries : List (Value × Value))
    (fields : List (FieldInfo × Schema)) :
    (fitFields kind entries fields).map (·.1) =
      (fields.mapM (fieldValue? kind entries)).map fun values =>
        (fields.map fun field => field.1.name).zip values := by
  induction fields with
  | nil => rfl
  | cons field rest ih =>
      rw [fitFields_cons, ih, List.mapM_cons]
      cases fieldValue? kind entries field with
      | none => rfl
      | some value => cases rest.mapM (fieldValue? kind entries) <;> rfl

theorem value?_record (type : RecordName) (fields : List (FieldInfo × Schema))
    {entries : List (Value × Value)} (h : areNames type.kind entries = true) :
    (record type fields).value? (.dict entries) =
      (fields.mapM (fieldValue? type.kind entries)).map fun values =>
        .record type ((fields.map fun field => field.1.name).zip values) := by
  have hvalues := fitFields_values type.kind entries fields
  rw [value?, fit, if_pos h]
  cases hfields : fitFields type.kind entries fields with
  | none =>
      rw [hfields, Option.map_none, eq_comm, Option.map_eq_none_iff] at hvalues
      rw [hvalues]
      rfl
  | some built =>
      rw [hfields, Option.map_some, eq_comm, Option.map_eq_some_iff] at hvalues
      obtain ⟨values, hmapM, hzip⟩ := hvalues
      rw [hmapM, Option.map_some, hzip]
      rfl

theorem fitFields_congr {kind : RecordKind} {entries others : List (Value × Value)}
    {fields : List (FieldInfo × Schema)}
    (h : ∀ field ∈ fields, (given? kind field.1 others).map field.2.fit =
      (given? kind field.1 entries).map field.2.fit) :
    fitFields kind others fields = fitFields kind entries fields := by
  induction fields with
  | nil => rfl
  | cons field rest ih =>
      obtain ⟨field, type⟩ := field
      obtain ⟨hfield, hrest⟩ := List.forall_mem_cons.mp h
      rw [fitFields, fitFields, ih hrest]
      cases hothers : given? kind field others <;>
        cases hentries : given? kind field entries <;>
        simp_all

/-! ## Members of a union -/

theorem fit_union_null {members : List Schema} (h : members.any isNull = true) :
    (union members).fit .null = some (exact .null) := by
  simp only [fit, h, Bool.true_and, if_true]

theorem fit_union {members : List Schema} {data : Value}
    (h : data = .null → members.any isNull = false) :
    (union members).fit data = fitMember none data members := by
  cases data with
  | null => simp only [fit, h rfl, Bool.false_and, Bool.false_eq_true, if_false]
  | _ => simp only [fit, Bool.and_false, Bool.false_eq_true, if_false]

theorem fitMember_cons (best : Option Fitted) (data : Value) (member : Schema)
    (rest : List Schema) :
    fitMember best data (member :: rest) =
      if member.isNull then fitMember best data rest
      else match member.fit data with
        | none => fitMember best data rest
        | some fitted =>
          if fitted.isPerfect then some fitted
          else fitMember (some (prefer best fitted)) data rest := by
  cases member <;> rfl

theorem prefer_eq (best : Option Fitted) (new : Fitted) :
    prefer best new = new ∨ best = some (prefer best new) := by
  cases best with
  | none => exact .inl rfl
  | some best =>
      rw [prefer]
      split
      · exact .inl rfl
      · exact .inr rfl

/-- What is made of data for a union is what one of its members makes of it. -/
theorem fit_of_fitMember {best : Option Fitted} {data : Value} {members : List Schema}
    {fitted : Fitted} (h : fitMember best data members = some fitted) :
    best = some fitted ∨ ∃ member ∈ members, member.isNull = false ∧
      member.fit data = some fitted := by
  induction members generalizing best with
  | nil => exact .inl h
  | cons member rest ih =>
      have hrest {best : Option Fitted} (h : fitMember best data rest = some fitted) :
          best = some fitted ∨ ∃ member' ∈ member :: rest, member'.isNull = false ∧
            member'.fit data = some fitted :=
        (ih h).imp_right fun ⟨member', hmem, h⟩ => ⟨member', List.mem_cons_of_mem _ hmem, h⟩
      rw [fitMember_cons] at h
      split_ifs at h with hnull
      · exact hrest h
      · have hmember {new : Fitted} (hfit : member.fit data = some new) (heq : new = fitted) :
            ∃ member' ∈ member :: rest, member'.isNull = false ∧
              member'.fit data = some fitted :=
          ⟨member, List.mem_cons_self, Bool.eq_false_iff.mpr hnull, heq ▸ hfit⟩
        split at h
        · exact hrest h
        case _ new hfit =>
          split_ifs at h with hperfect
          · exact .inr (hmember hfit (Option.some.inj h))
          · rcases hrest h with hbest | h
            · rcases prefer_eq best new with hnew | hold
              · exact .inr (hmember hfit (hnew.symm.trans (Option.some.inj hbest)))
              · exact .inl (hold.trans hbest)
            · exact .inr h

/-- Members that make nothing of the data may as well be missing. -/
theorem fitMember_filter {keep : Schema → Bool} {data : Value} {members : List Schema}
    (h : ∀ member ∈ members, keep member = false → member.isNull = true ∨ member.fit data = none)
    (best : Option Fitted) :
    fitMember best data (members.filter keep) = fitMember best data members := by
  induction members generalizing best with
  | nil => rfl
  | cons member rest ih =>
      obtain ⟨hmember, hrest⟩ := List.forall_mem_cons.mp h
      cases hkeep : keep member with
      | true =>
          rw [List.filter_cons_of_pos hkeep, fitMember_cons, fitMember_cons]
          simp only [ih hrest]
      | false =>
          rw [List.filter_cons_of_neg (by simp [hkeep]), fitMember_cons, ih hrest]
          rcases hmember hkeep with hnull | hnone
          · rw [if_pos hnull]
          · simp [hnone]

theorem fitMember_of_filter {keep : Schema → Bool} {data : Value} {members : List Schema}
    {member : Schema} (hkeep : members.filter keep = [member]) (hnull : member.isNull = false)
    (h : ∀ member ∈ members, keep member = false →
      member.isNull = true ∨ member.fit data = none) :
    fitMember none data members = member.fit data := by
  rw [← fitMember_filter h, hkeep, fitMember_cons, hnull]
  cases member.fit data with
  | none => rfl
  | some fitted => simp [fitMember, prefer]

/-- Null becomes nothing but null. -/
theorem eq_null_of_fit_null {type : Schema} {fitted : Fitted} (h : type.fit .null = some fitted) :
    fitted.value = .null := by
  induction type using Schema.induction generalizing fitted with
  | h type ih =>
      cases type with
      | any | null => cases h; rfl
      | annotated type => exact ih type List.mem_cons_self h
      | union members =>
          cases hnull : members.any isNull with
          | true =>
              cases (fit_union_null hnull).symm.trans h
              rfl
          | false =>
              rw [fit_union fun _ => hnull] at h
              rcases fit_of_fitMember h with hnone | ⟨member, hmem, -, hfit⟩
              · cases hnone
              · exact ih member hmem hfit
      | _ => cases h

/-! ## Dictionaries and unions -/

mutual

/-- Whether a dictionary may fit into the type. -/
def takesDict : Schema → Bool
  | any | anyDict | dict .. | mapping .. | record .. => true
  | annotated type => takesDict type
  | union members => someTakesDict members
  | _ => false

def someTakesDict : List Schema → Bool
  | [] => false
  | type :: rest => takesDict type || someTakesDict rest

end

theorem takesDict_of_isRecord {type : Schema} (h : type.isRecord = true) :
    type.takesDict = true := by
  cases type with
  | record => rfl
  | _ => cases h

theorem someTakesDict_eq_false {types : List Schema} (h : someTakesDict types = false) :
    ∀ type ∈ types, type.takesDict = false := by
  induction types with
  | nil => exact fun _ hmem => (List.not_mem_nil hmem).elim
  | cons type rest ih =>
      obtain ⟨htype, hrest⟩ := Bool.or_eq_false_iff.mp h
      exact List.forall_mem_cons.mpr ⟨htype, ih hrest⟩

theorem fit_dict_eq_none {type : Schema} (h : type.takesDict = false)
    (entries : List (Value × Value)) : type.fit (.dict entries) = none := by
  induction type using Schema.induction with
  | h type ih =>
      cases type with
      | any | anyDict | dict | mapping | record => cases h
      | annotated type => exact ih type List.mem_cons_self h
      | union members =>
          rw [fit_union fun heq => by cases heq]
          cases hfit : fitMember none (.dict entries) members with
          | none => rfl
          | some fitted =>
              rcases fit_of_fitMember hfit with hnone | ⟨member, hmem, -, hmember⟩
              · cases hnone
              · rw [ih member hmem (someTakesDict_eq_false h member hmem)] at hmember
                cases hmember
      | sequence item => cases item <;> rfl
      | _ => rfl

/-- What comes of the data is for the member alone: it is the only companion of null, or it is a
record that the dictionary goes through, and nothing else takes dictionaries. -/
inductive Decides (members : List Schema) : Value → Schema → Prop
  | proper {data : Value} {member : Schema} (h : proper members = [member]) :
      Decides members data member
  | record {entries : List (Value × Value)} {member : Schema} (hrecord : member.isRecord = true)
      (h : members.filter takesDict = [member]) : Decides members (.dict entries) member

namespace Decides

variable {members : List Schema} {data : Value} {member : Schema}

theorem isNull_eq_false (h : Decides members data member) : member.isNull = false := by
  cases h with
  | proper h =>
      have hmem : member ∈ Schema.proper members := h ▸ List.mem_singleton_self member
      simpa using (List.mem_filter.mp hmem).2
  | record hrecord _ =>
      cases member with
      | record => rfl
      | _ => cases hrecord

theorem mem (h : Decides members data member) : member ∈ members := by
  cases h with
  | proper h =>
      have hmem : member ∈ Schema.proper members := h ▸ List.mem_singleton_self member
      exact (List.mem_filter.mp hmem).1
  | record _ h =>
      have hmem : member ∈ members.filter takesDict := h ▸ List.mem_singleton_self member
      exact (List.mem_filter.mp hmem).1

/-- The deciding member is the one that data is prepared for. -/
theorem find?_eq (h : Decides members data member) :
    members.find? (ExtractOptions.isChosen members data) = some member := by
  have hproper : member ∈ Schema.proper members :=
    List.mem_filter.mpr ⟨h.mem, by simp [h.isNull_eq_false]⟩
  cases h with
  | proper h => exact ExtractOptions.find?_isChosen_of_proper h data
  | @record entries _ hrecord h =>
      by_cases hone : (Schema.proper members).length = 1
      · obtain ⟨other, hother⟩ := List.length_eq_one_iff.mp hone
        rw [hother, List.mem_singleton] at hproper
        exact ExtractOptions.find?_isChosen_of_proper (hproper ▸ hother) _
      have hchosen : ExtractOptions.isChosen members (.dict entries) = isRecord := by
        unfold ExtractOptions.isChosen
        exact if_neg hone
      have hmem : member ∈ members := (List.mem_filter.mp hproper).1
      rw [hchosen]
      cases hfind : members.find? isRecord with
      | none => exact (List.find?_eq_none.mp hfind member hmem hrecord).elim
      | some other =>
          have hother : other ∈ members.filter takesDict :=
            List.mem_filter.mpr ⟨List.mem_of_find?_eq_some hfind,
              takesDict_of_isRecord (List.find?_some hfind)⟩
          rw [h, List.mem_singleton] at hother
          rw [hother]

theorem fitMember_eq (h : Decides members data member) {prepared : Value}
    (hshape : data.Reshaped prepared) : fitMember none prepared members = member.fit prepared := by
  have hnull := h.isNull_eq_false
  cases h with
  | proper h =>
      exact fitMember_of_filter h hnull fun other _ hother => .inl (by simpa using hother)
  | @record entries _ _ h =>
      refine fitMember_of_filter h hnull fun other _ hother => .inr ?_
      cases hshape <;> exact fit_dict_eq_none hother _

end Decides

end Schema

/-! ## Extraction -/

namespace ExtractOptions

variable {options : ExtractOptions} (h : options.hooks = []) {place : String} {type : Schema}
  {data : Value}

include h

theorem extract_eq :
    options.extract place type data =
      (options.prepareAs place type.admitsNull type data).bind fun prepared =>
        match type.fit prepared with
        | some fitted => .ok fitted.value
        | none => .error (.doesNotFit place type.name) := by
  rw [extract, prepare, enter_of_unhooked h]
  cases type <;> rfl

theorem extract_eq_ok_iff {value : Value} :
    options.extract place type data = .ok value ↔
      ∃ prepared, options.prepareAs place type.admitsNull type data = .ok prepared ∧
        type.value? prepared = some value := by
  rw [extract_eq h]
  cases options.prepareAs place type.admitsNull type data with
  | error fault => simp [Except.bind]
  | ok prepared =>
      simp only [Except.bind, Except.ok.injEq, exists_eq_left', Schema.value?]
      cases type.fit prepared <;> simp

end ExtractOptions

end LayeredConfig
