import LayeredConfig.Proofs.Record.Assembly

/-! # Unused keys

Where unused keys are refused, a dictionary of the data that becomes a record has only keys that
fields of the record are read from. A union of several members is the exception: only dictionaries
are looked into, and only for the first record among the members, so that what another member makes
of the data may hold keys that no field of it takes. -/

namespace LayeredConfig

namespace Schema

open Fitted

/-! ## Values without records -/

section Scalars

variable {data : Value} {fitted : Fitted}

theorem isScalar_of_bool? (h : bool? data = some fitted) : fitted.value.isScalar = true := by
  cases data with
  | bool value => cases h; rfl
  | text | int =>
      obtain ⟨_, -, rfl⟩ := Option.map_eq_some_iff.mp h
      rfl
  | float value =>
      obtain ⟨whole, -, h⟩ := Option.bind_eq_some_iff.mp h
      obtain ⟨value, -, h⟩ := Option.bind_eq_some_iff.mp h
      cases h
      rfl
  | _ => cases h

theorem isScalar_of_int? (hdata : data.isScalar = true) (h : int? data = some fitted) :
    fitted.value.isScalar = true := by
  cases data with
  | int | bool => cases h; rfl
  | text | float | decimal =>
      obtain ⟨_, -, rfl⟩ := Option.map_eq_some_iff.mp h
      rfl
  | enum => cases hdata
  | _ => cases h

theorem isScalar_of_float? (hdata : data.isScalar = true) (h : float? data = some fitted) :
    fitted.value.isScalar = true := by
  cases data with
  | float | bool => cases h; rfl
  | text | int =>
      obtain ⟨_, -, rfl⟩ := Option.map_eq_some_iff.mp h
      rfl
  | decimal value =>
      rw [float?] at h
      split_ifs at h
      cases h
      rfl
  | enum => cases hdata
  | _ => cases h

end Scalars

/-- A scalar becomes a scalar. -/
theorem isScalar_of_value? {type : Schema} {data value : Value} (hdata : data.isScalar = true)
    (hopens : ¬ type.Opens data) (h : type.value? data = some value) : value.isScalar = true := by
  obtain ⟨fitted, hfit, rfl⟩ := value?_eq_some_iff.mp h
  cases type with
  | any => cases hfit; exact hdata
  | annotated type => exact (hopens (.annotated type data)).elim
  | union members => exact (hopens (.union members data)).elim
  | bool => exact isScalar_of_bool? hfit
  | int => exact isScalar_of_int? hdata hfit
  | float => exact isScalar_of_float? hdata hfit
  | text =>
      cases data with
      | text value => cases hfit; rfl
      | null | bool | int | float | decimal => cases hfit
      | _ => cases hdata
  | sequence item =>
      cases data with
      | text value =>
          cases item with
          | any => cases hfit; rfl
          | _ => cases hfit
      | null | bool | int | float | decimal => cases hfit
      | _ => cases hdata
  | _ =>
      cases data with
      | null => cases hfit <;> rfl
      | bool | int | float | decimal | text => cases hfit
      | _ => cases hdata

/-- Data that nothing is inside of becomes plain data. -/
theorem isPlain_of_value? {type : Schema} {data value : Value} (hdata : data.IsPlain)
    (hopens : ¬ type.Opens data) (h : type.value? data = some value) : value.IsPlain := by
  cases hdata with
  | scalar hscalar => exact .scalar (isScalar_of_value? hscalar hopens h)
  | @list items hitems =>
      cases type with
      | any | anyList => cases h; exact .list hitems
      | annotated type => exact (hopens (.annotated type _)).elim
      | union members => exact (hopens (.union members _)).elim
      | tuple types => exact (hopens (.tuple types items)).elim
      | list | set | frozenSet | sequence | variadic => exact (hopens (.items rfl items)).elim
      | _ => cases h
  | @dict entries hkeys hvalues =>
      cases type with
      | any | anyDict => cases h; exact .dict hkeys hvalues
      | annotated type => exact (hopens (.annotated type _)).elim
      | union members => exact (hopens (.union members _)).elim
      | record type fields => exact (hopens (.record type fields entries)).elim
      | dict | mapping => exact (hopens (.entries rfl entries)).elim
      | sequence item => cases item <;> cases h
      | _ => cases h

end Schema

namespace ExtractOptions

open Schema

/-- Every dictionary of the data that became a record of the value has only keys that fields of the
record are read from. Of a union the value is what such a member made of the data; where the union
has several members, it may also be what they make of data that was not looked into, or what another
member than the first record makes of a dictionary that was prepared for that one. -/
inductive Accounted (options : ExtractOptions) : Schema → Value → Value → Prop
  /-- No part of the value is a record. -/
  | plain {type : Schema} {data value : Value} (h : value.IsPlain) : Accounted options type data value
  | items {type item : Schema} (hitem : type.item? = some item) {rows : List (Value × Value)}
      (h : ∀ row ∈ rows, Accounted options item row.1 row.2) :
      Accounted options type (.list (rows.map (·.1))) (type.built (rows.map (·.2)))
  | tuple {rows : List (Schema × Value × Value)}
      (h : ∀ row ∈ rows, Accounted options row.1 row.2.1 row.2.2) :
      Accounted options (.tuple (rows.map (·.1))) (.list (rows.map (·.2.1)))
        (.tuple (rows.map (·.2.2)))
  | entries {type key value : Schema} (hentry : type.keyAndValue? = some (key, value))
      {rows : List ((Value × Value) × (Value × Value))}
      (hkeys : ∀ row ∈ rows, key.value? row.1.1 = some row.2.1)
      (h : ∀ row ∈ rows, Accounted options value row.1.2 row.2.2) :
      Accounted options type (.dict (rows.map (·.1))) (.dictOfPairs (rows.map (·.2)))
  | record {type : RecordName} {entries : List (Value × Value)}
      {rows : List ((FieldInfo × Schema) × Value)}
      (htakes : options.TakesAll (rows.map (·.1)) entries)
      (hgiven : ∀ row ∈ rows, ∀ data, options.source? row.1.1 entries = some data →
        Accounted options row.1.2 data row.2)
      (hdefault : ∀ row ∈ rows, options.source? row.1.1 entries = none →
        row.1.1.default = some row.2) :
      Accounted options (.record type (rows.map (·.1))) (.dict entries)
        (.record type (rows.map fun row => (row.1.1.name, row.2)))
  | annotated {type : Schema} {data value : Value} (h : Accounted options type data value) :
      Accounted options (.annotated type) data value
  | member {members : List Schema} {member : Schema} {data value : Value} (hmem : member ∈ members)
      (h : Accounted options member data value) : Accounted options (.union members) data value
  | unseen {members : List Schema} {data value : Value}
      (hseveral : (proper members).length ≠ 1)
      (hunseen : ∀ entries, data = .dict entries → members.find? isRecord = none)
      (hvalue : (union members).value? data = some value) :
      Accounted options (.union members) data value
  | another {members : List Schema} {type : RecordName} {fields : List (FieldInfo × Schema)}
      {member : Schema} {entries : List (Value × Value)} {place : String} {nullable : Bool}
      {prepared value : Value} (hseveral : (proper members).length ≠ 1)
      (hfirst : members.find? isRecord = some (.record type fields))
      (htakes : options.TakesAll fields entries)
      (hprepared : options.prepareAs place nullable (.record type fields) (.dict entries) =
        .ok prepared)
      (hmem : member ∈ members) (hother : member ≠ .record type fields)
      (hvalue : member.value? prepared = some value) :
      Accounted options (.union members) (.dict entries) value

variable {options : ExtractOptions}

theorem assembles_accounted (hrefuse : options.refuseUnused = true) :
    options.Assembles options.Accounted where
  annotated := .annotated
  items hitem h := .items hitem h
  tuple := .tuple
  entries hentry hkeys h := .entries hentry hkeys h
  record htakes := .record (htakes hrefuse)

/-! ## Unions -/

theorem isChosen_of_several {members : List Schema} (h : (proper members).length ≠ 1)
    (data : Value) :
    isChosen members data = if data matches .dict _ then isRecord else fun _ => false := by
  unfold isChosen
  exact if_neg h

/-- A union that no member is chosen of has several, and no record where the data is a
dictionary. -/
theorem of_find?_isChosen_none {members : List Schema} {data : Value}
    (h : members.find? (isChosen members data) = none) :
    (proper members).length ≠ 1 ∧
      ∀ entries, data = .dict entries → members.find? isRecord = none := by
  have hseveral : (proper members).length ≠ 1 := fun hone => by
    obtain ⟨member, hmember⟩ := List.length_eq_one_iff.mp hone
    rw [find?_isChosen_of_proper hmember] at h
    cases h
  refine ⟨hseveral, ?_⟩
  rintro entries rfl
  rwa [isChosen_of_several hseveral] at h

/-- A member that is chosen is the only one beside null, or the first record, for a dictionary. -/
theorem of_find?_isChosen_some {members : List Schema} {data : Value} {member : Schema}
    (h : members.find? (isChosen members data) = some member) :
    proper members = [member] ∨ (proper members).length ≠ 1 ∧
      ∃ entries type fields, data = .dict entries ∧ member = .record type fields ∧
        members.find? isRecord = some member := by
  by_cases hone : (proper members).length = 1
  · obtain ⟨only, honly⟩ := List.length_eq_one_iff.mp hone
    rw [find?_isChosen_of_proper honly] at h
    cases h
    exact .inl honly
  · refine .inr ⟨hone, ?_⟩
    rw [isChosen_of_several hone] at h
    cases data with
    | dict entries =>
        have hrecord := List.find?_some h
        cases member with
        | record type fields => exact ⟨entries, type, fields, rfl, rfl, h⟩
        | _ => cases hrecord
    | _ =>
        rw [List.find?_eq_none.mpr (by simp)] at h
        cases h

theorem yields_union_none {members : List Schema} {data : Value}
    (h : members.find? (isChosen members data) = none) :
    Yields options.Accounted (.union members) data data := fun _ hvalue =>
  .unseen (of_find?_isChosen_none h).1 (of_find?_isChosen_none h).2 hvalue

theorem yields_union_some (hhooks : options.hooks = []) (hrefuse : options.refuseUnused = true)
    {members : List Schema} {data prepared : Value} {member : Schema} {place : String}
    {nullable : Bool} (hdata : data.IsPlain)
    (hchosen : members.find? (isChosen members data) = some member)
    (hprepared : options.prepareAs place nullable member data = .ok prepared)
    (hyields : Yields options.Accounted member data prepared) :
    Yields options.Accounted (.union members) data prepared := by
  intro value hvalue
  obtain ⟨fitted, hfit, rfl⟩ := value?_eq_some_iff.mp hvalue
  by_cases habsent : prepared = .null
  · subst habsent
    rw [eq_null_of_fit_null hfit]
    exact .plain (.scalar rfl)
  · rw [fit_union fun h => (habsent h).elim] at hfit
    obtain ⟨other, hother, hnull, hfit⟩ := (fit_of_fitMember hfit).resolve_left (by simp)
    have hvalue := value?_eq_some_iff.mpr ⟨fitted, hfit, rfl⟩
    by_cases heq : other = member
    · subst heq
      exact .member hother (hyields _ hvalue)
    rcases of_find?_isChosen_some hchosen with honly | ⟨hseveral, entries, type, fields, h⟩
    · have hproper : other ∈ proper members := List.mem_filter.mpr ⟨hother, by simp [hnull]⟩
      rw [honly, List.mem_singleton] at hproper
      exact (heq hproper).elim
    · obtain ⟨rfl, rfl, hfirst⟩ := h
      have htakes : Ends _ _ (options.prepareAs place nullable (.record type fields) _) :=
        ends_prepareAs_takesAll hhooks type fields hdata
      rw [hprepared] at htakes
      exact .another hseveral hfirst (htakes.of_ok hrefuse) hprepared hother heq hvalue

/-! ## All data -/

theorem ends_prepareAs_accounted (hhooks : options.hooks = [])
    (hrefuse : options.refuseUnused = true) {type : Schema} (htype : type.Everywhere NamesApart)
    {data : Value} (hdata : data.IsPlain) (place : String) (nullable : Bool) :
    Ends (fun _ => True) (Yields options.Accounted type data)
      (options.prepareAs place nullable type data) := by
  refine (assembles_accounted hrefuse).lifts.ends_prepareAs (unhooked hhooks) ?_ ?_ htype hdata
    place nullable
  · intro members data _ hdata hmembers place nullable
    rw [prepareAs, prepareMember_eq]
    cases hchosen : members.find? (isChosen members data) with
    | none =>
        refine (ends_leaf _ data).mono (fun _ h => h) ?_
        rintro _ ⟨rfl, -⟩
        exact yields_union_none hchosen
    | some member =>
        have hmember := hmembers member (List.mem_of_find?_eq_some hchosen) place nullable
        change Ends _ _ (options.prepareAs place nullable member data)
        cases hprepared : options.prepareAs place nullable member data with
        | error fault => exact .fault trivial
        | ok prepared =>
            rw [hprepared] at hmember
            exact .answer (yields_union_some hhooks hrefuse hdata hchosen hprepared hmember.of_ok)
  · intro type data hdata hopens place nullable
    refine (ends_leaf type data).mono (fun _ h => h) ?_
    rintro _ ⟨rfl, -⟩ value hvalue
    exact .plain (isPlain_of_value? hdata hopens hvalue)

/-- Where unused keys are refused, the dictionaries of plain data that become records have only keys
of their fields, except for what unions of several members make of data that was not prepared for
the member that takes it. -/
theorem accounted_of_extract (hhooks : options.hooks = []) (hrefuse : options.refuseUnused = true)
    {type : Schema} (htype : type.Everywhere NamesApart) {data : Value} (hdata : data.IsPlain)
    {place : String} {value : Value} (h : options.extract place type data = .ok value) :
    options.Accounted type data value := by
  obtain ⟨prepared, hprepared, hvalue⟩ := (extract_eq_ok_iff hhooks).mp h
  have hends := ends_prepareAs_accounted hhooks hrefuse htype hdata place type.admitsNull
  rw [hprepared] at hends
  exact hends.of_ok value hvalue

/-- Servers in an optional list, whose ports are read from another key. -/
theorem accounted_of_extract_servers :
    let port : FieldInfo := { name := ⟨"port", .tags []⟩ }
    let options : ExtractOptions :=
      { refuseUnused := true, mappers := [KeyMapper.ofTable [("port", "Port")]] }
    let type : Schema := .union [.list (.record ⟨.tagged, "Server"⟩ [(port, .int)]), .null]
    let data : Value := .list [.dict [(.text "Port", .text "80")]]
    let servers : Value := .list [.record ⟨.tagged, "Server"⟩ [(port.name, .int 80)]]
    options.hooks = [] ∧ options.refuseUnused = true ∧ type.Everywhere NamesApart ∧
      data.IsPlain ∧ options.extract "" type data = .ok servers ∧
      options.Accounted type data servers := by
  intro port options type data servers
  have htype : type.Everywhere NamesApart := by
    have hserver : (Schema.record ⟨.tagged, "Server"⟩ [(port, .int)]).Everywhere NamesApart :=
      .intro (List.pairwise_singleton _ _) (List.forall_mem_singleton.mpr (.leaf rfl trivial))
    refine .intro trivial (List.forall_mem_cons.mpr
      ⟨.intro trivial (List.forall_mem_singleton.mpr hserver), ?_⟩)
    exact List.forall_mem_singleton.mpr (.leaf rfl trivial)
  have hdata : data.IsPlain :=
    .list (List.forall_mem_singleton.mpr
      (.dict (by simp) (List.forall_mem_singleton.mpr (.scalar rfl))))
  have hextract : options.extract "" type data = .ok servers := by rfl
  exact ⟨rfl, rfl, htype, hdata, hextract, accounted_of_extract rfl rfl htype hdata hextract⟩

/-- A list that may also be a number is not looked into, and a key that no field takes passes. -/
theorem extract_unused_key :
    let port : FieldInfo := { name := ⟨"port", .tags []⟩ }
    let options : ExtractOptions := { refuseUnused := true }
    let server : Schema := .record ⟨.tagged, "Server"⟩ [(port, .int)]
    let entries : List (Value × Value) := [(.text "port", .int 80), (.text "prot", .int 81)]
    options.extract "" (.union [.list server, .int]) (.list [.dict entries]) =
        .ok (.list [.record ⟨.tagged, "Server"⟩ [(port.name, .int 80)]]) ∧
      ¬ options.TakesAll [(port, .int)] entries := by
  intro port options server entries
  refine ⟨rfl, fun htakes => ?_⟩
  obtain ⟨field, hfield, key, ⟨-, hkey⟩, htext⟩ := htakes (.text "prot", .int 81) (by simp [entries])
  rw [List.mem_singleton.mp hfield] at hkey
  cases htext
  revert hkey
  decide

end ExtractOptions

end LayeredConfig
