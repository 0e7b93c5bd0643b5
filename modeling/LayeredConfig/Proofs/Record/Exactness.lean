import LayeredConfig.Proofs.Record.Assembly

/-! # Extraction without conversions

Where weak typing is off, scalars are refused that are not of the type in their place already. What
is extracted then holds the scalars of the data as they are, apart from whole numbers in the place
of binary ones, except inside unions of several types: those are not looked into, and fitting
converts there as it always does. -/

namespace LayeredConfig

namespace Schema

open Fitted

/-- The type is the one of a scalar. -/
def isOwn : Schema → Value → Bool
  | null, .null | bool, .bool _ | int, .int _ | float, .float _ | text, .text _ => true
  | _, _ => false

theorem fit_of_isOwn {type : Schema} {data : Value} (h : type.isOwn data = true) :
    type.fit data = some (exact data) := by
  unfold isOwn at h
  split at h <;> first | rfl | cases h

theorem isScalar_of_isOwn {type : Schema} {data : Value} (h : type.isOwn data = true) :
    data.isScalar = true := by
  unfold isOwn at h
  split at h <;> first | rfl | cases h

/-! ## Perfect fits -/

section Scalars

variable {data : Value} {fitted : Fitted} (hdata : data.isScalar = true)
  (hperfect : fitted.isPerfect = true)

include hperfect

theorem value_of_bool? (h : bool? data = some fitted) : fitted.value = data := by
  cases data with
  | bool value => cases h; rfl
  | text | int =>
      obtain ⟨_, -, rfl⟩ := Option.map_eq_some_iff.mp h
      cases hperfect
  | float value =>
      obtain ⟨whole, -, h⟩ := Option.bind_eq_some_iff.mp h
      obtain ⟨value, -, h⟩ := Option.bind_eq_some_iff.mp h
      cases h
      cases hperfect
  | _ => cases h

include hdata

theorem value_of_int? (h : int? data = some fitted) : fitted.value = data := by
  cases data with
  | int value => cases h; rfl
  | bool value => cases h; cases hperfect
  | text | float | decimal =>
      obtain ⟨_, -, rfl⟩ := Option.map_eq_some_iff.mp h
      cases hperfect
  | enum => cases hdata
  | _ => cases h

theorem value_of_float? (h : float? data = some fitted) : fitted.value = data := by
  cases data with
  | float value => cases h; rfl
  | bool value => cases h; cases hperfect
  | text | int =>
      obtain ⟨_, -, rfl⟩ := Option.map_eq_some_iff.mp h
      cases hperfect
  | decimal value =>
      rw [float?] at h
      split_ifs at h
      cases h
      cases hperfect
  | enum => cases hdata
  | _ => cases h

omit hperfect in
theorem value_of_text? (h : text? data = some fitted) : fitted.value = data := by
  cases data with
  | text value => cases h; rfl
  | bytes | enum => cases hdata
  | _ => cases h

/-- No type takes a scalar for exactly something else. -/
theorem value_of_isPerfect {type : Schema} (hfit : type.fit data = some fitted) :
    fitted.value = data := by
  induction type using Schema.induction with
  | h type ih =>
      cases type with
      | bool => exact value_of_bool? hperfect hfit
      | int => exact value_of_int? hdata hperfect hfit
      | float => exact value_of_float? hdata hperfect hfit
      | text => exact value_of_text? hdata hfit
      | annotated type => exact ih type List.mem_cons_self hfit
      | union members =>
          by_cases hnull : data = .null
          · subst hnull
            exact eq_null_of_fit_null hfit
          · rw [fit_union fun h => (hnull h).elim] at hfit
            rcases fit_of_fitMember hfit with hnone | ⟨member, hmem, -, hmember⟩
            · cases hnone
            · exact ih member hmem hmember
      | any =>
          cases hfit
          cases hperfect
      | null =>
          cases data with
          | null => exact eq_null_of_fit_null hfit
          | _ => cases hfit
      | sequence item =>
          cases data with
          | text value =>
              cases item with
              | any => cases hfit; cases hperfect
              | _ => cases hfit
          | null | bool | int | float | decimal => cases hfit
          | _ => cases hdata
      | _ =>
          cases data with
          | null | bool | int | float | decimal | text => cases hfit
          | _ => cases hdata

end Scalars

/-- A scalar of the type of a member is kept. -/
theorem value_of_fitMember {members : List Schema} {data : Value} {member : Schema}
    (hmem : member ∈ members) (hnull : member.isNull = false) (hown : member.isOwn data = true)
    {best : Option Fitted} {fitted : Fitted}
    (h : fitMember best data members = some fitted) : fitted.value = data := by
  induction members generalizing best with
  | nil => cases hmem
  | cons first rest ih =>
      rw [fitMember_cons] at h
      rcases List.mem_cons.mp hmem with rfl | hmem
      · rw [if_neg (by simp [hnull]), fit_of_isOwn hown] at h
        cases h
        rfl
      · split_ifs at h with hfirst
        · exact ih hmem h
        · split at h
          · exact ih hmem h
          case _ new hfit =>
            split_ifs at h with hperfect
            · cases h
              exact value_of_isPerfect (isScalar_of_isOwn hown) hperfect hfit
            · exact ih hmem h

theorem value_of_union {members : List Schema} {data value : Value} {member : Schema}
    (hmem : member ∈ members) (hown : member.isOwn data = true)
    (h : (union members).value? data = some value) : value = data := by
  obtain ⟨fitted, hfit, rfl⟩ := value?_eq_some_iff.mp h
  by_cases hdata : data = .null
  · subst hdata
    exact eq_null_of_fit_null hfit
  · rw [fit_union fun h => (hdata h).elim] at hfit
    refine value_of_fitMember hmem ?_ hown hfit
    cases member with
    | null =>
        cases data with
        | null => exact (hdata rfl).elim
        | _ => cases hown
    | _ => rfl

end Schema

namespace ExtractOptions

open Schema

/-- The value holds the scalars of the data that is in the place of a scalar type, or of such a type
or null, without conversion: a truth value for truth values, a whole number for whole numbers, a
whole or a binary number for binary ones, a text for texts. Of a union of several types it is only
said that a scalar of the type of a member is kept. -/
inductive Unconverted (options : ExtractOptions) : Schema → Value → Value → Prop
  | null : Unconverted options .null .null .null
  | bool (value : Bool) : Unconverted options .bool (.bool value) (.bool value)
  | int (value : Int) : Unconverted options .int (.int value) (.int value)
  | float (value : Binary64) : Unconverted options .float (.float value) (.float value)
  | whole {value : Int} {double : Binary64} (h : Lenient.doubleOfInt? value = some double) :
      Unconverted options .float (.int value) (.float double)
  | text (value : String) : Unconverted options .text (.text value) (.text value)
  | any (data : Value) : Unconverted options .any data data
  | anyList (items : List Value) : Unconverted options .anyList (.list items) (.list items)
  | anyDict (entries : List (Value × Value)) :
      Unconverted options .anyDict (.dict entries) (.dict entries)
  | characters (value : String) :
      Unconverted options (.sequence .any) (.text value) (.text value)
  | items {type item : Schema} (hitem : type.item? = some item) {rows : List (Value × Value)}
      (h : ∀ row ∈ rows, Unconverted options item row.1 row.2) :
      Unconverted options type (.list (rows.map (·.1))) (type.built (rows.map (·.2)))
  | tuple {rows : List (Schema × Value × Value)}
      (h : ∀ row ∈ rows, Unconverted options row.1 row.2.1 row.2.2) :
      Unconverted options (.tuple (rows.map (·.1))) (.list (rows.map (·.2.1)))
        (.tuple (rows.map (·.2.2)))
  | entries {type key value : Schema} (hentry : type.keyAndValue? = some (key, value))
      {rows : List ((Value × Value) × (Value × Value))}
      (hkeys : ∀ row ∈ rows, key.value? row.1.1 = some row.2.1)
      (h : ∀ row ∈ rows, Unconverted options value row.1.2 row.2.2) :
      Unconverted options type (.dict (rows.map (·.1))) (.dictOfPairs (rows.map (·.2)))
  | record {type : RecordName} {entries : List (Value × Value)}
      {rows : List ((FieldInfo × Schema) × Value)}
      (hgiven : ∀ row ∈ rows, ∀ data, options.source? row.1.1 entries = some data →
        Unconverted options row.1.2 data row.2)
      (hdefault : ∀ row ∈ rows, options.source? row.1.1 entries = none →
        row.1.1.default = some row.2) :
      Unconverted options (.record type (rows.map (·.1))) (.dict entries)
        (.record type (rows.map fun row => (row.1.1.name, row.2)))
  | annotated {type : Schema} {data value : Value} (h : Unconverted options type data value) :
      Unconverted options (.annotated type) data value
  | absent {members : List Schema} (hnull : members.any isNull = true) :
      Unconverted options (.union members) .null .null
  | member {members : List Schema} {member : Schema} {data value : Value}
      (hdecides : Decides members data member) (h : Unconverted options member data value) :
      Unconverted options (.union members) data value
  | undecided {members : List Schema} {data value : Value}
      (hundecided : ¬ ∃ member, Decides members data member)
      (hown : ∀ member ∈ members, member.isOwn data = true → value = data) :
      Unconverted options (.union members) data value

variable {options : ExtractOptions}

/-! ## Data that nothing is inside of -/

theorem unconverted_scalar {type : Schema} {data value : Value} (hdata : data.isScalar = true)
    (hopens : ¬ type.Opens data) (hexact : data = .null ∨ type.isExactly data = true)
    (h : type.value? data = some value) : options.Unconverted type data value := by
  have hexact : data ≠ .null → type.isExactly data = true := fun hne => hexact.resolve_left hne
  cases type with
  | any => cases h; exact .any data
  | annotated type => exact (hopens (.annotated type data)).elim
  | union members => exact (hopens (.union members data)).elim
  | null =>
      cases data with
      | null => cases h; exact .null
      | _ => cases h
  | bool =>
      cases data with
      | bool value => cases h; exact .bool value
      | null => cases h
      | _ => cases hexact (by simp)
  | int =>
      cases data with
      | int value => cases h; exact .int value
      | null => cases h
      | enum => cases hdata
      | _ => cases hexact (by simp)
  | float =>
      cases data with
      | float value => cases h; exact .float value
      | int value =>
          obtain ⟨fitted, hfit, rfl⟩ := value?_eq_some_iff.mp h
          obtain ⟨double, hdouble, rfl⟩ := Option.map_eq_some_iff.mp hfit
          exact .whole hdouble
      | null => cases h
      | enum => cases hdata
      | _ => cases hexact (by simp)
  | text =>
      cases data with
      | text value => cases h; exact .text value
      | null => cases h
      | _ => cases hexact (by simp)
  | sequence item =>
      cases data with
      | text value =>
          cases item with
          | any => cases h; exact .characters value
          | _ => cases h
      | null | bool | int | float | decimal => cases h
      | _ => cases hdata
  | _ =>
      cases data with
      | null | bool | int | float | decimal | text => cases h
      | _ => cases hdata

/-- Data that nothing is inside of is kept if it is of its type already. -/
theorem unconverted_leaf {type : Schema} {data value : Value} (hdata : data.IsPlain)
    (hopens : ¬ type.Opens data) (hexact : data = .null ∨ type.isExactly data = true)
    (h : type.value? data = some value) : options.Unconverted type data value := by
  cases hdata with
  | scalar hscalar => exact unconverted_scalar hscalar hopens hexact h
  | @list items _ =>
      cases type with
      | any => cases h; exact .any _
      | anyList => cases h; exact .anyList items
      | annotated type => exact (hopens (.annotated type _)).elim
      | union members => exact (hopens (.union members _)).elim
      | tuple types => exact (hopens (.tuple types items)).elim
      | list | set | frozenSet | sequence | variadic => exact (hopens (.items rfl items)).elim
      | _ => cases h
  | @dict entries _ _ =>
      cases type with
      | any => cases h; exact .any _
      | anyDict => cases h; exact .anyDict entries
      | annotated type => exact (hopens (.annotated type _)).elim
      | union members => exact (hopens (.union members _)).elim
      | record type fields => exact (hopens (.record type fields entries)).elim
      | dict | mapping => exact (hopens (.entries rfl entries)).elim
      | sequence item => cases item <;> cases h
      | _ => cases h

/-! ## What is inside -/

/-- Whatever becomes of prepared data has the scalars of the data that it was prepared from. -/
def KeepsScalars (options : ExtractOptions) (type : Schema) (data prepared : Value) : Prop :=
  ∀ value, type.value? prepared = some value → options.Unconverted type data value

theorem assembles_unconverted : options.Assembles options.Unconverted where
  annotated := .annotated
  items hitem h := .items hitem h
  tuple := .tuple
  entries hentry hkeys h := .entries hentry hkeys h
  record _ := .record

/-! ## All data -/

theorem keepsScalars_of_decides {members : List Schema} {data prepared : Value} {member : Schema}
    (hdecides : Decides members data member) (hshape : data.Reshaped prepared)
    (h : options.KeepsScalars member data prepared) :
    options.KeepsScalars (.union members) data prepared := by
  intro value hvalue
  obtain ⟨fitted, hfit, rfl⟩ := value?_eq_some_iff.mp hvalue
  by_cases habsent : prepared = .null ∧ members.any isNull = true
  · obtain ⟨rfl, hnull⟩ := habsent
    cases hshape
    rw [eq_null_of_fit_null hfit]
    exact .absent hnull
  · rw [fit_union fun h => Bool.eq_false_iff.mpr fun hnull => habsent ⟨h, hnull⟩,
      hdecides.fitMember_eq hshape] at hfit
    exact .member hdecides (h _ (value?_eq_some_iff.mpr ⟨fitted, hfit, rfl⟩))

theorem keepsScalars_of_undecided {members : List Schema} {data prepared : Value}
    (hundecided : ¬ ∃ member, Decides members data member) (hshape : data.Reshaped prepared) :
    options.KeepsScalars (.union members) data prepared := by
  intro value hvalue
  refine .undecided hundecided fun member hmem hown => ?_
  have hscalar := isScalar_of_isOwn hown
  cases hshape with
  | refl => exact value_of_union hmem hown hvalue
  | list | dict => cases hscalar

theorem lifts_keepsScalars : options.Lifts NamesApart options.KeepsScalars :=
  assembles_unconverted.lifts

theorem ends_prepareAs_keepsScalars (hhooks : options.hooks = []) (hweak : options.weak = false)
    {type : Schema} (htype : type.Everywhere NamesApart) {data : Value} (hdata : data.IsPlain)
    (place : String) (nullable : Bool) :
    Ends (fun _ => True) (options.KeepsScalars type data)
      (options.prepareAs place nullable type data) := by
  refine lifts_keepsScalars.ends_prepareAs (unhooked hhooks) ?_ ?_ htype hdata place nullable
  · intro members data _ _ hmembers place nullable
    have hshape : Ends (fun _ => True) data.Reshaped
        (options.prepareAs place nullable (.union members) data) :=
      reshaped_of_prepareAs hhooks _
    by_cases hdecides : ∃ member, Decides members data member
    · obtain ⟨member, hdecides⟩ := hdecides
      rw [prepareAs, prepareMember_eq, hdecides.find?_eq] at hshape ⊢
      refine ((hmembers member hdecides.mem place nullable).and hshape).mono (fun _ h => h) ?_
      rintro prepared ⟨hkeeps, hshape⟩
      exact keepsScalars_of_decides hdecides hshape hkeeps
    · exact hshape.mono (fun _ h => h) fun prepared hshape =>
        keepsScalars_of_undecided hdecides hshape
  · intro type data hdata hopens place nullable
    refine (ends_leaf type data).mono (fun _ h => h) ?_
    rintro _ ⟨rfl, hexact⟩ value hvalue
    have hexact := hexact.imp_right fun h => h.resolve_left (by simp [hweak])
    exact unconverted_leaf hdata hopens hexact hvalue

/-- Where weak typing is off, what is extracted from plain data has the scalars of the data without
conversion. -/
theorem unconverted_of_extract (hhooks : options.hooks = []) (hweak : options.weak = false)
    {type : Schema} (htype : type.Everywhere NamesApart) {data : Value} (hdata : data.IsPlain)
    {place : String} {value : Value} (h : options.extract place type data = .ok value) :
    options.Unconverted type data value := by
  obtain ⟨prepared, hprepared, hvalue⟩ := (extract_eq_ok_iff hhooks).mp h
  have hends := ends_prepareAs_keepsScalars hhooks hweak htype hdata place type.admitsNull
  rw [hprepared] at hends
  exact hends.of_ok value hvalue

/-- A port that is a number, and a timeout that is a whole one in the place of a binary one. -/
theorem unconverted_of_extract_server :
    let port : FieldInfo := { name := ⟨"port", .tags []⟩ }
    let timeout : FieldInfo := { name := ⟨"timeout", .tags []⟩ }
    let options : ExtractOptions := { weak := false }
    let type : Schema :=
      .record ⟨.tagged, "Server"⟩ [(port, .union [.int, .null]), (timeout, .float)]
    let data : Value := .dict [(.text "timeout", .int 2), (.text "port", .int 80)]
    let server : Value := .record ⟨.tagged, "Server"⟩
      [(port.name, .int 80), (timeout.name, .float (.ofInt 2))]
    options.hooks = [] ∧ options.weak = false ∧ type.Everywhere NamesApart ∧ data.IsPlain ∧
      options.extract "" type data = .ok server ∧ options.Unconverted type data server := by
  intro port timeout options type data server
  have htype : type.Everywhere NamesApart := by
    have hport : (Schema.union [.int, .null]).Everywhere NamesApart :=
      .intro trivial (List.forall_mem_cons.mpr
        ⟨.leaf rfl trivial, List.forall_mem_singleton.mpr (.leaf rfl trivial)⟩)
    refine .intro ?_ (List.forall_mem_cons.mpr ⟨hport, ?_⟩)
    · show ["port", "timeout"].Nodup
      decide
    · exact List.forall_mem_singleton.mpr (.leaf rfl trivial)
  have hdata : data.IsPlain := by
    refine .dict (by simp) (List.forall_mem_cons.mpr ⟨.scalar rfl, ?_⟩)
    exact List.forall_mem_singleton.mpr (.scalar rfl)
  have hextract : options.extract "" type data = .ok server := by rfl
  exact ⟨rfl, rfl, htype, hdata, hextract, unconverted_of_extract rfl rfl htype hdata hextract⟩

/-- A union of two numbers is not looked into, and a text becomes a number. -/
theorem extract_text_as_number :
    ({ weak := false } : ExtractOptions).extract "" (.union [.int, .float]) (.text "5") =
      .ok (.int 5) := by
  rfl

end ExtractOptions

end LayeredConfig
