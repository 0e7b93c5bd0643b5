import LayeredConfig.Proofs.Outcomes
import LayeredConfig.Proofs.Record.Types
import Mathlib.Tactic.SplitIfs

/-! # Preparation, level by level

Where no hooks run, preparation looks into containers, records, unions and remarks, and takes
everything else as it is or refuses it. How it ends for such data follows from how it ends for what
is inside. -/

namespace LayeredConfig

/-- A container in the place of another one of its kind, or the value itself. -/
inductive Value.Reshaped : Value → Value → Prop
  | refl (value : Value) : Reshaped value value
  | list (items others : List Value) : Reshaped (.list items) (.list others)
  | dict (entries others : List (Value × Value)) : Reshaped (.dict entries) (.dict others)

namespace Schema

/-- The data is prepared by preparing what is inside it, or as data of another type. -/
inductive Opens : Schema → Value → Prop
  | annotated (type : Schema) (data : Value) : Opens (annotated type) data
  | union (members : List Schema) (data : Value) : Opens (union members) data
  | record (type : RecordName) (fields : List (FieldInfo × Schema))
      (entries : List (Value × Value)) : Opens (record type fields) (.dict entries)
  | items {type item : Schema} (hitem : type.item? = some item) (items : List Value) :
      Opens type (.list items)
  | tuple (types : List Schema) (items : List Value) : Opens (tuple types) (.list items)
  | entries {type key value : Schema} (hentry : type.keyAndValue? = some (key, value))
      (entries : List (Value × Value)) : Opens type (.dict entries)

end Schema

namespace ExtractOptions

open Schema

/-- What the data holds for a field. -/
def source? (options : ExtractOptions) (field : FieldInfo) (entries : List (Value × Value)) :
    Option Value :=
  if field.settable then
    (field.name.key? options.mappers options.tag).bind fun key => Value.entry? key entries
  else none

theorem mem_of_source? {options : ExtractOptions} {field : FieldInfo}
    {entries : List (Value × Value)} {value : Value}
    (h : options.source? field entries = some value) : ∃ entry ∈ entries, entry.2 = value := by
  rw [source?] at h
  split_ifs at h
  obtain ⟨key, -, hvalue⟩ := Option.bind_eq_some_iff.mp h
  exact Value.mem_of_entry hvalue

theorem isPlain_of_source? {options : ExtractOptions} {field : FieldInfo}
    {entries : List (Value × Value)} {value : Value} (hdata : (Value.dict entries).IsPlain)
    (h : options.source? field entries = some value) : value.IsPlain := by
  obtain ⟨entry, hentry, rfl⟩ := mem_of_source? h
  exact hdata.value hentry

/-- The key that the field is read from. -/
def ReadsFrom (options : ExtractOptions) (field : FieldInfo) (key : String) : Prop :=
  field.settable = true ∧ field.name.key? options.mappers options.tag = some key

/-- Every key of the dictionary is the one that some field is read from. -/
def TakesAll (options : ExtractOptions) (fields : List (FieldInfo × Schema))
    (entries : List (Value × Value)) : Prop :=
  ∀ entry ∈ entries, ∃ field ∈ fields, ∃ key, options.ReadsFrom field.1 key ∧ entry.1 = .text key

/-- The items of a tuple are prepared for one type after another; what is behind the last type
stays. -/
inductive TupleWise (R : Schema → Value → Value → Prop) :
    List Schema → List Value → List Value → Prop
  | excess (items : List Value) : TupleWise R [] items items
  | short (types : List Schema) : TupleWise R types [] []
  | cons {type : Schema} {types : List Schema} {item other : Value} {items others : List Value}
      (h : R type item other) (hrest : TupleWise R types items others) :
      TupleWise R (type :: types) (item :: items) (other :: others)

/-- No hooks run, and what is refused of the keys of a record is refused with one of the faults. -/
structure Unhooked (options : ExtractOptions) (faults : Fault → Prop) : Prop where
  hooks : options.hooks = []
  check : ∀ place type entries use, Ends faults (· = Value.ofEntries use.prepared)
    (options.check place type entries use)

variable {options : ExtractOptions} {faults : Fault → Prop} {place : String} {nullable : Bool}

theorem unhooked (h : options.hooks = []) : options.Unhooked fun _ => True where
  hooks := h
  check place type entries use := by
    rw [check]
    split
    · exact .fault trivial
    · split
      · exact .fault trivial
      · exact .answer rfl

theorem unhooked_of_no_refusals (h : options.hooks = []) (hunused : options.refuseUnused = false)
    (hunset : options.refuseUnset = false) : options.Unhooked fun _ => False where
  hooks := h
  check place type entries use := by
    simp only [check, hunused, hunset, Bool.false_and, Bool.false_eq_true, if_false]
    exact .answer rfl

theorem enter_of_unhooked (h : options.hooks = []) (type : Schema) (data : Value)
    (next : Bool → Value → Except Fault Value) :
    options.enter place type data next = next type.admitsNull data := by
  rw [enter, h]
  rfl

theorem prepareAs_eq_leaf {type : Schema} {data : Value} (h : ¬ type.Opens data) :
    options.prepareAs place nullable type data = options.leaf place nullable type data := by
  cases type with
  | annotated type => exact (h (.annotated type data)).elim
  | union members => exact (h (.union members data)).elim
  | record type fields =>
      cases data with
      | dict entries => exact (h (.record type fields entries)).elim
      | _ => rfl
  | tuple types =>
      cases data with
      | list items => exact (h (.tuple types items)).elim
      | _ => rfl
  | list item | set item | frozenSet item | sequence item | variadic item =>
      cases data with
      | list items => exact (h (.items rfl items)).elim
      | _ => rfl
  | dict key value | mapping key value =>
      cases data with
      | dict entries => exact (h (.entries rfl entries)).elim
      | _ => rfl
  | _ => rfl

/-- Data that nothing is inside of is kept if it is null where null is admitted, if scalars are
converted, or if it is of the type; else it is refused. -/
theorem ends_leaf (type : Schema) (data : Value) :
    Ends (fun _ => True) (fun prepared => prepared = data ∧
        (data = .null ∨ options.weak = true ∨ type.isExactly data = true))
      (options.leaf place nullable type data) := by
  unfold leaf
  split_ifs with hnull hrefused
  · cases data with
    | null => exact .answer ⟨rfl, .inl rfl⟩
    | _ => cases hnull
  · exact .fault trivial
  · refine .answer ⟨rfl, .inr ?_⟩
    cases hweak : options.weak with
    | true => exact .inl rfl
    | false => simpa [hweak] using hrefused

theorem leaf_of_weak (h : options.weak = true) (type : Schema) (data : Value) :
    options.leaf place nullable type data = .ok data := by
  unfold leaf
  simp [h]

/-- A member of a union that is chosen stands for the union. -/
theorem prepareMember_eq (whole : Schema) (isChosen : Schema → Bool) (data : Value)
    (members : List Schema) :
    options.prepareMember place nullable whole isChosen data members =
      match members.find? isChosen with
      | some member => options.prepareAs place nullable member data
      | none => options.leaf place nullable whole data := by
  induction members with
  | nil => rfl
  | cons member rest ih =>
      rw [prepareMember, List.find?_cons]
      cases isChosen member with
      | true => rfl
      | false => exact ih

/-- Where null has one companion, all data goes through that. -/
theorem find?_isChosen_of_proper {members : List Schema} {type : Schema}
    (h : proper members = [type]) (data : Value) :
    members.find? (isChosen members data) = some type := by
  have hchosen : isChosen members data = fun member => !member.isNull := by
    unfold isChosen
    exact if_pos (congrArg List.length h)
  rw [hchosen, ← List.head?_filter]
  exact congrArg List.head? h

/-! ## What is inside -/

theorem ends_prepareAs_items (hoptions : options.Unhooked faults) {R : Value → Value → Prop}
    {type item : Schema} (hitem : type.item? = some item) {items : List Value}
    (h : ∀ x ∈ items, ∀ place nullable,
      Ends faults (R x) (options.prepareAs place nullable item x)) :
    Ends faults (fun prepared => ∃ others, prepared = .list others ∧ List.Forall₂ R items others)
      (options.prepareAs place nullable type (.list items)) := by
  cases type with
  | list | set | frozenSet | sequence | variadic =>
      cases hitem
      rw [prepareAs]
      refine Ends.bind (Ends.forall₂_mapM_zipIdx (R := R) fun x hx index => ?_)
        fun others hothers => .answer ⟨others, rfl, hothers⟩
      simp only [enter_of_unhooked hoptions.hooks]
      exact h x hx _ _
  | _ => cases hitem

theorem ends_prepareAs_entries (hoptions : options.Unhooked faults) {R : Value → Value → Prop}
    {type key value : Schema} (hentry : type.keyAndValue? = some (key, value))
    {entries : List (Value × Value)}
    (h : ∀ entry ∈ entries, ∀ place nullable,
      Ends faults (R entry.2) (options.prepareAs place nullable value entry.2)) :
    Ends faults (fun prepared => ∃ others, prepared = .dict others ∧
        List.Forall₂ (fun entry other => other.1 = entry.1 ∧ R entry.2 other.2) entries others)
      (options.prepareAs place nullable type (.dict entries)) := by
  cases type with
  | dict | mapping =>
      cases hentry
      rw [prepareAs]
      refine Ends.bind (Ends.forall₂_mapM fun entry hentry => ?_)
        fun others hothers => .answer ⟨others, rfl, hothers⟩
      simp only [enter_of_unhooked hoptions.hooks]
      exact (h entry hentry _ _).bind fun other hother => .answer ⟨rfl, hother⟩
  | _ => cases hentry

theorem ends_prepareTuple (hoptions : options.Unhooked faults) {R : Schema → Value → Value → Prop}
    {types : List Schema} (items : List Value)
    (h : ∀ type ∈ types, ∀ item ∈ items, ∀ place nullable,
      Ends faults (R type item) (options.prepareAs place nullable type item)) (index : Nat) :
    Ends faults (TupleWise R types items) (options.prepareTuple place index items types) := by
  induction types generalizing items index with
  | nil =>
      rw [prepareTuple]
      refine (Ends.forall₂_mapM_zipIdx (R := Eq) fun item _ offset => ?_).mono (fun _ h => h) ?_
      · simp only [enter_of_unhooked hoptions.hooks]
        exact .answer rfl
      · intro others hothers
        cases List.forall₂_eq_eq_eq ▸ hothers
        exact .excess items
  | cons type types ih =>
      cases items with
      | nil => exact .answer (.short _)
      | cons item items =>
          rw [prepareTuple]
          simp only [enter_of_unhooked hoptions.hooks]
          have hitem := h type List.mem_cons_self item List.mem_cons_self
          refine Ends.bind (hitem _ _) fun other hother => ?_
          refine Ends.bind (ih items (fun type htype item hitem => ?_) (index + 1))
            fun others hothers => .answer (.cons hother hothers)
          exact h type (List.mem_cons_of_mem _ htype) item (List.mem_cons_of_mem _ hitem)

theorem ends_prepareAs_tuple (hoptions : options.Unhooked faults)
    {R : Schema → Value → Value → Prop} {types : List Schema} {items : List Value}
    (h : ∀ type ∈ types, ∀ item ∈ items, ∀ place nullable,
      Ends faults (R type item) (options.prepareAs place nullable type item)) :
    Ends faults (fun prepared => ∃ others, prepared = .list others ∧ TupleWise R types items others)
      (options.prepareAs place nullable (.tuple types) (.list items)) := by
  rw [prepareAs]
  exact Ends.bind (ends_prepareTuple hoptions items h 0) fun others hothers =>
    .answer ⟨others, rfl, hothers⟩

/-! ## Fields of a record -/

theorem target_eq_givenName (kind : RecordKind) (field : FieldInfo) :
    target kind field.name = Fitted.givenName kind field := by
  cases kind <;> rfl

/-- A field that the data holds is prepared under its name. -/
theorem prepareFields_cons_some (h : options.hooks = []) {kind : RecordKind}
    {entries : List (Value × Value)} {use : FieldUse} {field : FieldInfo} {type : Schema}
    {rest : List (FieldInfo × Schema)} {value : Value}
    (hsource : options.source? field entries = some value) :
    ∃ place' nullable key, options.ReadsFrom field key ∧
      options.prepareFields place kind entries use ((field, type) :: rest) =
        (options.prepareAs place' nullable type value).bind fun prepared =>
          options.prepareFields place kind entries
            { use with
              prepared := use.prepared.set (Fitted.givenName kind field) prepared
              used := key :: use.used } rest := by
  rw [source?] at hsource
  split at hsource
  case isTrue hsettable =>
    obtain ⟨key, hkey, hvalue⟩ := Option.bind_eq_some_iff.mp hsource
    refine ⟨below place key, (if kind = .model then type.bare else type).admitsNull, key,
      ⟨hsettable, hkey⟩, ?_⟩
    simp only [prepareFields, hsettable, if_true, hkey, hvalue, enter_of_unhooked h,
      target_eq_givenName]
    rfl
  case isFalse => cases hsource

/-- A field that the data does not hold leaves what is prepared as it is. -/
theorem prepareFields_cons_none (place : String) {kind : RecordKind} {entries : List (Value × Value)}
    {use : FieldUse} {field : FieldInfo} {type : Schema} {rest : List (FieldInfo × Schema)}
    (hsource : options.source? field entries = none) :
    ∃ unset, options.prepareFields place kind entries use ((field, type) :: rest) =
      options.prepareFields place kind entries { use with unset := unset } rest := by
  rw [source?] at hsource
  split at hsource
  case isTrue hsettable =>
    cases hkey : field.name.key? options.mappers options.tag with
    | none => exact ⟨use.unset, by simp [prepareFields, hsettable, hkey]⟩
    | some key =>
        rw [hkey] at hsource
        have hvalue : Value.entry? key entries = none := hsource
        exact ⟨use.unset ++ [field.name.name], by simp [prepareFields, hsettable, hkey, hvalue]⟩
  case isFalse hsettable => exact ⟨use.unset, by simp [prepareFields, hsettable]⟩

/-- What the data holds for the fields is prepared under their names, and nothing else is. -/
theorem ends_prepareFields (hoptions : options.Unhooked faults)
    {R : Schema → Value → Value → Prop} {kind : RecordKind} {entries : List (Value × Value)}
    {fields : List (FieldInfo × Schema)}
    (hnames : (fields.map fun field => Fitted.givenName kind field.1).Nodup)
    (h : ∀ field ∈ fields, ∀ value, options.source? field.1 entries = some value →
      ∀ place nullable,
        Ends faults (R field.2 value) (options.prepareAs place nullable field.2 value))
    (use : FieldUse)
    (huse : ∀ field ∈ fields, use.prepared.lookup (Fitted.givenName kind field.1) = none) :
    Ends faults (fun final =>
        (∀ field ∈ fields, Option.Rel (R field.2) (options.source? field.1 entries)
          (final.prepared.lookup (Fitted.givenName kind field.1))) ∧
        ∀ name, name ∉ fields.map (fun field => Fitted.givenName kind field.1) →
          final.prepared.lookup name = use.prepared.lookup name)
      (options.prepareFields place kind entries use fields) := by
  induction fields generalizing use with
  | nil => exact .answer ⟨fun _ hfield => (List.not_mem_nil hfield).elim, fun _ _ => rfl⟩
  | cons field rest ih =>
      obtain ⟨field, type⟩ := field
      obtain ⟨hname, hnames⟩ := List.nodup_cons.mp hnames
      have hrest := fun field hfield => h field (List.mem_cons_of_mem _ hfield)
      cases hsource : options.source? field entries with
      | none =>
          obtain ⟨unset, heq⟩ := prepareFields_cons_none place hsource
          rw [heq]
          refine (ih hnames hrest { use with unset } fun other hother => ?_).mono
            (fun _ h => h) fun final ⟨hfields, hothers⟩ => ⟨?_, fun name hnot => ?_⟩
          · exact huse other (List.mem_cons_of_mem _ hother)
          · refine List.forall_mem_cons.mpr ⟨?_, hfields⟩
            rw [hothers _ hname, hsource, huse _ List.mem_cons_self]
            exact .none
          · exact hothers name fun hmem => hnot (List.mem_cons_of_mem _ hmem)
      | some value =>
          obtain ⟨place', nullable, key, -, heq⟩ := prepareFields_cons_some hoptions.hooks hsource
          rw [heq]
          refine (h _ List.mem_cons_self value hsource _ _).bind fun prepared hprepared => ?_
          refine (ih hnames hrest _ fun other hother => ?_).mono
            (fun _ h => h) fun final ⟨hfields, hothers⟩ => ⟨?_, fun name hnot => ?_⟩
          · have hne : Fitted.givenName kind other.1 ≠ Fitted.givenName kind field := fun heq =>
              hname (List.mem_map.mpr ⟨other, hother, heq⟩)
            rw [Entries.lookup_set, if_neg hne]
            exact huse other (List.mem_cons_of_mem _ hother)
          · refine List.forall_mem_cons.mpr ⟨?_, hfields⟩
            rw [hothers _ hname, hsource, Entries.lookup_set, if_pos rfl]
            exact .some hprepared
          · obtain ⟨hne, hnot⟩ := not_or.mp (List.mem_cons.not.mp hnot)
            rw [hothers name hnot, Entries.lookup_set, if_neg hne]

/-- A record is prepared as a dictionary that holds for its fields what the data holds for them. -/
theorem ends_prepareAs_record (hoptions : options.Unhooked faults)
    {R : Schema → Value → Value → Prop} {type : RecordName} {fields : List (FieldInfo × Schema)}
    {entries : List (Value × Value)}
    (hnames : (fields.map fun field => Fitted.givenName type.kind field.1).Nodup)
    (h : ∀ field ∈ fields, ∀ value, options.source? field.1 entries = some value →
      ∀ place nullable,
        Ends faults (R field.2 value) (options.prepareAs place nullable field.2 value)) :
    Ends faults (fun prepared => ∃ others, prepared = .dict others ∧
        Fitted.areNames type.kind others = true ∧
        ∀ field ∈ fields, Option.Rel (R field.2) (options.source? field.1 entries)
          (Fitted.given? type.kind field.1 others))
      (options.prepareAs place nullable (.record type fields) (.dict entries)) := by
  rw [prepareAs]
  refine Ends.bind (ends_prepareFields hoptions hnames h {} fun _ _ => rfl)
    fun final ⟨hfields, _⟩ => ?_
  refine (hoptions.check _ _ _ final).mono (fun _ h => h) ?_
  rintro _ rfl
  refine ⟨_, rfl, ?_, fun field hfield => ?_⟩
  · cases type.kind <;> simp [Fitted.areNames]
  · have hlookup := hfields field hfield
    rw [Fitted.given?, Value.entry?_map_text]
    split
    case isTrue => exact hlookup
    case isFalse hsettable =>
      rw [source?, if_neg hsettable]
      exact .none

/-- Only keys that a field is read from count as used. -/
theorem ends_prepareFields_used (h : options.hooks = []) {kind : RecordKind}
    {entries : List (Value × Value)} (fields : List (FieldInfo × Schema)) (use : FieldUse) :
    Ends (fun _ => True) (fun final => ∀ used ∈ final.used,
        used ∈ use.used ∨ ∃ field ∈ fields, options.ReadsFrom field.1 used)
      (options.prepareFields place kind entries use fields) := by
  induction fields generalizing use with
  | nil => exact .answer fun _ hused => .inl hused
  | cons field rest ih =>
      obtain ⟨field, type⟩ := field
      cases hsource : options.source? field entries with
      | none =>
          obtain ⟨unset, heq⟩ := prepareFields_cons_none place hsource
          rw [heq]
          refine (ih { use with unset }).mono (fun _ h => h) fun final hfinal used hused => ?_
          exact (hfinal used hused).imp_right fun ⟨other, hother, hreads⟩ =>
            ⟨other, List.mem_cons_of_mem _ hother, hreads⟩
      | some value =>
          obtain ⟨place', nullable, key, hkey, heq⟩ := prepareFields_cons_some h hsource
          rw [heq]
          refine Ends.any.bind fun prepared _ => ?_
          refine (ih _).mono (fun _ h => h) fun final hfinal used hused => ?_
          rcases hfinal used hused with hold | ⟨other, hother, hreads⟩
          · rcases List.mem_cons.mp hold with rfl | hold
            · exact .inr ⟨_, List.mem_cons_self, hkey⟩
            · exact .inl hold
          · exact .inr ⟨other, List.mem_cons_of_mem _ hother, hreads⟩

/-- Where unused keys are refused, only used ones pass. -/
theorem ends_check_used (type : String) (entries : List (Value × Value)) (use : FieldUse) :
    Ends (fun _ => True) (fun _ => options.refuseUnused = true →
        ∀ entry ∈ entries, ∃ used ∈ use.used, entry.1.sameKey (.text used) = true)
      (options.check place type entries use) := by
  by_cases hrefuse : options.refuseUnused = true
  · rw [check]
    simp only [hrefuse, Bool.true_and]
    split
    case isTrue => exact .fault trivial
    case isFalse hunused =>
      have hall (entry : Value × Value) (hentry : entry ∈ entries) :
          ∃ used ∈ use.used, entry.1.sameKey (.text used) = true := by
        simp only [Bool.not_eq_true', Bool.not_eq_false, List.isEmpty_iff, List.map_eq_nil_iff,
          List.filter_eq_nil_iff] at hunused
        simpa using hunused entry hentry
      exact Ends.any.mono (fun _ h => h) fun _ _ _ => hall
  · exact Ends.any.mono (fun _ h => h) fun _ _ h => (hrefuse h).elim

/-- Where unused keys are refused, a record is prepared only from keys that fields are read from. -/
theorem ends_prepareAs_takesAll (h : options.hooks = []) (type : RecordName)
    (fields : List (FieldInfo × Schema)) {entries : List (Value × Value)}
    (hdata : (Value.dict entries).IsPlain) :
    Ends (fun _ => True) (fun _ => options.refuseUnused = true → options.TakesAll fields entries)
      (options.prepareAs place nullable (.record type fields) (.dict entries)) := by
  rw [prepareAs]
  refine (ends_prepareFields_used h fields {}).bind fun final hfinal => ?_
  refine (ends_check_used _ _ final).mono (fun _ h => h) fun _ hcheck hrefuse entry hentry => ?_
  obtain ⟨used, hused, hsame⟩ := hcheck hrefuse entry hentry
  obtain ⟨field, hfield, hreads⟩ := (hfinal used hused).resolve_left List.not_mem_nil
  obtain ⟨key, hkey⟩ := hdata.key hentry
  rw [hkey, Value.sameKey_text, beq_iff_eq] at hsame
  exact ⟨field, hfield, used, hreads, hsame ▸ hkey⟩

/-! ## All data -/

/-- A relation of data and what it is prepared as passes from what is inside the data to the data,
where the type itself has a property. -/
structure Lifts (options : ExtractOptions) (here : Schema → Prop)
    (R : Schema → Value → Value → Prop) : Prop where
  annotated : ∀ {type : Schema} {data prepared : Value},
    R type data prepared → R (.annotated type) data prepared
  items : ∀ {type item : Schema} {items others : List Value}, type.item? = some item →
    List.Forall₂ (R item) items others → R type (.list items) (.list others)
  tuple : ∀ {types : List Schema} {items others : List Value},
    TupleWise R types items others → R (.tuple types) (.list items) (.list others)
  entries : ∀ {type key value : Schema} {entries others : List (Value × Value)},
    type.keyAndValue? = some (key, value) →
    List.Forall₂ (fun entry other => other.1 = entry.1 ∧ R value entry.2 other.2) entries others →
    R type (.dict entries) (.dict others)
  names : ∀ {type : RecordName} {fields : List (FieldInfo × Schema)}, here (.record type fields) →
    (fields.map fun field => Fitted.givenName type.kind field.1).Nodup
  record : ∀ {type : RecordName} {fields : List (FieldInfo × Schema)}
    {entries others : List (Value × Value)}, here (.record type fields) →
    (options.refuseUnused = true → options.TakesAll fields entries) →
    Fitted.areNames type.kind entries = true → Fitted.areNames type.kind others = true →
    (∀ field ∈ fields, Option.Rel (R field.2) (options.source? field.1 entries)
      (Fitted.given? type.kind field.1 others)) →
    R (.record type fields) (.dict entries) (.dict others)

/-- Plain data is related to what it is prepared as, if that is so for unions whose members relate
the data, and where nothing is inside the data. -/
theorem Lifts.ends_prepareAs {here : Schema → Prop} {R : Schema → Value → Value → Prop}
    (hlifts : options.Lifts here R) (hoptions : options.Unhooked faults)
    (hunion : ∀ {members : List Schema} {data : Value}, here (.union members) → data.IsPlain →
      (∀ member ∈ members, ∀ place nullable,
        Ends faults (R member data) (options.prepareAs place nullable member data)) →
      ∀ place nullable, Ends faults (R (.union members) data)
        (options.prepareAs place nullable (.union members) data))
    (hleaf : ∀ {type : Schema} {data : Value}, data.IsPlain → ¬ type.Opens data →
      ∀ place nullable, Ends faults (R type data) (options.leaf place nullable type data))
    {type : Schema} (htype : type.Everywhere here) {data : Value} (hdata : data.IsPlain)
    (place : String) (nullable : Bool) :
    Ends faults (R type data) (options.prepareAs place nullable type data) := by
  induction htype generalizing data place nullable with
  | @intro type hhere inside ih =>
      by_cases hopens : type.Opens data
      · cases hopens with
        | annotated type =>
            exact (ih type List.mem_cons_self hdata place nullable).mono (fun _ h => h)
              fun _ h => hlifts.annotated h
        | union members => exact hunion hhere hdata (fun member hmem => ih member hmem hdata) _ _
        | record type fields entries =>
            refine ((ends_prepareAs_record hoptions (hlifts.names hhere)
              fun field hfield value hvalue => ih field.2 (List.mem_map_of_mem hfield)
                (isPlain_of_source? hdata hvalue)).and
              (ends_prepareAs_takesAll hoptions.hooks type fields hdata)).mono (fun _ h => h) ?_
            rintro _ ⟨⟨others, rfl, hothers, hgiven⟩, htakes⟩
            exact hlifts.record hhere htakes (hdata.areNames type.kind) hothers hgiven
        | items hitem items =>
            refine (ends_prepareAs_items hoptions hitem fun value hvalue =>
              ih _ (mem_parts_of_item hitem) (hdata.item hvalue)).mono (fun _ h => h) ?_
            rintro _ ⟨others, rfl, hothers⟩
            exact hlifts.items hitem hothers
        | tuple types items =>
            refine (ends_prepareAs_tuple hoptions fun type htype item hitem =>
              ih type htype (hdata.item hitem)).mono (fun _ h => h) ?_
            rintro _ ⟨others, rfl, hothers⟩
            exact hlifts.tuple hothers
        | entries hentry entries =>
            refine (ends_prepareAs_entries hoptions hentry fun entry hmem =>
              ih _ (mem_parts_of_entry hentry) (hdata.value hmem)).mono (fun _ h => h) ?_
            rintro _ ⟨others, rfl, hothers⟩
            exact hlifts.entries hentry hothers
      · rw [prepareAs_eq_leaf hopens]
        exact hleaf hdata hopens place nullable

/-! ## The kind of container -/

/-- Preparation exchanges containers for containers of their kind, and keeps everything else. -/
theorem reshaped_of_prepareAs (h : options.hooks = []) (type : Schema) {data : Value} :
    Ends (fun _ => True) data.Reshaped (options.prepareAs place nullable type data) := by
  have hleaf (type : Schema) : Ends (fun _ => True) data.Reshaped
      (options.leaf place nullable type data) := by
    refine (ends_leaf type data).mono (fun _ h => h) ?_
    rintro _ ⟨rfl, _⟩
    exact .refl _
  induction type using Schema.induction with
  | h type ih =>
      by_cases hopens : type.Opens data
      · cases hopens with
        | annotated type => exact ih type List.mem_cons_self
        | union members =>
            rw [prepareAs, prepareMember_eq]
            cases hchosen : members.find? (isChosen members data) with
            | none => exact hleaf _
            | some member => exact ih member (List.mem_of_find?_eq_some hchosen)
        | record type fields entries =>
            rw [prepareAs]
            refine Ends.bind .any fun use _ => ?_
            refine ((unhooked h).check _ _ _ _).mono (fun _ h => h) ?_
            rintro _ rfl
            exact .dict _ _
        | items hitem items =>
            refine (ends_prepareAs_items (R := fun _ _ => True) (unhooked h) hitem
              fun _ _ _ _ => .any).mono (fun _ h => h) ?_
            rintro _ ⟨others, rfl, _⟩
            exact .list _ _
        | tuple types items =>
            refine (ends_prepareAs_tuple (R := fun _ _ _ => True) (unhooked h)
              fun _ _ _ _ _ _ => .any).mono (fun _ h => h) ?_
            rintro _ ⟨others, rfl, _⟩
            exact .list _ _
        | entries hentry entries =>
            refine (ends_prepareAs_entries (R := fun _ _ => True) (unhooked h) hentry
              fun _ _ _ _ => .any).mono (fun _ h => h) ?_
            rintro _ ⟨others, rfl, _⟩
            exact .dict _ _
      · rw [prepareAs_eq_leaf hopens]
        exact hleaf type

end ExtractOptions

end LayeredConfig
