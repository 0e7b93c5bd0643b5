import LayeredConfig.Proofs.Path.Segments

/-! # Names

Cleaned paths that stay inside are names between slashes, and each is spelled in one way only. So
what is said of such paths can be said of rows of names: joining a name, leading to a path, and
standing in a directory. -/

namespace LayeredConfig.Path

open Location

/-! ## Spelling -/

/-- The path that leads down by names; a dot where there are none. -/
def ofNames (names : List String) : String := if names = [] then "." else ofSegments names

variable {names : List String}

@[simp] theorem ofNames_nil : ofNames [] = "." := if_pos rfl

theorem Location.Proper.spell_zero {location : Location} (h : location.Proper false) :
    location.spell 0 = ofNames location.path := by
  have hempty : (ofSegments location.path).isEmpty = true ↔ location.path = [] := by
    rw [String.isEmpty_iff]
    refine ⟨eq_nil_of_ofSegments (fun _ => h.ne_empty) fun _ => h.slash_not_mem, fun hnil => ?_⟩
    rw [hnil]
    rfl
  rw [spell, ofNames]
  simp [hempty]

theorem clean_of_relative {path : String} (h : anchorLength path = 0) :
    clean path = ofNames (locate false (segments path)).path := by
  rw [clean_eq, h]
  exact (proper_locate fun _ => slash_not_mem).spell_zero

theorem segments_ofNames (h : ∀ name ∈ names, '/' ∉ name.toList) :
    segments (ofNames names) = if names = [] then ["."] else names := by
  rw [ofNames]
  split
  · exact segments_dot
  · next hne => exact segments_ofSegments hne h

theorem proper_names (h : ∀ name ∈ names, IsName name) :
    ({ names := names.reverse } : Location).Proper rooted :=
  ⟨fun name hmem => h name (List.mem_reverse.mp hmem), fun _ => rfl⟩

theorem path_names (names : List String) : ({ names := names.reverse } : Location).path = names := by
  rw [path, List.reverse_reverse]
  rfl

theorem clean_ofNames (h : ∀ name ∈ names, IsName name) : clean (ofNames names) = ofNames names := by
  have hspell := (proper_names h).spell_zero
  rw [path_names] at hspell
  rw [← hspell]
  exact clean_spell (proper_names h) (Nat.zero_le 2)

/-! ## Reading back -/

/-- The names that lead down to a cleaned path. -/
def toNames (path : String) : List String := if path = "." then [] else segments path

theorem ofNames_ne_dot (h : ∀ name ∈ names, IsName name) (hne : names ≠ []) :
    ofNames names ≠ "." := by
  intro hdot
  have hsegments := segments_ofNames fun name hname => (h name hname).noSlash
  rw [hdot, segments_dot, if_neg hne] at hsegments
  exact (h "." (hsegments ▸ List.mem_singleton_self ".")).ne_dot rfl

theorem toNames_ofNames (h : ∀ name ∈ names, IsName name) : toNames (ofNames names) = names := by
  rw [toNames]
  split
  · next hdot => exact (by_contra fun hne => ofNames_ne_dot h (Ne.symm hne) hdot)
  · next hdot =>
    rw [segments_ofNames fun name hname => (h name hname).noSlash, if_neg]
    rintro rfl
    exact hdot rfl

/-- Names are spelled apart. -/
theorem ofNames_inj {others : List String} (h : ∀ name ∈ names, IsName name)
    (hothers : ∀ name ∈ others, IsName name) : ofNames names = ofNames others ↔ names = others := by
  refine ⟨fun heq => ?_, congrArg ofNames⟩
  rw [← toNames_ofNames h, heq, toNames_ofNames hothers]

/-! ## Joining -/

theorem ofSegments_concat (hne : names ≠ []) (name : String) :
    ofSegments (names ++ [name]) = ofSegments names ++ "/" ++ name := by
  induction names with
  | nil => exact (hne rfl).elim
  | cons first rest ih =>
      cases rest with
      | nil => simp [ofSegments]
      | cons second rest =>
          have hrest := ih (List.cons_ne_nil _ _)
          rw [ofSegments, ofSegments] at hrest ⊢
          simp only [List.cons_append, String.intercalate_cons_cons, String.append_assoc] at hrest ⊢
          rw [hrest]

theorem join_ofNames (h : ∀ name ∈ names, IsName name) (name : String) :
    join (ofNames names) name = ofNames (names ++ [name]) := by
  rw [join]
  by_cases hnil : names = []
  · subst hnil
    simp [ofNames, ofSegments]
  · have hdot : (ofNames names == ".") = false := beq_false_of_ne (ofNames_ne_dot h hnil)
    rw [hdot, if_neg Bool.false_ne_true, ofNames, ofNames, if_neg hnil, if_neg (by simp),
      ofSegments_concat hnil]
    rfl

/-- The directories that a path lies in, apart from the root. -/
theorem mem_ancestors (h : ∀ name ∈ names, IsName name) {directory : String} :
    directory ∈ ancestors (ofNames names) ↔
      ∃ front rest, front ≠ [] ∧ rest ≠ [] ∧ names = front ++ rest ∧ directory = ofNames front := by
  have hempty : ofSegments ([] : List String) = "" := rfl
  simp only [ancestors, List.mem_filter, List.mem_map, List.mem_range, bne_iff_ne, ne_eq]
  rw [segments_ofNames fun name hname => (h name hname).noSlash]
  by_cases hnil : names = []
  · subst hnil
    constructor
    · rintro ⟨⟨count, hcount, rfl⟩, hne⟩
      obtain rfl : count = 0 := Nat.lt_one_iff.mp hcount
      exact (hne hempty).elim
    · rintro ⟨front, rest, hfront, -, hnames, -⟩
      exact (hfront (List.append_eq_nil_iff.mp hnames.symm).1).elim
  · rw [if_neg hnil]
    constructor
    · rintro ⟨⟨count, hcount, rfl⟩, hne⟩
      have hfront : names.take count ≠ [] := fun hfront => hne (by rw [hfront, hempty])
      refine ⟨names.take count, names.drop count, hfront, ?_, (List.take_append_drop _ _).symm, ?_⟩
      · rw [List.drop_eq_nil_iff]
        omega
      · rw [ofNames, if_neg hfront]
    · rintro ⟨front, rest, hfront, hrest, rfl, rfl⟩
      rw [List.forall_mem_append] at h
      rw [ofNames, if_neg hfront]
      refine ⟨⟨front.length, ?_, by rw [List.take_left]⟩, fun htext => hfront ?_⟩
      · have := List.length_pos_of_ne_nil hrest
        rw [List.length_append]
        omega
      · exact eq_nil_of_ofSegments (fun name hname => (h.1 name hname).ne_empty)
          (fun name hname => (h.1 name hname).noSlash) htext

theorem toList_join (directory name : String) :
    (join directory name).toList =
      (if directory == "." then [] else (directory ++ "/").toList) ++ name.toList := by
  rw [join]
  split
  · rw [List.nil_append]
  · rw [← String.toList_append]
    rfl

/-- What stands directly inside a directory is the directory joined with a name. -/
theorem childName?_eq_some_iff {directory path name : String} :
    childName? directory path = some name ↔
      path ≠ "." ∧ path = join directory name ∧ name ≠ "" ∧ '/' ∉ name.toList := by
  rw [← @String.toList_inj path, toList_join, childName?]
  generalize (if directory == "." then [] else (directory ++ "/").toList) = lead
  by_cases hdot : path = "."
  · simp [hdot]
  by_cases hlead : lead <+: path.toList
  · obtain ⟨rest, hrest⟩ := hlead
    have hleads : lead.isPrefixOf (lead ++ rest) = true :=
      List.isPrefixOf_iff_prefix.mpr (List.prefix_append lead rest)
    rw [← hrest]
    simp only [hleads, hdot, beq_eq_false_iff_ne.mpr hdot, List.drop_left, ne_eq,
      List.append_cancel_left_eq, Bool.not_true, Bool.or_false, Bool.false_eq_true, if_false]
    constructor
    · intro h
      split at h
      · cases h
      · next hrest =>
        cases h
        simpa using hrest
    · rintro ⟨-, rfl, hempty, hslash⟩
      simp [hempty, hslash]
  · have hne : ∀ rest, path.toList ≠ lead ++ rest := fun rest h => hlead ⟨rest, h.symm⟩
    have hleads : lead.isPrefixOf path.toList = false := by
      rw [← Bool.not_eq_true, List.isPrefixOf_iff_prefix]
      exact hlead
    simp [hne, hleads]

theorem childName?_ofNames {directory : List String} {name : String}
    (hdirectory : ∀ name ∈ directory, IsName name) (h : ∀ name ∈ names, IsName name) :
    childName? (ofNames directory) (ofNames names) = some name ↔ names = directory ++ [name] := by
  rw [childName?_eq_some_iff, join_ofNames hdirectory]
  constructor
  · rintro ⟨hdot, hjoin, -, hslash⟩
    have hnil : names ≠ [] := by
      rintro rfl
      exact hdot rfl
    have hjoined : ∀ part ∈ directory ++ [name], '/' ∉ part.toList := by
      rw [List.forall_mem_append, List.forall_mem_singleton]
      exact ⟨fun part hpart => (hdirectory part hpart).noSlash, hslash⟩
    have hsegments := congrArg segments hjoin
    rwa [segments_ofNames fun part hpart => (h part hpart).noSlash, segments_ofNames hjoined,
      if_neg hnil, if_neg (by simp)] at hsegments
  · rintro rfl
    have hname : IsName name := h name (by simp)
    exact ⟨ofNames_ne_dot h (by simp), rfl, hname.ne_empty, hname.noSlash⟩

/-! ## Below a directory -/

/-- The path leads further down from the directory. -/
def Below (directory path : String) : Prop :=
  ∃ rest, rest ≠ [] ∧ toNames path = toNames directory ++ rest

/-- The path stands directly inside the directory. -/
def Inside (directory path : String) : Prop :=
  ∃ name, toNames path = toNames directory ++ [name]

instance (directory path : String) : Decidable (Below directory path) :=
  decidable_of_iff (toNames directory <+: toNames path ∧ toNames directory ≠ toNames path) <| by
    constructor
    · rintro ⟨⟨rest, hrest⟩, hne⟩
      refine ⟨rest, ?_, hrest.symm⟩
      rintro rfl
      exact hne (by rw [← hrest, List.append_nil])
    · rintro ⟨rest, hrest, hpath⟩
      refine ⟨⟨rest, hpath.symm⟩, fun heq => hrest ?_⟩
      exact List.self_eq_append_right.mp (heq.trans hpath)

theorem below_ofNames {directory : List String} (hdirectory : ∀ name ∈ directory, IsName name)
    (h : ∀ name ∈ names, IsName name) :
    Below (ofNames directory) (ofNames names) ↔ ∃ rest, rest ≠ [] ∧ names = directory ++ rest := by
  rw [Below, toNames_ofNames hdirectory, toNames_ofNames h]

theorem inside_ofNames {directory : List String} (hdirectory : ∀ name ∈ directory, IsName name)
    (h : ∀ name ∈ names, IsName name) :
    Inside (ofNames directory) (ofNames names) ↔ ∃ name, names = directory ++ [name] := by
  rw [Inside, toNames_ofNames hdirectory, toNames_ofNames h]

/-! ## Wildcards -/

theorem hasMagic_append (first second : String) :
    hasMagic (first ++ second) = (hasMagic first || hasMagic second) := by
  rw [hasMagic, String.toList_append, List.any_append]
  rfl

/-- Wildcards stand in segments. -/
theorem hasMagic_ofSegments (segs : List String) :
    hasMagic (ofSegments segs) = segs.any hasMagic := by
  induction segs with
  | nil => rfl
  | cons first rest ih =>
      cases rest with
      | nil => simp [ofSegments]
      | cons second rest =>
          have hslash : hasMagic "/" = false := by decide
          rw [ofSegments] at ih ⊢
          rw [String.intercalate_cons_cons, hasMagic_append, hasMagic_append, ih, hslash,
            Bool.or_false, List.any_cons (a := first)]

theorem hasMagic_of_mem {name : String} (h : hasMagic (ofNames names) = false)
    (hname : name ∈ names) : hasMagic name = false := by
  rw [ofNames, if_neg (List.ne_nil_of_mem hname), hasMagic_ofSegments, List.any_eq_false] at h
  exact Bool.eq_false_iff.mpr (h name hname)

theorem Location.names_enter_subset (rooted : Bool) (location : Location) (segment : String) :
    (location.enter rooted segment).names ⊆ segment :: location.names := by
  obtain ⟨up, names⟩ := location
  rw [enter]
  split
  · exact List.subset_cons_self _ _
  · split
    · exact List.Subset.refl _
    · cases names with
      | nil => cases rooted <;> exact List.nil_subset _
      | cons last rest => simp

/-- Only segments of a path are among the names that it leads down by. -/
theorem mem_names_of_locate {rooted : Bool} {segs : List String} {name : String}
    (h : name ∈ (locate rooted segs).names) : name ∈ segs := by
  induction segs using List.reverseRecOn with
  | nil => exact (List.not_mem_nil h).elim
  | append_singleton front last ih =>
      rw [locate_concat] at h
      rcases List.mem_cons.mp (names_enter_subset rooted _ last h) with rfl | h
      · simp
      · exact List.mem_append_left _ (ih h)

/-- Cleaning brings no wildcards in. -/
theorem hasMagic_clean {path : String} (h : hasMagic path = false) :
    hasMagic (clean path) = false := by
  rw [← ofSegments_segments path, hasMagic_ofSegments, List.any_eq_false] at h
  rw [clean_eq, Location.spell]
  generalize hlocation : locate (anchorLength path != 0) (segments path) = location
  split
  · decide
  · rw [hasMagic_append, hasMagic_ofSegments, Bool.or_eq_false_iff, List.any_eq_false]
    refine ⟨by simp [hasMagic], fun segment hsegment => ?_⟩
    rw [Location.path, List.mem_append, List.mem_replicate, List.mem_reverse] at hsegment
    rcases hsegment with ⟨-, rfl⟩ | hname
    · decide
    · exact h segment (mem_names_of_locate (hlocation ▸ hname))

end LayeredConfig.Path
