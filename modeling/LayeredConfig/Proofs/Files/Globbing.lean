import LayeredConfig.Proofs.Files.Enumeration

/-! # Globbing

A pattern is matched one segment at a time: what fits the segments so far is carried on by a name
that is spelled out, or by the names in a directory that fit a wildcard. What comes out are the
files and directories that fit the whole pattern segment by segment, so that no wildcard stands for
more than one name. -/

namespace LayeredConfig

namespace Path

/-! ## Fitting -/

/-- A name fits a segment of a pattern: by its wildcards if it has any, or as it is. -/
def FitsSegment (segment name : String) : Prop :=
  if hasMagic segment then matchesPattern segment name = true else name = segment

instance (segment name : String) : Decidable (FitsSegment segment name) :=
  inferInstanceAs
    (Decidable (if hasMagic segment then matchesPattern segment name = true else name = segment))

/-- A path fits a pattern that has as many segments, each of which the name in its place fits. The
root has no segments. -/
def Fits (pattern path : String) : Prop := List.Forall₂ FitsSegment (toNames pattern) (toNames path)

instance (pattern path : String) : Decidable (Fits pattern path) :=
  inferInstanceAs (Decidable (List.Forall₂ _ _ _))

/-- Segments without wildcards are fitted by themselves only. -/
theorem forall₂_fitsSegment_iff {segments names : List String}
    (h : ∀ segment ∈ segments, hasMagic segment = false) :
    List.Forall₂ FitsSegment segments names ↔ names = segments := by
  induction segments generalizing names with
  | nil => exact List.forall₂_nil_left_iff
  | cons segment rest ih =>
      rw [List.forall_mem_cons] at h
      simp [List.forall₂_cons_left_iff, ih h.2, FitsSegment, h.1]

end Path

namespace MemoryFiles

open LayeredConfig.Path

variable {memory : MemoryFiles}

/-! ## What is there -/

/-- A file or a directory stands under the path. -/
def Has (memory : MemoryFiles) (path : String) : Prop :=
  path ∈ memory.files.keys ∨ path ∈ memory.directories

instance (path : String) : Decidable (memory.Has path) :=
  inferInstanceAs (Decidable (_ ∨ _))

/-- The names lead down to a file or a directory. -/
def Leads (memory : MemoryFiles) (names : List String) : Prop :=
  names = [] ∨ ∃ rest, names ++ rest ∈ memory.rows

theorem Leads.front {front rest : List String} (h : memory.Leads (front ++ rest)) :
    memory.Leads front := by
  rcases h with hnil | ⟨further, hrow⟩
  · exact .inl (List.append_eq_nil_iff.mp hnil).1
  · exact .inr ⟨rest ++ further, by rwa [← List.append_assoc]⟩

section Cleaned

variable (hcleaned : memory.Cleaned)

include hcleaned

theorem Leads.isName {names : List String} (h : memory.Leads names) :
    ∀ name ∈ names, IsName name := by
  rcases h with rfl | ⟨rest, hrow⟩
  · exact nofun
  · exact (List.forall_mem_append.mp ((mem_rows hcleaned).mp hrow).1).1

theorem has_ofNames {names : List String} (hnames : ∀ name ∈ names, IsName name) :
    memory.Has (ofNames names) ↔ memory.Leads names := by
  rw [Has, Leads, mem_directories_ofNames hcleaned hnames]
  constructor
  · rintro (hfile | hroot | ⟨rest, -, hrow⟩)
    · exact .inr ⟨[], by rw [List.append_nil]; exact (mem_rows hcleaned).mpr ⟨hnames, hfile⟩⟩
    · exact .inl hroot
    · exact .inr ⟨rest, hrow⟩
  · rintro (hroot | ⟨rest, hrow⟩)
    · exact .inr (.inl hroot)
    · by_cases hrest : rest = []
      · rw [hrest, List.append_nil] at hrow
        exact .inl ((mem_rows hcleaned).mp hrow).2
      · exact .inr (.inr ⟨rest, hrest, hrow⟩)

theorem has_iff {path : String} :
    memory.Has path ↔ ∃ names, memory.Leads names ∧ path = ofNames names := by
  constructor
  · intro h
    obtain ⟨names, hnames, rfl⟩ :
        ∃ names, (∀ name ∈ names, IsName name) ∧ path = ofNames names := by
      rcases h with hfile | hfolder
      · exact hcleaned path hfile
      · obtain ⟨names, hnames, -, hpath⟩ := (mem_directories hcleaned).mp hfolder
        exact ⟨names, hnames, hpath⟩
    exact ⟨names, (has_ofNames hcleaned hnames).mp h, rfl⟩
  · rintro ⟨names, hleads, rfl⟩
    exact (has_ofNames hcleaned (hleads.isName hcleaned)).mpr hleads

theorem contains_ofNames {names : List String} (hnames : ∀ name ∈ names, IsName name) :
    memory.fileSystem.contains (ofNames names) = true ↔ memory.Leads names := by
  rw [← has_ofNames hcleaned hnames, Has]
  simp only [fileSystem, clean_ofNames hnames, Entries.has, Entries.get?, Bool.or_eq_true,
    Entries.lookup_isSome_iff, List.contains_iff_mem]

theorem mem_names_iff_leads {directory : List String} (hnames : ∀ name ∈ directory, IsName name)
    {name : String} :
    name ∈ memory.names (ofNames directory) ↔ memory.Leads (directory ++ [name]) := by
  rw [mem_names hcleaned hnames, Leads, or_iff_right (by simp)]
  simp only [List.append_assoc, List.singleton_append]

/-! ## One segment -/

/-- Where nothing can be listed there are no names either. -/
theorem globNames_ofNames (hlistable : memory.Listable) {row : List String}
    (hnames : ∀ name ∈ row, IsName name) (pattern : String) :
    memory.fileSystem.globNames pattern (ofNames row) =
      .ok (((memory.names (ofNames row)).filter (matchesPattern pattern)).map
        (join (ofNames row))) := by
  by_cases hfolder : ofNames row ∈ memory.directories
  · rw [FileSystem.globNames, entries_ofNames hlistable hnames hfolder]
    simp only [List.filter_map, List.map_map]
    rfl
  · have hnil : memory.names (ofNames row) = [] := by
      refine List.eq_nil_iff_forall_not_mem.mpr fun name hname => hfolder ?_
      obtain ⟨rest, hrow⟩ := (mem_names hcleaned hnames).mp hname
      exact (mem_directories_ofNames hcleaned hnames).mpr (.inr ⟨_, List.cons_ne_nil _ _, hrow⟩)
    -- A file or a missing path answers with a failure that matching passes over.
    rw [hnil, FileSystem.globNames]
    simp only [fileSystem, entries, clean_ofNames hnames]
    split
    · next h =>
      split at h
      · cases h
      · rw [if_neg (by simpa using hfolder)] at h
        split at h <;> cases h
    · next fault h =>
      split at h
      · cases h
        rfl
      · rw [if_neg (by simpa using hfolder)] at h
        split at h <;> cases h <;> rfl

omit hcleaned

/-- The rows of names one segment of a pattern further on. -/
def carryOn (memory : MemoryFiles) (rows : List (List String)) (segment : String) :
    List (List String) :=
  if hasMagic segment then
    rows.flatMap fun row =>
      ((memory.names (ofNames row)).filter (matchesPattern segment)).map fun name => row ++ [name]
  else
    (rows.map fun row => row ++ [segment]).filter fun row =>
      memory.fileSystem.contains (ofNames row)

theorem nodup_carryOn {rows : List (List String)} (h : rows.Nodup) (segment : String) :
    (memory.carryOn rows segment).Nodup := by
  rw [carryOn]
  split
  · rw [List.nodup_flatMap]
    refine ⟨fun row _ => ?_, h.imp fun {row other} hne => List.disjoint_left.mpr ?_⟩
    · refine ((nodup_names _).filter _).map fun name other heq => ?_
      simpa using heq
    · intro child hrow hother
      obtain ⟨name, -, rfl⟩ := List.mem_map.mp hrow
      obtain ⟨name', -, heq⟩ := List.mem_map.mp hother
      exact hne (List.append_inj_left' heq.symm rfl)
  · exact (h.map fun row other heq => by simpa using heq).filter _

include hcleaned

theorem mem_carryOn {rows : List (List String)} (hrows : ∀ row ∈ rows, memory.Leads row)
    {segment : String} (hsegment : IsName segment) {child : List String} :
    child ∈ memory.carryOn rows segment ↔
      ∃ row ∈ rows, ∃ name, child = row ++ [name] ∧ FitsSegment segment name ∧
        memory.Leads child := by
  rw [carryOn]
  split
  · next hmagic =>
    simp only [List.mem_flatMap, List.mem_map, List.mem_filter, FitsSegment, hmagic, if_true]
    refine exists_congr fun row => and_congr_right fun hrow => exists_congr fun name => ?_
    rw [mem_names_iff_leads hcleaned ((hrows row hrow).isName hcleaned)]
    constructor
    · rintro ⟨⟨hleads, hfits⟩, rfl⟩
      exact ⟨rfl, hfits, hleads⟩
    · rintro ⟨rfl, hfits, hleads⟩
      exact ⟨⟨hleads, hfits⟩, rfl⟩
  · next hmagic =>
    simp only [List.mem_filter, List.mem_map, FitsSegment, hmagic, Bool.false_eq_true, if_false]
    constructor
    · rintro ⟨⟨row, hrow, rfl⟩, hcontains⟩
      have hchild : ∀ name ∈ row ++ [segment], IsName name :=
        List.forall_mem_append.mpr
          ⟨(hrows row hrow).isName hcleaned, List.forall_mem_singleton.mpr hsegment⟩
      exact ⟨row, hrow, segment, rfl, rfl, (contains_ofNames hcleaned hchild).mp hcontains⟩
    · rintro ⟨row, hrow, name, rfl, rfl, hleads⟩
      exact ⟨⟨row, hrow, rfl⟩, (contains_ofNames hcleaned (hleads.isName hcleaned)).mpr hleads⟩

theorem leads_of_mem_carryOn {rows : List (List String)} (hrows : ∀ row ∈ rows, memory.Leads row)
    {segment : String} (hsegment : IsName segment) :
    ∀ row ∈ memory.carryOn rows segment, memory.Leads row := by
  intro row hrow
  obtain ⟨_, _, _, _, _, hleads⟩ := (mem_carryOn hcleaned hrows hsegment).mp hrow
  exact hleads

theorem globSegment_ofNames (hlistable : memory.Listable) {rows : List (List String)}
    (hrows : ∀ row ∈ rows, memory.Leads row) (segment : String) :
    memory.fileSystem.globSegment (rows.map ofNames) segment =
      .ok ((memory.carryOn rows segment).map ofNames) := by
  rw [FileSystem.globSegment, carryOn]
  split
  · have hbases : ∀ base ∈ rows.map ofNames,
        memory.fileSystem.globNames segment base = pure
          (((memory.names base).filter (matchesPattern segment)).map (join base)) := by
      intro base hbase
      obtain ⟨row, hrow, rfl⟩ := List.mem_map.mp hbase
      exact globNames_ofNames hcleaned hlistable ((hrows row hrow).isName hcleaned) segment
    rw [mapM_eq_pure hbases, pure_bind, ← List.flatMap_def, List.flatMap_map, List.map_flatMap]
    refine congrArg Except.ok (List.flatMap_congr fun row hrow => ?_)
    rw [List.map_map]
    exact List.map_congr_left fun name _ => join_ofNames ((hrows row hrow).isName hcleaned) name
  · have hjoin : (rows.map ofNames).map (fun base => join base segment) =
        (rows.map fun row => row ++ [segment]).map ofNames := by
      rw [List.map_map, List.map_map]
      exact List.map_congr_left fun row hrow =>
        join_ofNames ((hrows row hrow).isName hcleaned) segment
    rw [hjoin, List.filter_map]
    rfl

/-! ## Whole patterns -/

/-- Matching segment after segment finds what carries on from where it starts by names that fit. -/
theorem mem_foldl_carryOn {segments : List String}
    (hsegments : ∀ segment ∈ segments, IsName segment) {bases : List (List String)}
    (hbases : ∀ base ∈ bases, memory.Leads base) {row : List String} :
    row ∈ segments.foldl memory.carryOn bases ↔
      ∃ base ∈ bases, ∃ rest, row = base ++ rest ∧ List.Forall₂ FitsSegment segments rest ∧
        memory.Leads row := by
  induction segments generalizing bases with
  | nil =>
      simp only [List.foldl_nil, List.forall₂_nil_left_iff]
      constructor
      · exact fun hrow => ⟨row, hrow, [], (List.append_nil row).symm, rfl, hbases row hrow⟩
      · rintro ⟨base, hbase, rest, rfl, rfl, -⟩
        rwa [List.append_nil]
  | cons segment rest ih =>
      rw [List.forall_mem_cons] at hsegments
      rw [List.foldl_cons, ih hsegments.2 (leads_of_mem_carryOn hcleaned hbases hsegments.1)]
      constructor
      · rintro ⟨next, hnext, names, rfl, hnames, hleads⟩
        obtain ⟨base, hbase, name, rfl, hname, -⟩ :=
          (mem_carryOn hcleaned hbases hsegments.1).mp hnext
        exact ⟨base, hbase, name :: names, (List.append_cons ..).symm, .cons hname hnames, hleads⟩
      · rintro ⟨base, hbase, _, rfl, hfits, hleads⟩
        obtain ⟨name, names, hname, hnames, rfl⟩ := List.forall₂_cons_left_iff.mp hfits
        rw [List.append_cons] at hleads ⊢
        refine ⟨base ++ [name], ?_, names, rfl, hnames, hleads⟩
        exact (mem_carryOn hcleaned hbases hsegments.1).mpr
          ⟨base, hbase, name, rfl, hname, hleads.front⟩

theorem foldlM_globSegment (hlistable : memory.Listable) {segments : List String}
    (hsegments : ∀ segment ∈ segments, IsName segment) {bases : List (List String)}
    (hbases : ∀ base ∈ bases, memory.Leads base) :
    segments.foldlM memory.fileSystem.globSegment (bases.map ofNames) =
      .ok ((segments.foldl memory.carryOn bases).map ofNames) := by
  induction segments generalizing bases with
  | nil => rfl
  | cons segment rest ih =>
      rw [List.forall_mem_cons] at hsegments
      rw [List.foldlM_cons, globSegment_ofNames hcleaned hlistable hbases]
      exact ih hsegments.2 (leads_of_mem_carryOn hcleaned hbases hsegments.1)

omit hcleaned in
theorem nodup_foldl_carryOn {bases : List (List String)} (h : bases.Nodup)
    (segments : List String) : (segments.foldl memory.carryOn bases).Nodup := by
  induction segments generalizing bases with
  | nil => exact h
  | cons segment rest ih => exact ih (nodup_carryOn h segment)

/-- What is there and fits a pattern, seen through the names that lead to it. -/
theorem has_and_fits_iff {segments : List String} (hsegments : ∀ segment ∈ segments, IsName segment)
    {path : String} :
    memory.Has path ∧ Fits (ofNames segments) path ↔
      ∃ row, (List.Forall₂ FitsSegment segments row ∧ memory.Leads row) ∧ ofNames row = path := by
  rw [has_iff hcleaned]
  constructor
  · rintro ⟨⟨row, hleads, rfl⟩, hfits⟩
    rw [Fits, toNames_ofNames hsegments, toNames_ofNames (hleads.isName hcleaned)] at hfits
    exact ⟨row, ⟨hfits, hleads⟩, rfl⟩
  · rintro ⟨row, ⟨hfits, hleads⟩, rfl⟩
    refine ⟨⟨row, hleads, rfl⟩, ?_⟩
    rwa [Fits, toNames_ofNames hsegments, toNames_ofNames (hleads.isName hcleaned)]

/-- A pattern is matched without a failure, and finds in order the rows that fit it. -/
theorem exists_glob (hlistable : memory.Listable) {segments : List String}
    (hsegments : ∀ segment ∈ segments, IsName segment) {pattern : String}
    (hclean : clean pattern = ofNames segments) :
    ∃ rows : List (List String), memory.fileSystem.glob pattern = .ok (rows.map ofNames) ∧
      (rows.map ofNames).Pairwise (· < ·) ∧
      ∀ row, row ∈ rows ↔ List.Forall₂ FitsSegment segments row ∧ memory.Leads row := by
  by_cases hmagic : hasMagic (ofNames segments) = true
  · have hroot : ∀ base ∈ [[]], memory.Leads base := by simp [Leads]
    let rows := segments.foldl memory.carryOn [[]]
    have hrows (row : List String) :
        row ∈ rows ↔ List.Forall₂ FitsSegment segments row ∧ memory.Leads row := by
      simp only [rows, mem_foldl_carryOn hcleaned hsegments hroot, List.mem_singleton,
        exists_eq_left, List.nil_append, exists_eq_left']
    have hsorted : (rows.mergeSort fun a b => ofNames a ≤ ofNames b).map ofNames =
        (rows.map ofNames).mergeSort fun a b => a ≤ b := List.map_mergeSort fun _ _ _ _ => rfl
    refine ⟨rows.mergeSort fun a b => ofNames a ≤ ofNames b, ?_, ?_, fun row => ?_⟩
    · have hne : segments ≠ [] := by
        rintro rfl
        exact absurd hmagic (by decide)
      have hfold := foldlM_globSegment hcleaned hlistable hsegments hroot
      rw [List.map_singleton, ofNames_nil] at hfold
      rw [hsorted, FileSystem.glob, hclean]
      simp only [hmagic, if_true, segments_ofNames fun name hname => (hsegments name hname).noSlash,
        if_neg hne, hfold]
      rfl
    · rw [hsorted]
      refine FileGroup.pairwise_lt_mergeSort ?_
      refine (nodup_foldl_carryOn (List.nodup_singleton []) segments).map_on ?_
      intro row hrow other hother heq
      have hnames := ((hrows row).mp hrow).2.isName hcleaned
      exact (ofNames_inj hnames (((hrows other).mp hother).2.isName hcleaned)).mp heq
    · rw [List.mem_mergeSort, hrows]
  · have hplain : ∀ segment ∈ segments, hasMagic segment = false := fun segment =>
      hasMagic_of_mem (Bool.eq_false_iff.mpr hmagic)
    have hcontains := contains_ofNames hcleaned hsegments
    rw [FileSystem.glob, hclean, if_neg hmagic]
    by_cases hleads : memory.Leads segments
    · refine ⟨[segments], by rw [if_pos (hcontains.mpr hleads)]; rfl, by simp, fun row => ?_⟩
      rw [forall₂_fitsSegment_iff hplain, List.mem_singleton]
      exact ⟨fun hrow => ⟨hrow, hrow ▸ hleads⟩, And.left⟩
    · refine ⟨[], by rw [if_neg fun h => hleads (hcontains.mp h)]; rfl, by simp, fun row => ?_⟩
      rw [forall₂_fitsSegment_iff hplain]
      refine iff_of_false List.not_mem_nil ?_
      rintro ⟨rfl, hrow⟩
      exact hleads hrow

end Cleaned

variable {files : List (String × List UInt8)} {pattern : String}

/-- Matching a pattern is filtering: among files in memory it finds, in order and each of them once,
exactly the files and directories that fit the pattern segment by segment. So they have as many
segments as the cleaned pattern, and no wildcard reaches across a slash. -/
theorem glob_eq_filter (hvalid : ∀ file ∈ files, isValid file.1 = true)
    (hpattern : isValid pattern = true) :
    ∃ found : List String, (ofList files []).fileSystem.glob pattern = .ok found ∧
      found.Pairwise (· < ·) ∧
      ∀ path, path ∈ found ↔ (ofList files []).Has path ∧ Fits (clean pattern) path := by
  have hcleaned : (ofList files []).Cleaned := cleaned_ofList hvalid
  obtain ⟨segments, hsegments, hclean⟩ := exists_names_of_isValid hpattern
  obtain ⟨rows, hglob, hsorted, hrows⟩ :=
    exists_glob hcleaned (listable_of_readable rfl) hsegments hclean
  refine ⟨rows.map ofNames, hglob, hsorted, fun path => ?_⟩
  rw [hclean, has_and_fits_iff hcleaned hsegments, List.mem_map]
  exact exists_congr fun row => and_congr_left' (hrows row)

/-- A wildcard for directories and one for names: a file further down fits no more than one further
up, and neither does a file whose name differs behind the wildcard. -/
theorem glob_eq_filter_nested :
    let files := [("conf/a.json", []), ("conf/sub/b.json", []), ("data.d//c.json", []),
      ("data.d/c.yaml", []), ("d.json", [])]
    ∃ found : List String, (ofList files []).fileSystem.glob "./*/?.json" = .ok found ∧
      found.Pairwise (· < ·) ∧ "conf/a.json" ∈ found ∧ "data.d/c.json" ∈ found ∧
      "conf/sub/b.json" ∉ found ∧ "data.d/c.yaml" ∉ found ∧ "d.json" ∉ found := by
  intro files
  have hvalid : ∀ file ∈ files, isValid file.1 = true := by decide +kernel
  have hpattern : isValid "./*/?.json" = true := by decide +kernel
  obtain ⟨found, hglob, hsorted, hmem⟩ := glob_eq_filter hvalid hpattern
  refine ⟨found, hglob, hsorted, ?_⟩
  simp only [hmem]
  decide +kernel

end MemoryFiles

end LayeredConfig
