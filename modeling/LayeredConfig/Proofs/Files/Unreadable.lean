import LayeredConfig.Proofs.Files.Failures
import LayeredConfig.Proofs.Files.Globbing

/-! # Unreadable files

Outside of exact groups a file that cannot be read is as good as one that is not there. What a group
finds depends on its patterns and on the rows of names that lead to files; so leaving files out
takes them away from what is found, and nothing else. Where they stay, they are found and yield no
record. -/

namespace LayeredConfig

open LayeredConfig.Path

namespace MemoryFiles

variable {memory other : MemoryFiles} {recurse : Bool} {names row : List String}

/-! ## Files that a path stands for -/

/-- Files that stand apart from each other, in directories that can be listed. -/
structure Proper (memory : MemoryFiles) : Prop where
  cleaned : memory.Cleaned
  apart : memory.Apart
  listable : memory.Listable
  root_not_mem : [] ∉ memory.rows

/-- A file is no directory. -/
theorem ofNames_not_mem_directories (hcleaned : memory.Cleaned) (hapart : memory.Apart)
    (hroot : [] ∉ memory.rows) (hrow : row ∈ memory.rows) :
    ofNames row ∉ memory.directories := by
  rw [mem_directories_ofNames hcleaned ((mem_rows hcleaned).mp hrow).1]
  rintro (rfl | ⟨rest, hrest, hfurther⟩)
  · exact hroot hrow
  · exact hapart row hrow rest hrest hfurther

theorem Proper.not_mem_directories (hmemory : memory.Proper) (hrow : row ∈ memory.rows) :
    ofNames row ∉ memory.directories :=
  ofNames_not_mem_directories hmemory.cleaned hmemory.apart hmemory.root_not_mem hrow

theorem Proper.read_eq (hmemory : memory.Proper) {path : String}
    (hpath : path ∈ memory.files.keys) :
    memory.fileSystem.read path =
      if path ∈ memory.unreadable then .error (.pathFault .permissionDenied path)
      else (memory.files.get? path).elim (.error (.pathFault .fileAbsent path)) .ok := by
  obtain ⟨row, hrow, rfl⟩ := (mem_keys_iff hmemory.cleaned).mp hpath
  have hnames := ((mem_rows hmemory.cleaned).mp hrow).1
  simp only [fileSystem, read, clean_ofNames hnames, List.contains_iff_mem,
    hmemory.not_mem_directories hrow, if_false]
  cases memory.files.get? (ofNames row) <;> rfl

/-- Only files are unreadable. -/
theorem Proper.of_files (hcleaned : memory.Cleaned) (hapart : memory.Apart)
    (hroot : [] ∉ memory.rows) (hfiles : ∀ path ∈ memory.unreadable, path ∈ memory.files.keys) :
    memory.Proper where
  cleaned := hcleaned
  apart := hapart
  root_not_mem := hroot
  listable path hfolder hdenied := by
    obtain ⟨row, hrow, rfl⟩ := (mem_keys_iff hcleaned).mp (hfiles path hdenied)
    exact ofNames_not_mem_directories hcleaned hapart hroot hrow hfolder

/-- How far a group goes down from a path that it names. -/
def Reaches (recurse : Bool) (rest : List String) : Prop := recurse = true ∨ rest.length ≤ 1

/-- The rows that names stand for: the files below a directory, or a file itself. -/
def standing (memory : MemoryFiles) (recurse : Bool) (names : List String) : List (List String) :=
  if ofNames names ∈ memory.directories then memory.below recurse (memory.depth + 1) names
  else if names ∈ memory.rows then [names]
  else []

theorem nodup_standing : (memory.standing recurse names).Nodup := by
  rw [standing]
  split
  · exact nodup_below
  · split
    · exact List.nodup_singleton names
    · exact List.nodup_nil

theorem mem_standing (hmemory : memory.Proper) (hnames : ∀ name ∈ names, IsName name) :
    row ∈ memory.standing recurse names ↔
      row ∈ memory.rows ∧ ∃ rest, row = names ++ rest ∧ Reaches recurse rest := by
  rw [standing]
  split
  · next hfolder =>
    rw [mem_below hmemory.cleaned hnames hmemory.apart (by omega)]
    refine and_congr_right fun hrow => ?_
    constructor
    · rintro ⟨name, rest, rfl, hreach⟩
      exact ⟨name :: rest, rfl, hreach.imp_right fun hrest => by rw [hrest]; exact Nat.le_refl 1⟩
    · rintro ⟨rest, rfl, hreach⟩
      cases rest with
      | nil =>
          rw [List.append_nil] at hrow
          exact (hmemory.not_mem_directories hrow hfolder).elim
      | cons name rest =>
          exact ⟨name, rest, rfl, hreach.imp_right fun hlength => by simpa using hlength⟩
  · next hfolder =>
    have hnil : ∀ rest, names ++ rest ∈ memory.rows → rest = [] := fun rest hrest =>
      by_contra fun hne => hfolder <|
        (mem_directories_ofNames hmemory.cleaned hnames).mpr (.inr ⟨rest, hne, hrest⟩)
    split
    · next hfile =>
      rw [List.mem_singleton]
      constructor
      · rintro rfl
        exact ⟨hfile, [], (List.append_nil row).symm, .inr (Nat.zero_le 1)⟩
      · rintro ⟨hrow, rest, rfl, -⟩
        rw [hnil rest hrow, List.append_nil]
    · next hfile =>
      refine iff_of_false List.not_mem_nil ?_
      rintro ⟨hrow, rest, rfl, -⟩
      rw [hnil rest hrow, List.append_nil] at hrow
      exact hfile hrow

/-! ## Leaving files out -/

/-- The other files are those of the first that can be read. -/
structure KeepsReadable (memory other : MemoryFiles) : Prop where
  cleaned : memory.Cleaned
  mem_keys_iff : ∀ path, path ∈ other.files.keys ↔
    path ∈ memory.files.keys ∧ path ∉ memory.unreadable
  read_eq : ∀ path ∈ other.files.keys, other.fileSystem.read path = memory.fileSystem.read path

theorem KeepsReadable.mem_rows_iff (hkept : KeepsReadable memory other) (row : List String) :
    row ∈ other.rows ↔ row ∈ memory.rows ∧ ofNames row ∉ memory.unreadable := by
  have hcleaned : other.Cleaned := fun path hpath =>
    hkept.cleaned path ((hkept.mem_keys_iff path).mp hpath).1
  rw [mem_rows hcleaned, mem_rows hkept.cleaned, hkept.mem_keys_iff, and_assoc]

variable {files : List (String × List UInt8)} {denied : List String}

/-- The files that are not denied. -/
def readable (files : List (String × List UInt8)) (denied : List String) :
    List (String × List UInt8) :=
  files.filter fun file => clean file.1 ∉ denied.map clean

theorem mem_of_mem_readable {file : String × List UInt8} (h : file ∈ readable files denied) :
    file ∈ files :=
  List.mem_of_mem_filter h

theorem mem_keys_readable {path : String} :
    path ∈ (ofList (readable files denied) []).files.keys ↔
      path ∈ (ofList files denied).files.keys ∧ path ∉ (ofList files denied).unreadable := by
  simp only [mem_keys_ofList, readable, List.mem_filter, decide_eq_true_eq]
  constructor
  · rintro ⟨file, ⟨hfile, hreadable⟩, rfl⟩
    exact ⟨⟨file, hfile, rfl⟩, hreadable⟩
  · rintro ⟨⟨file, hfile, rfl⟩, hreadable⟩
    exact ⟨file, ⟨hfile, hreadable⟩, rfl⟩

theorem get?_readable {path : String} (h : path ∉ denied.map clean) :
    (ofList (readable files denied) []).files.get? path =
      (ofList files denied).files.get? path := by
  let keep (key : String) : Bool := key ∉ denied.map clean
  have hpairs : (readable files denied).map (fun file => (clean file.1, file.2)) =
      (files.map fun file => (clean file.1, file.2)).filter fun pair => keep pair.1 := by
    rw [List.filter_map]
    rfl
  have hkeep : keep path = true := decide_eq_true h
  simp only [Entries.get?, ofList, hpairs]
  exact Entries.lookup_ofPairs_filter hkeep _

theorem proper_ofList (hvalid : ∀ file ∈ files, isValid file.1 = true)
    (hdot : ∀ file ∈ files, clean file.1 ≠ ".")
    (hapart : ∀ file ∈ files, ∀ other ∈ files, ¬Below (clean file.1) (clean other.1))
    (hdenied : ∀ path ∈ denied, ∃ file ∈ files, clean file.1 = clean path) :
    (ofList files denied).Proper := by
  have hcleaned : (ofList files denied).Cleaned := cleaned_ofList hvalid
  refine .of_files hcleaned (apart_ofList hvalid hapart) (fun hroot => ?_) fun path hpath => ?_
  · obtain ⟨file, hfile, hpath⟩ := mem_keys_ofList.mp ((mem_rows hcleaned).mp hroot).2
    exact hdot file hfile hpath
  · obtain ⟨path, hmem, rfl⟩ := List.mem_map.mp hpath
    exact mem_keys_ofList.mpr (hdenied path hmem)

theorem keepsReadable_ofList (hmemory : (ofList files denied).Proper)
    (hother : (ofList (readable files denied) []).Proper) :
    KeepsReadable (ofList files denied) (ofList (readable files denied) []) := by
  refine ⟨hmemory.cleaned, fun path => mem_keys_readable, fun path hpath => ?_⟩
  obtain ⟨hkey, hreadable⟩ := mem_keys_readable.mp hpath
  have hnone : path ∉ (ofList (readable files denied) []).unreadable := List.not_mem_nil
  rw [hother.read_eq hpath, hmemory.read_eq hkey, get?_readable hreadable, if_neg hnone,
    if_neg hreadable]

end MemoryFiles

namespace FileGroup

open MemoryFiles

variable {memory other : MemoryFiles} {group : FileGroup}

theorem isDirectory_ofNames (hcleaned : memory.Cleaned) {names : List String}
    (hnames : ∀ name ∈ names, IsName name) :
    memory.fileSystem.isDirectory (ofNames names) =
      if ofNames names ∈ memory.directories then .ok true
      else if names ∈ memory.rows then .ok false
      else .error (.pathFault .fileAbsent (ofNames names)) := by
  have hkeys : ofNames names ∈ memory.files.keys ↔ names ∈ memory.rows := by
    rw [mem_rows hcleaned, and_iff_right hnames]
  simp only [fileSystem, MemoryFiles.isDirectory, clean_ofNames hnames, List.contains_iff_mem,
    Entries.has, Entries.get?, Entries.lookup_isSome_iff, hkeys]

theorem result_filesAt (hmemory : memory.Proper) (hexact : group.exact = false)
    {names : List String} (hnames : ∀ name ∈ names, IsName name) :
    (group.filesAt memory.fileSystem (ofNames names)).result =
      .ok ((memory.standing group.recurse names).map ofNames) := by
  rw [filesAt, isDirectory_ofNames hmemory.cleaned hnames, standing]
  by_cases hfolder : ofNames names ∈ memory.directories
  · rw [if_pos hfolder, if_pos hfolder]
    simp only [hexact, Bool.false_eq_true, if_false]
    exact congrArg Traced.result
      (walk_fileSystem hmemory.cleaned hmemory.listable hnames hfolder)
  · rw [if_neg hfolder, if_neg hfolder]
    by_cases hfile : names ∈ memory.rows
    · rw [if_pos hfile, if_pos hfile]
      rfl
    · rw [if_neg hfile, if_neg hfile]
      simp only [Fault.category, hexact]
      rfl

/-- The files that a path of a group stands for, be it a pattern. -/
def foundAt (group : FileGroup) (fs : FileSystem) (path : String) : Except Fault (List String) :=
  (group.candidates fs path).bind fun candidates =>
    (candidates.mapM fun candidate => (group.filesAt fs candidate).result).bind fun files =>
      .ok files.flatten

theorem result_files (group : FileGroup) (fs : FileSystem) :
    (group.files fs).result = (group.paths.mapM (group.foundAt fs)).map fun files =>
      files.flatten.mergeSort fun a b => a ≤ b := by
  rw [files]
  simp only [Traced.result_bind, Traced.result_mapM]
  rfl

/-- What is looked at for a path: the rows that fit it segment by segment. A pattern that nothing
fits stands for itself, but no file has wildcards in its names. -/
theorem exists_candidates_rows (hmemory : memory.Proper)
    (hplain : ∀ row ∈ memory.rows, ∀ name ∈ row, hasMagic name = false)
    (hexact : group.exact = false) {path : String} {segments : List String}
    (hsegments : ∀ segment ∈ segments, IsName segment) (hclean : clean path = ofNames segments) :
    ∃ fronts : List (List String),
      group.candidates memory.fileSystem path = .ok (fronts.map ofNames) ∧ fronts.Nodup ∧
      (∀ front ∈ fronts, (∀ name ∈ front, IsName name) ∧ front.length = segments.length) ∧
      ∀ front rest, front ++ rest ∈ memory.rows →
        (front ∈ fronts ↔ List.Forall₂ FitsSegment segments front) := by
  obtain ⟨rows, hglob, hsorted, hrows⟩ := exists_glob hmemory.cleaned hmemory.listable hsegments
    (show clean (clean path) = ofNames segments by rw [clean_clean, hclean])
  rw [candidates]
  simp only [hexact, Bool.false_eq_true, if_false, hglob]
  by_cases hnil : rows = []
  · subst hnil
    refine ⟨[segments], by rw [List.map_singleton, ← hclean]; rfl, List.nodup_singleton _,
      by simpa using hsegments, fun front rest hrow => ?_⟩
    have hnone : ¬List.Forall₂ FitsSegment segments front := fun hfits =>
      List.not_mem_nil ((hrows front).mpr ⟨hfits, .inr ⟨rest, hrow⟩⟩)
    refine iff_of_false (fun hfront => ?_) hnone
    -- The pattern leads to a file then, and so has no wildcards that it could fail to fit.
    rw [List.mem_singleton.mp hfront] at hrow hnone
    refine hnone ((forall₂_fitsSegment_iff fun segment hsegment => ?_).mpr rfl)
    exact hplain _ hrow segment (List.mem_append_left rest hsegment)
  · refine ⟨rows, ?_, List.Nodup.of_map ofNames (hsorted.imp ne_of_lt), fun front hfront => ?_,
      fun front rest hrow => ?_⟩
    · obtain ⟨first, others, rfl⟩ := List.exists_cons_of_ne_nil hnil
      rfl
    · obtain ⟨hfits, hleads⟩ := (hrows front).mp hfront
      exact ⟨hleads.isName hmemory.cleaned, hfits.length_eq.symm⟩
    · rw [hrows, and_iff_left (show memory.Leads front from .inr ⟨rest, hrow⟩)]

/-- What a path of a group stands for is told by the rows alone. -/
theorem exists_foundAt (hmemory : memory.Proper)
    (hplain : ∀ row ∈ memory.rows, ∀ name ∈ row, hasMagic name = false)
    (hexact : group.exact = false) {path : String} {segments : List String}
    (hsegments : ∀ segment ∈ segments, IsName segment) (hclean : clean path = ofNames segments) :
    ∃ found : List (List String),
      group.foundAt memory.fileSystem path = .ok (found.map ofNames) ∧ found.Nodup ∧
      ∀ row, row ∈ found ↔ row ∈ memory.rows ∧ ∃ front rest, row = front ++ rest ∧
        List.Forall₂ FitsSegment segments front ∧ Reaches group.recurse rest := by
  obtain ⟨fronts, hcandidates, hnodup, hfronts, hfits⟩ :=
    exists_candidates_rows hmemory hplain hexact hsegments hclean
  refine ⟨fronts.flatMap (memory.standing group.recurse), ?_, ?_, fun row => ?_⟩
  · have hfiles : (fronts.map ofNames).mapM (fun candidate =>
          (group.filesAt memory.fileSystem candidate).result) =
        .ok (fronts.map fun front => (memory.standing group.recurse front).map ofNames) := by
      rw [List.mapM_map]
      exact mapM_eq_pure fun front hfront => result_filesAt hmemory hexact (hfronts front hfront).1
    rw [foundAt, hcandidates, List.map_flatMap, List.flatMap_def]
    simp only [Except.bind, hfiles]
  · rw [List.nodup_flatMap]
    refine ⟨fun front _ => nodup_standing, hnodup.pairwise_of_forall_ne ?_⟩
    intro front hfront other hother hne
    -- A row has one front of the length of the pattern.
    refine List.disjoint_left.mpr fun row hrow hrow' => hne ?_
    obtain ⟨-, rest, rfl, -⟩ := (mem_standing hmemory (hfronts front hfront).1).mp hrow
    obtain ⟨-, rest', heq, -⟩ := (mem_standing hmemory (hfronts other hother).1).mp hrow'
    exact List.append_inj_left heq ((hfronts front hfront).2.trans (hfronts other hother).2.symm)
  · rw [List.mem_flatMap]
    constructor
    · rintro ⟨front, hfront, hrow⟩
      obtain ⟨hmem, rest, rfl, hreach⟩ := (mem_standing hmemory (hfronts front hfront).1).mp hrow
      exact ⟨hmem, front, rest, rfl, (hfits front rest hmem).mp hfront, hreach⟩
    · rintro ⟨hmem, front, rest, rfl, hfront, hreach⟩
      have hfront := (hfits front rest hmem).mpr hfront
      exact ⟨front, hfront,
        (mem_standing hmemory (hfronts front hfront).1).mpr ⟨hmem, rest, rfl, hreach⟩⟩

/-! ## Records -/

/-- The group with another filesystem to look into. -/
def placedIn (group : FileGroup) (fs : FileSystem) : FileGroup := { group with place := .given fs }

variable {disk : Disk} {registry : Registry} {delimiter : String}

theorem result_records_of_files {fs : FileSystem} {found : List String}
    (h : (group.files fs).result = .ok found) :
    ((group.placedIn fs).records disk registry delimiter).result =
      (found.mapM fun path => (group.record? fs registry delimiter path).result).map
        (List.filterMap id) := by
  rw [← Traced.result_mapM, records, Traced.result_bind]
  change (group.files fs).result.bind _ = _
  rw [h]
  exact Traced.result_bind _ _

theorem result_record?_of_denied {fs : FileSystem} {path : String} {cause : Fault}
    (hexact : group.exact = false) (hread : fs.read path = .error cause)
    (hdenied : cause.category = .permissionDenied) :
    (group.record? fs registry delimiter path).result = .ok none := by
  rw [record?]
  cases registry.decoder (group.extensionOf (Path.basename path)) with
  | error fault =>
      simp only [hexact]
      rfl
  | ok decoder =>
      simp only [hread, hdenied]
      rfl

/-! ## Leaving files out -/

/-- Sorting may come before or after files are left out. -/
theorem mergeSort_eq_filter {found others : List String} {keep : String → Bool}
    (h : others.Perm (found.filter keep)) :
    (others.mergeSort fun a b => a ≤ b) = (found.mergeSort fun a b => a ≤ b).filter keep := by
  have hperm : (others.mergeSort fun a b => a ≤ b).Perm
      ((found.mergeSort fun a b => a ≤ b).filter keep) :=
    (List.mergeSort_perm others _).trans
      (h.trans ((List.mergeSort_perm found _).filter keep).symm)
  exact hperm.eq_of_pairwise (fun a b _ _ => le_antisymm) (pairwise_le_mergeSort others)
    ((pairwise_le_mergeSort found).filter keep)

section Without

variable (hmemory : memory.Proper) (hother : other.Proper) (hkept : KeepsReadable memory other)
  (hplain : ∀ row ∈ memory.rows, ∀ name ∈ row, hasMagic name = false)
  (hexact : group.exact = false)

include hmemory hother hkept hplain hexact

theorem exists_perm_foundAt {path : String} (hpath : isValid path = true) :
    ∃ found others : List String, group.foundAt memory.fileSystem path = .ok found ∧
      group.foundAt other.fileSystem path = .ok others ∧
      others.Perm (found.filter fun file => !memory.unreadable.contains file) ∧
      ∀ file ∈ found, file ∈ memory.files.keys := by
  obtain ⟨segments, hsegments, hclean⟩ := exists_names_of_isValid hpath
  have hplainOther : ∀ row ∈ other.rows, ∀ name ∈ row, hasMagic name = false :=
    fun row hrow => hplain row ((hkept.mem_rows_iff row).mp hrow).1
  obtain ⟨found, hfound, hnodup, hmem⟩ := exists_foundAt hmemory hplain hexact hsegments hclean
  obtain ⟨others, hothers, hnodup', hmem'⟩ :=
    exists_foundAt hother hplainOther hexact hsegments hclean
  refine ⟨_, _, hfound, hothers, ?_, fun file hfile => ?_⟩
  · rw [List.filter_map]
    refine .map _ ((List.perm_ext_iff_of_nodup hnodup' (hnodup.filter _)).mpr fun row => ?_)
    simp only [List.mem_filter, hmem, hmem', hkept.mem_rows_iff, Function.comp_apply,
      Bool.not_eq_true', List.contains_eq_mem, decide_eq_false_iff_not]
    exact and_right_comm
  · obtain ⟨row, hrow, rfl⟩ := List.mem_map.mp hfile
    exact ((mem_rows hmemory.cleaned).mp ((hmem row).mp hrow).1).2

theorem exists_perm_mapM_foundAt {paths : List String}
    (hpaths : ∀ path ∈ paths, isValid path = true) :
    ∃ found others : List (List String), paths.mapM (group.foundAt memory.fileSystem) = .ok found ∧
      paths.mapM (group.foundAt other.fileSystem) = .ok others ∧
      others.flatten.Perm (found.flatten.filter fun file => !memory.unreadable.contains file) ∧
      ∀ file ∈ found.flatten, file ∈ memory.files.keys := by
  induction paths with
  | nil => exact ⟨[], [], rfl, rfl, .nil, nofun⟩
  | cons path rest ih =>
      rw [List.forall_mem_cons] at hpaths
      obtain ⟨found, others, hfound, hothers, hperm, hkeys⟩ :=
        exists_perm_foundAt hmemory hother hkept hplain hexact hpaths.1
      obtain ⟨more, moreOthers, hmore, hmoreOthers, hmorePerm, hmoreKeys⟩ := ih hpaths.2
      refine ⟨found :: more, others :: moreOthers, ?_, ?_, ?_, ?_⟩
      · rw [List.mapM_cons, hfound, hmore]
        rfl
      · rw [List.mapM_cons, hothers, hmoreOthers]
        rfl
      · rw [List.flatten_cons, List.flatten_cons, List.filter_append]
        exact hperm.append hmorePerm
      · rw [List.flatten_cons, List.forall_mem_append]
        exact ⟨hkeys, hmoreKeys⟩

/-- Leaving files out takes them away from what a group finds, and nothing else. -/
theorem exists_filter_files (hpaths : ∀ path ∈ group.paths, isValid path = true) :
    ∃ found : List String, (group.files memory.fileSystem).result = .ok found ∧
      (group.files other.fileSystem).result =
        .ok (found.filter fun file => !memory.unreadable.contains file) ∧
      ∀ file ∈ found, file ∈ memory.files.keys := by
  obtain ⟨found, others, hfound, hothers, hperm, hkeys⟩ :=
    exists_perm_mapM_foundAt hmemory hother hkept hplain hexact hpaths
  refine ⟨found.flatten.mergeSort fun a b => a ≤ b, ?_, ?_, fun file hfile => ?_⟩
  · rw [result_files, hfound]
    rfl
  · rw [result_files, hothers, ← mergeSort_eq_filter hperm]
    rfl
  · exact hkeys file (List.mem_mergeSort.mp hfile)

/-- A file that cannot be read yields no record, and one that is left out yields none either. -/
theorem result_records_placedIn (hpaths : ∀ path ∈ group.paths, isValid path = true) (disk : Disk)
    (registry : Registry) (delimiter : String) :
    ((group.placedIn memory.fileSystem).records disk registry delimiter).result =
      ((group.placedIn other.fileSystem).records disk registry delimiter).result := by
  obtain ⟨found, hfound, hothers, hkeys⟩ :=
    exists_filter_files hmemory hother hkept hplain hexact hpaths
  rw [result_records_of_files hfound, result_records_of_files hothers]
  refine (filterMap_mapM_filter (fun path hpath hreadable => ?_) fun path hpath hdenied => ?_).symm
  · have hkey : path ∈ other.files.keys :=
      (hkept.mem_keys_iff path).mpr ⟨hkeys path hpath, by simpa using hreadable⟩
    rw [record?, record?, hkept.read_eq path hkey]
  · have hread : memory.fileSystem.read path = .error (.pathFault .permissionDenied path) := by
      rw [hmemory.read_eq (hkeys path hpath), if_pos (by simpa using hdenied)]
    exact result_record?_of_denied hexact hread rfl

omit hexact in
theorem result_collect_placedIn {groups : List FileGroup}
    (hgroups : ∀ group ∈ groups, group.exact = false)
    (hpaths : ∀ group ∈ groups, ∀ path ∈ group.paths, isValid path = true) (index : Nat) :
    (collect disk registry delimiter index
        (groups.map fun group => group.placedIn memory.fileSystem)).result =
      (collect disk registry delimiter index
        (groups.map fun group => group.placedIn other.fileSystem)).result := by
  induction groups generalizing index with
  | nil => rfl
  | cons group rest ih =>
      rw [List.forall_mem_cons] at hgroups hpaths
      rw [List.map_cons, List.map_cons, result_collect_cons, result_collect_cons,
        result_records_placedIn hmemory hother hkept hplain hgroups.1 hpaths.1,
        ih hgroups.2 hpaths.2]
      rfl

end Without

/-- A file that cannot be read is as good as one that is not there: whatever groups that are not
exact are collected, and whether their paths are patterns, directories or files, the outcome is the
same, records or fault, if the files that are denied are left out. -/
theorem collect_unreadable {files : List (String × List UInt8)} {denied : List String}
    {groups : List FileGroup} (hvalid : ∀ file ∈ files, isValid file.1 = true)
    (hplain : ∀ file ∈ files, hasMagic file.1 = false) (hdot : ∀ file ∈ files, clean file.1 ≠ ".")
    (hapart : ∀ file ∈ files, ∀ other ∈ files, ¬Below (clean file.1) (clean other.1))
    (hdenied : ∀ path ∈ denied, ∃ file ∈ files, clean file.1 = clean path)
    (hexact : ∀ group ∈ groups, group.exact = false)
    (hpaths : ∀ group ∈ groups, ∀ path ∈ group.paths, isValid path = true) (disk : Disk)
    (registry : Registry) (delimiter : String) (index : Nat) :
    let groupsFor (memory : MemoryFiles) := groups.map fun group => group.placedIn memory.fileSystem
    (collect disk registry delimiter index (groupsFor (ofList files denied))).result =
      (collect disk registry delimiter index
        (groupsFor (ofList (readable files denied) []))).result := by
  have hmemory : (ofList files denied).Proper := proper_ofList hvalid hdot hapart hdenied
  have hother : (ofList (readable files denied) []).Proper :=
    proper_ofList (fun file hfile => hvalid file (mem_of_mem_readable hfile))
      (fun file hfile => hdot file (mem_of_mem_readable hfile))
      (fun file hfile other hother =>
        hapart file (mem_of_mem_readable hfile) other (mem_of_mem_readable hother))
      nofun
  refine result_collect_placedIn hmemory hother (keepsReadable_ofList hmemory hother)
    (fun row hrow name hname => ?_) hexact hpaths index
  obtain ⟨file, hfile, hpath⟩ := mem_keys_ofList.mp ((mem_rows hmemory.cleaned).mp hrow).2
  exact hasMagic_of_mem (hpath ▸ hasMagic_clean (hplain file hfile)) hname

/-- A pattern that fits a denied file and another one, and the directory of a denied file, which is
gone without it: the one record is that of the other file. -/
theorem collect_unreadable_pattern :
    let files : List (String × List UInt8) :=
      [("conf/a.json", [123, 125]), ("conf//b.json", [123, 125]), ("old/c.json", [])]
    let denied := ["./conf/a.json", "old/c.json"]
    let group : FileGroup :=
      { place := .directory "/", paths := ["conf/*.json", "old"], recurse := true }
    ∃ found, (collect {} .standard "." 0
        [group.placedIn (ofList [("conf//b.json", [123, 125])] []).fileSystem]).result = .ok found ∧
      (collect {} .standard "." 0 [group.placedIn (ofList files denied).fileSystem]).result =
        .ok found ∧
      found.length = 1 := by
  intro files denied group
  have hany : (collect {} .standard "." 0
      [group.placedIn (ofList [("conf//b.json", [123, 125])] []).fileSystem]).result.toOption.any
        (fun found => found.length == 1) = true := by
    decide +kernel
  obtain ⟨found, hfound, hlength⟩ := exists_ok_of_any hany
  have hreadable : readable files denied = [("conf//b.json", [123, 125])] := by decide +kernel
  have hgroups : ∀ other ∈ [group], other.exact = false ∧
      ∀ path ∈ other.paths, isValid path = true := by
    intro other hother
    cases List.mem_singleton.mp hother
    exact ⟨rfl, by decide +kernel⟩
  have hsame := @collect_unreadable files denied [group] (by decide +kernel) (by decide +kernel)
    (by decide +kernel) (by decide +kernel) (by decide +kernel) (fun other h => (hgroups other h).1)
    (fun other h => (hgroups other h).2) {} .standard "." 0
  rw [hreadable] at hsame
  exact ⟨found, hfound, hsame.trans hfound, beq_iff_eq.mp hlength⟩

end FileGroup

end LayeredConfig
