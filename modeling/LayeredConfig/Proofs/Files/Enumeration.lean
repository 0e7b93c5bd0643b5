import LayeredConfig.Files.Group
import LayeredConfig.Proofs.Files.Memory
import LayeredConfig.Proofs.Outcomes
import Mathlib.Data.String.Basic
import Mathlib.Order.Basic

/-! # Enumeration of files

A group that names a directory stands for the files below it. The walk through the directory comes
upon each of them once, and no number of levels that is large enough for the files makes a
difference to it. -/

namespace LayeredConfig

open LayeredConfig.Path

namespace MemoryFiles

variable {memory : MemoryFiles} {directory : List String}

theorem isDirectory_fileSystem {path : String} :
    memory.fileSystem.isDirectory path = .ok true ↔ clean path ∈ memory.directories := by
  simp only [fileSystem, isDirectory]
  by_cases h : clean path ∈ memory.directories
  · simp [h]
  · simp only [List.contains_iff_mem, h, if_false, iff_false]
    split <;> exact nofun

/-- None of the directories is unreadable. -/
def Listable (memory : MemoryFiles) : Prop := ∀ path ∈ memory.directories, path ∉ memory.unreadable

theorem listable_of_readable (h : memory.unreadable = []) : memory.Listable := by
  intro path _
  rw [h]
  exact List.not_mem_nil

theorem entries_ofNames (hlistable : memory.Listable) (hnames : ∀ name ∈ directory, IsName name)
    (h : ofNames directory ∈ memory.directories) :
    memory.fileSystem.entries (ofNames directory) =
      .ok ((memory.names (ofNames directory)).map fun name =>
        (name, memory.directories.contains (ofNames (directory ++ [name])))) := by
  have hreadable : memory.unreadable.contains (ofNames directory) = false := by
    simpa using hlistable _ h
  simp only [fileSystem, entries, clean_ofNames hnames, join_ofNames hnames, hreadable,
    List.contains_iff_mem.mpr h, Bool.false_eq_true, if_false, if_true]

end MemoryFiles

namespace FileGroup

open MemoryFiles

variable {memory : MemoryFiles} {recurse : Bool} {levels : Nat} {directory : List String}

/-- A walk meets with no failure, and finds the rows below the directory. -/
theorem walk_fileSystem (hcleaned : memory.Cleaned) (hlistable : memory.Listable)
    (hnames : ∀ name ∈ directory, IsName name) (h : ofNames directory ∈ memory.directories) :
    walk memory.fileSystem recurse levels (ofNames directory) =
      pure ((memory.below recurse levels directory).map ofNames) := by
  induction levels generalizing directory with
  | zero => rfl
  | succ levels ih =>
      rw [walk, entries_ofNames hlistable hnames h]
      dsimp only
      rw [mapM_eq_pure (g := fun entry =>
        (memory.branch recurse (directory ++ [entry.1])
          (memory.below recurse levels (directory ++ [entry.1]))).map ofNames)]
      · rw [below, List.map_flatMap, List.flatMap_def, List.map_map]
        rfl
      · intro entry hentry
        obtain ⟨name, hname, rfl⟩ := List.mem_map.mp hentry
        have hchild := isName_child hcleaned hnames hname
        dsimp only
        rw [join_ofNames hnames, branch]
        by_cases hfolder : ofNames (directory ++ [name]) ∈ memory.directories
        · rw [if_neg (by simpa using hfolder), if_neg (not_not_intro hfolder)]
          split
          · exact ih hchild hfolder
          · rfl
        · rw [if_pos (by simpa using hfolder), if_pos hfolder]
          rfl

/-! ## Groups that name a directory -/

theorem pairwise_le_mergeSort (names : List String) :
    (names.mergeSort fun a b => a ≤ b).Pairwise (· ≤ ·) :=
  (@List.pairwise_mergeSort String (fun a b => decide (a ≤ b))
    (fun a b c => by simpa using le_trans) (fun a b => by simpa using le_total a b) names).imp
    of_decide_eq_true

/-- Sorted names without repetitions increase strictly. -/
theorem pairwise_lt_mergeSort {names : List String} (h : names.Nodup) :
    (names.mergeSort fun a b => a ≤ b).Pairwise (· < ·) := by
  have hnodup : (names.mergeSort fun a b => a ≤ b).Nodup :=
    (List.mergeSort_perm names _).nodup_iff.mpr h
  exact ((pairwise_le_mergeSort names).and hnodup).imp fun hab => lt_of_le_of_ne hab.1 hab.2

/-- A group with a single directory is a single walk. -/
theorem files_eq_walk {fs : FileSystem} {group : FileGroup} {path : String}
    (hexact : group.exact = false) (hpaths : group.paths = [path]) (hmagic : hasMagic path = false)
    (hcontains : fs.contains (clean path) = true)
    (hdirectory : fs.isDirectory (clean path) = .ok true) :
    group.files fs = (fun names => names.mergeSort fun a b => a ≤ b) <$>
      walk fs group.recurse (fs.depth + 1) (clean path) := by
  have hcandidates : group.candidates fs path = .ok [clean path] := by
    simp [candidates, FileSystem.glob, hexact, clean_clean, hasMagic_clean hmagic, hcontains]
  have hfiles : group.filesAt fs (clean path) =
      walk fs group.recurse (fs.depth + 1) (clean path) := by
    simp [filesAt, hdirectory, hexact]
  rw [files, hpaths, List.mapM_cons, List.mapM_nil, hcandidates, Traced.liftM_ok]
  simp [hfiles]

/-- The files below a directory in order, as a walk with enough levels finds them. -/
theorem exists_sorted_walk (hcleaned : memory.Cleaned) (hapart : memory.Apart)
    (hreadable : memory.unreadable = []) {path : String} (hpath : path ∈ memory.directories) :
    ∃ found : List String, found.Pairwise (· < ·) ∧
      (∀ name, name ∈ found ↔ name ∈ memory.files.keys ∧
        if recurse then Below path name else Inside path name) ∧
      ∀ levels, memory.depth < levels →
        (fun names => names.mergeSort fun a b => a ≤ b) <$>
          walk memory.fileSystem recurse levels path = pure found := by
  obtain ⟨directory, hnames, -, rfl⟩ := (mem_directories hcleaned).mp hpath
  let sorted (levels : Nat) : List String :=
    ((memory.below recurse levels directory).map ofNames).mergeSort fun a b => a ≤ b
  have hsorted (levels : Nat) : (sorted levels).Pairwise (· < ·) := by
    refine pairwise_lt_mergeSort (nodup_below.map_on fun row hrow other hother heq => ?_)
    have hrow := ((mem_rows hcleaned).mp (of_mem_below hcleaned hnames hrow).1).1
    have hother := ((mem_rows hcleaned).mp (of_mem_below hcleaned hnames hother).1).1
    exact (ofNames_inj hrow hother).mp heq
  have hmem {levels : Nat} (hlevels : memory.depth < levels) (name : String) :
      name ∈ sorted levels ↔ name ∈ memory.files.keys ∧
        if recurse then Below (ofNames directory) name else Inside (ofNames directory) name := by
    rw [List.mem_mergeSort]
    exact mem_map_below hcleaned hnames hapart (by omega)
  refine ⟨sorted (memory.depth + 1), hsorted _, hmem (Nat.lt_succ_self _), fun levels hlevels => ?_⟩
  rw [walk_fileSystem hcleaned (listable_of_readable hreadable) hnames hpath]
  have hperm : (sorted levels).Perm (sorted (memory.depth + 1)) := by
    refine (List.perm_ext_iff_of_nodup ((hsorted _).imp ne_of_lt) ((hsorted _).imp ne_of_lt)).mpr ?_
    exact fun name => (hmem hlevels name).trans (hmem (Nat.lt_succ_self _) name).symm
  have hsame := hperm.eq_of_pairwise (fun a b _ _ hab hba => (lt_asymm hab hba).elim) (hsorted _)
    (hsorted _)
  exact congrArg pure hsame

variable {files : List (String × List UInt8)} {group : FileGroup} {path : String} {disk : Disk}

/-- A group that names a directory of files in memory, none of which stands on the way to another,
stands for the files below the directory, or for those directly inside it unless it searches
directories inside directories. They come in order, each of them once. However many levels the walk
may go down, as long as they are more than the files need, it finds the same. -/
theorem files_of_directory (hvalid : ∀ file ∈ files, isValid file.1 = true)
    (hapart : ∀ file ∈ files, ∀ other ∈ files, ¬Below (clean file.1) (clean other.1))
    (hplace : group.place = .given (ofList files []).fileSystem) (hexact : group.exact = false)
    (hpaths : group.paths = [path]) (hmagic : hasMagic path = false)
    (hdirectory : (ofList files []).fileSystem.isDirectory path = .ok true) :
    let fs := group.place.on disk
    ∃ found, group.files fs = pure found ∧ found.Pairwise (· < ·) ∧
      (∀ name, name ∈ found ↔ ∃ file ∈ files, clean file.1 = name ∧
        if group.recurse then Below (clean path) name else Inside (clean path) name) ∧
      ∀ levels, fs.depth < levels →
        (fun names => names.mergeSort fun a b => a ≤ b) <$>
          walk fs group.recurse levels (clean path) = pure found := by
  intro fs
  have hcleaned : (ofList files []).Cleaned := cleaned_ofList hvalid
  have hrows : (ofList files []).Apart := apart_ofList hvalid hapart
  have hfs : fs = (ofList files []).fileSystem := congrArg (Place.on disk) hplace
  rw [isDirectory_fileSystem] at hdirectory
  obtain ⟨found, hsorted, hmem, hwalk⟩ :=
    exists_sorted_walk hcleaned hrows rfl hdirectory
  refine ⟨found, ?_, hsorted, fun name => ?_, hfs ▸ hwalk⟩
  · have hcontains : fs.contains (clean path) = true := by
      simp [hfs, fileSystem, clean_clean, hdirectory]
    have hfolder : fs.isDirectory (clean path) = .ok true := by
      rw [hfs, isDirectory_fileSystem, clean_clean]
      exact hdirectory
    rw [files_eq_walk hexact hpaths hmagic hcontains hfolder, hfs]
    exact hwalk _ (Nat.lt_succ_self _)
  · simp only [hmem, mem_keys_ofList, ← exists_and_right, and_assoc]

/-- Two of three files lie below a directory, one of them further down. -/
theorem files_of_directory_nested :
    let files := [("b.yaml", []), ("conf//sub/./c.yaml", []), ("conf/a.yaml", [])]
    let fs := (ofList files []).fileSystem
    let group : FileGroup := { place := .given fs, paths := ["conf/"], recurse := true }
    ∃ found, group.files fs = pure found ∧ found.Pairwise (· < ·) ∧
      ("conf/a.yaml" ∈ found ∧ "conf/sub/c.yaml" ∈ found ∧ "b.yaml" ∉ found) := by
  intro files fs group
  have hvalid : ∀ file ∈ files, isValid file.1 = true := by decide +kernel
  have hapart : ∀ file ∈ files, ∀ other ∈ files, ¬Below (clean file.1) (clean other.1) := by
    decide +kernel
  have hdirectory : fs.isDirectory "conf/" = .ok true :=
    isDirectory_fileSystem.mpr (by decide +kernel)
  obtain ⟨found, hfiles, hsorted, hmem, -⟩ :=
    @files_of_directory files group "conf/" default hvalid hapart rfl rfl rfl (by decide) hdirectory
  have hbelow : ∀ name, name ∈ found ↔
      ∃ file ∈ files, clean file.1 = name ∧ Below (clean "conf/") name := hmem
  refine ⟨found, hfiles, hsorted, ?_⟩
  simp only [hbelow]
  decide +kernel

end FileGroup

end LayeredConfig
