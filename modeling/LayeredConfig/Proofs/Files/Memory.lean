import LayeredConfig.Files.Memory
import LayeredConfig.Proofs.Entries
import LayeredConfig.Proofs.Path.Inside
import Mathlib.Data.List.Nodup

/-! # Files in memory

Seen through the names that lead to them, files are rows of names. The directories are the parts of
such rows from the left, and inside a directory stand the names that carry on from it. -/

namespace LayeredConfig

/-- No member is there twice once repetitions are dropped. -/
theorem nodup_eraseDups {α : Type} [BEq α] [LawfulBEq α] (xs : List α) : xs.eraseDups.Nodup := by
  match xs with
  | [] => simp
  | x :: rest =>
      rw [List.eraseDups_cons, List.nodup_cons, List.mem_eraseDups, List.mem_filter]
      exact ⟨by simp, nodup_eraseDups _⟩
termination_by xs.length
decreasing_by exact Nat.lt_succ_of_le (List.length_filter_le _ _)

namespace MemoryFiles

open LayeredConfig.Path

/-- All files stand under cleaned paths that stay inside. -/
def Cleaned (memory : MemoryFiles) : Prop :=
  ∀ path ∈ memory.files.keys, ∃ names, (∀ name ∈ names, IsName name) ∧ path = ofNames names

/-- The rows of names that lead to the files. -/
def rows (memory : MemoryFiles) : List (List String) := memory.files.keys.map toNames

/-! ## Files as they are written -/

variable {files : List (String × List UInt8)} {unreadable : List String}

theorem mem_keys_ofList {path : String} :
    path ∈ (ofList files unreadable).files.keys ↔ ∃ file ∈ files, clean file.1 = path := by
  rw [ofList, Entries.mem_keys_ofPairs, Entries.keys, List.map_map, List.mem_map]
  simp only [Function.comp_apply]

theorem cleaned_ofList (h : ∀ file ∈ files, isValid file.1 = true) :
    (ofList files unreadable).Cleaned := by
  intro path hpath
  obtain ⟨file, hfile, rfl⟩ := mem_keys_ofList.mp hpath
  exact exists_names_of_isValid (h file hfile)

/-! ## Rows of names -/

/-- No file is a directory on the way to another one. -/
def Apart (memory : MemoryFiles) : Prop :=
  ∀ row ∈ memory.rows, ∀ rest, rest ≠ [] → row ++ rest ∉ memory.rows

section Rows

variable {memory : MemoryFiles} (hcleaned : memory.Cleaned)

include hcleaned

theorem mem_rows {names : List String} :
    names ∈ memory.rows ↔ (∀ name ∈ names, IsName name) ∧ ofNames names ∈ memory.files.keys := by
  rw [rows, List.mem_map]
  constructor
  · rintro ⟨path, hpath, rfl⟩
    obtain ⟨names, hnames, rfl⟩ := hcleaned path hpath
    rw [toNames_ofNames hnames]
    exact ⟨hnames, hpath⟩
  · rintro ⟨hnames, hpath⟩
    exact ⟨_, hpath, toNames_ofNames hnames⟩

theorem mem_keys_iff {path : String} :
    path ∈ memory.files.keys ↔ ∃ names ∈ memory.rows, path = ofNames names := by
  constructor
  · intro hpath
    obtain ⟨names, hnames, rfl⟩ := hcleaned path hpath
    exact ⟨names, (mem_rows hcleaned).mpr ⟨hnames, hpath⟩, rfl⟩
  · rintro ⟨names, hnames, rfl⟩
    exact ((mem_rows hcleaned).mp hnames).2

theorem apart_of_not_below
    (h : ∀ path ∈ memory.files.keys, ∀ other ∈ memory.files.keys, ¬Path.Below path other) :
    memory.Apart := by
  intro row hrow rest hrest hother
  obtain ⟨hnames, hpath⟩ := (mem_rows hcleaned).mp hrow
  obtain ⟨hall, hfurther⟩ := (mem_rows hcleaned).mp hother
  exact h _ hpath _ hfurther ((below_ofNames hnames hall).mpr ⟨rest, hrest, rfl⟩)

omit hcleaned in
theorem apart_ofList (hvalid : ∀ file ∈ files, isValid file.1 = true)
    (h : ∀ file ∈ files, ∀ other ∈ files, ¬Path.Below (clean file.1) (clean other.1)) :
    (ofList files unreadable).Apart := by
  refine apart_of_not_below (cleaned_ofList hvalid) fun _ hpath _ hfurther => ?_
  obtain ⟨file, hfile, rfl⟩ := mem_keys_ofList.mp hpath
  obtain ⟨other, hother, rfl⟩ := mem_keys_ofList.mp hfurther
  exact h file hfile other hother

theorem length_le_depth {names : List String} (h : names ∈ memory.rows) :
    names.length ≤ memory.depth := by
  obtain ⟨hnames, hpath⟩ := (mem_rows hcleaned).mp h
  have hsegments : names.length ≤ (segments (ofNames names)).length := by
    rw [segments_ofNames fun name hname => (hnames name hname).noSlash]
    split
    · next hnil => simp [hnil]
    · exact Nat.le_refl _
  refine Nat.le_trans hsegments ?_
  have hlength : (segments (ofNames names)).length ∈
      memory.files.keys.map fun path => (segments path).length := List.mem_map_of_mem hpath
  obtain ⟨longest, hlongest⟩ := Option.isSome_iff_exists.mp (List.isSome_max?_of_mem hlength)
  rw [depth, List.foldl_max, hlongest, Option.getD_some]
  exact Nat.le_trans ((List.max?_le_iff hlongest).mp (Nat.le_refl _) _ hlength) (Nat.le_max_right ..)

/-- The directories are the parts, from the left, of rows that lead on to files. -/
theorem mem_directories {path : String} :
    path ∈ memory.directories ↔ ∃ directory, (∀ name ∈ directory, IsName name) ∧
      (directory = [] ∨ ∃ rest, rest ≠ [] ∧ directory ++ rest ∈ memory.rows) ∧
      path = ofNames directory := by
  rw [directories, List.mem_cons, List.mem_flatMap]
  constructor
  · rintro (rfl | ⟨file, hfile, hpath⟩)
    · exact ⟨[], nofun, .inl rfl, ofNames_nil.symm⟩
    · obtain ⟨names, hnames, rfl⟩ := (mem_keys_iff hcleaned).mp hfile
      have hall := ((mem_rows hcleaned).mp hnames).1
      obtain ⟨front, rest, -, hrest, rfl, rfl⟩ := (mem_ancestors hall).mp hpath
      exact ⟨front, (List.forall_mem_append.mp hall).1, .inr ⟨rest, hrest, hnames⟩, rfl⟩
  · rintro ⟨directory, hdirectory, hroot | ⟨rest, hrest, hfile⟩, rfl⟩
    · exact .inl (by rw [hroot, ofNames_nil])
    · by_cases hroot : directory = []
      · exact .inl (by rw [hroot, ofNames_nil])
      · obtain ⟨hall, hkey⟩ := (mem_rows hcleaned).mp hfile
        exact .inr ⟨_, hkey, (mem_ancestors hall).mpr ⟨directory, rest, hroot, hrest, rfl, rfl⟩⟩

variable {directory : List String} (hdirectory : ∀ name ∈ directory, IsName name)

include hdirectory

theorem mem_directories_ofNames :
    ofNames directory ∈ memory.directories ↔
      directory = [] ∨ ∃ rest, rest ≠ [] ∧ directory ++ rest ∈ memory.rows := by
  rw [mem_directories hcleaned]
  constructor
  · rintro ⟨other, hother, hleads, heq⟩
    rwa [(ofNames_inj hdirectory hother).mp heq]
  · exact fun hleads => ⟨directory, hdirectory, hleads, rfl⟩

/-- Inside a directory stand the names that carry on from it. -/
theorem mem_names {name : String} :
    name ∈ memory.names (ofNames directory) ↔
      ∃ rest, directory ++ name :: rest ∈ memory.rows := by
  rw [names, List.mem_mergeSort, List.mem_eraseDups, List.mem_filterMap]
  constructor
  · rintro ⟨path, hpath, hname⟩
    rcases List.mem_append.mp hpath with hfile | hfolder
    · obtain ⟨row, hrow, rfl⟩ := (mem_keys_iff hcleaned).mp hfile
      have hall := ((mem_rows hcleaned).mp hrow).1
      rw [childName?_ofNames hdirectory hall] at hname
      exact ⟨[], hname ▸ hrow⟩
    · obtain ⟨row, hrow, hleads, rfl⟩ := (mem_directories hcleaned).mp hfolder
      rw [childName?_ofNames hdirectory hrow] at hname
      subst hname
      obtain hnil | ⟨rest, -, hrest⟩ := hleads
      · simp at hnil
      · exact ⟨rest, by simpa using hrest⟩
  · rintro ⟨rest, hrow⟩
    obtain ⟨hall, hkey⟩ := (mem_rows hcleaned).mp hrow
    have hchild : ∀ part ∈ directory ++ [name], IsName part :=
      (List.forall_mem_append.mp (List.append_cons .. ▸ hall)).1
    refine ⟨ofNames (directory ++ [name]), ?_, (childName?_ofNames hdirectory hchild).mpr rfl⟩
    by_cases hrest : rest = []
    · exact List.mem_append_left _ (hrest ▸ hkey)
    · refine List.mem_append_right _ ((mem_directories_ofNames hcleaned hchild).mpr (.inr ?_))
      exact ⟨rest, hrest, by simpa using hrow⟩

end Rows

/-! ## Files below a directory -/

section Below

variable {memory : MemoryFiles} {recurse : Bool} {levels : Nat} {directory row : List String}

/-- What a walk finds at a child: a file, or what lies further down. -/
def branch (memory : MemoryFiles) (recurse : Bool) (child : List String)
    (further : List (List String)) : List (List String) :=
  if ofNames child ∉ memory.directories then [child] else if recurse then further else []

/-- The rows below a directory, at most `levels` directories deep, in the order of a walk. -/
def below (memory : MemoryFiles) (recurse : Bool) :
    (levels : Nat) → (directory : List String) → List (List String)
  | 0, _ => []
  | levels + 1, directory =>
    (memory.names (ofNames directory)).flatMap fun name =>
      memory.branch recurse (directory ++ [name]) (memory.below recurse levels (directory ++ [name]))

theorem prefix_of_mem_branch {child : List String} {further : List (List String)}
    (hfurther : ∀ row ∈ further, child <+: row) (h : row ∈ memory.branch recurse child further) :
    child <+: row := by
  rw [branch] at h
  split at h
  · exact List.mem_singleton.mp h ▸ List.prefix_refl child
  · split at h
    · exact hfurther row h
    · exact (List.not_mem_nil h).elim

theorem nodup_branch {child : List String} {further : List (List String)} (h : further.Nodup) :
    (memory.branch recurse child further).Nodup := by
  rw [branch]
  split
  · exact List.nodup_singleton child
  · split
    · exact h
    · exact List.nodup_nil

/-- A walk goes down from where it starts. -/
theorem prefix_of_mem_below (h : row ∈ memory.below recurse levels directory) :
    directory <+: row := by
  induction levels generalizing directory row with
  | zero => exact (List.not_mem_nil h).elim
  | succ levels ih =>
      rw [below, List.mem_flatMap] at h
      obtain ⟨name, -, hrow⟩ := h
      exact (List.prefix_append _ _).trans (prefix_of_mem_branch (fun row => ih) hrow)

theorem nodup_names (directory : String) : (memory.names directory).Nodup :=
  (List.mergeSort_perm _ _).nodup_iff.mpr (nodup_eraseDups _)

/-- A walk finds nothing twice. -/
theorem nodup_below : (memory.below recurse levels directory).Nodup := by
  induction levels generalizing directory with
  | zero => exact List.nodup_nil
  | succ levels ih =>
      rw [below, List.nodup_flatMap]
      refine ⟨fun name _ => nodup_branch ih, (nodup_names _).imp fun {name other} hne => ?_⟩
      refine List.disjoint_left.mpr fun row hrow hother => hne ?_
      have hfirst := prefix_of_mem_branch (fun row => prefix_of_mem_below) hrow
      have hsecond := prefix_of_mem_branch (fun row => prefix_of_mem_below) hother
      have hordered := List.prefix_of_prefix_length_le hfirst hsecond (by simp)
      simpa using hordered.eq_of_length (by simp)

variable (hcleaned : memory.Cleaned) (hdirectory : ∀ name ∈ directory, IsName name)

include hcleaned hdirectory

theorem isName_child {name : String} (h : name ∈ memory.names (ofNames directory)) :
    ∀ part ∈ directory ++ [name], IsName part := by
  obtain ⟨rest, hrow⟩ := (mem_names hcleaned hdirectory).mp h
  have hall := ((mem_rows hcleaned).mp hrow).1
  rw [List.append_cons, List.forall_mem_append] at hall
  exact hall.1

/-- A name in a directory that is not a directory itself belongs to a file. -/
theorem child_mem_rows {name : String} (hname : name ∈ memory.names (ofNames directory))
    (h : ofNames (directory ++ [name]) ∉ memory.directories) :
    directory ++ [name] ∈ memory.rows := by
  obtain ⟨rest, hrow⟩ := (mem_names hcleaned hdirectory).mp hname
  by_cases hrest : rest = []
  · exact hrest ▸ hrow
  · refine (h ?_).elim
    rw [mem_directories_ofNames hcleaned (isName_child hcleaned hdirectory hname)]
    exact .inr ⟨rest, hrest, by rwa [← List.append_cons]⟩

/-- A walk finds files below the directory, and those further down only if it goes there. -/
theorem of_mem_below (h : row ∈ memory.below recurse levels directory) :
    row ∈ memory.rows ∧
      ∃ name rest, row = directory ++ name :: rest ∧ (recurse = true ∨ rest = []) := by
  induction levels generalizing directory with
  | zero => exact (List.not_mem_nil h).elim
  | succ levels ih =>
      rw [below, List.mem_flatMap] at h
      obtain ⟨name, hname, hrow⟩ := h
      rw [branch] at hrow
      split at hrow
      · next hfile =>
        obtain rfl := List.mem_singleton.mp hrow
        exact ⟨child_mem_rows hcleaned hdirectory hname hfile, name, [], rfl, .inr rfl⟩
      · split at hrow
        · next hrecurse =>
          obtain ⟨hmem, next, rest, rfl, -⟩ := ih (isName_child hcleaned hdirectory hname) hrow
          exact ⟨hmem, name, next :: rest, (List.append_cons ..).symm, .inl hrecurse⟩
        · exact (List.not_mem_nil hrow).elim

/-- A walk with enough levels left finds all files below the directory. -/
theorem mem_below (hapart : memory.Apart) (hlevels : memory.depth < directory.length + levels) :
    row ∈ memory.below recurse levels directory ↔ row ∈ memory.rows ∧
      ∃ name rest, row = directory ++ name :: rest ∧ (recurse = true ∨ rest = []) := by
  refine ⟨of_mem_below hcleaned hdirectory, ?_⟩
  rintro ⟨hrow, name, rest, rfl, hreach⟩
  induction levels generalizing directory name rest with
  | zero =>
      have hlength := length_le_depth hcleaned hrow
      rw [List.length_append] at hlength
      omega
  | succ levels ih =>
      have hname := (mem_names hcleaned hdirectory).mpr ⟨rest, hrow⟩
      have hchild := isName_child hcleaned hdirectory hname
      rw [below, List.mem_flatMap]
      refine ⟨name, hname, ?_⟩
      rw [branch]
      cases rest with
      | nil =>
          have hfile : ofNames (directory ++ [name]) ∉ memory.directories := by
            rw [mem_directories_ofNames hcleaned hchild]
            rintro (hnil | ⟨rest, hrest, hmem⟩)
            · simp at hnil
            · exact hapart _ hrow rest hrest hmem
          rw [if_pos hfile, List.mem_singleton]
      | cons next rest =>
          have hfolder : ofNames (directory ++ [name]) ∈ memory.directories := by
            rw [mem_directories_ofNames hcleaned hchild]
            exact .inr ⟨next :: rest, List.cons_ne_nil _ _, by rwa [← List.append_cons]⟩
          have hrecurse : recurse = true := hreach.resolve_right (List.cons_ne_nil _ _)
          rw [if_neg (not_not_intro hfolder), if_pos hrecurse,
            List.append_cons directory name (next :: rest)]
          refine ih hchild ?_ next rest (.inl hrecurse) (by rwa [← List.append_cons])
          rw [List.length_append, List.length_singleton]
          omega

/-- The same in terms of paths. -/
theorem mem_map_below (hapart : memory.Apart) (hlevels : memory.depth < directory.length + levels)
    {path : String} :
    path ∈ (memory.below recurse levels directory).map ofNames ↔ path ∈ memory.files.keys ∧
      if recurse then Path.Below (ofNames directory) path
      else Path.Inside (ofNames directory) path := by
  rw [List.mem_map, mem_keys_iff hcleaned]
  constructor
  · rintro ⟨row, hrow, rfl⟩
    obtain ⟨hmem, name, rest, rfl, hreach⟩ := of_mem_below hcleaned hdirectory hrow
    have hall := ((mem_rows hcleaned).mp hmem).1
    refine ⟨⟨_, hmem, rfl⟩, ?_⟩
    split
    · exact (below_ofNames hdirectory hall).mpr ⟨name :: rest, List.cons_ne_nil _ _, rfl⟩
    · next hrecurse =>
      rw [hreach.resolve_left hrecurse] at hall ⊢
      exact (inside_ofNames hdirectory hall).mpr ⟨name, rfl⟩
  · rintro ⟨⟨row, hmem, rfl⟩, hreach⟩
    have hall := ((mem_rows hcleaned).mp hmem).1
    refine ⟨row, (mem_below hcleaned hdirectory hapart hlevels).mpr ⟨hmem, ?_⟩, rfl⟩
    split at hreach
    · next hrecurse =>
      obtain ⟨rest, hrest, rfl⟩ := (below_ofNames hdirectory hall).mp hreach
      obtain ⟨name, rest, rfl⟩ := List.exists_cons_of_ne_nil hrest
      exact ⟨name, rest, rfl, .inl hrecurse⟩
    · obtain ⟨name, rfl⟩ := (inside_ofNames hdirectory hall).mp hreach
      exact ⟨name, [], rfl, .inr rfl⟩

end Below

end MemoryFiles

end LayeredConfig
