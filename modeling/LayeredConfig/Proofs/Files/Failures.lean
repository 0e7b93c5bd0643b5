import LayeredConfig.Files.Memory
import LayeredConfig.Proofs.Outcomes
import LayeredConfig.Source.Files

/-! # Failures of filesystems

What a collection makes of the failures of the filesystems it looks into. Outside of exact groups
whatever is missing or denied is passed over; every other failure that is met ends the collection
and is reported with its path. Only where wildcards are matched a failed listing goes out as it
is. -/

namespace LayeredConfig

theorem Path.clean_of_segment {path : String} (hsegments : segments path = [path])
    (hanchor : anchorLength path = 0) (hname : path ∉ ["", ".", ".."]) : clean path = path := by
  simp only [List.mem_cons, List.not_mem_nil, or_false, not_or] at hname
  obtain ⟨hempty, hdot, hparent⟩ := hname
  have hkept : cleanSegments false [path] = [path] := by
    simp [cleanSegments, push, String.isEmpty_iff, hempty, hdot, hparent]
  have hjoined : ofSegments [path] = path := by simp [ofSegments]
  rw [clean, hanchor, hsegments]
  simp only [bne_self_eq_false, hkept, hjoined, List.replicate_zero]
  simp [String.isEmpty_iff, hempty]

namespace FileSystem

/-! ## Answers and failures -/

/-- The access to the path ends with the fault. -/
def Fails (fs : FileSystem) (path : String) (fault : Fault) : Access → Prop
  | .inspect => fs.isDirectory path = .error fault
  | .list => fs.entries path = .error fault
  | .read => fs.read path = .error fault

/-- All faults of the filesystem are failures of a filesystem. -/
def Genuine (fs : FileSystem) : Prop :=
  ∀ access path fault, fs.Fails path fault access → fault.category.isFilesystem = true

/-- What is missing or denied, and may be passed over. -/
def Tolerated (fault : Fault) : Prop :=
  fault.category = .fileAbsent ∨ fault.category = .permissionDenied

/-- How the fault of an access is reported. -/
def Access.unreadable (path : String) (cause : Fault) : Access → Fault
  | .inspect => .cannotInspect path cause
  | .list => .cannotList path cause
  | .read => .cannotRead path cause

theorem Access.category_unreadable (path : String) (cause : Fault) (access : Access) :
    (access.unreadable path cause).category = .sourceUnreadable := by
  cases access <;> rfl

/-- The files below a directory, found by listings that succeed. -/
inductive Lists (fs : FileSystem) (recurse : Bool) : String → String → Prop
  | file {directory name : String} {entries : List (String × Bool)}
      (hentries : fs.entries directory = .ok entries) (hname : (name, false) ∈ entries) :
      Lists fs recurse directory (Path.join directory name)
  | inside {directory name path : String} {entries : List (String × Bool)}
      (hentries : fs.entries directory = .ok entries) (hname : (name, true) ∈ entries)
      (hrecurse : recurse = true) (hpath : Lists fs recurse (Path.join directory name) path) :
      Lists fs recurse directory path

/-- The files that a path stands for: itself, or those below it. -/
inductive Holds (fs : FileSystem) (recurse : Bool) (path : String) : String → Prop
  | file (h : fs.isDirectory path = .ok false) : Holds fs recurse path path
  | directory {file : String} (h : fs.isDirectory path = .ok true)
      (hfile : fs.Lists recurse path file) : Holds fs recurse path file

/-- The filesystems answer alike, but for one access to one path. -/
structure DiffersAt (access : Access) (path : String) (fs other : FileSystem) : Prop where
  depth : fs.depth = other.depth
  contains : fs.contains = other.contains
  isDirectory : ∀ place, (access, path) ≠ (.inspect, place) →
    fs.isDirectory place = other.isDirectory place
  entries : ∀ place, (access, path) ≠ (.list, place) → fs.entries place = other.entries place
  read : ∀ place, (access, path) ≠ (.read, place) → fs.read place = other.read place

end FileSystem

namespace MemoryFiles

open FileSystem

theorem genuine_fileSystem (memory : MemoryFiles) : memory.fileSystem.Genuine := by
  intro access path fault h
  cases access with
  | inspect =>
      simp only [Fails, fileSystem, isDirectory] at h
      split at h
      · cases h
      · split at h <;> cases h
        rfl
  | list =>
      simp only [Fails, fileSystem, entries] at h
      split at h
      · cases h
        rfl
      · split at h
        · cases h
        · split at h <;> cases h <;> rfl
  | read =>
      simp only [Fails, fileSystem, read] at h
      split at h
      · cases h
        rfl
      · split at h
        · cases h
          rfl
        · split at h <;> cases h
          rfl

end MemoryFiles

namespace FileSystem

theorem guarded_eq_error {α : Type} {failures : Failures} {access : Access}
    {answer : String → Except Fault α} {path : String} {fault : Fault}
    (h : guarded failures access answer path = .error fault) :
    (∃ failure : Failure, fault = failure.fault path) ∨ answer path = .error fault := by
  rw [guarded] at h
  split at h
  · next failure _ =>
    cases h
    exact .inl ⟨failure, rfl⟩
  · exact .inr h

theorem Genuine.failing {fs : FileSystem} (hfs : fs.Genuine) (failures : Failures) :
    (fs.failing failures).Genuine := by
  have hfailure : ∀ (failure : Failure) (path : String),
      (failure.fault path).category.isFilesystem = true := by
    intro failure path
    cases failure <;> rfl
  intro access path fault h
  cases access with
  | inspect =>
      rcases guarded_eq_error h with ⟨failure, rfl⟩ | h
      · exact hfailure failure path
      · exact hfs .inspect path fault h
  | list =>
      rcases guarded_eq_error h with ⟨failure, rfl⟩ | h
      · exact hfailure failure path
      · exact hfs .list path fault h
  | read =>
      rcases guarded_eq_error h with ⟨failure, rfl⟩ | h
      · exact hfailure failure path
      · exact hfs .read path fault h

/-! ## Matching -/

variable {fs other : FileSystem}

/-- A pattern of one segment is matched against the names in the root. -/
theorem glob_of_segment {pattern : String} (hsegments : Path.segments pattern = [pattern])
    (hclean : Path.clean pattern = pattern) (hmagic : Path.hasMagic pattern = true) :
    fs.glob pattern =
      (fs.globNames pattern ".").map fun names => names.mergeSort fun a b => a ≤ b := by
  rw [glob, hclean]
  simp only [hmagic, if_true, hsegments, List.foldlM_cons, List.foldlM_nil, globSegment,
    List.mapM_cons, List.mapM_nil]
  cases fs.globNames pattern "." with
  | error fault => rfl
  | ok names => simp [bind, Except.bind, pure, Except.pure, Except.map]

/-- A failure that may be passed over, or that a pattern passes over where it meets a file. -/
def IsSkipped (access : Access) (fault : Fault) : Prop :=
  Tolerated fault ∨ access = .list ∧ fault.category = .notDirectory

theorem isBarren_eq_false {fault : Fault} (h : ¬IsSkipped .list fault) :
    isBarren fault.category = false := by
  unfold isBarren
  split
  · next hcategory => exact (h (.inl (.inl hcategory))).elim
  · next hcategory => exact (h (.inr ⟨rfl, hcategory⟩)).elim
  · next hcategory => exact (h (.inl (.inr hcategory))).elim
  · rfl

theorem sameOr_glob {access : Access} {path : String} {cause : Fault}
    (hother : DiffersAt access path fs other) (hfails : fs.Fails path cause access)
    (hcause : ¬IsSkipped access cause) (pattern : String) :
    SameOr cause (fs.glob pattern) (other.glob pattern) := by
  have hnames : ∀ segment base,
      SameOr cause (fs.globNames segment base) (other.globNames segment base) := by
    intro segment base
    by_cases hbase : (access, path) = (.list, base)
    · cases hbase
      refine .inr ?_
      rw [globNames, show fs.entries path = .error cause from hfails]
      simp only [isBarren_eq_false hcause, Bool.false_eq_true, if_false]
    · rw [globNames, globNames, hother.entries base hbase]
      exact .refl _
  have hsegment : ∀ bases segment,
      SameOr cause (fs.globSegment bases segment) (other.globSegment bases segment) := by
    intro bases segment
    rw [globSegment, globSegment, hother.contains]
    split
    · exact .bind (.mapM fun base _ => hnames segment base) fun _ => .refl _
    · exact .refl _
  rw [glob, glob, hother.contains]
  split
  · exact .bind (.foldlM hsegment _) fun _ => .refl _
  · exact .refl _

end FileSystem

namespace FileGroup

open FileSystem

variable {fs other : FileSystem} {group : FileGroup} {registry : Registry} {delimiter : String}

/-! ## Reports -/

/-- The report of a failure that is not passed over. -/
def Reported (fs : FileSystem) (fault : Fault) : Prop :=
  ∃ access path cause, fs.Fails path cause access ∧ ¬Tolerated cause ∧
    fault = access.unreadable path cause

/-- Why a group cannot be collected. Of what is missing or denied only an exact group complains. -/
inductive Blamed (group : FileGroup) (fs : FileSystem) (delimiter : String) : Fault → Prop
  | reported {fault : Fault} (h : Reported fs fault) : Blamed group fs delimiter fault
  | missing {access : Access} {path : String} {cause : Fault} (hexact : group.exact = true)
      (hfails : fs.Fails path cause access) (hcause : cause.category = .fileAbsent) :
      Blamed group fs delimiter (.requiredFileMissing path)
  | directory {path : String} (hexact : group.exact = true)
      (hpath : fs.isDirectory path = .ok true) :
      Blamed group fs delimiter (.directoryNotFile path)
  | format {extension : String} (hexact : group.exact = true) :
      Blamed group fs delimiter (.noDecoder extension)
  | document {path extension : String} {bytes : List UInt8} {decoder : Decoder} {cause : Fault}
      (hread : fs.read path = .ok bytes)
      (hdecode : decoder.decode { name := Path.basename path, delimiter } bytes = .error cause) :
      Blamed group fs delimiter (.decoderFailed extension "file" (Path.basename path) cause)

/-- A record that a group yields: of a document that was found, read and decoded. -/
structure Yields (group : FileGroup) (fs : FileSystem) (registry : Registry) (delimiter : String)
    (record : Record) (path : String) : Prop where
  found : ∃ candidate, fs.Holds group.recurse candidate path
  decoded : ∃ bytes decoder tree, fs.read path = .ok bytes ∧
    registry.decoder (group.extensionOf (Path.basename path)) = .ok decoder ∧
    decoder.decode { name := Path.basename path, delimiter } bytes = .ok tree ∧
    record = .loaded (Path.basename path) .file tree

theorem ends_walk (hfs : fs.Genuine) (recurse : Bool) (levels : Nat) (directory : String) :
    Ends (Reported fs) (fun files => ∀ file ∈ files, fs.Lists recurse directory file)
      (walk fs recurse levels directory).result := by
  induction levels generalizing directory with
  | zero => exact .nil
  | succ levels ih =>
      rw [walk]
      cases hentries : fs.entries directory with
      | ok entries =>
          simp only [Traced.result_bind, Traced.result_mapM]
          refine .mapM_flatten fun entry hentry => ?_
          obtain ⟨name, _ | _⟩ := entry
          · refine .answer fun file hfile => ?_
            cases List.mem_singleton.mp hfile
            exact .file hentries hentry
          · cases recurse with
            | true =>
                refine (ih (Path.join directory name)).mono (fun _ h => h) fun files h => ?_
                exact fun file hfile => .inside hentries hentry rfl (h file hfile)
            | false => exact .nil
      | error fault =>
          dsimp only
          split
          · exact .nil
          · exact .nil
          · next hdenied habsent =>
            rw [if_pos (hfs .list directory fault hentries)]
            exact .fault ⟨.list, directory, fault, hentries, fun h => h.elim habsent hdenied, rfl⟩

theorem ends_filesAt (hfs : fs.Genuine) (path : String) :
    Ends (group.Blamed fs delimiter) (fun files => ∀ file ∈ files, fs.Holds group.recurse path file)
      (group.filesAt fs path).result := by
  rw [filesAt]
  cases hpath : fs.isDirectory path with
  | ok isDirectory =>
      cases isDirectory with
      | false =>
          refine .answer fun file hfile => ?_
          cases List.mem_singleton.mp hfile
          exact .file hpath
      | true =>
          dsimp only
          split
          · next hexact => exact .fault (.directory hexact hpath)
          · refine (ends_walk hfs group.recurse _ path).mono (fun _ => .reported) fun files h => ?_
            exact fun file hfile => .directory hpath (h file hfile)
  | error fault =>
      dsimp only
      split
      · exact .nil
      · next habsent =>
        split
        · next hexact =>
            exact .fault (.missing hexact (show fs.Fails path fault .inspect from hpath) habsent)
        · exact .nil
      · next hdenied habsent =>
        rw [if_pos (hfs .inspect path fault hpath)]
        exact .fault <| .reported
          ⟨.inspect, path, fault, hpath, fun h => h.elim habsent hdenied, rfl⟩

theorem exists_candidates {path : String}
    (hglob : group.exact = false → ∃ found, fs.glob (Path.clean path) = .ok found) :
    ∃ found, group.candidates fs path = .ok found := by
  rw [candidates]
  cases hexact : group.exact with
  | true => exact ⟨_, rfl⟩
  | false =>
      obtain ⟨found, hfound⟩ := hglob hexact
      simp only [hfound]
      exact ⟨_, rfl⟩

theorem ends_files (hfs : fs.Genuine)
    (hglob : ∀ path ∈ group.paths, group.exact = false →
      ∃ found, fs.glob (Path.clean path) = .ok found) :
    Ends (group.Blamed fs delimiter)
      (fun files => ∀ file ∈ files, ∃ candidate, fs.Holds group.recurse candidate file)
      (group.files fs).result := by
  have hrow : ∀ path ∈ group.paths, Ends (group.Blamed fs delimiter)
      (fun files => ∀ file ∈ files, ∃ candidate, fs.Holds group.recurse candidate file)
      ((group.candidates fs path).bind fun found =>
        (found.mapM fun candidate => (group.filesAt fs candidate).result).bind fun rows =>
          .ok rows.flatten) := by
    intro path hpath
    obtain ⟨found, hfound⟩ := exists_candidates (hglob path hpath)
    rw [hfound]
    refine .mapM_flatten fun candidate _ => ?_
    exact (ends_filesAt hfs candidate).mono (fun _ h => h) fun files h file hfile =>
      ⟨candidate, h file hfile⟩
  rw [files]
  simp only [Traced.result_bind, Traced.result_mapM]
  refine .bind (.mapM hrow) fun rows hrows => .answer fun file hfile => ?_
  obtain ⟨files, hfiles, hfile⟩ := List.mem_flatten.mp (List.mem_mergeSort.mp hfile)
  exact hrows files hfiles file hfile

theorem noDecoder_of_decoder {extension : String} {fault : Fault}
    (h : registry.decoder extension = .error fault) : fault = .noDecoder extension := by
  rw [Registry.decoder] at h
  split at h
  · cases h
  · cases h
    rfl

theorem ends_record? (hfs : fs.Genuine) {path : String}
    (hpath : ∃ candidate, fs.Holds group.recurse candidate path) :
    Ends (group.Blamed fs delimiter)
      (fun result => ∀ record, result = some record →
        ∃ path, group.Yields fs registry delimiter record path)
      (group.record? fs registry delimiter path).result := by
  rw [record?]
  cases hdecoder : registry.decoder (group.extensionOf (Path.basename path)) with
  | error fault =>
      dsimp only
      split
      · next hexact =>
        cases noDecoder_of_decoder hdecoder
        exact .fault (.format hexact)
      · exact .answer nofun
  | ok decoder =>
      cases hread : fs.read path with
      | error fault =>
          dsimp only
          split
          · next habsent =>
            split
            · next hexact =>
                exact .fault (.missing hexact (show fs.Fails path fault .read from hread) habsent)
            · exact .answer nofun
          · exact .answer nofun
          · next habsent hdenied =>
            rw [if_pos (hfs .read path fault hread)]
            exact .fault <| .reported
              ⟨.read, path, fault, hread, fun h => h.elim habsent hdenied, rfl⟩
      | ok bytes =>
          simp only [Traced.result_bind, Decoder.decodeRecord]
          cases hdecode : decoder.decode { name := Path.basename path, delimiter } bytes with
          | error cause => exact .fault (.document hread hdecode)
          | ok tree =>
              refine .answer fun record hrecord => ?_
              cases hrecord
              exact ⟨path, hpath, bytes, decoder, tree, hread, hdecoder, hdecode, rfl⟩

variable (registry delimiter) in
theorem ends_records {disk : Disk} (hfs : (group.place.on disk).Genuine)
    (hglob : ∀ path ∈ group.paths, group.exact = false →
      ∃ found, (group.place.on disk).glob (Path.clean path) = .ok found) :
    Ends (group.Blamed (group.place.on disk) delimiter)
      (fun records => ∀ record ∈ records,
        ∃ path, group.Yields (group.place.on disk) registry delimiter record path)
      (group.records disk registry delimiter).result := by
  rw [records]
  simp only [Traced.result_bind, Traced.result_mapM]
  refine .bind (ends_files hfs hglob) fun files hfiles => ?_
  refine .bind (.mapM fun path hpath => ends_record? hfs (hfiles path hpath)) ?_
  intro found hfound
  refine .answer fun record hrecord => ?_
  obtain ⟨result, hresult, hrecord⟩ := List.mem_filterMap.mp hrecord
  exact hfound result hresult record hrecord

theorem result_collect_cons (disk : Disk) (registry : Registry) (delimiter : String) (index : Nat)
    (group : FileGroup) (rest : List FileGroup) :
    (collect disk registry delimiter index (group :: rest)).result =
      (group.records disk registry delimiter).result.bind fun found =>
        if !found.isEmpty && group.halt then .ok found
        else (collect disk registry delimiter (index + 1) rest).result.bind fun others =>
          .ok (found ++ others) := by
  rw [collect, Traced.result_bind]
  congr 1
  funext found
  split
  · rfl
  · rw [Traced.result_bind]
    rfl

theorem Blamed.isOwn {fault : Fault} (h : group.Blamed fs delimiter fault) :
    fault.category.isOwn = true := by
  cases h with
  | reported h =>
      obtain ⟨access, path, cause, -, -, rfl⟩ := h
      rw [Access.category_unreadable]
      rfl
  | missing | directory | format | document => rfl

variable (registry delimiter) in
theorem ends_collect {disk : Disk} {groups : List FileGroup} (index : Nat)
    (hfs : ∀ group ∈ groups, (group.place.on disk).Genuine)
    (hglob : ∀ group ∈ groups, ∀ path ∈ group.paths, group.exact = false →
      ∃ found, (group.place.on disk).glob (Path.clean path) = .ok found) :
    Ends (fun fault => ∃ group ∈ groups, group.Blamed (group.place.on disk) delimiter fault)
      (fun records => ∀ record ∈ records, ∃ group ∈ groups, ∃ path,
        group.Yields (group.place.on disk) registry delimiter record path)
      (collect disk registry delimiter index groups).result := by
  induction groups generalizing index with
  | nil => exact .nil
  | cons group rest ih =>
      have hhead : group ∈ group :: rest := List.mem_cons_self
      rw [result_collect_cons]
      have hrecords := ends_records registry delimiter (hfs group hhead) (hglob group hhead)
      have hrest := ih (index + 1) (fun other hother => hfs other (List.mem_cons_of_mem _ hother))
        fun other hother => hglob other (List.mem_cons_of_mem _ hother)
      refine .bind (hrecords.mono (fun fault h => ⟨group, hhead, h⟩) fun _ h => h) ?_
      intro found hfound
      have hfound : ∀ record ∈ found, ∃ other ∈ group :: rest, ∃ path,
          other.Yields (other.place.on disk) registry delimiter record path :=
        fun record hrecord => ⟨group, hhead, hfound record hrecord⟩
      split
      · exact .answer hfound
      · refine .bind (hrest.mono ?_ fun _ h => h) fun others hothers => .answer ?_
        · rintro fault ⟨other, hother, h⟩
          exact ⟨other, List.mem_cons_of_mem _ hother, h⟩
        · intro record hrecord
          rcases List.mem_append.mp hrecord with hrecord | hrecord
          · exact hfound record hrecord
          · obtain ⟨other, hother, h⟩ := hothers record hrecord
            exact ⟨other, List.mem_cons_of_mem _ hother, h⟩

/-! ## Broken accesses -/

section Broken

variable {access : Access} {path : String} {cause : Fault}
  (hfs : fs.Genuine) (hother : DiffersAt access path fs other)
  (hfails : fs.Fails path cause access) (hcause : ¬IsSkipped access cause)

include hfs hother hfails hcause

theorem sameOr_walk (recurse : Bool) (levels : Nat) (directory : String) :
    SameOr (access.unreadable path cause) (walk fs recurse levels directory).result
      (walk other recurse levels directory).result := by
  induction levels generalizing directory with
  | zero => exact .refl _
  | succ levels ih =>
      rw [walk, walk]
      by_cases hplace : (access, path) = (.list, directory)
      · cases hplace
        refine .inr ?_
        rw [show fs.entries path = .error cause from hfails]
        dsimp only
        split
        · next hdenied => exact (hcause (.inl (.inr hdenied))).elim
        · next habsent => exact (hcause (.inl (.inl habsent))).elim
        · rw [if_pos (hfs .list path cause hfails)]
          rfl
      · rw [hother.entries directory hplace]
        cases other.entries directory with
        | error fault => exact .refl _
        | ok entries =>
            simp only [Traced.result_bind, Traced.result_mapM]
            refine .bind (.mapM fun entry _ => ?_) fun _ => .refl _
            split
            · exact .refl _
            · split
              · exact ih _
              · exact .refl _

theorem sameOr_filesAt (place : String) :
    SameOr (access.unreadable path cause) (group.filesAt fs place).result
      (group.filesAt other place).result := by
  rw [filesAt, filesAt]
  by_cases hplace : (access, path) = (.inspect, place)
  · cases hplace
    refine .inr ?_
    rw [show fs.isDirectory path = .error cause from hfails]
    dsimp only
    split
    · next hdenied => exact (hcause (.inl (.inr hdenied))).elim
    · next habsent => exact (hcause (.inl (.inl habsent))).elim
    · rw [if_pos (hfs .inspect path cause hfails)]
      rfl
  · rw [hother.isDirectory place hplace, hother.depth]
    cases other.isDirectory place with
    | error fault =>
        dsimp only
        exact .refl _
    | ok isDirectory =>
        cases isDirectory with
        | false =>
            dsimp only
            exact .refl _
        | true =>
            dsimp only
            split
            · exact .refl _
            · exact sameOr_walk hfs hother hfails hcause group.recurse _ place

theorem sameOr_files
    (hglob : ∀ place ∈ group.paths, group.exact = false →
      ∃ found, fs.glob (Path.clean place) = .ok found) :
    SameOr (access.unreadable path cause) (group.files fs).result (group.files other).result := by
  have hcandidates : ∀ place ∈ group.paths,
      group.candidates fs place = group.candidates other place := by
    intro place hplace
    rw [candidates, candidates]
    cases hexact : group.exact with
    | true => simp only [if_true]
    | false =>
        obtain ⟨found, hfound⟩ := hglob place hplace hexact
        have hsame := sameOr_glob hother hfails hcause (Path.clean place)
        simp only [Bool.false_eq_true, if_false]
        rw [hsame.resolve_right (by rw [hfound]; exact nofun)]
  rw [files, files]
  simp only [Traced.result_bind, Traced.result_mapM]
  refine .bind (SameOr.mapM fun place hplace => ?_) fun _ => .refl _
  rw [hcandidates place hplace]
  refine .bind (.refl _) fun found => .bind (.mapM fun candidate _ => ?_) fun _ => .refl _
  exact sameOr_filesAt hfs hother hfails hcause candidate

theorem sameOr_record? (place : String) :
    SameOr (access.unreadable path cause) (group.record? fs registry delimiter place).result
      (group.record? other registry delimiter place).result := by
  rw [record?, record?]
  by_cases hplace : (access, path) = (.read, place)
  · cases hplace
    rw [show fs.read path = .error cause from hfails]
    cases registry.decoder (group.extensionOf (Path.basename path)) with
    | error fault =>
        dsimp only
        exact .refl _
    | ok decoder =>
        refine .inr ?_
        dsimp only
        split
        · next habsent => exact (hcause (.inl (.inl habsent))).elim
        · next hdenied => exact (hcause (.inl (.inr hdenied))).elim
        · rw [if_pos (hfs .read path cause hfails)]
          rfl
  · rw [hother.read place hplace]
    exact .refl _

end Broken

section Collection

variable {access : Access} {path : String} {cause : Fault} {disk : Disk}
  (hfs : (group.place.on disk).Genuine)
  (hother : DiffersAt access path (group.place.on disk) other)
  (hfails : (group.place.on disk).Fails path cause access) (hcause : ¬IsSkipped access cause)
  (hglob : ∀ place ∈ group.paths, group.exact = false →
    ∃ found, (group.place.on disk).glob (Path.clean place) = .ok found)

include hfs hother hfails hcause hglob

theorem sameOr_records :
    SameOr (access.unreadable path cause) (group.records disk registry delimiter).result
      ({ group with place := .given other }.records disk registry delimiter).result := by
  rw [records, records]
  simp only [Traced.result_bind, Traced.result_mapM]
  refine .bind (sameOr_files hfs hother hfails hcause hglob) fun files => ?_
  refine .bind (.mapM fun place _ => ?_) fun _ => .refl _
  exact sameOr_record? hfs hother hfails hcause place

theorem sameOr_collect (index : Nat) (before after : List FileGroup) :
    SameOr (access.unreadable path cause)
      (collect disk registry delimiter index (before ++ group :: after)).result
      (collect disk registry delimiter index
        (before ++ { group with place := .given other } :: after)).result := by
  induction before generalizing index with
  | nil =>
      rw [List.nil_append, List.nil_append, result_collect_cons, result_collect_cons]
      refine .bind (sameOr_records hfs hother hfails hcause hglob) fun found => ?_
      exact .refl _
  | cons first rest ih =>
      rw [List.cons_append, List.cons_append, result_collect_cons, result_collect_cons]
      refine .bind (.refl _) fun found => ?_
      split
      · exact .refl _
      · exact .bind (ih (index + 1)) fun _ => .refl _

end Collection

/-! ## Collections -/

/-- Failures do not leave a collection as they are, provided that patterns can be matched. Outside
of exact groups nothing is blamed on what is missing or denied, and each record comes from a file
that was found and read. Any other failure of an access is reported with its path, unless the
collection never makes that access: then it ends alike whatever the access would answer. -/
theorem collect_failures {groups : List FileGroup} {disk : Disk} {registry : Registry}
    {delimiter : String} {index : Nat}
    (hmemory : ∀ group ∈ groups, ∃ memory failures,
      group.place = .given (MemoryFiles.fileSystem memory |>.failing failures))
    (hglob : ∀ group ∈ groups, ∀ path ∈ group.paths, group.exact = false →
      ∃ found, (group.place.on disk).glob (Path.clean path) = .ok found) :
    (∀ fault, (collect disk registry delimiter index groups).result = .error fault →
      fault.category.isOwn = true ∧
        ∃ group ∈ groups, group.Blamed (group.place.on disk) delimiter fault) ∧
    (∀ records, (collect disk registry delimiter index groups).result = .ok records →
      ∀ record ∈ records, ∃ group ∈ groups, ∃ path,
        group.Yields (group.place.on disk) registry delimiter record path) ∧
    ∀ before group after, groups = before ++ group :: after →
      ∀ access path cause other, (group.place.on disk).Fails path cause access →
        ¬IsSkipped access cause → DiffersAt access path (group.place.on disk) other →
        (collect disk registry delimiter index groups).result =
            .error (access.unreadable path cause) ∨
          (collect disk registry delimiter index groups).result =
            (collect disk registry delimiter index
              (before ++ { group with place := .given other } :: after)).result := by
  have hgenuine : ∀ group ∈ groups, (group.place.on disk).Genuine := by
    intro group hgroup
    obtain ⟨memory, failures, hplace⟩ := hmemory group hgroup
    rw [hplace]
    exact memory.genuine_fileSystem.failing failures
  have hends := ends_collect registry delimiter index hgenuine hglob
  refine ⟨fun fault hfault => ?_, fun records hrecords => ?_, ?_⟩
  · rw [hfault] at hends
    obtain ⟨group, hgroup, hblamed⟩ := hends.of_error
    exact ⟨hblamed.isOwn, group, hgroup, hblamed⟩
  · rw [hrecords] at hends
    exact hends.of_ok
  · rintro before group after rfl access path cause other hfails hcause hother
    have hgroup : group ∈ before ++ group :: after := by simp
    exact (sameOr_collect (hgenuine group hgroup) hother hfails hcause (hglob group hgroup) index
      before after).symm

/-- The first pattern that cannot be matched ends the collection with its failure. -/
theorem result_collect_of_glob {disk : Disk} {path : String} {paths : List String}
    {rest : List FileGroup} {fault : Fault} (index : Nat) (hexact : group.exact = false)
    (hpaths : group.paths = path :: paths)
    (hglob : (group.place.on disk).glob (Path.clean path) = .error fault) :
    (collect disk registry delimiter index (group :: rest)).result = .error fault := by
  have hcandidates : group.candidates (group.place.on disk) path = .error fault := by
    rw [candidates]
    simp only [hexact, Bool.false_eq_true, if_false, hglob]
    rfl
  rw [result_collect_cons, records, Traced.result_bind, files]
  simp only [Traced.result_bind, Traced.result_mapM, hpaths, List.mapM_cons, hcandidates]
  rfl

/-- A directory that cannot be listed for a pattern is not reported: its failure goes out as it
is. -/
theorem collect_failures_pattern :
    let fs := (MemoryFiles.fileSystem { files := [("a.json", [123, 125])] }).failing
      [((.list, "."), .broken)]
    let failure := Fault.inputOutput "."
    (collect {} .standard "." 0 [{ place := .given fs, paths := ["*.json"] }]).result =
        .error failure ∧
      failure.category.isOwn = false := by
  intro fs failure
  have hsegments : Path.segments "*.json" = ["*.json"] := by cbv
  have hclean : Path.clean "*.json" = "*.json" :=
    Path.clean_of_segment hsegments (by decide) (by decide)
  refine ⟨result_collect_of_glob 0 rfl rfl ?_, rfl⟩
  rw [hclean]
  exact glob_of_segment hsegments hclean (by decide)

/-- A file that a pattern finds and that cannot be inspected is reported with its path. -/
theorem collect_failures_uninspected :
    let memory : MemoryFiles := { files := [("a.json", [123, 125])] }
    let fs := memory.fileSystem.failing [((.inspect, "a.json"), .broken)]
    let group : FileGroup := { place := .given fs, paths := ["*.json"] }
    let report := Fault.cannotInspect "a.json" (.inputOutput "a.json")
    fs.glob (Path.clean "*.json") = .ok ["a.json"] ∧
      (collect {} .standard "." 0 [group]).result = .error report ∧
      report.category.isOwn = true := by
  intro memory fs group report
  have hsegments : Path.segments "*.json" = ["*.json"] := by cbv
  have hclean : Path.clean "*.json" = "*.json" :=
    Path.clean_of_segment hsegments (by decide) (by decide)
  have hentries : fs.entries "." = .ok [("a.json", false)] := by
    have hroot : Path.clean "." = "." := by
      rw [Path.clean, show Path.segments "." = ["."] by cbv]
      decide
    change memory.entries (Path.clean ".") = _
    rw [hroot]
    cbv
  have hmatch : Path.matchesPattern "*.json" "a.json" = true := by cbv
  have hfound : fs.glob (Path.clean "*.json") = .ok ["a.json"] := by
    rw [hclean, glob_of_segment hsegments hclean (by decide), globNames, hentries]
    simp only [List.filter, hmatch, List.map_cons, List.map_nil, Except.map,
      List.mergeSort_singleton]
    rfl
  have hresult : (collect {} .standard "." 0 [group]).result = .error report := by
    have hcandidates : group.candidates (group.place.on {}) "*.json" = .ok ["a.json"] := by
      rw [candidates, if_neg (by decide),
        show (group.place.on {}).glob (Path.clean "*.json") = .ok ["a.json"] from hfound]
      rfl
    rw [result_collect_cons, records, Traced.result_bind, files]
    simp only [Traced.result_bind, Traced.result_mapM, show group.paths = ["*.json"] from rfl,
      List.mapM_cons, hcandidates]
    rfl
  have hfailures := @collect_failures [group] {} .standard "." 0
    (fun other hother => by cases List.mem_singleton.mp hother; exact ⟨_, _, rfl⟩)
    (fun other hother path hpath _ => by
      cases List.mem_singleton.mp hother
      cases List.mem_singleton.mp hpath
      exact ⟨_, hfound⟩)
  exact ⟨hfound, hresult, (hfailures.1 report hresult).1⟩

end FileGroup

end LayeredConfig
