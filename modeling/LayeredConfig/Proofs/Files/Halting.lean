import LayeredConfig.Options.Config
import LayeredConfig.Proofs.Files.Failures
import LayeredConfig.Proofs.Path.Inside

/-! # Halting groups

A collection ends with the first halting group that yields a record on its own. What follows that
group is never looked at, and a group that yields nothing leaves no trace among the records. The
standard places of an application are such groups, so that one of them serves all records. -/

namespace LayeredConfig

namespace FileGroup

variable {disk : Disk} {registry : Registry} {delimiter : String}

/-- Whether the group ends a collection: it halts, and yields a record on its own. -/
def decides (disk : Disk) (registry : Registry) (delimiter : String) (group : FileGroup) : Bool :=
  match (group.records disk registry delimiter).result with
  | .ok found => !found.isEmpty && group.halt
  | .error _ => false

/-- The groups up to and including the first one that ends the collection. -/
def leading (disk : Disk) (registry : Registry) (delimiter : String) :
    List FileGroup → List FileGroup
  | [] => []
  | group :: rest =>
    if group.decides disk registry delimiter then [group]
    else group :: leading disk registry delimiter rest

/-- The records are those of the leading groups, each of which is collected on its own. -/
theorem result_collect (index : Nat) (groups : List FileGroup) :
    (collect disk registry delimiter index groups).result =
      ((leading disk registry delimiter groups).mapM fun group : FileGroup =>
        (group.records disk registry delimiter).result).map List.flatten := by
  induction groups generalizing index with
  | nil => rfl
  | cons group rest ih =>
      rw [result_collect_cons, leading, decides]
      cases hfound : (group.records disk registry delimiter).result with
      | error fault =>
          simp only [Bool.false_eq_true, if_false, List.mapM_cons, hfound]
          rfl
      | ok found =>
          dsimp only [Except.bind]
          split
          · simp [hfound, bind, Except.bind, pure, Except.pure, Except.map]
          · rw [List.mapM_cons, hfound, ih (index + 1)]
            cases (leading disk registry delimiter rest).mapM fun group : FileGroup =>
              (group.records disk registry delimiter).result <;> rfl

/-- Either no group ends the collection, or the first one that does is the last leading one. -/
theorem leading_cases (groups : List FileGroup) :
    leading disk registry delimiter groups = groups ∧
        (∀ group ∈ groups, group.decides disk registry delimiter = false) ∨
      ∃ before group after, groups = before ++ group :: after ∧
        leading disk registry delimiter groups = before ++ [group] ∧
        (∀ other ∈ before, other.decides disk registry delimiter = false) ∧
        group.decides disk registry delimiter = true := by
  induction groups with
  | nil => exact .inl ⟨rfl, nofun⟩
  | cons group rest ih =>
      rw [leading]
      split
      · next hdecides => exact .inr ⟨[], group, rest, rfl, rfl, nofun, hdecides⟩
      · next hdecides =>
        rw [Bool.not_eq_true] at hdecides
        rcases ih with ⟨hleading, hnone⟩ | ⟨before, last, after, rfl, hleading, hbefore, hlast⟩
        · exact .inl ⟨by rw [hleading], List.forall_mem_cons.mpr ⟨hdecides, hnone⟩⟩
        · exact .inr ⟨group :: before, last, after, rfl, by rw [hleading]; rfl,
            List.forall_mem_cons.mpr ⟨hdecides, hbefore⟩, hlast⟩

/-- A group that ends the collection hides what stands behind it. -/
theorem collect_append_of_decides {group : FileGroup}
    (h : group.decides disk registry delimiter = true) (before after others : List FileGroup)
    (index : Nat) :
    collect disk registry delimiter index (before ++ group :: after) =
      collect disk registry delimiter index (before ++ group :: others) := by
  induction before generalizing index with
  | nil =>
      rw [List.nil_append, List.nil_append, collect, collect]
      refine Traced.bind_congr fun found hfound => ?_
      rw [decides, hfound] at h
      rw [if_pos h, if_pos h]
  | cons first rest ih =>
      rw [List.cons_append, List.cons_append, collect, collect, ih (index + 1)]

/-- A group without records may be left out. -/
theorem result_collect_append_of_empty {group : FileGroup}
    (h : (group.records disk registry delimiter).result = .ok []) (before after : List FileGroup)
    (index : Nat) :
    (collect disk registry delimiter index (before ++ group :: after)).result =
      (collect disk registry delimiter index (before ++ after)).result := by
  induction before generalizing index with
  | nil =>
      rw [List.nil_append, List.nil_append, result_collect_cons, h, result_collect (index + 1),
        ← result_collect index after]
      cases (collect disk registry delimiter index after).result <;> rfl
  | cons first rest ih =>
      rw [List.cons_append, List.cons_append, result_collect_cons, result_collect_cons,
        ih (index + 1)]

/-- Among places that all halt, one serves all records. -/
theorem served_of_halting {groupAt : Place → FileGroup}
    (hhalt : ∀ place, (groupAt place).halt = true) {places : List Place} {index : Nat}
    {found : List Record}
    (h : (collect disk registry delimiter index (places.map groupAt)).result = .ok found) :
    found = [] ∧
        (∀ place ∈ places, ((groupAt place).records disk registry delimiter).result = .ok []) ∨
      ∃ before place after, places = before ++ place :: after ∧
        (∀ other ∈ before, ((groupAt other).records disk registry delimiter).result = .ok []) ∧
        ((groupAt place).records disk registry delimiter).result = .ok found ∧ found ≠ [] := by
  induction places generalizing index found with
  | nil =>
      cases h
      exact .inl ⟨rfl, nofun⟩
  | cons first rest ih =>
      rw [List.map_cons, result_collect_cons] at h
      obtain ⟨own, hown, h⟩ := exists_of_bind_eq_ok h
      rw [hhalt, Bool.and_true] at h
      cases own with
      | nil =>
          obtain ⟨others, hothers, h⟩ := exists_of_bind_eq_ok h
          cases h
          rw [List.nil_append]
          rcases ih hothers with ⟨rfl, hnone⟩ | ⟨before, place, after, rfl, hbefore, hplace⟩
          · exact .inl ⟨rfl, List.forall_mem_cons.mpr ⟨hown, hnone⟩⟩
          · exact .inr ⟨first :: before, place, after, rfl,
              List.forall_mem_cons.mpr ⟨hown, hbefore⟩, hplace⟩
      | cons record more =>
          cases h
          exact .inr ⟨[], first, rest, rfl, nofun, hown, List.cons_ne_nil _ _⟩

end FileGroup

namespace StandardLayout

open LayeredConfig.Path

/-- The working directory, the place of the user if there is one, and that of the system. -/
def places (layout : StandardLayout) : List Place :=
  [some layout.localPlace, layout.homePlace?, some layout.systemPlace].filterMap id

/-- What is looked for at each place. -/
def groupAt (layout : StandardLayout) (place : Place) : FileGroup :=
  { place, paths := [s!"{layout.application}.*", "conf.d"], recurse := true, halt := true }

theorem groups_eq {layout : StandardLayout} {files : List String} (h : ∀ file ∈ files, file = "") :
    layout.groups files = layout.places.map layout.groupAt := by
  have hwanted : files.filter (· != "") = [] := by simpa using h
  rw [groups, hwanted]
  rfl

theorem isName_pattern {layout : StandardLayout} (h : isValidName layout.application = true) :
    IsName s!"{layout.application}.*" := by
  have hslash : '/' ∉ layout.application.toList := by
    simp [isValidName] at h
    exact h.1.2
  have hstar : '*' ∈ (s!"{layout.application}.*").toList := by
    simp [toString]
  have hne : ∀ text : String, '*' ∉ text.toList → s!"{layout.application}.*" ≠ text := by
    rintro text htext rfl
    exact htext hstar
  refine ⟨hne "" (by decide), hne "." (by decide), hne ".." (by decide), ?_⟩
  simpa [toString] using hslash

theorem checked_groupAt {layout : StandardLayout} (h : isValidName layout.application = true)
    (place : Place) : (layout.groupAt place).checked = .ok (layout.groupAt place) := by
  have hconf : IsName "conf.d" := ⟨by decide, by decide, by decide, by decide⟩
  have hfind : (layout.groupAt place).paths.find? (fun path => !isValid path) = none := by
    simp [groupAt, isValid_of_isName (isName_pattern h), isValid_of_isName hconf]
  rw [checked_eq, hfind]
  rfl

/-- Without files that are asked for, the option holds one group for each place. -/
theorem result_standardLayout {layout : StandardLayout} {files : List String}
    (h : isValidName layout.application = true) (hfiles : ∀ file ∈ files, file = "")
    (label : String) :
    (Options.standardLayout layout label files).result =
      .ok (.option (.files (layout.places.map layout.groupAt))
        (textLabel "std_cfg_layout" label)) := by
  have hchecked : (layout.places.map layout.groupAt).mapM FileGroup.checked =
      .ok ((layout.places.map layout.groupAt).map id) := by
    refine mapM_eq_pure fun group hgroup => ?_
    obtain ⟨place, -, rfl⟩ := List.mem_map.mp hgroup
    exact checked_groupAt h place
  rw [Options.standardLayout, Traced.result_bind, groups_eq hfiles]
  simp only [Options.files, hchecked, List.map_id]
  rfl

end StandardLayout

namespace FileGroup

open StandardLayout

/-- The records of a collection are those of its groups up to and including the first halting one
that yields any on its own, one group after another; all groups are asked when there is none. What
stands behind that group does not matter, be it broken, and neither does a halting group without
records. So the standard places of an application serve all records from one of them: the first of
the working directory, the place of the user and that of the system that has any. -/
theorem collect_halting (disk : Disk) (registry : Registry) (delimiter : String) (index : Nat)
    (groups : List FileGroup) :
    (collect disk registry delimiter index groups).result =
        ((leading disk registry delimiter groups).mapM fun group : FileGroup =>
          (group.records disk registry delimiter).result).map List.flatten ∧
      (leading disk registry delimiter groups = groups ∧
          (∀ group ∈ groups, group.decides disk registry delimiter = false) ∨
        ∃ before group after, groups = before ++ group :: after ∧
          leading disk registry delimiter groups = before ++ [group] ∧
          (∀ other ∈ before, other.decides disk registry delimiter = false) ∧
          group.decides disk registry delimiter = true) ∧
      (∀ before group after others, groups = before ++ group :: after →
        group.decides disk registry delimiter = true →
        collect disk registry delimiter index (before ++ group :: others) =
          collect disk registry delimiter index groups) ∧
      (∀ before group after, groups = before ++ group :: after → group.halt = true →
        (group.records disk registry delimiter).result = .ok [] →
        (collect disk registry delimiter index (before ++ after)).result =
          (collect disk registry delimiter index groups).result) ∧
      ∀ application directory environment platform layout label files,
        StandardLayout.make application directory environment platform = .ok layout →
        (∀ file ∈ files, file = "") →
        let standard := layout.places.map layout.groupAt
        (Options.standardLayout layout label files).result =
            .ok (.option (.files standard) (textLabel "std_cfg_layout" label)) ∧
          ∀ found, (collect disk registry delimiter index standard).result = .ok found →
            found = [] ∧ (∀ place ∈ layout.places,
              ((layout.groupAt place).records disk registry delimiter).result = .ok []) ∨
            ∃ before place after, layout.places = before ++ place :: after ∧
              (∀ other ∈ before,
                ((layout.groupAt other).records disk registry delimiter).result = .ok []) ∧
              ((layout.groupAt place).records disk registry delimiter).result = .ok found ∧
              found ≠ [] := by
  refine ⟨result_collect index groups, leading_cases groups, ?_, ?_, ?_⟩
  · rintro before group after others rfl hdecides
    exact collect_append_of_decides hdecides before others after index
  · rintro before group after rfl - hempty
    exact (result_collect_append_of_empty hempty before after index).symm
  · intro application directory environment platform layout label files hlayout hfiles
    have hvalid : isValidName layout.application = true := by
      rw [make] at hlayout
      split at hlayout
      · next hvalid =>
        cases hlayout
        exact hvalid
      · cases hlayout
    exact ⟨result_standardLayout hvalid hfiles label, fun _ => served_of_halting fun _ => rfl⟩

/-- Nothing is made of a file without a decoder, and a broken place behind the one that serves is
not looked at. Of the standard places it is that of the user here. -/
theorem collect_halting_places :
    let bare : FileGroup :=
      { place := .given (MemoryFiles.fileSystem { files := [("a.txt", [])] }), halt := true
        paths := ["*.txt"] }
    let populated : FileGroup :=
      { place := .given (MemoryFiles.fileSystem { files := [("a.json", [123, 125])] }), halt := true
        paths := ["."] }
    let broken : FileGroup :=
      { place := .given <|
          FileSystem.failing [((.inspect, "."), .broken)] (MemoryFiles.fileSystem {})
        paths := ["."] }
    let layout : StandardLayout :=
      { application := "demo", workingDirectory := "/srv", environment := [("HOME", "/home/me")]
        platform := "linux" }
    let disk := (Disk.empty "/srv").write "/home/me/.demo/conf.d/a.json" [123, 125]
    collect {} .standard "." 0 [bare, populated] =
        collect {} .standard "." 0 [bare, populated, broken] ∧
      (collect {} .standard "." 0 [populated, broken]).result =
        (collect {} .standard "." 0 [bare, populated, broken]).result ∧
      (Options.standardLayout layout "demo" [""]).result =
        .ok (.option (.files (layout.places.map layout.groupAt)) "std_cfg_layout('demo')") ∧
      ∃ found, (collect disk .standard "." 0 (layout.places.map layout.groupAt)).result =
          .ok found ∧ found ≠ [] ∧
        ∃ place ∈ layout.places,
          ((layout.groupAt place).records disk .standard ".").result = .ok found := by
  intro bare populated broken layout disk
  have hdecides : populated.decides {} .standard "." = true := by decide +kernel
  have hbare : (bare.records {} .standard ".").result = .ok [] := by
    have hany : (bare.records {} .standard ".").result.toOption.any List.isEmpty = true := by
      decide +kernel
    obtain ⟨found, hfound, hnil⟩ := exists_ok_of_any hany
    rw [hfound, List.isEmpty_iff.mp hnil]
  obtain ⟨-, -, hbehind, hempty, -⟩ := collect_halting {} .standard "." 0 [bare, populated, broken]
  refine ⟨hbehind [bare] populated [broken] [] rfl hdecides,
    hempty [] bare [populated, broken] rfl rfl hbare, ?_⟩
  obtain ⟨-, -, -, -, hstandard⟩ := collect_halting disk .standard "." 0 []
  have hvalid : isValidName "demo" = true := by
    simp [isValidName]
  have hfiles : ∀ file ∈ [""], file = "" := fun _ => List.mem_singleton.mp
  obtain ⟨hoption, hserved⟩ := hstandard "demo" "/srv" [("HOME", "/home/me")] "linux" layout "demo"
    [""] (if_pos hvalid) hfiles
  have hany : ((collect disk .standard "." 0 (layout.places.map layout.groupAt)).result.toOption.any
      fun found => !found.isEmpty) = true := by
    decide +kernel
  obtain ⟨found, hfound, hne⟩ := exists_ok_of_any hany
  refine ⟨hoption, found, hfound, by simpa using hne, ?_⟩
  rcases hserved found hfound with ⟨rfl, -⟩ | ⟨before, place, after, hplaces, -, hplace, -⟩
  · simp at hne
  · exact ⟨place, hplaces ▸ by simp, hplace⟩

end FileGroup

end LayeredConfig
