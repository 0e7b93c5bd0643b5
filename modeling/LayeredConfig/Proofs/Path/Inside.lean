import LayeredConfig.Files.Group
import LayeredConfig.Proofs.Path.Names
import Mathlib.Data.List.Infix

/-! # Staying inside

A path is valid if it is relative and no part of it, read from the left, leads further up than down.
It may turn back as long as it never leaves the place where it starts. -/

namespace LayeredConfig.Path

/-! ## Depth -/

/-- How many levels a segment leads down. -/
def change (segment : String) : Int :=
  if segment = "" ∨ segment = "." then 0 else if segment = ".." then -1 else 1

/-- How many levels segments lead down altogether. -/
def depth : List String → Int
  | [] => 0
  | segment :: rest => change segment + depth rest

theorem depth_concat (segs : List String) (segment : String) :
    depth (segs ++ [segment]) = depth segs + change segment := by
  induction segs with
  | nil => simp [depth]
  | cons first rest ih => rw [List.cons_append, depth, ih, depth, Int.add_assoc]

/-- A segment changes the depth of a location, and once above the start one stays there. -/
theorem Location.enter_spec {location : Location} {segment : String}
    (hsegment : '/' ∉ segment.toList) :
    let next := location.enter false segment
    (next.names.length - next.up : Int) = location.names.length - location.up + change segment ∧
      location.up ≤ next.up ∧ (location.up < next.up → next.names = []) := by
  obtain ⟨up, names⟩ := location
  intro next
  rcases segment_cases hsegment with rfl | rfl | rfl | hname
  · simp [next, Location.enter, change]
  · simp [next, Location.enter, change]
  · have hchange : change ".." = -1 := by decide
    simp only [next, Location.enter_parent, hchange]
    cases names with
    | nil => simp; omega
    | cons last rest => simp; omega
  · have hchange : change segment = 1 := by
      rw [change, if_neg (not_or.mpr ⟨hname.ne_empty, hname.ne_dot⟩), if_neg hname.ne_parent]
    simp only [next, Location.enter_name hname, hchange, List.length_cons]
    simp; omega

theorem depth_eq {segs : List String} (h : ∀ segment ∈ segs, '/' ∉ segment.toList) :
    depth segs = (locate false segs).names.length - (locate false segs).up := by
  induction segs using List.reverseRecOn with
  | nil => rfl
  | append_singleton front last ih =>
      rw [List.forall_mem_append, List.forall_mem_singleton] at h
      rw [depth_concat, ih h.1, locate_concat]
      exact (Location.enter_spec h.2).1.symm

/-- Segments stay inside if they lead to a place that is not above the start. -/
theorem forall_depth_nonneg_iff {segs : List String} (h : ∀ segment ∈ segs, '/' ∉ segment.toList) :
    (∀ front, front <+: segs → 0 ≤ depth front) ↔ (locate false segs).up = 0 := by
  induction segs using List.reverseRecOn with
  | nil => simp [locate, depth]
  | append_singleton front last ih =>
      have hdepth := depth_eq h
      rw [List.forall_mem_append, List.forall_mem_singleton] at h
      obtain ⟨-, hle, hroot⟩ :=
        show _ ∧ (locate false front).up ≤ _ ∧ _ from Location.enter_spec h.2
      rw [← locate_concat] at hle hroot
      have hparts : (∀ part, part <+: front ++ [last] → 0 ≤ depth part) ↔
          0 ≤ depth (front ++ [last]) ∧ ∀ part, part <+: front → 0 ≤ depth part := by
        simp only [List.prefix_concat_iff, forall_eq_or_imp]
      rw [hparts, ih h.1, hdepth]
      constructor
      · rintro ⟨hnonneg, hup⟩
        by_contra hne
        rw [hroot (by omega)] at hnonneg
        simp at hnonneg
        omega
      · intro hup
        exact ⟨by omega, by omega⟩

/-! ## Valid paths -/

theorem anchorLength_eq_zero_iff {path : String} :
    anchorLength path = 0 ↔ path.startsWith "/" = false := by
  have hlength : anchorLength path = 0 ↔ path.toList.takeWhile (· == '/') = [] := by
    rw [anchorLength, ← List.length_eq_zero_iff]
    split <;> simp_all
  rw [hlength, String.startsWith_string_eq_false_iff, show "/".toList = ['/'] from rfl]
  cases path.toList with
  | nil => simp
  | cons c rest =>
      rw [List.takeWhile_cons, List.cons_prefix_cons]
      by_cases hc : c = '/'
      · simp [hc]
      · have hslash : ¬ '/' = c := fun heq => hc heq.symm
        simp [hc, hslash]

theorem startsWith_clean (path : String) :
    (clean path).startsWith "/" = path.startsWith "/" := by
  rw [Bool.eq_iff_iff, ← not_iff_not, Bool.not_eq_true, Bool.not_eq_true,
    ← anchorLength_eq_zero_iff, ← anchorLength_eq_zero_iff, anchorLength_clean]

theorem isValid_iff {path : String} :
    isValid path = true ↔
      path.startsWith "/" = false ∧ (locate false (segments path)).up = 0 := by
  rw [isValid, startsWith_clean, Bool.and_eq_true, Bool.not_eq_true', Bool.not_eq_true']
  refine and_congr_right fun hstart => ?_
  have hproper : (locate false (segments path)).Proper false := proper_locate fun _ => slash_not_mem
  rw [clean_of_relative (anchorLength_eq_zero_iff.mpr hstart),
    segments_ofNames fun _ => hproper.slash_not_mem, ← not_iff_not,
    show ¬(locate false (segments path)).up = 0 ↔ _ from hproper.parent_mem_path_iff.symm]
  split
  · next hnil => simp [hnil]
  · simp

theorem isValid_of_isName {name : String} (h : IsName name) : isValid name = true := by
  have hsegments : segments name = [name] := by
    have hsplit := @segments_ofSegments [name] (List.cons_ne_nil _ _)
      (List.forall_mem_singleton.mpr h.noSlash)
    simpa [ofSegments] using hsplit
  refine isValid_iff.mpr ⟨?_, ?_⟩
  · rw [String.startsWith_string_eq_false_iff]
    exact fun hslash => h.noSlash (hslash.subset (by decide))
  · rw [hsegments, locate, List.foldl_cons, Location.enter_name h]
    rfl

/-- The segments of a valid path, cleaned, are names. -/
theorem exists_names_of_isValid {path : String} (h : isValid path = true) :
    ∃ names, (∀ name ∈ names, IsName name) ∧ clean path = ofNames names := by
  obtain ⟨hstart, hup⟩ := isValid_iff.mp h
  have hproper : (locate false (segments path)).Proper false := proper_locate fun _ => slash_not_mem
  refine ⟨_, fun name hname => ?_, clean_of_relative (anchorLength_eq_zero_iff.mpr hstart)⟩
  rcases hproper.of_mem_path hname with ⟨-, hne⟩ | hname
  · exact (hne hup).elim
  · exact hname

/-! ## Groups of files -/

/-- A group that is refused names the first of its paths that is not valid. -/
theorem checked_eq (group : FileGroup) :
    group.checked = match group.paths.find? fun path => !isValid path with
      | some path => .error (.invalidPath path)
      | none => .ok { group with paths := if group.paths.isEmpty then ["."] else group.paths } := by
  have hdot : isValid "." = true :=
    isValid_iff.mpr ⟨anchorLength_eq_zero_iff.mp (by decide), by rw [segments_dot]; decide⟩
  have hfind : (if group.paths.isEmpty then ["."] else group.paths).find?
      (fun path => !isValid path) = group.paths.find? fun path => !isValid path := by
    cases group.paths with
    | nil => simp [hdot]
    | cons first rest => simp
  rewrite [FileGroup.checked, hfind]
  cases group.paths.find? fun path => !isValid path <;> rfl

/-- The valid paths are the relative ones that stay inside: none of their parts from the left leads
above the start. A cleaned path is clean, and that of a valid path leads to the same place by names
alone. A group of files can be made of valid paths, and of no others. -/
theorem isValid_iff_inside (path : String) (group : FileGroup) :
    (isValid path = true ↔
        path.startsWith "/" = false ∧ ∀ front, front <+: segments path → 0 ≤ depth front) ∧
      clean (clean path) = clean path ∧
      (isValid path = true →
        (clean path = "." ∨ ∀ segment ∈ segments (clean path), segment ∉ ["", ".", ".."]) ∧
          locate false (segments (clean path)) = locate false (segments path)) ∧
      ((∃ built, group.checked = .ok built) ↔ ∀ path ∈ group.paths, isValid path = true) := by
  refine ⟨?_, clean_clean path, fun hvalid => ⟨?_, ?_⟩, ?_⟩
  · rw [isValid_iff, forall_depth_nonneg_iff fun _ => slash_not_mem]
  · obtain ⟨names, hnames, hclean⟩ := exists_names_of_isValid hvalid
    rw [hclean, segments_ofNames fun name hname => (hnames name hname).noSlash]
    by_cases hnil : names = []
    · exact .inl (by rw [hnil]; rfl)
    · refine .inr fun segment hsegment => ?_
      rw [if_neg hnil] at hsegment
      have hname := hnames segment hsegment
      simp [hname.ne_empty, hname.ne_dot, hname.ne_parent]
  · have hlocate := locate_clean path
    rwa [anchorLength_eq_zero_iff.mpr (isValid_iff.mp hvalid).1] at hlocate
  · rw [checked_eq]
    cases hfind : group.paths.find? fun path => !isValid path with
    | some path =>
        have hpath := List.mem_of_find?_eq_some hfind
        have hinvalid := List.find?_some hfind
        refine ⟨?_, fun hall => ?_⟩
        · rintro ⟨built, hbuilt⟩
          exact nomatch hbuilt
        rw [hall path hpath] at hinvalid
        exact nomatch hinvalid
    | none => simpa using List.find?_eq_none.mp hfind

/-- A path that turns back without leaving the place is valid, and so is a group of such paths. -/
theorem isValid_iff_inside_turning :
    let group : FileGroup := { place := .directory ".", paths := ["conf/../data//a", "."] }
    isValid "conf/../data//a" = true ∧
      (∀ segment ∈ segments (clean "conf/../data//a"), segment ∉ ["", ".", ".."]) ∧
      ∃ built, group.checked = .ok built := by
  intro group
  have hinside := isValid_iff_inside "conf/../data//a" group
  have hvalid : isValid "conf/../data//a" = true := by
    refine hinside.1.mpr ⟨by decide +kernel, fun front hfront => ?_⟩
    rw [← List.mem_inits] at hfront
    revert front
    decide +kernel
  refine ⟨hvalid, (hinside.2.2.1 hvalid).1.resolve_left (by decide +kernel), ?_⟩
  exact hinside.2.2.2.mpr (by decide +kernel)

/-- Segments may lead outside and come back. -/
example : depth ["a", "..", ".."] = -1 ∧ depth ["a", "..", "..", "b"] = 0 := by decide

end LayeredConfig.Path
