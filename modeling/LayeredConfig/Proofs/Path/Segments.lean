import LayeredConfig.Path.Clean
import LayeredConfig.Proofs.Text.Lines
import Mathlib.Data.List.Induction

/-! # Segments of paths

A path is what its segments spell between slashes. Read from left to right, segments lead to a
location: some levels up, then down by names. Cleaning a path spells its location anew, in the one
way in which nothing is taken back. -/

namespace LayeredConfig.Path

/-! ## Cutting and joining -/

theorem segments_eq (path : String) :
    segments path = (path.toList.splitOn '/').map String.ofList := by
  rw [segments, Text.split, show "/".toList = ['/'] from rfl, Text.splitAll_singleton]

theorem toList_ofSegments (segments : List String) :
    (ofSegments segments).toList = ['/'].intercalate (segments.map String.toList) := by
  rw [ofSegments, String.toList_intercalate]
  rfl

theorem ofSegments_segments (path : String) : ofSegments (segments path) = path := by
  have hsame : String.toList ∘ String.ofList = id := funext fun _ => String.toList_ofList
  rw [← String.toList_inj, toList_ofSegments, segments_eq, List.map_map, hsame, List.map_id,
    List.intercalate_splitOn]

theorem segments_ofSegments {segs : List String} (hne : segs ≠ [])
    (h : ∀ segment ∈ segs, '/' ∉ segment.toList) : segments (ofSegments segs) = segs := by
  have hsame : String.ofList ∘ String.toList = id := funext fun _ => String.ofList_toList
  rw [segments_eq, toList_ofSegments, List.splitOn_intercalate, List.map_map, hsame, List.map_id]
  · simpa using h
  · simpa using hne

theorem segments_slash (text : List Char) :
    segments (String.ofList ('/' :: text)) = "" :: segments (String.ofList text) := by
  have hsplit := List.splitOn_append_cons_self_of_not_mem (List.not_mem_nil (a := '/')) text
  rw [List.nil_append] at hsplit
  rw [segments_eq, segments_eq, String.toList_ofList, String.toList_ofList, hsplit]
  rfl

/-- No segment of a path holds a slash. -/
theorem slash_not_mem {segment path : String} (h : segment ∈ segments path) :
    '/' ∉ segment.toList := by
  obtain ⟨piece, hpiece, rfl⟩ := List.mem_map.mp (segments_eq path ▸ h)
  rw [String.toList_ofList]
  exact Text.not_mem_of_mem_splitOn hpiece

/-- A segment that leads one level down. -/
structure IsName (segment : String) : Prop where
  ne_empty : segment ≠ ""
  ne_dot : segment ≠ "."
  ne_parent : segment ≠ ".."
  noSlash : '/' ∉ segment.toList

theorem segment_cases {segment : String} (h : '/' ∉ segment.toList) :
    segment = "" ∨ segment = "." ∨ segment = ".." ∨ IsName segment := by
  by_cases hempty : segment = ""
  · exact .inl hempty
  by_cases hdot : segment = "."
  · exact .inr (.inl hdot)
  by_cases hparent : segment = ".."
  · exact .inr (.inr (.inl hparent))
  · exact .inr (.inr (.inr ⟨hempty, hdot, hparent, h⟩))

/-! ## Locations -/

/-- A place as seen from where a path starts: some levels up, then down by names, the last of which
stands first. -/
structure Location where
  up : Nat := 0
  names : List String := []
  deriving DecidableEq, Repr

namespace Location

/-- One segment further on. There is nothing above a root. -/
def enter (rooted : Bool) (location : Location) (segment : String) : Location :=
  if segment = "" ∨ segment = "." then location
  else if segment ≠ ".." then { location with names := segment :: location.names }
  else
    match location.names with
    | _ :: rest => { location with names := rest }
    | [] => if rooted then location else { location with up := location.up + 1 }

/-- The segments that lead straight to a location. -/
def path (location : Location) : List String :=
  List.replicate location.up ".." ++ location.names.reverse

/-- A location that segments can lead to. -/
structure Proper (rooted : Bool) (location : Location) : Prop where
  isName : ∀ name ∈ location.names, IsName name
  up_eq : rooted = true → location.up = 0

variable {rooted : Bool} {location : Location}

theorem enter_name {name : String} (h : IsName name) :
    location.enter rooted name = { location with names := name :: location.names } := by
  rw [enter, if_neg (not_or.mpr ⟨h.ne_empty, h.ne_dot⟩), if_pos h.ne_parent]

theorem enter_parent (location : Location) : location.enter rooted ".." = match location.names with
    | _ :: rest => { location with names := rest }
    | [] => if rooted then location else { location with up := location.up + 1 } := by
  rw [enter, if_neg (by decide), if_neg (by decide)]

theorem Proper.enter (h : location.Proper rooted) {segment : String}
    (hsegment : '/' ∉ segment.toList) : (location.enter rooted segment).Proper rooted := by
  rcases segment_cases hsegment with rfl | rfl | rfl | hname
  · exact h
  · exact h
  · rw [enter_parent]
    obtain ⟨up, names⟩ := location
    cases names with
    | cons last rest => exact ⟨fun name hmem => h.isName name (.tail _ hmem), h.up_eq⟩
    | nil =>
        cases rooted with
        | true => exact h
        | false => exact ⟨h.isName, nofun⟩
  · rw [enter_name hname]
    exact ⟨List.forall_mem_cons.mpr ⟨hname, h.isName⟩, h.up_eq⟩

/-- What cleaning keeps of the segments on the way to a location. -/
theorem push_path (h : location.Proper rooted) {segment : String}
    (hsegment : '/' ∉ segment.toList) :
    push rooted location.path.reverse segment = (location.enter rooted segment).path.reverse := by
  obtain ⟨up, names⟩ := location
  rcases segment_cases hsegment with rfl | rfl | rfl | hname
  · rfl
  · rfl
  · rw [enter_parent]
    cases names with
    | cons last rest =>
        have hlast := (h.isName last List.mem_cons_self).ne_parent
        simp [path, push, hlast]
    | nil =>
        have hpath : ∀ up : Nat, ({ up } : Location).path.reverse = List.replicate up ".." := by
          simp [path]
        cases rooted with
        | true =>
            have hup : up = 0 := h.up_eq rfl
            simp [hpath, push, hup]
        | false =>
            simp only [hpath, Bool.false_eq_true, if_false]
            cases up <;> simp [push, List.replicate_succ]
  · rw [enter_name hname]
    simp [path, push, String.isEmpty_iff, hname.ne_empty, hname.ne_dot, hname.ne_parent]

end Location

open Location

variable {rooted : Bool}

/-- Where segments lead. -/
def locate (rooted : Bool) (segments : List String) : Location := segments.foldl (enter rooted) {}

theorem locate_concat (segs : List String) (segment : String) :
    locate rooted (segs ++ [segment]) = (locate rooted segs).enter rooted segment := by
  rw [locate, List.foldl_append]
  rfl

theorem proper_locate {segs : List String} (h : ∀ segment ∈ segs, '/' ∉ segment.toList) :
    (locate rooted segs).Proper rooted := by
  induction segs using List.reverseRecOn with
  | nil => exact ⟨fun _ hmem => (List.not_mem_nil hmem).elim, fun _ => rfl⟩
  | append_singleton front last ih =>
      rw [List.forall_mem_append, List.forall_mem_singleton] at h
      rw [locate_concat]
      exact (ih h.1).enter h.2

theorem cleanSegments_eq {segs : List String} (h : ∀ segment ∈ segs, '/' ∉ segment.toList) :
    cleanSegments rooted segs = (locate rooted segs).path := by
  suffices segs.foldl (push rooted) [] = (locate rooted segs).path.reverse by
    rw [cleanSegments, this, List.reverse_reverse]
  induction segs using List.reverseRecOn with
  | nil => rfl
  | append_singleton front last ih =>
      rw [List.forall_mem_append, List.forall_mem_singleton] at h
      rw [List.foldl_append, ih h.1, locate_concat, List.foldl_cons, List.foldl_nil,
        push_path (proper_locate h.1) h.2]

/-- The segments of a location lead there. -/
theorem locate_path {location : Location} (h : location.Proper rooted) :
    locate rooted location.path = location := by
  obtain ⟨up, names⟩ := location
  have hup : locate rooted (List.replicate up "..") = { up } := by
    induction up with
    | zero => rfl
    | succ up ih =>
        have hroot : rooted = false := by
          cases rooted with
          | false => rfl
          | true => exact nomatch h.up_eq rfl
        subst hroot
        rw [List.replicate_succ', locate_concat, ih ⟨h.isName, nofun⟩, enter_parent]
        rfl
  induction names with
  | nil =>
      rw [path, List.reverse_nil, List.append_nil]
      exact hup
  | cons name rest ih =>
      rw [path, List.reverse_cons, ← List.append_assoc, locate_concat]
      have hrest := ih ⟨fun other hmem => h.isName other (.tail _ hmem), h.up_eq⟩
      rw [path] at hrest
      rw [hrest, enter_name (h.isName name List.mem_cons_self)]

/-! ## Cleaned paths -/

/-- The text of a location behind the slashes of a root; a dot stands for no text. -/
def Location.spell (anchor : Nat) (location : Location) : String :=
  let text := String.ofList (List.replicate anchor '/') ++ ofSegments location.path
  if text.isEmpty then "." else text

/-- Cleaning spells the location that a path leads to. -/
theorem clean_eq (path : String) :
    clean path =
      (locate (anchorLength path != 0) (segments path)).spell (anchorLength path) := by
  rw [clean, spell, cleanSegments_eq fun _ => slash_not_mem]

theorem Location.Proper.of_mem_path {location : Location} (h : location.Proper rooted)
    {segment : String} (hmem : segment ∈ location.path) :
    segment = ".." ∧ location.up ≠ 0 ∨ IsName segment := by
  rcases List.mem_append.mp hmem with hup | hname
  · exact .inl (List.mem_replicate.mp hup).symm
  · exact .inr (h.isName segment (List.mem_reverse.mp hname))

theorem Location.Proper.slash_not_mem {location : Location} (h : location.Proper rooted)
    {segment : String} (hmem : segment ∈ location.path) : '/' ∉ segment.toList := by
  rcases h.of_mem_path hmem with ⟨rfl, -⟩ | hname
  · decide
  · exact hname.noSlash

theorem Location.Proper.ne_empty {location : Location} (h : location.Proper rooted)
    {segment : String} (hmem : segment ∈ location.path) : segment ≠ "" := by
  rcases h.of_mem_path hmem with ⟨rfl, -⟩ | hname
  · decide
  · exact hname.ne_empty

theorem Location.Proper.parent_mem_path_iff {location : Location} (h : location.Proper rooted) :
    ".." ∈ location.path ↔ location.up ≠ 0 := by
  constructor
  · intro hmem
    rcases h.of_mem_path hmem with ⟨-, hup⟩ | hname
    · exact hup
    · exact (hname.ne_parent rfl).elim
  · intro hup
    exact List.mem_append_left _ (List.mem_replicate.mpr ⟨hup, rfl⟩)

/-- Segments that are not empty and hold no slashes are not spelled with a slash in front. -/
theorem head?_ofSegments {segs : List String} (hempty : ∀ segment ∈ segs, segment ≠ "")
    (hslash : ∀ segment ∈ segs, '/' ∉ segment.toList) :
    ∀ c ∈ (ofSegments segs).toList.head?, c ≠ '/' := by
  cases segs with
  | nil => simp [ofSegments]
  | cons first rest =>
      obtain ⟨c, chars, hfirst⟩ := List.exists_cons_of_ne_nil
        (mt String.toList_eq_nil_iff.mp (hempty first List.mem_cons_self))
      have hc : '/' ≠ c := fun heq => hslash first List.mem_cons_self (by simp [hfirst, ← heq])
      have hhead : (ofSegments (first :: rest)).toList.head? = some c := by
        rw [toList_ofSegments, List.map_cons, hfirst]
        cases rest <;> simp
      rintro d hd rfl
      exact hc (Option.some.inj (hhead.symm.trans hd)).symm

theorem eq_nil_of_ofSegments {segs : List String} (hempty : ∀ segment ∈ segs, segment ≠ "")
    (hslash : ∀ segment ∈ segs, '/' ∉ segment.toList) (h : ofSegments segs = "") : segs = [] := by
  by_contra hne
  have hsegments := segments_ofSegments hne hslash
  rw [h, show segments "" = [""] by rw [segments_eq]; rfl] at hsegments
  exact hempty "" (hsegments ▸ List.mem_cons_self) rfl

theorem segments_append (anchor : Nat) (text : List Char) :
    segments (String.ofList (List.replicate anchor '/' ++ text)) =
      List.replicate anchor "" ++ segments (String.ofList text) := by
  induction anchor with
  | zero => rfl
  | succ anchor ih =>
      rw [List.replicate_succ, List.cons_append, segments_slash, ih, List.replicate_succ,
        List.cons_append]

theorem locate_append (anchor : Nat) (segs : List String) :
    locate rooted (List.replicate anchor "" ++ segs) = locate rooted segs := by
  induction anchor with
  | zero => rfl
  | succ anchor ih => exact ih

theorem locate_segments_ofSegments {segs : List String}
    (h : ∀ segment ∈ segs, '/' ∉ segment.toList) :
    locate rooted (segments (ofSegments segs)) = locate rooted segs := by
  cases segs with
  | nil => rw [segments_eq]; rfl
  | cons first rest => rw [segments_ofSegments (List.cons_ne_nil _ _) h]

theorem anchorLength_le (path : String) : anchorLength path ≤ 2 := by
  rw [anchorLength]
  split <;> omega

theorem segments_dot : segments "." = ["."] :=
  @segments_ofSegments ["."] (List.cons_ne_nil _ _) (by decide)

section Spelled

variable {anchor : Nat} {location : Location} (h : location.Proper (anchor != 0))

include h

/-- Only the start itself has no text of its own. -/
theorem spell_cases :
    location.spell anchor = "." ∧ anchor = 0 ∧ location = {} ∨
      location.spell anchor =
        String.ofList (List.replicate anchor '/' ++ (ofSegments location.path).toList) := by
  rw [String.ofList_append, String.ofList_toList, spell]
  split
  · next hempty =>
    rw [String.isEmpty_iff, ← String.toList_eq_nil_iff, String.toList_append, String.toList_ofList,
      List.append_eq_nil_iff, List.replicate_eq_nil_iff, String.toList_eq_nil_iff] at hempty
    have hpath := eq_nil_of_ofSegments (fun _ => h.ne_empty) (fun _ => h.slash_not_mem) hempty.2
    have hlocation := locate_path h
    rw [hpath] at hlocation
    exact .inl ⟨rfl, hempty.1, hlocation.symm⟩
  · exact .inr rfl

theorem anchorLength_spell (hanchor : anchor ≤ 2) :
    anchorLength (location.spell anchor) = anchor := by
  rcases spell_cases h with ⟨hspell, rfl, -⟩ | hspell
  · rw [hspell]
    decide
  · rw [hspell, anchorLength, String.toList_ofList, Text.takeWhile_append_eq (by simp),
      List.length_replicate]
    · match anchor, hanchor with
      | 0, _ | 1, _ | 2, _ => rfl
    · intro c hc
      exact beq_false_of_ne (head?_ofSegments (fun _ => h.ne_empty) (fun _ => h.slash_not_mem) c hc)

/-- The text of a location leads there. -/
theorem locate_segments_spell :
    locate (anchor != 0) (segments (location.spell anchor)) = location := by
  rcases spell_cases h with ⟨hspell, rfl, rfl⟩ | hspell
  · rw [hspell, segments_dot]
    rfl
  · rw [hspell, segments_append, String.ofList_toList, locate_append,
      locate_segments_ofSegments fun _ => h.slash_not_mem, locate_path h]

theorem clean_spell (hanchor : anchor ≤ 2) :
    clean (location.spell anchor) = location.spell anchor := by
  rw [clean_eq, anchorLength_spell h hanchor, locate_segments_spell h]

end Spelled

/-- A path leads to one place, and from one kind of root, before and after it is cleaned. -/
theorem anchorLength_clean (path : String) : anchorLength (clean path) = anchorLength path := by
  rw [clean_eq]
  exact anchorLength_spell (proper_locate fun _ => slash_not_mem) (anchorLength_le path)

theorem locate_clean (path : String) :
    locate (anchorLength path != 0) (segments (clean path)) =
      locate (anchorLength path != 0) (segments path) := by
  rw [clean_eq]
  exact locate_segments_spell (proper_locate fun _ => slash_not_mem)

theorem clean_clean (path : String) : clean (clean path) = clean path := by
  rw [clean_eq path]
  exact clean_spell (proper_locate fun _ => slash_not_mem) (anchorLength_le path)

end LayeredConfig.Path
