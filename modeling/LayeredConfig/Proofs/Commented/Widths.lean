import LayeredConfig.Proofs.Commented.Chunks

/-! # Widths of lines

The lines that a text is cut into hold the whole text, none of them is empty, and no cut separates a
backslash from what it escapes. A line is as wide as it may be, unless the cut falls behind a space
that stands at the very edge: then the backslash behind the space is one character too many. -/

namespace LayeredConfig.Commented

/-! ## Single cuts -/

theorem lastSpace?_spec {limit place : Nat} {text : List Char}
    (h : lastSpace? limit text = some place) : place ≤ limit ∧ text[place]? = some ' ' := by
  have hmem := List.mem_reverse.mp (List.mem_of_find?_eq_some h)
  have hspace := List.find?_some h
  rw [List.mem_range'_1] at hmem
  exact ⟨by omega, by simpa using hspace⟩

theorem backOff_le (text : List Char) (place : Nat) : backOff text place ≤ place := by
  fun_induction backOff text place with
  | case1 => exact Nat.le_refl 0
  | case2 => exact Nat.le_refl 1
  | case3 place _ ih => exact Nat.le_succ_of_le ih
  | case4 place => exact Nat.le_refl _

/-- A text that is too wide is cut before the edge, or behind a space at the edge. -/
theorem firstCut_of_wide {width : Nat} {text : List Char} (hwidth : 2 ≤ width)
    (hwide : width < text.length) :
    firstCut width text < width ∨
      firstCut width text = width ∧ text[width - 1]? = some ' ' := by
  have hlimit : max (width - 1) 1 = width - 1 := by omega
  rw [firstCut, if_neg (not_le.mpr hwide), hlimit]
  dsimp only
  cases hspace : lastSpace? (width - 1) text with
  | some place =>
      obtain ⟨hle, hc⟩ := lastSpace?_spec hspace
      rcases Nat.lt_or_eq_of_le hle with hlt | rfl
      · exact .inl (by simp only; omega)
      · exact .inr ⟨by simp only; omega, hc⟩
  | none =>
      have hle := backOff_le text (width - 1)
      exact .inl (by simp only; omega)

theorem take_firstCut_of_wide {width : Nat} {text : List Char} (hwidth : 2 ≤ width)
    (hwide : width < text.length) :
    (text.take (firstCut width text)).length < width ∨
      (text.take (firstCut width text)).length = width ∧
        (text.take (firstCut width text)).getLast? = some ' ' := by
  rcases firstCut_of_wide hwidth hwide with hlt | ⟨heq, hspace⟩
  · exact .inl (by rw [List.length_take_of_le (by omega)]; exact hlt)
  · have hlength : (text.take width).length = width := List.length_take_of_le hwide.le
    rw [heq]
    refine .inr ⟨hlength, ?_⟩
    rw [List.getLast?_eq_getElem?, hlength, List.getElem?_take_of_lt (by omega), hspace]

/-! ## All lines -/

/-- Pieces that end in an even number of backslashes do so when they are joined. -/
theorem even_flatten {pieces : List (List Char)}
    (h : ∀ piece ∈ pieces, endingBackslashes piece % 2 = 0) :
    endingBackslashes pieces.flatten % 2 = 0 := by
  induction pieces with
  | nil => rfl
  | cons piece rest ih =>
      rw [List.forall_mem_cons] at h
      rw [List.flatten_cons, endingBackslashes_append h.1]
      exact ih h.2

/-- A piece that is cut off the front of a longer text. -/
def IsCut (width : Nat) (piece : List Char) : Prop :=
  ∃ rest, firstCut width rest < rest.length ∧ rest.take (firstCut width rest) = piece

theorem IsCut.ne_nil {width : Nat} {piece : List Char} (h : IsCut width piece) : piece ≠ [] := by
  obtain ⟨rest, hcut, rfl⟩ := h
  have hpos : 0 < firstCut width rest := firstCut_pos (List.ne_nil_of_length_pos (by omega))
  refine List.ne_nil_of_length_pos ?_
  rwa [List.length_take_of_le hcut.le]

/-- The lines are the pieces that are cut off, one after the other, and what is not cut again. -/
theorem exists_cuts (width : Nat) (text : List Char) :
    ∃ (pieces : List (List Char)) (last : List Char),
      cutLines width text = pieces.map (· ++ ['\\']) ++ [last] ∧ pieces.flatten ++ last = text ∧
      (∀ piece ∈ pieces, IsCut width piece) ∧ last.length ≤ firstCut width last ∧
      (text ≠ [] → last ≠ []) := by
  fun_induction cutLines width text with
  | case1 text hwhole => exact ⟨[], text, rfl, rfl, List.forall_mem_nil _, hwhole, id⟩
  | case2 text hlong ih =>
      have hcut : firstCut width text < text.length := not_le.mp hlong
      obtain ⟨pieces, last, hlines, hflatten, hcuts, hlast, hne⟩ := ih
      refine ⟨text.take (firstCut width text) :: pieces, last, ?_, ?_,
        List.forall_mem_cons.mpr ⟨⟨text, hcut, rfl⟩, hcuts⟩, hlast, fun _ => hne ?_⟩
      · rw [hlines]
        rfl
      · rw [List.flatten_cons, List.append_assoc, hflatten, List.take_append_drop]
      · rw [Ne, List.drop_eq_nil_iff]
        omega

theorem exists_pieces_cutLines {width : Nat} (hwidth : 3 ≤ width) (text : List Char) :
    ∃ (pieces : List (List Char)) (last : List Char),
      cutLines width text = pieces.map (· ++ ['\\']) ++ [last] ∧ pieces.flatten ++ last = text ∧
      (∀ piece ∈ pieces, endingBackslashes piece % 2 = 0) ∧
      (∀ piece ∈ pieces, piece.length < width ∨
        piece.length = width ∧ piece.getLast? = some ' ') ∧
      last.length ≤ width := by
  obtain ⟨pieces, last, hlines, hflatten, hcuts, hlast, -⟩ := exists_cuts width text
  refine ⟨pieces, last, hlines, hflatten, fun piece hpiece => ?_, fun piece hpiece => ?_, ?_⟩
  · obtain ⟨rest, hcut, rfl⟩ := hcuts piece hpiece
    exact even_firstCut hwidth hcut
  · obtain ⟨rest, hcut, rfl⟩ := hcuts piece hpiece
    refine take_firstCut_of_wide (by omega) (lt_of_not_ge fun hshort => ?_)
    rw [firstCut, if_pos hshort] at hcut
    exact lt_irrefl _ hcut
  · by_contra hwide
    rcases firstCut_of_wide (by omega) (not_le.mp hwide) with hlt | ⟨heq, -⟩ <;> omega

/-- At any width a text in double quotes is the pieces in front of the backslashes and the last
line, none of which is empty. -/
theorem exists_pieces_ne_nil (text : String) (width : Int) :
    ∃ (pieces : List (List Char)) (last : List Char),
      chunk text width = (pieces.map (· ++ ['\\']) ++ [last]).map String.ofList ∧
      pieces.flatten ++ last = inQuotes text.toList ∧ (∀ piece ∈ pieces, piece ≠ []) ∧
      last ≠ [] := by
  have hquoted : inQuotes text.toList ≠ [] := by
    rw [inQuotes]
    split
    · next hhead =>
      intro hnil
      simp [hnil] at hhead
    · exact List.cons_ne_nil _ _
  rw [chunk]
  split
  · exact ⟨[], inQuotes text.toList, rfl, rfl, List.forall_mem_nil _, hquoted⟩
  · obtain ⟨pieces, last, hlines, hflatten, hcuts, -, hne⟩ :=
      exists_cuts width.toNat (inQuotes text.toList)
    exact ⟨pieces, last, by rw [hlines], hflatten, fun piece hpiece => (hcuts piece hpiece).ne_nil,
      hne hquoted⟩

/-- A text in double quotes that is cut into lines of three characters or more is the pieces in
front of the backslashes and the last line. Nowhere does a cut follow an odd number of backslashes.
No line is wider than it may be, except that one may have a space at the edge and its backslash
behind it. -/
theorem exists_pieces_chunk (text : String) {width : Int} (hwidth : 3 ≤ width) :
    ∃ (pieces : List (List Char)) (last : List Char),
      chunk text width = (pieces.map (· ++ ['\\']) ++ [last]).map String.ofList ∧
      pieces.flatten ++ last = inQuotes text.toList ∧
      (∀ front, front <+: pieces → endingBackslashes front.flatten % 2 = 0) ∧
      (∀ piece ∈ pieces, piece.length + 1 ≤ width ∨
        piece.length = width ∧ piece.getLast? = some ' ') ∧
      last.length ≤ width := by
  obtain ⟨pieces, last, hlines, hflatten, heven, hfits, hlast⟩ :=
    @exists_pieces_cutLines width.toNat (by omega) (inQuotes text.toList)
  refine ⟨pieces, last, ?_, hflatten, fun front hfront => ?_, fun piece hpiece => ?_, by omega⟩
  · rw [chunk, if_neg (by omega), hlines]
  · exact even_flatten fun piece hpiece => heven piece (hfront.subset hpiece)
  · rcases hfits piece hpiece with hlt | ⟨heq, hspace⟩
    · exact .inl (by omega)
    · exact .inr ⟨by omega, hspace⟩

/-- The first cut is made one character early for the sake of an escape, the second one falls behind
a space. -/
theorem exists_pieces_chunk_escape :
    let lines := ["\"ab\\", "\\\\b \\", "c d\""]
    chunk "\"ab\\\\b c d\"" 5 = lines ∧
      ∃ (pieces : List (List Char)) (last : List Char),
        lines = (pieces.map (· ++ ['\\']) ++ [last]).map String.ofList ∧
        pieces.flatten ++ last = "\"ab\\\\b c d\"".toList ∧
        ∀ piece ∈ pieces, piece.length + 1 ≤ 5 ∨ piece.length = 5 ∧ piece.getLast? = some ' ' := by
  intro lines
  have hlines : chunk "\"ab\\\\b c d\"" 5 = lines := by decide +kernel
  obtain ⟨pieces, last, hchunk, hflatten, -, hfits, -⟩ :=
    @exists_pieces_chunk "\"ab\\\\b c d\"" 5 (by decide)
  refine ⟨hlines, pieces, last, hlines ▸ hchunk, hflatten, ?_⟩
  exact_mod_cast hfits

/-- A space at the edge makes its line one character too wide. -/
theorem chunk_space_at_edge :
    chunk "a bcd" 3 = ["\"a \\", "bc\\", "d\""] ∧ ¬∀ line ∈ chunk "a bcd" 3, line.length ≤ 3 := by
  decide +kernel

end LayeredConfig.Commented
