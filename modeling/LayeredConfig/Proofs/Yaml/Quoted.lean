import LayeredConfig.Proofs.Number.Digits
import LayeredConfig.Proofs.Yaml.Scan
import LayeredConfig.Text.Quoted

/-! # Texts that are quoted scalars

Within quotes a character stands for itself unless it ends the scalar, starts an escape or ends a
line. A text as a JSON string is a scalar in double quotes too. -/

namespace LayeredConfig.Yaml

/-- The quotation mark at both ends of a scalar. -/
def closing (double : Bool) : Char := if double then '"' else '\''

/-- A text between quotes within a line, and the text that it stands for. -/
inductive Quotes (double : Bool) : List Char → List Char → Prop
  | nil : Quotes double [] []
  | char {c : Char} {chars text : List Char} (hclosing : c ≠ closing double)
      (hescape : double = true → c ≠ '\\') (hbreak : isBreak c = false)
      (h : Quotes double chars text) : Quotes double (c :: chars) (c :: text)
  | escape {c : Char} {escape chars text : List Char} (hdouble : double = true)
      (hescape : ∀ rest, quotedEscape (escape ++ rest) = .ok ([c], rest))
      (h : Quotes double chars text) : Quotes double ('\\' :: (escape ++ chars)) (c :: text)

variable {double : Bool} {chars text : List Char}

/-- Characters that all stand for themselves. -/
theorem Quotes.of_forall (hclosing : closing double ∉ text) (hescape : double = true → '\\' ∉ text)
    (hbreak : ∀ c ∈ text, isBreak c = false) : Quotes double text text := by
  induction text with
  | nil => exact .nil
  | cons c text ih =>
      simp only [List.mem_cons, not_or] at hclosing hescape
      obtain ⟨hc, hbreak⟩ := List.forall_mem_cons.mp hbreak
      exact .char (Ne.symm hclosing.1) (fun hdouble => Ne.symm (hescape hdouble).1) hc
        (ih hclosing.2 (fun hdouble => (hescape hdouble).2) hbreak)

/-! ## Reading between quotes -/

theorem quotedScalar_of_piece {c : Char} {rest piece after body left : List Char}
    (hpiece : quotedPiece double c rest = .ok (some (piece, after)))
    (hlength : after.length ≤ rest.length) (hafter : quotedScalar double after = .ok (body, left)) :
    quotedScalar double (c :: rest) = .ok (piece ++ body, left) := by
  rw [quotedScalar, hpiece]
  dsimp only
  rw [dif_pos hlength, hafter]

theorem quotedScalar_closing (double : Bool) {rest : List Char} (hrest : rest.head? ≠ some '\'') :
    quotedScalar double (closing double :: rest) = .ok ([], rest) := by
  have hpiece : quotedPiece double (closing double) rest = .ok none := by
    cases double <;> simp [quotedPiece, closing, hrest]
  rw [quotedScalar, hpiece]

/-- White space between quotes leads to no line break unless one follows. -/
theorem Quotes.takeBreak?_dropWhile (h : Quotes double chars text) {next : List Char}
    (hnext : takeBreak? (next.dropWhile fun c => c == ' ' || c == '\t') = none) :
    takeBreak? ((chars ++ next).dropWhile fun c => c == ' ' || c == '\t') = none := by
  have hhead : ∀ {c : Char} (more : List Char), c ≠ ' ' → c ≠ '\t' → isBreak c = false →
      takeBreak? ((c :: more).dropWhile fun c => c == ' ' || c == '\t') = none := by
    intro c more hspace htab hbreak
    rw [List.dropWhile_cons_of_neg (by simp [hspace, htab]), takeBreak?_cons hbreak]
  induction h with
  | nil => exact hnext
  | @char c chars text _ _ hbreak _ ih =>
      by_cases hblank : (c == ' ' || c == '\t') = true
      · rw [List.cons_append, List.dropWhile_cons, if_pos hblank]
        exact ih
      · rw [Bool.or_eq_true, beq_iff_eq, beq_iff_eq, not_or] at hblank
        exact hhead _ hblank.1 hblank.2 hbreak
  | escape => exact hhead _ (by decide) (by decide) (by decide)

theorem quotedPiece_blank (double : Bool) {c : Char} (hc : (c == ' ' || c == '\t') = true)
    {rest : List Char}
    (hbreak : takeBreak? (rest.dropWhile fun c => c == ' ' || c == '\t') = none) :
    quotedPiece double c rest =
      .ok (some (c :: rest.takeWhile (fun c => c == ' ' || c == '\t'),
        rest.dropWhile fun c => c == ' ' || c == '\t')) := by
  have hgap : quotedGap (c :: rest) =
      .ok (c :: rest.takeWhile (fun c => c == ' ' || c == '\t'),
        rest.dropWhile fun c => c == ' ' || c == '\t') := by
    simp only [quotedGap, List.dropWhile_cons, List.takeWhile_cons, hc, if_true, hbreak]
  rw [Bool.or_eq_true, beq_iff_eq, beq_iff_eq] at hc
  rcases hc with rfl | rfl <;> cases double <;> simp [quotedPiece, isGap, hgap, Except.map]

/-- A blank is kept, whether others follow it or not. -/
theorem quotedScalar_blank {c : Char} (hc : (c == ' ' || c == '\t') = true) {rest : List Char}
    (hbreak : takeBreak? (rest.dropWhile fun c => c == ' ' || c == '\t') = none)
    {body left : List Char} (hrest : quotedScalar double rest = .ok (body, left)) :
    quotedScalar double (c :: rest) = .ok (c :: body, left) := by
  have hpiece := quotedPiece_blank double hc hbreak
  have hlength := (List.dropWhile_suffix (l := rest) fun c => c == ' ' || c == '\t').length_le
  cases rest with
  | nil => exact quotedScalar_of_piece hpiece hlength hrest
  | cons d more =>
      cases hd : d == ' ' || d == '\t' with
      | false =>
          simp only [List.takeWhile_cons, List.dropWhile_cons, hd] at hpiece
          exact quotedScalar_of_piece hpiece le_rfl hrest
      | true =>
          -- The run of blanks goes on, and the scalar was read from within it.
          simp only [List.takeWhile_cons, List.dropWhile_cons, hd, if_true] at hpiece hbreak hlength
          have hmore := quotedPiece_blank double hd hbreak
          have hshorter :=
            (List.dropWhile_suffix (l := more) fun c => c == ' ' || c == '\t').length_le
          rw [quotedScalar, hmore] at hrest
          dsimp only at hrest
          rw [dif_pos hshorter] at hrest
          cases hafter : quotedScalar double (more.dropWhile fun c => c == ' ' || c == '\t') with
          | error => rw [hafter] at hrest; cases hrest
          | ok read =>
              rw [hafter] at hrest
              cases hrest
              exact quotedScalar_of_piece hpiece hlength hafter

/-- What stands between the quotes is read in front of whatever follows it. -/
theorem Quotes.quotedScalar_append (h : Quotes double chars text) {next body left : List Char}
    (hnext : takeBreak? (next.dropWhile fun c => c == ' ' || c == '\t') = none)
    (hread : quotedScalar double next = .ok (body, left)) :
    quotedScalar double (chars ++ next) = .ok (text ++ body, left) := by
  induction h with
  | nil => exact hread
  | @char c chars text hclosing hescape hbreak h ih =>
      cases hblank : c == ' ' || c == '\t' with
      | true => exact quotedScalar_blank hblank (h.takeBreak?_dropWhile hnext) ih
      | false =>
          have hpiece : quotedPiece double c (chars ++ next) = .ok (some ([c], chars ++ next)) := by
            have hgap : isGap c = false := by rw [isGap, hblank, hbreak]; rfl
            cases double with
            | false => simp_all [quotedPiece, closing]
            | true => simp_all [quotedPiece, closing]
          have hwhole := quotedScalar_of_piece hpiece le_rfl ih
          exact hwhole
  | @escape c escape chars text hdouble hescape h ih =>
      have hpiece : quotedPiece double '\\' (escape ++ chars ++ next) =
          .ok (some ([c], chars ++ next)) := by
        subst hdouble
        simp [quotedPiece, hescape, Except.map]
      have hwhole := quotedScalar_of_piece hpiece (by simp) ih
      exact hwhole

/-- Quoted texts are read up to their end. -/
theorem Quotes.quotedScalar (h : Quotes double chars text) {rest : List Char}
    (hrest : rest.head? ≠ some '\'') :
    quotedScalar double (chars ++ closing double :: rest) = .ok (text, rest) := by
  have hnext : takeBreak? ((closing double :: rest).dropWhile fun c => c == ' ' || c == '\t') =
      none := by
    cases double <;> exact takeBreak?_cons (by decide) rest
  have hread := h.quotedScalar_append hnext (quotedScalar_closing double hrest)
  rwa [List.append_nil] at hread

/-- An escaped line break vanishes, with the white space in front of the next line. -/
theorem quotedScalar_escapedBreak {width : Nat} {next body left : List Char}
    (hseparator : startsSeparator (List.replicate width ' ' ++ next) = false)
    (hnext : takeBreak? (next.dropWhile fun c => c == ' ' || c == '\t') = none)
    (hread : quotedScalar true (next.dropWhile fun c => c == ' ' || c == '\t') =
      .ok (body, left)) :
    quotedScalar true ('\\' :: '\n' :: (List.replicate width ' ' ++ next)) = .ok (body, left) := by
  have hdrop : ((List.replicate width ' ' ++ next).dropWhile fun c => c == ' ' || c == '\t') =
      next.dropWhile fun c => c == ' ' || c == '\t' := by
    apply List.dropWhile_append_of_pos
    intro c hc
    simp [List.eq_of_mem_replicate hc]
  have hbreaks : quotedBreaks (List.replicate width ' ' ++ next) =
      .ok ([], next.dropWhile fun c => c == ' ' || c == '\t') := by
    rw [quotedBreaks, if_neg (by simp [hseparator])]
    dsimp only
    split
    · rw [hdrop]
    · next htake => rw [hdrop, hnext] at htake; cases htake
  have hescape : quotedEscape ('\n' :: (List.replicate width ' ' ++ next)) =
      .ok ([], next.dropWhile fun c => c == ' ' || c == '\t') := by
    have hlookup : escapes.lookup '\n' = none := by decide
    have hwidth : escapeWidth '\n' = none := by decide
    simp only [quotedEscape, hlookup, hwidth, takeBreak?_lineFeed, hbreaks]
  have hpiece : quotedPiece true '\\' ('\n' :: (List.replicate width ' ' ++ next)) =
      .ok (some ([], next.dropWhile fun c => c == ' ' || c == '\t')) := by
    simp [quotedPiece, hescape, Except.map]
  have hlength : (next.dropWhile fun c => c == ' ' || c == '\t').length ≤
      ('\n' :: (List.replicate width ' ' ++ next)).length := by
    have hsuffix := (List.dropWhile_suffix (l := next) fun c => c == ' ' || c == '\t').length_le
    simp
    omega
  exact quotedScalar_of_piece hpiece hlength hread

/-! ## Quoted scalars as values -/

/-- A quoted text is a spelling of what it stands for. -/
theorem Scanner.Spells.of_quotes (h : Quotes double chars text) :
    Spells (closing double :: (chars ++ [closing double])) false (String.ofList text) where
  head := ⟨_, _, rfl, by cases double <;> rfl, by cases double <;> decide⟩
  token := by
    intro s found rest body column hstands hallowed _ hturns _
    have hquote : rest.head? ≠ some '\'' := by
      intro hhead
      obtain ⟨more, rfl⟩ := List.head?_eq_some_iff.mp hhead
      exact Bool.false_ne_true hturns.startsGap
    have hread := h.quotedScalar hquote
    refine ⟨closing double, chars ++ closing double :: rest, rest, false, by simp, ?_, .inl rfl⟩
    have hdrop : s.rest.drop 1 = chars ++ closing double :: rest := by
      rw [hstands.rest]
      simp
    have hnode : s.token (closing double) (chars ++ closing double :: rest) =
        s.node fun t => (Yaml.quotedScalar double t).map fun read =>
          (.scalar false (String.ofList read.1), read.2) := by
      cases double <;> simp [Scanner.token, closing]
    rw [hnode, node, saveCandidate_eq_self hallowed]
    simp only [bind, Except.bind, hdrop, hread, Except.map]
    rfl

/-! ## JSON strings -/

theorem quotedEscape_control {c : Char} (h : c.toNat < 0x20) (rest : List Char) :
    quotedEscape ('u' :: Text.digitsInBase 16 4 c.toNat ++ rest) = .ok ([c], rest) := by
  obtain ⟨hlength, hall, hvalue⟩ := Text.digitsInBase_control c.toNat h
  generalize Text.digitsInBase 16 4 c.toNat = digits at hlength hall hvalue ⊢
  have htake : (digits ++ rest).take 4 = digits := by rw [← hlength, List.take_left]
  have hdrop : (digits ++ rest).drop 4 = rest := by rw [← hlength, List.drop_left]
  have hvalid : c.toNat.isValidChar := c.valid
  have hchar : Text.charOfCode? c.toNat = some c := by
    rw [Text.charOfCode?, dif_pos hvalid]
    rfl
  have hescapes : escapes.lookup 'u' = none := by decide
  rw [List.cons_append, quotedEscape, hescapes]
  simp only [escapeWidth, htake, hdrop, hlength, hall, hvalue, hchar, beq_self_eq_true,
    Bool.and_true, if_true]
  rw [if_neg (by omega), if_neg (by omega)]
  rfl

/-- A JSON string is a scalar in double quotes, if it stays within a line. -/
theorem Quotes.of_jsonEscaped
    (h : ∀ c ∈ text.flatMap Text.jsonEscaped, isBreak c = false) :
    Quotes true (text.flatMap Text.jsonEscaped) text := by
  induction text with
  | nil => exact .nil
  | cons c text ih =>
      rw [List.flatMap_cons] at h ⊢
      obtain ⟨hc, htext⟩ := List.forall_mem_append.mp h
      have hrest := ih htext
      generalize hescaped : Text.jsonEscaped c = escaped at hc ⊢
      unfold Text.jsonEscaped at hescaped
      -- Seven characters have an escape of two characters.
      iterate 7
        split at hescaped
        · next heq =>
          obtain rfl := beq_iff_eq.mp heq
          subst hescaped
          exact .escape rfl (fun rest => rfl) hrest
      split at hescaped
      · next hcontrol =>
        subst hescaped
        exact .escape rfl (quotedEscape_control hcontrol) hrest
      · next hquote hbackslash _ _ _ _ _ _ =>
        subst hescaped
        exact .char (by simpa [closing] using hquote) (fun _ => by simpa using hbackslash)
          (hc c List.mem_cons_self) hrest

end LayeredConfig.Yaml
