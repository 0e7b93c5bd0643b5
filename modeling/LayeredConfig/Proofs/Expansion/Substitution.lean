import LayeredConfig.Proofs.Expansion.Rewrite

/-! # Placeholders in a text

A pass over a text cuts it at the placeholders whose names are known. The cut depends on the text
and on which names are known, but not on the replacements, so that no replacement is looked at. -/

namespace LayeredConfig

/-! ## The first occurrence -/

section Cut

variable {mark text before after : List Char}

theorem Text.not_infix_of_cut?_eq_none (h : cut? mark text = none) : ¬ mark <:+: text := by
  induction text with
  | nil =>
      rw [List.infix_nil]
      rintro rfl
      cases h
  | cons c rest ih =>
      rw [cut?] at h
      split at h
      · cases h
      · next hmark =>
        rw [List.infix_cons_iff, ← List.isPrefixOf_iff_prefix]
        exact not_or.mpr ⟨hmark, ih (Option.map_eq_none_iff.mp h)⟩

/-- The mark does not start in front of where it is found. -/
theorem Text.length_le_of_cut? (h : cut? mark text = some (before, after)) {other : List Char}
    (hother : other ++ mark <+: text) : before.length ≤ other.length := by
  induction text generalizing before other with
  | nil =>
      have hlength := cut?_length h
      simp only [List.length_nil] at hlength
      omega
  | cons c rest ih =>
      rw [cut?] at h
      split at h
      · cases h
        exact Nat.zero_le _
      · next hmark =>
        obtain ⟨⟨before, after⟩, hcut, heq⟩ := Option.map_eq_some_iff.mp h
        cases heq
        cases other with
        | nil => exact (hmark (List.isPrefixOf_iff_prefix.mpr hother)).elim
        | cons d other =>
            rw [List.cons_append, List.cons_prefix_cons] at hother
            exact Nat.succ_le_succ (ih hcut hother.2)

theorem Text.not_infix_of_cut? (hmark : mark ≠ []) (h : cut? mark text = some (before, after)) :
    ¬ mark <:+: before := by
  rintro ⟨first, second, rfl⟩
  have hother : first ++ mark <+: text := by
    rw [eq_of_cut? h, List.append_assoc, List.append_assoc _ second]
    exact List.prefix_append _ _
  have hle := length_le_of_cut? h hother
  have hpos := List.length_pos_iff.mpr hmark
  simp only [List.length_append] at hle
  omega

end Cut

/-! ## Pieces of a text -/

/-- A text cut at placeholders: what stands in front of each of them with its name, and what is
left behind the last one. -/
structure Segments where
  placeholders : List (List Char × List Char)
  last : List Char

namespace Segments

def names (segments : Segments) : List (List Char) := segments.placeholders.map (·.2)

/-- The text with `middle name` in the place of each placeholder. -/
def fill (middle : List Char → List Char) (segments : Segments) : List Char :=
  (segments.placeholders.flatMap fun part => part.1 ++ middle part.2) ++ segments.last

/-- One more placeholder in front of all others. -/
def push (literal name : List Char) (segments : Segments) : Segments :=
  { segments with placeholders := (literal, name) :: segments.placeholders }

/-- More text in front of the first placeholder. -/
def behind (literal : List Char) : Segments → Segments
  | ⟨[], last⟩ => ⟨[], literal ++ last⟩
  | ⟨(first, name) :: rest, last⟩ => ⟨(literal ++ first, name) :: rest, last⟩

variable (middle : List Char → List Char) (literal name : List Char) (segments : Segments)

@[simp] theorem fill_nil (text : List Char) : fill middle ⟨[], text⟩ = text := rfl

@[simp] theorem fill_push :
    (segments.push literal name).fill middle = literal ++ middle name ++ segments.fill middle := by
  simp [push, fill]

@[simp] theorem fill_behind :
    (segments.behind literal).fill middle = literal ++ segments.fill middle := by
  obtain ⟨_ | ⟨⟨first, name⟩, rest⟩, last⟩ := segments <;> simp [behind, fill]

@[simp] theorem names_nil (text : List Char) : names ⟨[], text⟩ = [] := rfl

@[simp] theorem names_push : (segments.push literal name).names = name :: segments.names := rfl

@[simp] theorem names_behind : (segments.behind literal).names = segments.names := by
  obtain ⟨_ | ⟨⟨first, name⟩, rest⟩, last⟩ := segments <;> rfl

/-- The place of a character lies within a placeholder. -/
def Covers (place : Nat) : Prop :=
  ∃ first literal name rest, segments.placeholders = first ++ (literal, name) :: rest ∧
    (fill middle ⟨first, literal⟩).length ≤ place ∧
    place < (fill middle ⟨first ++ [(literal, name)], []⟩).length

variable {middle literal name segments}

theorem covers_push_of_lt {place : Nat} (hge : literal.length ≤ place)
    (hlt : place < literal.length + (middle name).length) :
    (segments.push literal name).Covers middle place :=
  ⟨[], literal, name, segments.placeholders, rfl, hge, by simpa [fill] using hlt⟩

theorem Covers.push {place : Nat} (h : segments.Covers middle place) :
    (segments.push literal name).Covers middle
      (literal.length + (middle name).length + place) := by
  obtain ⟨first, between, found, rest, heq, hge, hlt⟩ := h
  refine ⟨(literal, name) :: first, between, found, rest, by rw [Segments.push, heq]; rfl, ?_, ?_⟩
  · simp only [fill, List.flatMap_cons, List.length_append] at hge ⊢
    omega
  · simp only [fill, List.cons_append, List.flatMap_cons, List.length_append] at hlt ⊢
    omega

theorem Covers.behind {place : Nat} (h : segments.Covers middle place) :
    (segments.behind literal).Covers middle (literal.length + place) := by
  obtain ⟨first, between, found, rest, heq, hge, hlt⟩ := h
  obtain ⟨placeholders, last⟩ := segments
  obtain rfl : placeholders = first ++ (between, found) :: rest := heq
  cases first with
  | nil =>
      refine ⟨[], literal ++ between, found, rest, rfl, ?_, ?_⟩ <;>
      simp only [fill, List.nil_append, List.flatMap_cons, List.flatMap_nil, List.length_append,
        List.length_nil] at hge hlt ⊢ <;>
      omega
  | cons part first =>
      refine ⟨(literal ++ part.1, part.2) :: first, between, found, rest, rfl, ?_, ?_⟩ <;>
      simp only [fill, List.cons_append, List.flatMap_cons, List.length_append] at hge hlt ⊢ <;>
      omega

end Segments

namespace Directive

/-! ## The pass -/

section Pass

variable (directive : Directive)

/-- A name between the delimiters. -/
def placeholder (name : List Char) : List Char := directive.opening ++ name ++ directive.closing

/-- What is put in the place of a name. -/
def replacement (name : List Char) : List Char :=
  (directive.lookup (String.ofList name)).1.toList

def knows (name : List Char) : Bool := (directive.lookup (String.ofList name)).2

/-- A pass over a text: the names that are looked up in turn, and the pieces that the text is cut
into. An unknown name is looked through once more, from its beginning on. -/
inductive Scans : List Char → List (List Char) → Segments → Prop where
  | last {text : List Char} (hopen : Text.cut? directive.opening text = none) :
      Scans text [] ⟨[], text⟩
  | unclosed {text before after : List Char}
      (hopen : Text.cut? directive.opening text = some (before, after))
      (hclose : Text.cut? directive.closing after = none) : Scans text [] ⟨[], text⟩
  | known {text before after name rest : List Char} {asked : List (List Char)}
      {segments : Segments} (hopen : Text.cut? directive.opening text = some (before, after))
      (hclose : Text.cut? directive.closing after = some (name, rest))
      (hknown : directive.knows name = true) (h : Scans rest asked segments) :
      Scans text (name :: asked) (segments.push before name)
  | unknown {text before after name rest : List Char} {asked : List (List Char)}
      {segments : Segments} (hopen : Text.cut? directive.opening text = some (before, after))
      (hclose : Text.cut? directive.closing after = some (name, rest))
      (hunknown : directive.knows name = false) (h : Scans after asked segments) :
      Scans text (name :: asked) (segments.behind (before ++ directive.opening))

theorem exists_scans (text : List Char) :
    ∃ asked segments, directive.Scans text asked segments := by
  fun_induction substituteChars directive text with
  | case1 text hopen => exact ⟨_, _, .last hopen⟩
  | case2 text before after hopen hclose => exact ⟨_, _, .unclosed hopen hclose⟩
  | case3 text before after hopen name rest hclose replacement tail hlookup ih =>
      obtain ⟨asked, segments, h⟩ := ih
      have hknown : directive.knows name = true := by rw [knows, hlookup]
      exact ⟨_, _, .known hopen hclose hknown h⟩
  | case4 text before after hopen name rest hclose replacement found hlookup hfound tail ih =>
      obtain ⟨asked, segments, h⟩ := ih
      have hunknown : directive.knows name = false := by
        rw [knows, hlookup]
        exact Bool.eq_false_iff.mpr hfound
      exact ⟨_, _, .unknown hopen hclose hunknown h⟩

variable {directive} {text : List Char} {asked : List (List Char)} {segments : Segments}

/-! ### What a pass yields -/

theorem substituteChars_of_closed {before after name rest : List Char}
    (hopen : Text.cut? directive.opening text = some (before, after))
    (hclose : Text.cut? directive.closing after = some (name, rest)) :
    directive.substituteChars text =
      if directive.knows name then
        { text := before ++ directive.replacement name ++ (directive.substituteChars rest).text
          changed := true
          unterminated := (directive.substituteChars rest).unterminated }
      else
        { text := before ++ directive.opening ++ (directive.substituteChars after).text
          changed := (directive.substituteChars after).changed
          unterminated := (directive.substituteChars after).unterminated } := by
  rw [substituteChars]
  split
  · next hcut => cases hopen.symm.trans hcut
  · next hcut =>
    cases hopen.symm.trans hcut
    split
    · next hcut => cases hclose.symm.trans hcut
    · next hcut =>
      cases hclose.symm.trans hcut
      rfl

theorem substituteChars_of_not_open (hopen : Text.cut? directive.opening text = none) :
    directive.substituteChars text = ⟨text, false, false⟩ := by
  rw [substituteChars]
  split
  · rfl
  · next hcut => cases hopen.symm.trans hcut

theorem substituteChars_of_not_closed {before after : List Char}
    (hopen : Text.cut? directive.opening text = some (before, after))
    (hclose : Text.cut? directive.closing after = none) :
    directive.substituteChars text = ⟨text, false, true⟩ := by
  rw [substituteChars]
  split
  · next hcut => cases hopen.symm.trans hcut
  · next hcut =>
    cases hopen.symm.trans hcut
    split
    · rfl
    · next hcut => cases hclose.symm.trans hcut

theorem Scans.substituteChars_eq (h : directive.Scans text asked segments) :
    (directive.substituteChars text).text = segments.fill directive.replacement ∧
      (directive.substituteChars text).changed = !segments.names.isEmpty := by
  induction h with
  | last hopen =>
      rw [substituteChars_of_not_open hopen]
      exact ⟨rfl, rfl⟩
  | unclosed hopen hclose =>
      rw [substituteChars_of_not_closed hopen hclose]
      exact ⟨rfl, rfl⟩
  | known hopen hclose hknown h ih =>
      rw [substituteChars_of_closed hopen hclose, hknown, if_pos rfl, ih.1, Segments.fill_push]
      exact ⟨rfl, rfl⟩
  | unknown hopen hclose hunknown h ih =>
      rw [substituteChars_of_closed hopen hclose, hunknown, if_neg Bool.false_ne_true,
        Segments.names_behind, Segments.fill_behind, ih.1, ih.2]
      exact ⟨rfl, rfl⟩

/-- The pieces of a text do not depend on what is put in the place of names. -/
theorem Scans.of_alike (h : directive.Scans text asked segments) {other : Directive}
    (hopening : other.opening = directive.opening) (hclosing : other.closing = directive.closing)
    (hknows : ∀ name, other.knows name = directive.knows name) :
    other.Scans text asked segments := by
  induction h with
  | last hopen => exact .last (hopening ▸ hopen)
  | unclosed hopen hclose => exact .unclosed (hopening ▸ hopen) (hclosing ▸ hclose)
  | known hopen hclose hknown h ih =>
      exact .known (hopening ▸ hopen) (hclosing ▸ hclose) ((hknows _).trans hknown) ih
  | unknown hopen hclose hunknown h ih =>
      rw [← hopening]
      exact .unknown (hopening ▸ hopen) (hclosing ▸ hclose) ((hknows _).trans hunknown) ih

theorem Scans.fill_placeholder (h : directive.Scans text asked segments) :
    segments.fill directive.placeholder = text := by
  induction h with
  | last | unclosed => rfl
  | known hopen hclose hknown h ih =>
      rw [Segments.fill_push, ih, Text.eq_of_cut? hopen, Text.eq_of_cut? hclose]
      simp [placeholder]
  | unknown hopen hclose hunknown h ih =>
      rw [Segments.fill_behind, ih, Text.eq_of_cut? hopen]

/-- Names that are known are exchanged, all others stay. -/
theorem Scans.names_eq (h : directive.Scans text asked segments) :
    segments.names = asked.filter directive.knows := by
  induction h with
  | last | unclosed => rfl
  | known hopen hclose hknown h ih =>
      rw [Segments.names_push, ih, List.filter_cons_of_pos hknown]
  | unknown hopen hclose hunknown h ih =>
      rw [Segments.names_behind, ih, List.filter_cons_of_neg (Bool.eq_false_iff.mp hunknown)]

theorem Scans.not_infix (h : directive.Scans text asked segments) :
    ∀ name ∈ asked, ¬ directive.closing <:+: name := by
  induction h with
  | last | unclosed => exact fun _ hname => (List.not_mem_nil hname).elim
  | known hopen hclose _ h ih | unknown hopen hclose _ h ih =>
      exact List.forall_mem_cons.mpr ⟨Text.not_infix_of_cut? directive.closing_ne hclose, ih⟩

/-- For each name that is looked up an opening delimiter is passed. -/
theorem Scans.length_asked_le (h : directive.Scans text asked segments) :
    asked.length * directive.opening.length ≤ text.length := by
  induction h with
  | last | unclosed => simp
  | known hopen hclose _ h ih | unknown hopen hclose _ h ih =>
      have hlength := Text.cut?_length hopen
      have hshorter := Text.cut?_length hclose
      rw [List.length_cons, Nat.succ_mul]
      omega

/-! ### What a pass leaves alone -/

/-- Behind `before` stands an opening delimiter, and `name` reaches up to the first closing
delimiter behind it. -/
def Encloses (directive : Directive) (text before name : List Char) : Prop :=
  ∃ rest after, text = before ++ directive.opening ++ rest ∧
    Text.cut? directive.closing rest = some (name, after)

/-- An opening delimiter starts in front of the place and reaches beyond it. -/
def Overlaps (directive : Directive) (text : List Char) (place : Nat) : Prop :=
  ∃ other, other ++ directive.opening <+: text ∧ other.length < place ∧
    place < other.length + directive.opening.length

theorem Overlaps.behind {rest : List Char} {place : Nat} (h : directive.Overlaps rest place)
    (passed : List Char) : directive.Overlaps (passed ++ rest) (passed.length + place) := by
  obtain ⟨other, hother, hlt, hgt⟩ := h
  refine ⟨passed ++ other, ?_, ?_, ?_⟩
  · rw [List.append_assoc]
    exact (List.prefix_append_right_inj passed).mpr hother
  · simpa using hlt
  · rw [List.length_append]
    omega

theorem exists_append_of_length_le {first second rest other : List Char}
    (h : first ++ rest = second ++ other) (hle : first.length ≤ second.length) :
    ∃ more, second = first ++ more ∧ rest = more ++ other := by
  rcases List.append_eq_append_iff.mp h with h | ⟨more, rfl, rfl⟩
  · exact h
  · obtain rfl : more = [] := by
      rw [List.length_append] at hle
      exact List.length_eq_zero_iff.mp (by omega)
    exact ⟨[], by simp, by simp⟩

section Encloses

variable {before name passed left : List Char}

theorem Encloses.exists_of_behind {rest : List Char}
    (h : directive.Encloses (passed ++ rest) before name) (hle : passed.length ≤ before.length) :
    ∃ more, before = passed ++ more ∧ directive.Encloses rest more name := by
  obtain ⟨behind, after, htext, hcut⟩ := h
  rw [List.append_assoc] at htext
  obtain ⟨more, rfl, hrest⟩ := exists_append_of_length_le htext hle
  exact ⟨more, rfl, behind, after, by rw [hrest, List.append_assoc], hcut⟩

theorem Encloses.behind {rest : List Char} (h : directive.Encloses rest before name)
    (passed : List Char) : directive.Encloses (passed ++ rest) (passed ++ before) name := by
  obtain ⟨behind, after, rfl, hcut⟩ := h
  exact ⟨behind, after, by simp, hcut⟩

theorem Encloses.length_le (h : directive.Encloses text before name)
    (hopen : Text.cut? directive.opening text = some (passed, left)) :
    passed.length ≤ before.length := by
  obtain ⟨behind, _, htext, _⟩ := h
  exact Text.length_le_of_cut? hopen ⟨behind, htext.symm⟩

/-- No delimiter closes a name unless one closes the first name. -/
theorem Encloses.closing_infix (h : directive.Encloses text before name)
    (hopen : Text.cut? directive.opening text = some (passed, left)) :
    directive.closing <:+: left := by
  have hle := h.length_le hopen
  obtain ⟨behind, after, htext, hcut⟩ := h
  have hboth : (passed ++ directive.opening) ++ left = (before ++ directive.opening) ++ behind :=
    (Text.eq_of_cut? hopen).symm.trans htext
  obtain ⟨more, _, rfl⟩ := exists_append_of_length_le hboth (by simpa using hle)
  rw [Text.eq_of_cut? hcut]
  exact ⟨more ++ name, after, by simp⟩

end Encloses

/-- An opening delimiter with a known name behind it stands in a placeholder that is exchanged,
unless it overlaps with an opening delimiter that starts in front of it. -/
theorem Scans.covers (h : directive.Scans text asked segments) {before name : List Char}
    (hname : directive.Encloses text before name) (hknown : directive.knows name = true) :
    segments.Covers directive.placeholder before.length ∨
      directive.Overlaps text before.length := by
  induction h generalizing before with
  | last hopen =>
      obtain ⟨behind, _, rfl, _⟩ := hname
      exact (Text.not_infix_of_cut?_eq_none hopen ⟨before, behind, rfl⟩).elim
  | unclosed hopen hclose =>
      exact (Text.not_infix_of_cut?_eq_none hclose (hname.closing_infix hopen)).elim
  | @known text passed left found rest asked segments hopen hclose _ h ih =>
      have htext : text = (passed ++ directive.placeholder found) ++ rest := by
        rw [Text.eq_of_cut? hopen, Text.eq_of_cut? hclose]
        simp [placeholder]
      rcases Nat.lt_or_ge before.length (passed ++ directive.placeholder found).length with
        hlt | hge
      · exact .inl (Segments.covers_push_of_lt (hname.length_le hopen) (by simpa using hlt))
      · subst htext
        obtain ⟨more, rfl, hmore⟩ := hname.exists_of_behind hge
        rw [List.length_append]
        refine (ih hmore).imp (fun hcovers => ?_) fun hoverlaps => hoverlaps.behind _
        rw [List.length_append]
        exact hcovers.push
  | @unknown text passed left found rest asked segments hopen hclose hunknown h ih =>
      have htext := Text.eq_of_cut? hopen
      rcases Nat.lt_or_ge before.length (passed ++ directive.opening).length with hlt | hge
      · rcases Nat.lt_or_eq_of_le (hname.length_le hopen) with hless | hequal
        · exact .inr ⟨passed, htext ▸ List.prefix_append _ _, hless, by simpa using hlt⟩
        · -- The name is the one that the pass has just looked up.
          obtain ⟨behind, _, hbehind, hcut⟩ := hname
          rw [htext] at hbehind
          obtain ⟨_, rfl⟩ := List.append_inj hbehind (by simpa using hequal)
          cases hclose.symm.trans hcut
          rw [hunknown] at hknown
          cases hknown
      · subst htext
        obtain ⟨more, rfl, hmore⟩ := hname.exists_of_behind hge
        rw [List.length_append]
        exact (ih hmore).imp (fun hcovers => hcovers.behind) fun hoverlaps => hoverlaps.behind _

/-- The first name is enclosed where the pass finds it, all others behind some part of the text. -/
theorem forall_encloses_cons {passed left name rest next : List Char}
    (hopen : Text.cut? directive.opening text = some (passed, left))
    (hclose : Text.cut? directive.closing left = some (name, rest)) (hnext : next <:+ left)
    (h : ∀ name ∈ asked, ∃ before, directive.Encloses next before name) :
    ∀ other ∈ name :: asked, ∃ before, directive.Encloses text before other := by
  have htext := Text.eq_of_cut? hopen
  refine List.forall_mem_cons.mpr ⟨⟨passed, left, rest, htext, hclose⟩, fun other hother => ?_⟩
  obtain ⟨before, hbefore⟩ := h other hother
  obtain ⟨more, rfl⟩ := hnext
  rw [htext, ← List.append_assoc]
  exact ⟨_, hbefore.behind _⟩

theorem Scans.exists_encloses (h : directive.Scans text asked segments) :
    ∀ name ∈ asked, ∃ before, directive.Encloses text before name := by
  induction h with
  | last | unclosed => exact fun _ hname => (List.not_mem_nil hname).elim
  | known hopen hclose _ _ ih =>
      have hrest : _ <:+ _ := ⟨_, (Text.eq_of_cut? hclose).symm⟩
      exact forall_encloses_cons hopen hclose hrest ih
  | unknown hopen hclose _ _ ih =>
      exact forall_encloses_cons hopen hclose List.suffix_rfl ih

theorem Scans.names_eq_nil (h : directive.Scans text asked segments)
    (hunknown : ∀ before name, directive.Encloses text before name → directive.knows name = false) :
    segments.names = [] := by
  rw [h.names_eq, List.filter_eq_nil_iff]
  intro name hname
  obtain ⟨before, hbefore⟩ := h.exists_encloses name hname
  exact Bool.eq_false_iff.mp (hunknown before name hbefore)

theorem Scans.substitute_eq {text : String} (h : directive.Scans text.toList asked segments) :
    (directive.substitute text).1 = String.ofList (segments.fill directive.replacement) ∧
      ((directive.substitute text).2.1 = true ↔ 0 < segments.names.length) := by
  obtain ⟨htext, hchanged⟩ := h.substituteChars_eq
  rw [substitute, htext, hchanged]
  refine ⟨rfl, ?_⟩
  rw [List.length_pos_iff, Bool.not_eq_true', List.isEmpty_eq_false_iff]

end Pass

/-- Substitution exchanges disjoint placeholders and nothing else. A pass comes to an end, since it
passes an opening delimiter for each name that it looks up. It cuts the text at placeholders with
known names and puts their replacements between the other pieces, and the text has changed if there
is one. The pieces are the same for any other replacements, which are thus not looked at. Without a
known name between delimiters the text stays; and each one that there is stands in a placeholder
that is exchanged, unless its opening delimiter overlaps with another one. -/
theorem exists_segments (directive : Directive) (text : String) :
    ∃ asked segments, directive.Scans text.toList asked segments ∧
      asked.length * directive.opening.length ≤ text.toList.length ∧
      text.toList = segments.fill directive.placeholder ∧
      (∀ name ∈ segments.names, ¬ directive.closing <:+: name ∧ directive.knows name = true) ∧
      (directive.substitute text).1 = String.ofList (segments.fill directive.replacement) ∧
      ((directive.substitute text).2.1 = true ↔ 0 < segments.names.length) ∧
      (∀ other : Directive, other.opening = directive.opening → other.closing = directive.closing →
        (∀ name, other.knows name = directive.knows name) →
        (other.substitute text).1 = String.ofList (segments.fill other.replacement)) ∧
      ((∀ before name, directive.Encloses text.toList before name → directive.knows name = false) →
        (directive.substitute text).1 = text ∧ (directive.substitute text).2.1 = false) ∧
      ∀ before name, directive.Encloses text.toList before name → directive.knows name = true →
        segments.Covers directive.placeholder before.length ∨
          directive.Overlaps text.toList before.length := by
  obtain ⟨asked, segments, h⟩ := directive.exists_scans text.toList
  refine ⟨asked, segments, h, h.length_asked_le, h.fill_placeholder.symm, fun name hname => ?_,
    h.substitute_eq.1, h.substitute_eq.2, fun other hopening hclosing hknows => ?_,
    fun hunknown => ?_, fun before name hname hknown => h.covers hname hknown⟩
  · rw [h.names_eq, List.mem_filter] at hname
    exact ⟨h.not_infix name hname.1, hname.2⟩
  · exact (h.of_alike hopening hclosing hknows).substitute_eq.1
  · have hchanged : (directive.substitute text).2.1 = false := by
      rw [Bool.eq_false_iff, ne_eq, h.substitute_eq.2, h.names_eq_nil hunknown]
      exact Nat.lt_irrefl 0
    exact ⟨substitute_of_not_changed hchanged, hchanged⟩

/-- The second of two overlapping delimiters encloses the known name, but the pass goes on behind
the first one. -/
example :
    let directive : Directive :=
      { lookup := fun name => ("", name == "a"), origin := ""
        opening := ['$', '$'], closing := ['.'], maximum := 1
        opening_ne := by simp, closing_ne := by simp, maximum_pos := by decide }
    directive.substitute "$$a.$$$a." = ("$$$a.", true, false) := by
  cbv

end Directive

end LayeredConfig
