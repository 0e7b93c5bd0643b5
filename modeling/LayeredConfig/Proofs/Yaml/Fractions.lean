import LayeredConfig.Proofs.Number.Pointed
import LayeredConfig.Proofs.Yaml.Pair
import LayeredConfig.Yaml.Writer

/-! # Numbers with a fraction

A decimal number is written with all its digits and with a point, if need be in front of a zero that
the number itself does not have. The text is that of a number with a fraction, and it is read as a
number of the same value. Only the smallest numbers there are have no room for the zero: their texts
are left to binary numbers and read as zero. -/

namespace LayeredConfig

namespace Text

/-! ## Texts character by character -/

theorem trim_eq_self {p : Char → Bool} {text : List Char} (h : ∀ c ∈ text, p c = false) :
    trim p text = text := by
  have hdrop : ∀ {chars : List Char}, (∀ c ∈ chars, p c = false) → chars.dropWhile p = chars := by
    intro chars hchars
    cases chars with
    | nil => rfl
    | cons c chars => exact List.dropWhile_cons_of_neg (by simp [hchars])
  rw [trim, trimRight, hdrop h, hdrop fun c hc => h c (List.mem_reverse.mp hc),
    List.reverse_reverse]

/-- Where no character depends on its neighbours, all are lowered one by one. -/
theorem lower_eq_map {f : Char → Char} {chars : List Char}
    (h : ∀ c ∈ chars, c ≠ 'Σ' ∧ mapCase lowerRuns lowerExpansions c = [f c]) :
    lower (String.ofList chars) = String.ofList (chars.map f) := by
  have hafter : ∀ before, lowerAfter before chars = chars.map f := by
    induction chars with
    | nil => exact fun _ => rfl
    | cons c chars ih =>
        intro before
        obtain ⟨⟨hsigma, hc⟩, hchars⟩ := List.forall_mem_cons.mp h
        simp only [lowerAfter, beq_false_of_ne hsigma, Bool.false_eq_true, if_false, hc,
          ih hchars, List.map_cons, List.singleton_append]
  rw [lower, String.toList_ofList, hafter]

end Text

open Text

namespace Yaml

variable {n : Numeral}

theorem decimalText_finite {negative : Bool} {coefficient : Nat} {exponent : Int}
    (h : n.chars = (Decimal.finite negative coefficient exponent).toChars) :
    decimalText (.finite negative coefficient exponent) = String.ofList n.pointed.chars := by
  have hdigits : ∀ {text : List Char}, Digits text → ∀ c ∈ text, (c != 'E') = true :=
    fun htext c hc => of_isAsciiDigit (P := fun c => (c != 'E') = true) (by decide) (htext c hc)
  have hchars : n.chars = (Decimal.signText n.negative ++
      (n.whole ++ Numeral.pointChars n.fraction)) ++ Numeral.exponentChars n.exponent := by
    simp [Numeral.chars, Numeral.body]
  have hmantissa : ∀ c ∈ Decimal.signText n.negative ++ (n.whole ++ Numeral.pointChars n.fraction),
      (c != 'E') = true := by
    refine List.forall_mem_append.mpr ⟨?_, List.forall_mem_append.mpr
      ⟨hdigits n.whole_digits, ?_⟩⟩
    · cases n.negative <;> simp [Decimal.signText]
    · rw [Numeral.pointChars]
      split
      · simp
      · exact List.forall_mem_cons.mpr ⟨rfl, hdigits n.fraction_digits⟩
  have hexponent : ∀ c ∈ (Numeral.exponentChars n.exponent).head?, (c != 'E') = false := by
    cases n.exponent <;> simp [Numeral.exponentChars]
  rw [decimalText]
  · simp only [← h]
    rw [hchars, takeWhile_append_eq hmantissa hexponent, dropWhile_append_eq hmantissa hexponent]
    by_cases hfraction : n.fraction = []
    · have hpoint : '.' ∉ Decimal.signText n.negative ++ n.whole := by
        intro hmem
        refine n.point_mem_chars_iff.mp ?_ hfraction
        rw [hchars, ← List.append_assoc, List.append_assoc _ (Numeral.pointChars n.fraction)]
        exact List.mem_append_left _ hmem
      refine congrArg String.ofList ?_
      rw [Numeral.pointChars, if_pos hfraction, List.append_nil, List.contains_eq_mem,
        decide_eq_false hpoint, Numeral.pointed, if_pos hfraction]
      simp [Numeral.chars, Numeral.body, Numeral.pointChars]
    · rw [n.pointed_of_fraction_ne_nil hfraction, hchars]
      simp [Numeral.pointChars, hfraction]
  · intro _ _ _ heq
    cases heq
  · intro _ heq
    cases heq

/-! ## The tag of a numeral -/

theorem not_isBoolText {text : String} (h : '.' ∈ text.toList) : isBoolText text = false := by
  have hwords : ∀ word ∈ truthTexts ++ falsehoodTexts, '.' ∉ word.toList := by decide +kernel
  simp only [isBoolText, List.contains_eq_mem, Bool.or_eq_false_iff, decide_eq_false_iff_not]
  exact ⟨fun hmem => hwords text (List.mem_append_left _ hmem) h,
    fun hmem => hwords text (List.mem_append_right _ hmem) h⟩

theorem isExponentText_exponentChars (exponent : Option Int) :
    isExponentText (Numeral.exponentChars exponent) = true := by
  cases exponent with
  | none => rfl
  | some exponent =>
      have hdigits : (Nat.toDigits 10 exponent.natAbs).all isAsciiDigit = true :=
        List.all_eq_true.mpr (digits_toDigits _)
      have hne : (Nat.toDigits 10 exponent.natAbs).isEmpty = false :=
        List.isEmpty_eq_false_iff.mpr Nat.toDigits_ne_nil
      rw [Numeral.exponentChars, Option.elim_some, Decimal.exponentText, isExponentText, hdigits,
        hne]
      split <;> rfl

theorem unsigned_chars (n : Numeral) : unsigned n.chars = n.body := by
  obtain ⟨c, rest, hbody, hdigit⟩ := n.exists_body_eq
  obtain ⟨hminus, hplus⟩ := Numeral.ne_sign hdigit
  rw [Numeral.chars, hbody]
  cases n.negative with
  | true => rfl
  | false =>
      show unsigned (c :: rest) = c :: rest
      rw [unsigned]
      · exact fun _ h => hminus (List.cons.inj h).1
      · exact fun _ h => hplus (List.cons.inj h).1

theorem isFloatText_chars (h : n.fraction ≠ []) : isFloatText n.chars = true := by
  have hgap : ∀ {text : List Char}, Digits text → ∀ c ∈ text, isDigitOrGap c = true :=
    fun htext c hc => by rw [isDigitOrGap, htext c hc, Bool.true_or]
  have hpoint : ∀ c ∈ n.whole, (c != '.') = true := fun c hc =>
    of_isAsciiDigit (P := fun c => (c != '.') = true) (by decide) (n.whole_digits c hc)
  have hexponent : ∀ c ∈ (Numeral.exponentChars n.exponent).head?, isDigitOrGap c = false := by
    cases n.exponent with
    | none => simp [Numeral.exponentChars]
    | some exponent =>
        rintro c ⟨⟩
        decide
  have hbody : n.body = n.whole ++ '.' :: (n.fraction ++ Numeral.exponentChars n.exponent) := by
    rw [Numeral.body, Numeral.pointChars, if_neg h, List.cons_append]
  have hgrouped : isGrouped n.whole = true := by
    obtain ⟨c, rest, hwhole⟩ := List.exists_cons_of_ne_nil n.whole_ne_nil
    rw [isGrouped, List.all_eq_true.mpr (hgap n.whole_digits), Bool.and_true, hwhole,
      List.head?_cons, Option.any_some]
    exact n.whole_digits c (hwhole ▸ List.mem_cons_self)
  rw [isFloatText, unsigned_chars, hbody, takeWhile_append_eq hpoint (by simp),
    dropWhile_append_eq hpoint (by simp)]
  simp only [dropWhile_append_eq (hgap n.fraction_digits) hexponent, hgrouped,
    isExponentText_exponentChars, Bool.and_self, Bool.true_or]

/-- A numeral with a point is what a number with a fraction looks like. -/
theorem resolve_chars (h : n.fraction ≠ []) :
    resolve (String.ofList n.chars) = coreTag "float" := by
  have hpoint : '.' ∈ (String.ofList n.chars).toList := by
    rw [String.toList_ofList]
    exact n.point_mem_chars_iff.mpr h
  have hend : dropEnd? ['\n'] (String.ofList n.chars).toList = none := by
    rw [String.toList_ofList, dropEnd?, if_neg]
    intro hsuffix
    have hfeed : '\n' ∈ n.chars :=
      (List.isSuffixOf_iff_suffix.mp hsuffix).subset List.mem_cons_self
    exact n.mem_chars (P := (· ≠ '\n')) (by decide) (by decide) '\n' hfeed rfl
  rw [resolve, hend, resolveLine, not_isBoolText hpoint, String.toList_ofList,
    isFloatText_chars h]
  simp

/-! ## The number of a numeral -/

theorem fraction_chars (n : Numeral) : TaggedScalar.fraction (String.ofList n.chars) =
    if n.value.isRepresentable then .ok n.value
    else (TaggedScalar.double (String.ofList n.chars)).map Binary64.toShortestDecimal := by
  have hgap : n.chars.filter (· != '_') = n.chars :=
    List.filter_eq_self.mpr (n.mem_chars (by decide) (by decide))
  have hblank : ∀ c ∈ n.chars, isBlank c = false := n.mem_chars (by decide) (by decide)
  rw [TaggedScalar.fraction, TaggedScalar.withoutGaps, String.toList_ofList, hgap, Decimal.ofText?,
    String.toList_ofList, trim_eq_self hblank, hgap, n.ofChars?_chars, Option.filter_some]
  by_cases hvalue : n.value.isRepresentable = true
  · rw [if_pos hvalue, if_pos hvalue]
  · rw [if_neg hvalue, if_neg hvalue]

/-- The mark of an exponent is the only letter of a numeral. -/
def small (c : Char) : Char := if c = 'E' then 'e' else c

theorem lower_chars (n : Numeral) :
    lower (String.ofList n.chars) = String.ofList (n.chars.map small) :=
  lower_eq_map (n.mem_chars (by decide +kernel) (by decide +kernel))

theorem map_small {text : List Char} (h : 'E' ∉ text) : text.map small = text := by
  conv_rhs => rw [← List.map_id text]
  apply List.map_congr_left
  intro c hc
  have hmark : c ≠ 'E' := fun heq => h (heq ▸ hc)
  exact if_neg hmark

theorem map_small_of_digits {text : List Char} (h : Digits text) : text.map small = text :=
  map_small fun hmem => absurd (h 'E' hmem) (by decide)

theorem body_map_small (n : Numeral) : n.body.map small = n.whole ++
    (Numeral.pointChars n.fraction ++ (Numeral.exponentChars n.exponent).map small) := by
  have hpoint : (Numeral.pointChars n.fraction).map small = Numeral.pointChars n.fraction := by
    rw [Numeral.pointChars]
    split
    · rfl
    · rw [List.map_cons, map_small_of_digits n.fraction_digits]
      rfl
  rw [Numeral.body, List.map_append, List.map_append, map_small_of_digits n.whole_digits, hpoint]

theorem exists_body_small (n : Numeral) :
    ∃ c rest, n.body.map small = c :: rest ∧ isAsciiDigit c = true := by
  obtain ⟨c, rest, hwhole⟩ := List.exists_cons_of_ne_nil n.whole_ne_nil
  exact ⟨c, _, by rw [body_map_small, hwhole, List.cons_append],
    n.whole_digits c (hwhole ▸ List.mem_cons_self)⟩

/-- The mark of the exponent does not matter. -/
theorem ofChars?_body_small (n : Numeral) : Decimal.ofChars? (n.body.map small) =
    some (.finite false (digitsValue (n.whole ++ n.fraction))
      (n.exponent.getD 0 - n.fraction.length)) := by
  have hexponent : Decimal.exponent? ((Numeral.exponentChars n.exponent).map small) =
      some (n.exponent.getD 0) := by
    cases n.exponent with
    | none => rfl
    | some exponent =>
        have hmap : (Decimal.exponentText exponent).map small = Decimal.exponentText exponent := by
          rw [Decimal.exponentText, List.map_cons, map_small_of_digits (digits_toDigits _)]
          split <;> rfl
        rw [Numeral.exponentChars, Option.elim_some, List.map_cons, hmap]
        exact Numeral.exponent?_mark (.inl rfl) exponent
  have hhead : ∀ c ∈ ((Numeral.exponentChars n.exponent).map small).head?,
      isDecimalDigit c = false ∧ c ≠ '.' := by
    cases n.exponent with
    | none => simp [Numeral.exponentChars]
    | some exponent =>
        rintro c ⟨⟩
        decide
  have hread := n.unsigned?_append false hexponent hhead
  rw [← body_map_small] at hread
  obtain ⟨c, rest, hbody, hdigit⟩ := exists_body_small n
  rw [← hread, hbody]
  exact Numeral.ofChars?_of_takeSign (Numeral.takeSign_cons hdigit rest) hdigit

theorem signed?_chars_small (n : Numeral) :
    TaggedScalar.signed? (n.chars.map small) = .ok (n.negative, n.body.map small) := by
  obtain ⟨c, rest, hbody, hdigit⟩ := exists_body_small n
  obtain ⟨hminus, hplus⟩ := Numeral.ne_sign hdigit
  rw [Numeral.chars, List.map_append, hbody]
  cases n.negative with
  | true => rfl
  | false =>
      show TaggedScalar.signed? (c :: rest) = .ok (false, c :: rest)
      rw [TaggedScalar.signed?]
      · exact List.cons_ne_nil c rest
      · exact fun _ h => hminus (List.cons.inj h).1
      · exact fun _ h => hplus (List.cons.inj h).1

/-- The binary number nearest to a decimal one, with the sign put on at the end. -/
def nearest (negative : Bool) (coefficient : Nat) (exponent : Int) : Binary64 :=
  let magnitude := Binary64.ofDecimal (.finite false coefficient exponent)
  if negative then magnitude.negate else magnitude

/-- A numeral is read as the nearest binary number. -/
theorem double_chars {negative : Bool} {coefficient : Nat} {exponent : Int}
    (h : n.value = .finite negative coefficient exponent) :
    TaggedScalar.double (String.ofList n.chars) = .ok (nearest negative coefficient exponent) := by
  obtain ⟨rfl, rfl, rfl⟩ := Decimal.finite.inj h
  have hgap : n.chars.filter (· != '_') = n.chars :=
    List.filter_eq_self.mpr (n.mem_chars (by decide) (by decide))
  have hbody : ∀ d ∈ n.body.map small, isBlank d = false ∧ d ≠ ':' := by
    intro d hd
    obtain ⟨c, hc, rfl⟩ := List.mem_map.mp hd
    exact n.mem_chars (P := fun c => isBlank (small c) = false ∧ small c ≠ ':') (by decide)
      (by decide) c (List.mem_append_right _ hc)
  have hcolon : (n.body.map small).contains ':' = false := by
    rw [List.contains_eq_mem, decide_eq_false_iff_not]
    exact fun hmem => (hbody ':' hmem).2 rfl
  have hname : ∀ name : String, name.toList.head? = some '.' →
      (n.body.map small == name.toList) = false := by
    intro name hhead
    obtain ⟨c, rest, hbody, hdigit⟩ := exists_body_small n
    refine beq_false_of_ne fun heq => ?_
    rw [← heq, hbody, List.head?_cons, Option.some_inj] at hhead
    exact of_isAsciiDigit (P := (· ≠ '.')) (by decide) hdigit hhead
  have hmagnitude : Binary64.ofChars? (n.body.map small) = some (Binary64.ofDecimal (.finite false
      (digitsValue (n.whole ++ n.fraction)) (n.exponent.getD 0 - n.fraction.length))) := by
    rw [Binary64.ofChars?, trim_eq_self fun d hd => (hbody d hd).1, ofChars?_body_small]
    rfl
  rw [TaggedScalar.double, TaggedScalar.withoutGaps, String.toList_ofList, hgap, lower_chars,
    String.toList_ofList, signed?_chars_small]
  simp only [bind, Except.bind, hcolon, hmagnitude, hname ".inf" rfl, hname ".nan" rfl,
    Bool.false_eq_true, if_false]
  rfl

/-- The nearest binary number is zero. -/
theorem nearest_least : ∀ coefficient < 10, ∀ negative : Bool,
    (nearest negative (10 * coefficient) (Decimal.leastExponent - 1)).toShortestDecimal =
      .finite negative 0 (-1) := by
  decide +kernel

/-- The number that is read from the digits of a finite number. -/
theorem exists_fraction_finite {negative : Bool} {coefficient : Nat} {exponent : Int}
    (h : (Decimal.finite negative coefficient exponent).isRepresentable = true) :
    ∃ read, TaggedScalar.fraction (decimalText (.finite negative coefficient exponent)) =
        .ok read ∧
      ((Decimal.finite negative coefficient exponent).Agrees read ↔
        ¬(Decimal.finite negative coefficient exponent).IsSmallest) := by
  obtain ⟨n, hchars, hvalue, -⟩ := Numeral.exists_chars_eq negative coefficient exponent
  have hread := fraction_chars n.pointed
  rw [← decimalText_finite hchars] at hread
  by_cases hfraction : n.fraction = []
  · have hpointed := Numeral.value_pointed hfraction hvalue
    by_cases hleast : exponent = Decimal.leastExponent
    · subst hleast
      have hsmall : coefficient < 10 := by
        by_contra hlarge
        refine n.point_mem_chars_iff.mp ?_ hfraction
        rw [hchars]
        exact List.mem_append_right _ (Decimal.mem_finiteText (not_lt.mp hlarge) (by decide))
      have hroom : ¬n.pointed.value.isRepresentable = true := by
        rw [hpointed, Decimal.isRepresentable_zero_behind h]
        simp
      rw [if_neg hroom, decimalText_finite hchars, double_chars hpointed] at hread
      rw [← decimalText_finite hchars] at hread
      refine ⟨_, hread, ?_⟩
      rw [nearest_least coefficient hsmall negative, Decimal.agrees_zero_iff,
        Decimal.IsSmallest]
      omega
    · rw [hpointed, if_pos ((Decimal.isRepresentable_zero_behind h).mpr hleast)] at hread
      exact ⟨_, hread, iff_of_true Decimal.agrees_zero_behind fun hsmallest =>
        hleast hsmallest.2.2⟩
  · rw [n.pointed_of_fraction_ne_nil hfraction, hvalue, if_pos h] at hread
    refine ⟨_, hread, iff_of_true (Decimal.agrees_self rfl) ?_⟩
    rintro ⟨-, hsmall, rfl⟩
    have hpoint := n.point_mem_chars_iff.mpr hfraction
    rw [hchars, Decimal.toChars] at hpoint
    rcases List.mem_append.mp hpoint with hsign | hdigits
    · cases negative <;> simp [Decimal.signText] at hsign
    · exact Decimal.not_mem_finiteText_least coefficient hsmall hdigits

/-! ## Documents -/

/-- A text within a line that is a plain scalar of its own and stands for a number. -/
@[mk_iff]
structure IsFraction (text : String) (read : Decimal) : Prop where
  plain : PlainText text.toList
  colon : text.toList.getLast? ≠ some ':'
  starts : ({ rest := text.toList } : Scanner).startsPlain = true
  readable : ∀ c ∈ text.toList, isReadable c = true
  resolves : resolve text = coreTag "float"
  stands : TaggedScalar.fraction text = .ok read

instance (text : String) (read : Decimal) : Decidable (IsFraction text read) :=
  have : Decidable (∀ c ∈ text.toList, isReadable c = true) := List.decidableBAll _ text.toList
  decidable_of_iff' _ (isFraction_iff text read)

theorem Node.holds_float {text : String} {read : Decimal}
    (h : TaggedScalar.fraction text = .ok read) (start : Position) :
    (scalar (coreTag "float") text start).Holds (.leaf (some (.float read)) {}) := by
  intro name
  have hread : TaggedScalar.read (coreTag "float") text = .ok (.scalar (.float read)) := by
    rw [TaggedScalar.read, if_pos (by decide), h]
    rfl
  refine ⟨.leaf (some (.float read)) { origins := [start.toOrigin name] }, ?_, rfl⟩
  rw [merged, toTree, scalarTree, hread]
  · intro _ _ _ heq
    cases heq
  · intro _ _ _ heq
    cases heq

theorem IsFraction.exists_decode {text : String} {read : Decimal} (h : IsFraction text read)
    (info : DocumentInfo) :
    ∃ found, decode info (toBytes ("k: " ++ text ++ "\n")) = .ok found ∧
      found.withoutOrigins = .map [("k", .leaf (some (.float read)) {})] {} := by
  have hkey : ReadsAsKey "k" := by decide +kernel
  have hvalue := (Scanner.Spells.of_plain h.plain h.colon h.starts).readsToEnd 1
  rw [String.ofList_toList] at hvalue
  have hreadable : ∀ c ∈ ' ' :: (text.toList ++ ['\n']), isReadable c = true := by
    refine List.forall_mem_cons.mpr ⟨by decide, List.forall_mem_append.mpr ⟨h.readable, ?_⟩⟩
    exact List.forall_mem_singleton.mpr (by decide)
  refine exists_decode_pair hkey hvalue rfl hreadable (fun start => ?_) (by simp) info
  rw [if_pos rfl, h.resolves]
  exact Node.holds_float h.stands start

theorem plainText_chars (n : Numeral) : PlainText n.chars := by
  have hspace : ' ' ∉ n.chars := fun hmem =>
    n.mem_chars (P := (· ≠ ' ')) (by decide) (by decide) ' ' hmem rfl
  obtain ⟨c, rest, hbody, -⟩ := n.exists_body_eq
  exact {
    gaps := n.mem_chars (by decide) (by decide)
    ne_nil := by simp [Numeral.chars, hbody]
    head := fun hhead => hspace (List.mem_of_mem_head? hhead)
    last := fun hlast => hspace (List.mem_of_mem_getLast? hlast)
    colon := fun hwithin => hspace (hwithin.subset (by simp))
    comment := fun hwithin => hspace (hwithin.subset (by simp)) }

theorem startsPlain_chars (n : Numeral) : ({ rest := n.chars } : Scanner).startsPlain = true := by
  obtain ⟨c, rest, hbody, hdigit⟩ := n.exists_body_eq
  have hstarts : isGap c = false ∧ "-?:,[]\x7b\x7d#&*!|>'\"%@\x60".toList.contains c = false :=
    of_isAsciiDigit (P := fun c => isGap c = false ∧
      "-?:,[]\x7b\x7d#&*!|>'\"%@\x60".toList.contains c = false) (by decide) hdigit
  have hchars : n.chars = Decimal.signText n.negative ++ c :: rest := by rw [Numeral.chars, hbody]
  cases hnegative : n.negative with
  | true =>
      rw [hnegative] at hchars
      rw [Scanner.startsPlain_eq hchars rfl]
      simp [startsGap, hstarts.1]
  | false =>
      rw [hnegative] at hchars
      rw [Scanner.startsPlain_eq hchars rfl, hstarts.1, hstarts.2]
      rfl

theorem IsFraction.of_chars {read : Decimal} (h : n.fraction ≠ [])
    (hread : TaggedScalar.fraction (String.ofList n.chars) = .ok read) :
    IsFraction (String.ofList n.chars) read where
  plain := by
    rw [String.toList_ofList]
    exact plainText_chars n
  colon := by
    rw [String.toList_ofList]
    intro hlast
    exact n.mem_chars (P := (· ≠ ':')) (by decide) (by decide) ':' (List.mem_of_mem_getLast? hlast)
      rfl
  starts := by
    rw [String.toList_ofList]
    exact startsPlain_chars n
  readable := by
    rw [String.toList_ofList]
    exact n.mem_chars (by decide) (by decide)
  resolves := resolve_chars h
  stands := hread

/-- The names of the numbers that are not finite. -/
theorem isFraction_special : (∀ negative : Bool,
      IsFraction (if negative then "-.inf" else ".inf") (.infinite negative)) ∧
    IsFraction ".nan" (.nan false false 0) := by
  decide +kernel

/-- A decimal number is decoded with its value from the text that it is written as, unless it is one
of the smallest numbers there are. -/
theorem exists_decode_decimalText {number : Decimal} (h : number.isRepresentable = true)
    (info : DocumentInfo) :
    resolve (decimalText number) = coreTag "float" ∧
      ∃ read, (number.Agrees read ↔ ¬number.IsSmallest) ∧
        ∃ found, decode info (toBytes ("k: " ++ decimalText number ++ "\n")) = .ok found ∧
          found.withoutOrigins = .map [("k", .leaf (some (.float read)) {})] {} := by
  obtain ⟨read, hread, hagrees⟩ : ∃ read, IsFraction (decimalText number) read ∧
      (number.Agrees read ↔ ¬number.IsSmallest) := by
    cases number with
    | finite negative coefficient exponent =>
        obtain ⟨n, hchars, -⟩ := Numeral.exists_chars_eq negative coefficient exponent
        obtain ⟨read, hread, hagrees⟩ := exists_fraction_finite h
        rw [decimalText_finite hchars] at hread ⊢
        exact ⟨read, .of_chars n.fraction_pointed_ne_nil hread, hagrees⟩
    | infinite negative =>
        exact ⟨_, isFraction_special.1 negative, iff_of_true (Decimal.agrees_self rfl) id⟩
    | nan negative signaling payload =>
        exact ⟨_, isFraction_special.2, iff_of_true rfl id⟩
  exact ⟨hread.resolves, read, hagrees, hread.exists_decode info⟩

/-- A number that only an exponent can hold. -/
theorem exists_decode_decimalText_large :
    decimalText (.finite false 1 400) = "1.0E+400" ∧
      ∃ read, Decimal.Agrees (.finite false 1 400) read ∧
        ∃ found, decode ⟨"doc", "."⟩ (toBytes "k: 1.0E+400\n") = .ok found ∧
          found.withoutOrigins = .map [("k", .leaf (some (.float read)) {})] {} := by
  have htext : decimalText (.finite false 1 400) = "1.0E+400" := by decide +kernel
  have hrepresentable : Decimal.isRepresentable (.finite false 1 400) = true := by decide +kernel
  obtain ⟨-, read, hagrees, hdecode⟩ := exists_decode_decimalText hrepresentable ⟨"doc", "."⟩
  rw [htext] at hdecode
  exact ⟨htext, read, hagrees.mpr (by decide), hdecode⟩

/-- The smallest number of all is written with its digits, but read as zero. -/
theorem decode_decimalText_smallest :
    Decimal.isRepresentable (.finite false 1 Decimal.leastExponent) = true ∧
      decimalText (.finite false 1 Decimal.leastExponent) = "1.0E-1999999999999999997" ∧
      (∃ found, decode ⟨"doc", "."⟩ (toBytes "k: 1.0E-1999999999999999997\n") = .ok found ∧
        found.withoutOrigins = .map [("k", .leaf (some (.float (.finite false 0 (-1)))) {})] {}) ∧
      ¬Decimal.Agrees (.finite false 1 Decimal.leastExponent) (.finite false 0 (-1)) := by
  have hfraction : IsFraction "1.0E-1999999999999999997" (.finite false 0 (-1)) := by
    decide +kernel
  refine ⟨by decide +kernel, by decide +kernel, hfraction.exists_decode ⟨"doc", "."⟩, ?_⟩
  simp [Decimal.agrees_zero_iff]

end Yaml

end LayeredConfig
