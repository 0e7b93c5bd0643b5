import LayeredConfig.Json.Reader
import LayeredConfig.Json.Writer
import LayeredConfig.Proofs.Json.Tokens
import Mathlib.Data.List.Forall2

/-! # Written and read values

A value has one row of tokens. The writer lays out a container so that the rows of its parts stand
between commas and brackets, and the reader builds the value again while it goes along the row. -/

namespace LayeredConfig.Json

/-! ## Tokens of a value -/

mutual

def tokens : Json → List Token
  | null => [.null]
  | bool value => [.bool value]
  | int value => [.int value]
  | fraction value => [.fraction value]
  | string value => [.string value]
  | array items =>
    .openBracket :: ([Token.comma].intercalate (itemTokens items) ++ [.closeBracket])
  | object members =>
    .openBrace :: ([Token.comma].intercalate (memberTokens members) ++ [.closeBrace])

def itemTokens : List Json → List (List Token)
  | [] => []
  | item :: rest => tokens item :: itemTokens rest

def memberTokens : List (String × Json) → List (List Token)
  | [] => []
  | (key, value) :: rest => (.string key :: .colon :: tokens value) :: memberTokens rest

end

/-! ## Writing -/

/-- Whatever may follow a value may follow the text, which is read as the given tokens. -/
def Spells (text : String) (tokens : List Token) : Prop :=
  ∀ rest, Token.EndsValue rest →
    Token.ofChars (text.toList ++ rest) = tokens ++ Token.ofChars rest

theorem isSpace_indent (level : Nat) : ∀ c ∈ (indent level).toList, Token.isSpace c = true := by
  intro c hc
  rw [indent, String.toList_ofList] at hc
  rw [(List.mem_replicate.mp hc).2]
  rfl

theorem Spells.indented {text : String} {tokens : List Token} (h : Spells text tokens)
    (level : Nat) : Spells (indent level ++ text) tokens := by
  intro rest hrest
  rw [String.toList_append, List.append_assoc,
    Token.ofChars_spaces_append (isSpace_indent level), h rest hrest]

theorem Spells.member {text : String} {tokens : List Token} (h : Spells text tokens)
    (key : String) :
    Spells (Text.jsonQuoted key ++ ": " ++ text) (.string key :: .colon :: tokens) := by
  intro rest hrest
  rw [String.toList_append, String.toList_append, List.append_assoc, List.append_assoc,
    Token.ofChars_jsonQuoted, show ": ".toList = [':', ' '] from rfl, List.cons_append,
    Token.ofChars_punctuation rfl, Token.ofChars_spaces_append (by simp [Token.isSpace]),
    h rest hrest]
  rfl

/-- What passes from items and members to their container holds of every value. -/
@[elab_as_elim]
theorem induction {motive : Json → Prop} (null : motive null) (bool : ∀ value, motive (bool value))
    (int : ∀ value, motive (int value)) (fraction : ∀ value, motive (fraction value))
    (string : ∀ value, motive (string value))
    (array : ∀ items, (∀ item ∈ items, motive item) → motive (array items))
    (object : ∀ members, (∀ key value, (key, value) ∈ members → motive value) →
      motive (object members)) : ∀ json, motive json
  | .null => null
  | .bool value => bool value
  | .int value => int value
  | .fraction value => fraction value
  | .string value => string value
  | .array items => array items fun item hmem =>
      have : sizeOf item < sizeOf items := List.sizeOf_lt_of_mem hmem
      induction null bool int fraction string array object item
  | .object members => object members fun key value hmem =>
      have : sizeOf value < sizeOf members := by
        have hpair := List.sizeOf_lt_of_mem hmem
        simp only [Prod.mk.sizeOf_spec] at hpair
        omega
      induction null bool int fraction string array object value

mutual

/-- The numbers of a value that are written with a fraction or an exponent. -/
def fractions : Json → List Decimal
  | fraction value => [value]
  | array items => itemFractions items
  | object members => memberFractions members
  | _ => []

def itemFractions : List Json → List Decimal
  | [] => []
  | item :: rest => fractions item ++ itemFractions rest

def memberFractions : List (String × Json) → List Decimal
  | [] => []
  | (_, value) :: rest => fractions value ++ memberFractions rest

end

namespace Reader

variable {admits : Decimal → Bool}

/-- In the place of a value, the reader takes up its tokens and has the value. -/
def Reads (admits : Decimal → Bool) (json : Json) : Prop :=
  ∀ stack rest,
    run admits (.value stack) (tokens json ++ rest) = run admits (.complete stack json) rest

theorem run_cons {state next : State} {token : Token} (h : step admits state token = .ok next)
    (rest : List Token) : run admits state (token :: rest) = run admits next rest := by
  rw [run, List.foldlM_cons, h]
  rfl

theorem exists_intercalate_eq (row : List Token) (rows : List (List Token)) :
    ∃ more, [Token.comma].intercalate (row :: rows) = row ++ more := by
  cases rows with
  | nil => exact ⟨[], by rw [List.intercalate_singleton, List.append_nil]⟩
  | cons next rows => exact ⟨_, by rw [List.intercalate_cons_cons, List.append_assoc]⟩

/-- Behind an opening bracket, an item is read like any other item. -/
theorem run_firstItem (stack : List Frame) (json : Json) (rest : List Token) :
    run admits (.firstItem stack) (tokens json ++ rest) =
      run admits (.value (.array [] :: stack)) (tokens json ++ rest) := by
  cases json <;> rfl

theorem run_items {first : Json} {others : List Json}
    (h : ∀ item ∈ first :: others, Reads admits item) (stack : List Frame) (passed : List Json)
    (rest : List Token) :
    run admits (.value (.array passed :: stack))
        ([Token.comma].intercalate (itemTokens (first :: others)) ++ .closeBracket :: rest) =
      run admits (.complete stack (.array (passed.reverse ++ first :: others))) rest := by
  induction others generalizing first passed with
  | nil =>
      have hfirst := h first List.mem_cons_self (.array passed :: stack) (.closeBracket :: rest)
      rw [itemTokens, itemTokens, List.intercalate_singleton, hfirst, run_cons rfl,
        List.reverse_cons]
  | cons next others ih =>
      have hnext := ih (fun item hitem => h item (List.mem_cons_of_mem _ hitem)) (first :: passed)
      rw [itemTokens, itemTokens, List.intercalate_cons_cons, List.append_assoc, List.append_assoc,
        h first List.mem_cons_self, List.cons_append, List.nil_append, run_cons rfl, ← itemTokens,
        hnext, List.reverse_cons, List.append_assoc]
      rfl

theorem run_members {key : String} {first : Json} {others : List (String × Json)}
    (h : ∀ k value, (k, value) ∈ (key, first) :: others → Reads admits value)
    (stack : List Frame) (passed : List (String × Json)) (rest : List Token) :
    run admits (.key stack passed)
        ([Token.comma].intercalate (memberTokens ((key, first) :: others)) ++ .closeBrace :: rest) =
      run admits (.complete stack (.object (passed.reverse ++ (key, first) :: others))) rest := by
  induction others generalizing key first passed with
  | nil =>
      have hfirst := h key first List.mem_cons_self (.object passed key :: stack)
        (.closeBrace :: rest)
      rw [memberTokens, memberTokens, List.intercalate_singleton, List.cons_append,
        List.cons_append, run_cons rfl, run_cons rfl, hfirst, run_cons rfl, List.reverse_cons]
  | cons next others ih =>
      obtain ⟨nextKey, next⟩ := next
      have hnext := ih (fun k value hmem => h k value (List.mem_cons_of_mem _ hmem))
        ((key, first) :: passed)
      rw [memberTokens, memberTokens, List.intercalate_cons_cons, List.append_assoc,
        List.append_assoc, List.cons_append, List.cons_append, run_cons rfl, run_cons rfl,
        h key first List.mem_cons_self, List.cons_append, List.nil_append, run_cons rfl,
        ← memberTokens, hnext, List.reverse_cons, List.append_assoc]
      rfl

theorem mem_itemFractions {items : List Json} {item : Json} (hitem : item ∈ items)
    {number : Decimal} (h : number ∈ item.fractions) : number ∈ itemFractions items := by
  induction items with
  | nil => exact (List.not_mem_nil hitem).elim
  | cons first others ih =>
      rw [itemFractions, List.mem_append]
      rcases List.mem_cons.mp hitem with rfl | hitem
      · exact .inl h
      · exact .inr (ih hitem)

theorem mem_memberFractions {members : List (String × Json)} {key : String} {value : Json}
    (hmem : (key, value) ∈ members) {number : Decimal} (h : number ∈ value.fractions) :
    number ∈ memberFractions members := by
  induction members with
  | nil => exact (List.not_mem_nil hmem).elim
  | cons first others ih =>
      obtain ⟨firstKey, first⟩ := first
      rw [memberFractions, List.mem_append]
      rcases List.mem_cons.mp hmem with heq | hmem
      · cases heq
        exact .inl h
      · exact .inr (ih hmem)

/-- A value whose numbers are admitted is read from its tokens. -/
theorem reads {json : Json} (h : ∀ number ∈ json.fractions, admits number = true) :
    Reads admits json := by
  induction json using Json.induction with
  | null => exact fun stack rest => run_cons rfl rest
  | bool value => exact fun stack rest => run_cons rfl rest
  | int value => exact fun stack rest => run_cons rfl rest
  | fraction value =>
      intro stack rest
      refine run_cons ?_ rest
      rw [step, startValue, if_pos (h value (List.mem_singleton_self value))]
  | string value => exact fun stack rest => run_cons rfl rest
  | array items ih =>
      intro stack rest
      have hitems : ∀ item ∈ items, Reads admits item := fun item hitem =>
        ih item hitem fun number hnumber => h number (mem_itemFractions hitem hnumber)
      rw [tokens, List.cons_append, run_cons rfl, List.append_assoc, List.cons_append,
        List.nil_append]
      cases items with
      | nil => exact run_cons rfl rest
      | cons first others =>
          -- Only the state behind the opening bracket accepts the end of the array, too.
          obtain ⟨more, hmore⟩ := exists_intercalate_eq (tokens first) (itemTokens others)
          have hrun := run_items hitems stack [] rest
          rw [itemTokens, hmore, List.append_assoc] at hrun ⊢
          exact (run_firstItem stack first _).trans hrun
  | object members ih =>
      intro stack rest
      have hmembers : ∀ key value, (key, value) ∈ members → Reads admits value :=
        fun key value hmem =>
          ih key value hmem fun number hnumber => h number (mem_memberFractions hmem hnumber)
      rw [tokens, List.cons_append, run_cons rfl, List.append_assoc, List.cons_append,
        List.nil_append]
      cases members with
      | nil => exact run_cons rfl rest
      | cons first others =>
          obtain ⟨key, first⟩ := first
          obtain ⟨more, hmore⟩ := exists_intercalate_eq (.string key :: .colon :: tokens first)
            (memberTokens others)
          have hrun := run_members hmembers stack [] rest
          rw [memberTokens, hmore] at hrun ⊢
          exact hrun

end Reader

end LayeredConfig.Json
