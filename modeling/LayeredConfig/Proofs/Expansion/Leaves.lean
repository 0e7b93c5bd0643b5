import LayeredConfig.Proofs.Expansion.Convergence

/-! # Leaves of an expanded tree

Passes go through a tree leaf by leaf, and all that they change is in leaves that hold texts. What
becomes of a leaf is told by the directives that exchange something in it, one after the other. -/

namespace LayeredConfig

namespace Tree

/-! ## Leaf by leaf -/

/-- The same shapes, keys, lengths and marks down to the leaves, and related leaves. -/
inductive Leafwise (R : Option Scalar → Mark → Option Scalar → Mark → Prop) :
    Tree → Tree → Prop where
  | leaf {value other : Option Scalar} {mark otherMark : Mark} (h : R value mark other otherMark) :
      Leafwise R (leaf value mark) (leaf other otherMark)
  | map {xs ys : List (String × Tree)} {mark : Mark} (hkeys : Entries.keys xs = Entries.keys ys)
      (h : ∀ (i : Nat) (x y : String × Tree), xs[i]? = some x → ys[i]? = some y →
        Leafwise R x.2 y.2) :
      Leafwise R (map xs mark) (map ys mark)
  | array {xs ys : List Tree} {mark : Mark} (hlength : xs.length = ys.length)
      (h : ∀ (i : Nat) (x y : Tree), xs[i]? = some x → ys[i]? = some y → Leafwise R x y) :
      Leafwise R (array xs mark) (array ys mark)

/-- Maps and arrays are left alone but for their leaves. -/
structure ActsOnLeaves (f : Tree → Tree) : Prop where
  leaf : ∀ value mark, ∃ other otherMark, f (leaf value mark) = .leaf other otherMark
  map : ∀ entries mark,
    f (map entries mark) = .map (entries.map fun entry => (entry.1, f entry.2)) mark
  array : ∀ items mark, f (array items mark) = .array (items.map f) mark

namespace ActsOnLeaves

variable {f g : Tree → Tree}

theorem id : ActsOnLeaves fun tree => tree where
  leaf value mark := ⟨value, mark, rfl⟩
  map entries mark := by rw [List.map_id']
  array items mark := by rw [List.map_id']

theorem comp (hg : ActsOnLeaves g) (hf : ActsOnLeaves f) : ActsOnLeaves fun tree => g (f tree) where
  leaf value mark := by
    obtain ⟨other, otherMark, hleaf⟩ := hf.leaf value mark
    rw [hleaf]
    exact hg.leaf other otherMark
  map entries mark := by
    rw [hf.map, hg.map, List.map_map]
    rfl
  array items mark := by
    rw [hf.array, hg.array, List.map_map]
    rfl

theorem iterate (hf : ActsOnLeaves f) (count : Nat) : ActsOnLeaves f^[count] := by
  induction count with
  | zero => exact .id
  | succ count ih => exact ih.comp hf

/-- What holds between each leaf and its image holds leaf by leaf between a tree and its image. -/
theorem leafwise (hf : ActsOnLeaves f) {R : Option Scalar → Mark → Option Scalar → Mark → Prop}
    (hR : ∀ value mark other otherMark,
      f (.leaf value mark) = .leaf other otherMark → R value mark other otherMark)
    (tree : Tree) : tree.Leafwise R (f tree) := by
  induction tree using Tree.induction with
  | leaf value mark =>
      obtain ⟨other, otherMark, hleaf⟩ := hf.leaf value mark
      rw [hleaf]
      exact .leaf (hR value mark other otherMark hleaf)
  | map entries mark ih =>
      rw [hf.map]
      refine .map (by simp [Entries.keys]) fun i x y hx hy => ?_
      rw [List.getElem?_map, hx] at hy
      cases hy
      exact ih x.1 x.2 (List.mem_of_getElem? hx)
  | array items mark ih =>
      rw [hf.array]
      refine .array (List.length_map _).symm fun i x y hx hy => ?_
      rw [List.getElem?_map, hx] at hy
      cases hy
      exact ih x (List.mem_of_getElem? hx)

end ActsOnLeaves

end Tree

namespace Directive

variable (directive : Directive)

/-- The origin that stands for the directive. -/
def marker : Origin := { source := directive.origin }

theorem actsOnLeaves_rewrite : Tree.ActsOnLeaves directive.rewrite where
  leaf value mark := by
    rcases directive.leaf_cases value mark with ⟨text, rfl⟩ | ⟨hrewrite, _⟩
    · rw [rewrite_text]
      split <;> exact ⟨_, _, rfl⟩
    · exact ⟨_, _, hrewrite⟩
  map := directive.rewrite_map
  array := directive.rewrite_array

theorem annotate_cases (origins : List Origin) :
    directive.annotate origins = origins ∨
      directive.origin.isEmpty = false ∧
        directive.annotate origins = origins ++ [directive.marker] := by
  rw [annotate]
  split
  · exact .inl rfl
  · next h =>
    rw [Bool.not_eq_true, Bool.or_eq_false_iff] at h
    exact .inr ⟨h.1, rfl⟩

end Directive

namespace Expansion

/-! ## The history of a tree -/

theorem actsOnLeaves_sweep (directives : List Directive) :
    Tree.ActsOnLeaves (sweep directives) := by
  induction directives with
  | nil => exact .id
  | cons directive rest ih => exact ih.comp directive.actsOnLeaves_rewrite

theorem sweep_append (first second : List Directive) (tree : Tree) :
    sweep (first ++ second) tree = sweep second (sweep first tree) := List.foldl_append

/-- The directives that exchange something in a tree in one pass, in their order. -/
def exchanging : List Directive → Tree → List Directive
  | [], _ => []
  | directive :: rest, tree =>
    (if directive.changes tree then [directive] else []) ++
      exchanging rest (directive.rewrite tree)

/-- The directives that exchange something in a tree in the first passes, each as often and in the
order as it does so. -/
def history (directives : List Directive) : Nat → Tree → List Directive
  | 0, _ => []
  | count + 1, tree =>
    exchanging directives tree ++ history directives count (sweep directives tree)

/-- Each of the directives exchanges something in what those before it leave. -/
def ExchangeInTurn : List Directive → Tree → Prop
  | [], _ => True
  | directive :: rest, tree =>
    directive.changes tree = true ∧ ExchangeInTurn rest (directive.rewrite tree)

theorem exchangeInTurn_append {first second : List Directive} {tree : Tree} :
    ExchangeInTurn (first ++ second) tree ↔
      ExchangeInTurn first tree ∧ ExchangeInTurn second (sweep first tree) := by
  induction first generalizing tree with
  | nil => simp [ExchangeInTurn, sweep]
  | cons directive rest ih =>
      rw [List.cons_append, ExchangeInTurn, ih, ExchangeInTurn, sweep_cons, and_assoc]

theorem mem_of_mem_exchanging {directives : List Directive} {directive : Directive} {tree : Tree}
    (h : directive ∈ exchanging directives tree) : directive ∈ directives := by
  induction directives generalizing tree with
  | nil => exact h
  | cons first rest ih =>
      rw [exchanging, List.mem_append] at h
      rcases h with h | h
      · split at h
        · rw [List.mem_singleton.mp h]
          exact List.mem_cons_self
        · cases h
      · exact List.mem_cons_of_mem _ (ih h)

theorem mem_of_mem_history {directives : List Directive} {directive : Directive} {count : Nat}
    {tree : Tree} (h : directive ∈ history directives count tree) : directive ∈ directives := by
  induction count generalizing tree with
  | zero => cases h
  | succ count ih => exact (List.mem_append.mp h).elim mem_of_mem_exchanging ih

/-- The directives that exchange nothing in a pass may be left out. -/
theorem sweep_exchanging (directives : List Directive) (tree : Tree) :
    sweep (exchanging directives tree) tree = sweep directives tree ∧
      ExchangeInTurn (exchanging directives tree) tree := by
  induction directives generalizing tree with
  | nil => exact ⟨rfl, trivial⟩
  | cons directive rest ih =>
      obtain ⟨hsweep, hturn⟩ := ih (directive.rewrite tree)
      rw [exchanging, sweep_cons]
      cases hchanges : directive.changes tree with
      | true => exact ⟨hsweep, hchanges, hturn⟩
      | false =>
          rw [directive.rewrite_of_not_changes hchanges] at hsweep hturn ⊢
          exact ⟨hsweep, hturn⟩

/-- The history of a tree leads to where the passes lead. -/
theorem sweep_history (directives : List Directive) (count : Nat) (tree : Tree) :
    sweep (history directives count tree) tree = (sweep directives)^[count] tree ∧
      ExchangeInTurn (history directives count tree) tree := by
  induction count generalizing tree with
  | zero => exact ⟨rfl, trivial⟩
  | succ count ih =>
      obtain ⟨hsweep, hturn⟩ := sweep_exchanging directives tree
      obtain ⟨hmore, hmoreTurn⟩ := ih (sweep directives tree)
      rw [history, sweep_append, exchangeInTurn_append, hsweep, hmore]
      exact ⟨rfl, hturn, hmoreTurn⟩

theorem exchanging_of_settled {directives : List Directive} {tree : Tree}
    (h : Settled directives tree) : exchanging directives tree = [] := by
  induction directives with
  | nil => rfl
  | cons directive rest ih =>
      have hchanges := h directive List.mem_cons_self
      rw [exchanging, hchanges, directive.rewrite_of_not_changes hchanges]
      exact ih fun other hother => h other (List.mem_cons_of_mem _ hother)

theorem history_of_settled {directives : List Directive} {tree : Tree}
    (h : Settled directives tree) (count : Nat) : history directives count tree = [] := by
  induction count with
  | zero => rfl
  | succ count ih => rw [history, exchanging_of_settled h, h.sweep_eq, ih, List.nil_append]

/-! ## The history of a leaf -/

/-- A text after the substitutions of the directives, one after the other. -/
def substituted (directives : List Directive) (text : String) : String :=
  directives.foldl (fun text directive => (directive.substitute text).1) text

/-- Origins with the labels of the directives, one after the other. -/
def annotated (directives : List Directive) (origins : List Origin) : List Origin :=
  directives.foldl (fun origins directive => directive.annotate origins) origins

theorem sweep_text {directives : List Directive} {text : String} {mark : Mark}
    (h : ExchangeInTurn directives (.leaf (some (.text text)) mark)) :
    sweep directives (.leaf (some (.text text)) mark) =
      .leaf (some (.text (substituted directives text)))
        { mark with origins := annotated directives mark.origins } := by
  induction directives generalizing text mark with
  | nil => rfl
  | cons directive rest ih =>
      obtain ⟨hchanges, hrest⟩ := h
      rw [Directive.changes_text] at hchanges
      rw [Directive.rewrite_text, if_pos hchanges] at hrest
      rw [sweep_cons, Directive.rewrite_text, if_pos hchanges]
      exact ih hrest

theorem exists_annotated (directives : List Directive) (origins : List Origin) :
    ∃ more, annotated directives origins = origins ++ more ∧
      ∀ origin ∈ more, ∃ directive ∈ directives,
        directive.origin.isEmpty = false ∧ origin = directive.marker := by
  induction directives generalizing origins with
  | nil => exact ⟨[], (List.append_nil _).symm, fun _ h => (List.not_mem_nil h).elim⟩
  | cons directive rest ih =>
      obtain ⟨more, hmore, hlabels⟩ := ih (directive.annotate origins)
      have hrest : ∀ origin ∈ more, ∃ other ∈ directive :: rest,
          other.origin.isEmpty = false ∧ origin = other.marker := fun origin horigin =>
        (hlabels origin horigin).imp fun _ h => ⟨List.mem_cons_of_mem _ h.1, h.2⟩
      change ∃ more, annotated rest (directive.annotate origins) = origins ++ more ∧ _
      rw [hmore]
      rcases directive.annotate_cases origins with hsame | ⟨hlabel, hlabelled⟩
      · exact ⟨more, by rw [hsame], hrest⟩
      · refine ⟨directive.marker :: more, by rw [hlabelled, List.append_assoc]; rfl, ?_⟩
        exact List.forall_mem_cons.mpr ⟨⟨directive, List.mem_cons_self, hlabel, rfl⟩, hrest⟩

theorem settled_leaf {value : Option Scalar} (hvalue : ∀ text, value ≠ some (.text text))
    (directives : List Directive) (mark : Mark) : Settled directives (.leaf value mark) := by
  intro directive _
  rcases directive.leaf_cases value mark with ⟨text, htext⟩ | ⟨_, hchanges, _⟩
  · exact (hvalue text htext).elim
  · exact hchanges

/-- A leaf without a text stays; a text is exchanged by the directives of its history. -/
theorem leaf_iterate {directives : List Directive} {count : Nat} {value other : Option Scalar}
    {mark otherMark : Mark}
    (h : (sweep directives)^[count] (.leaf value mark) = .leaf other otherMark) :
    ((∀ text, value ≠ some (.text text)) ∧ history directives count (.leaf value mark) = [] ∧
        other = value ∧ otherMark = mark) ∨
      ∃ text, value = some (.text text) ∧
        other = some (.text (substituted (history directives count (.leaf value mark)) text)) ∧
        otherMark = { mark with
          origins := annotated (history directives count (.leaf value mark)) mark.origins } := by
  by_cases hvalue : ∀ text, value ≠ some (.text text)
  · have hsettled := settled_leaf hvalue directives mark
    rw [Function.iterate_fixed hsettled.sweep_eq] at h
    cases h
    exact .inl ⟨hvalue, history_of_settled hsettled count, rfl, rfl⟩
  · obtain ⟨text, rfl⟩ := not_forall_not.mp hvalue
    obtain ⟨hsweep, hturn⟩ := sweep_history directives count (.leaf (some (.text text)) mark)
    rw [sweep_text hturn, h] at hsweep
    obtain ⟨hother, hmark⟩ := Tree.leaf.inj hsweep
    exact .inr ⟨text, rfl, hother.symm, hmark.symm⟩

/-! ## Expansion leaf by leaf -/

/-- What becomes of a leaf, given the directives that exchange something in it: it stays if it holds
no text or there are none. A text is exchanged by them in turn, and behind its origins come labels
of theirs. -/
inductive Rewritten (exchanging : List Directive) :
    Option Scalar → Mark → Option Scalar → Mark → Prop where
  | other {value : Option Scalar} {mark : Mark} (hvalue : ∀ text, value ≠ some (.text text)) :
      Rewritten exchanging value mark value mark
  | text {text : String} {mark : Mark} {more : List Origin}
      (hmore : ∀ origin ∈ more, ∃ directive ∈ exchanging,
        directive.origin.isEmpty = false ∧ origin = directive.marker) :
      Rewritten exchanging (some (.text text)) mark (some (.text (substituted exchanging text)))
        { mark with origins := mark.origins ++ more }

theorem Rewritten.eq_of_nil {value other : Option Scalar} {mark otherMark : Mark}
    (h : Rewritten [] value mark other otherMark) : other = value ∧ otherMark = mark := by
  cases h with
  | other => exact ⟨rfl, rfl⟩
  | @text _ _ more hmore =>
      obtain rfl : more = [] := List.eq_nil_iff_forall_not_mem.mpr fun origin horigin => by
        obtain ⟨directive, hdirective, _⟩ := hmore origin horigin
        cases hdirective
      exact ⟨rfl, by rw [List.append_nil]⟩

theorem rewritten_iterate {directives : List Directive} {count : Nat} {value other : Option Scalar}
    {mark otherMark : Mark}
    (h : (sweep directives)^[count] (.leaf value mark) = .leaf other otherMark) :
    Rewritten (history directives count (.leaf value mark)) value mark other otherMark := by
  rcases leaf_iterate h with ⟨hvalue, _, rfl, rfl⟩ | ⟨text, rfl, rfl, rfl⟩
  · exact .other hvalue
  · obtain ⟨more, hmore, hlabels⟩ :=
      exists_annotated (history directives count (.leaf (some (.text text)) mark)) mark.origins
    rw [hmore]
    exact .text hlabels

/-- What holds between each leaf and what the run makes of it holds leaf by leaf between a tree and
the expanded tree. -/
theorem exists_leafwise {directives : List Directive} {tree expanded : Tree}
    (h : (tree.expand directives).result = .ok expanded)
    {R : Nat → Option Scalar → Mark → Option Scalar → Mark → Prop}
    (hR : ∀ count value mark other otherMark,
      (sweep directives)^[count] (.leaf value mark) = .leaf other otherMark →
        R count value mark other otherMark) :
    ∃ count, Passes (.full directives) tree count (.ok expanded) ∧
      tree.Leafwise (R count) expanded := by
  obtain ⟨count, hpasses⟩ := expand_eq_iff.mp h
  obtain ⟨hexpanded, _⟩ := hpasses.of_ok
  rw [Budgets.directives_full] at hexpanded
  refine ⟨count, hpasses, ?_⟩
  rw [hexpanded]
  exact ((actsOnLeaves_sweep directives).iterate count).leafwise (hR count) tree

/-- Expansion touches only leaves that hold texts. Maps and arrays keep their shapes, keys, lengths
and marks, and so do leaves without a text. A text remains a text and keeps its secret mark; it is
exchanged by the directives of its history, whose labels follow its origins. Where no directive has
found a name, value and origins stay. -/
theorem expand_leafwise {directives : List Directive} {tree expanded : Tree}
    (h : (tree.expand directives).result = .ok expanded) :
    ∃ count, Passes (.full directives) tree count (.ok expanded) ∧
      tree.Leafwise (fun value mark other otherMark =>
        history directives count (.leaf value mark) ⊆ directives ∧
          Rewritten (history directives count (.leaf value mark)) value mark other otherMark ∧
          (history directives count (.leaf value mark) = [] → other = value ∧ otherMark = mark))
        expanded := by
  refine exists_leafwise h fun count value mark other otherMark hleaf => ?_
  have hrewritten := rewritten_iterate hleaf
  exact ⟨fun _ => mem_of_mem_history, hrewritten, fun hnone => (hnone ▸ hrewritten).eq_of_nil⟩

/-- An address is put together by two directives; the port is no text, and stays. -/
theorem expand_leafwise_url :
    let first : Directive :=
      { lookup := fun name =>
          if name = "scheme" then ("https", true)
          else if name = "host" then ("%(name).local", true) else ("", false)
        origin := "one", opening := ['$', '('], closing := [')'], maximum := 1
        opening_ne := by simp, closing_ne := by simp, maximum_pos := by decide }
    let second : Directive :=
      { lookup := fun name => ("db", name == "name"), origin := "two"
        opening := ['%', '('], closing := [')'], maximum := 1
        opening_ne := by simp, closing_ne := by simp, maximum_pos := by decide }
    let services (url host : String) (labels : List Origin) : Tree :=
      .map [("url", .leaf (some (.text url)) { origins := ⟨"app.yaml", 1, 6⟩ :: labels }),
        ("hosts", .array [.leaf (some (.text host)) { origins := labels, secret := true }] {}),
        ("port", .leaf (some (.int 5432)) {})] { origins := [⟨"app.yaml", 1, 1⟩] }
    let tree := services "$(scheme)://$(host)" "$(host)" []
    let expanded := services "https://db.local" "db.local" [first.marker, second.marker]
    (tree.expand [first, second]).result = .ok expanded ∧
      ∃ count, Passes (.full [first, second]) tree count (.ok expanded) ∧
        tree.Leafwise (fun value mark other otherMark =>
          history [first, second] count (.leaf value mark) ⊆ [first, second] ∧
            Rewritten (history [first, second] count (.leaf value mark)) value mark other
              otherMark ∧
            (history [first, second] count (.leaf value mark) = [] →
              other = value ∧ otherMark = mark))
          expanded := by
  intro first second services tree expanded
  have hfirst : (runPass (.full [first, second]) tree).result =
      .ok ⟨expanded, [(first, 0), (second, 0)], true⟩ := by cbv
  have hsecond : (runPass [(first, 0), (second, 0)] expanded).result =
      .ok ⟨expanded, [(first, 0), (second, 0)], false⟩ := by cbv
  have hexpand : (tree.expand [first, second]).result = .ok expanded :=
    expand_eq_iff.mpr ⟨2, .goesOn hfirst rfl (.settles hsecond rfl)⟩
  exact ⟨hexpand, expand_leafwise hexpand⟩

end Expansion

end LayeredConfig
