import LayeredConfig.Proofs.Order.Keys
import LayeredConfig.Proofs.Order.Sorting

/-! # What sorting by names is

A sorter asks its predicate twice to tell which of two names stands first, or that they compare
equal. The result of sorting is the only list of the same items in which none is followed by one
strictly below it and items that compare equal stand as they were given. -/

namespace LayeredConfig.RecordSorter

/-! ## Comparing names -/

/-- Which of two names stands first, by two calls of the predicate. -/
def order (sorter : RecordSorter) (a b : String) : Ordering :=
  if sorter.less a b then .lt else if sorter.less b a then .gt else .eq

/-- A sorter that goes by keys of the names. -/
inductive Keyed : RecordSorter → (String → Order.SortKey) → Prop
  | natural : Keyed natural Order.naturalKey
  | lexical : Keyed lexical Order.lexicalKey

theorem order_of_cmp (cmp : String → String → Ordering) [Std.OrientedCmp cmp] (label : String)
    (a b : String) : order ⟨label, fun a b => cmp a b == .lt⟩ a b = cmp a b := by
  have hswap : cmp b a = (cmp a b).swap := Std.OrientedCmp.eq_swap
  simp only [order, hswap]
  cases cmp a b <;> rfl

theorem Keyed.orders {sorter : RecordSorter} {key : String → Order.SortKey}
    (h : Keyed sorter key) : IsStrictWeakOrder String sorter.Precedes ∧ sorter.TellsApart := by
  cases h with
  | natural => exact orders_of_standard (.inl rfl)
  | lexical => exact orders_of_standard (.inr rfl)

/-- Two keys can always be compared, and the sorter goes by their order. -/
theorem Keyed.compare?_eq {sorter : RecordSorter} {key : String → Order.SortKey}
    (h : Keyed sorter key) (a b : String) : (key a).compare? (key b) = some (sorter.order a b) := by
  cases h with
  | natural =>
      rw [Order.compare?_naturalKey]
      exact congrArg some (order_of_cmp Order.natural _ a b).symm
  | lexical => exact congrArg some (order_of_cmp compare _ a b).symm

section Order

variable {sorter : RecordSorter} {a b c : String}

theorem order_ne_lt_iff : sorter.order a b ≠ .lt ↔ ¬ sorter.Precedes a b := by
  rw [order, Precedes]
  split
  · next h => simp [h]
  · next h => split <;> simp [h]

theorem order_eq_iff : sorter.order a b = .eq ↔ ¬ sorter.Precedes a b ∧ ¬ sorter.Precedes b a := by
  rw [order, Precedes, Precedes]
  split
  · next h => simp [h]
  · next h => split <;> simp_all

theorem TellsApart.order_ne_eq (h : sorter.TellsApart) (hne : a ≠ b) : sorter.order a b ≠ .eq :=
  fun heq => hne (h a b (order_eq_iff.mp heq).1 (order_eq_iff.mp heq).2)

variable [IsStrictWeakOrder String sorter.Precedes]

theorem order_self (a : String) : sorter.order a a = .eq :=
  order_eq_iff.mpr ⟨irrefl a, irrefl a⟩

theorem order_eq_of_eq (hab : sorter.order a b = .eq) (hac : sorter.order a c = .eq) :
    sorter.order b c = .eq := by
  rw [order_eq_iff] at hab hac ⊢
  exact IsStrictWeakOrder.incomp_trans _ _ _ hab.symm hac

end Order

/-! ## Stable sorting -/

section Items

variable {α : Type} {sorter : RecordSorter} {name : α → String} {items sorted others : List α}

/-- Whether an item compares equal to a name. -/
def ties (sorter : RecordSorter) (name : α → String) (key : String) (item : α) : Bool :=
  sorter.order key (name item) == .eq

/-- No item is followed, later on, by one strictly below it. -/
def Ascending (sorter : RecordSorter) (name : α → String) (items : List α) : Prop :=
  items.Pairwise fun a b => sorter.order (name b) (name a) ≠ .lt

/-- The same items in ascending order, those that compare equal as they were given. -/
structure StablySorted (sorter : RecordSorter) (name : α → String) (items sorted : List α) :
    Prop where
  perm : sorted.Perm items
  ascending : sorter.Ascending name sorted
  stable : ∀ key, sorted.filter (sorter.ties name key) = items.filter (sorter.ties name key)

variable [IsStrictWeakOrder String sorter.Precedes]

theorem ties_self (item : α) : sorter.ties name (name item) item = true :=
  beq_iff_eq.mpr (order_self (name item))

/-- Items that compare equal to one name stand as they are. -/
theorem sort_of_ties {key : String} (h : ∀ item ∈ items, sorter.ties name key item = true) :
    sorter.sort name items = items := by
  rw [sort_eq_mergeSort]
  refine List.mergeSort_of_pairwise (List.pairwise_of_forall_mem_list fun a ha b hb => ?_)
  rw [inOrder_eq_true]
  have hties : sorter.order (name a) (name b) = .eq :=
    order_eq_of_eq (beq_iff_eq.mp (h a ha)) (beq_iff_eq.mp (h b hb))
  exact (order_eq_iff.mp hties).2

theorem stablySorted_sort (items : List α) :
    sorter.StablySorted name items (sorter.sort name items) where
  perm := sorter.sort_perm name items
  ascending := (sorter.pairwise_sort name items).imp fun h =>
    order_ne_lt_iff.mpr ((sorter.inOrder_eq_true name).mp h)
  stable key := by
    rw [← sort_filter]
    exact sort_of_ties fun item hitem => (List.mem_filter.mp hitem).2

/-- Ascending lists are equal if they have the same items that compare equal to any name, in the
same order. -/
theorem Ascending.eq_of_filter_ties (hsorted : sorter.Ascending name sorted)
    (hothers : sorter.Ascending name others)
    (h : ∀ key, sorted.filter (sorter.ties name key) = others.filter (sorter.ties name key)) :
    sorted = others := by
  induction sorted generalizing others with
  | nil =>
      cases others with
      | nil => rfl
      | cons b others =>
          have hb := h (name b)
          rw [List.filter_cons_of_pos (ties_self b)] at hb
          cases hb
  | cons a sorted ih =>
      cases others with
      | nil =>
          have ha := h (name a)
          rw [List.filter_cons_of_pos (ties_self a)] at ha
          cases ha
      | cons b others =>
          obtain ⟨hafter, hrest⟩ := List.pairwise_cons.mp hsorted
          obtain ⟨hbehind, hremaining⟩ := List.pairwise_cons.mp hothers
          have ha : a ∈ (b :: others) := by
            have hmem : a ∈ (a :: sorted).filter (sorter.ties name (name a)) :=
              List.mem_filter.mpr ⟨List.mem_cons_self, ties_self a⟩
            rw [h] at hmem
            exact (List.mem_filter.mp hmem).1
          have hb : b ∈ (a :: sorted) := by
            have hmem : b ∈ (b :: others).filter (sorter.ties name (name b)) :=
              List.mem_filter.mpr ⟨List.mem_cons_self, ties_self b⟩
            rw [← h] at hmem
            exact (List.mem_filter.mp hmem).1
          have hab : a = b := by
            rcases List.mem_cons.mp ha with hab | ha
            · exact hab
            · rcases List.mem_cons.mp hb with hba | hb
              · exact hba.symm
              -- Each stands behind the other, so the two compare equal and come first among such.
              · have hequal : sorter.order (name a) (name b) = .eq :=
                  order_eq_iff.mpr
                    ⟨order_ne_lt_iff.mp (hbehind a ha), order_ne_lt_iff.mp (hafter b hb)⟩
                have hties : sorter.ties name (name a) b = true := beq_iff_eq.mpr hequal
                have hfirst := h (name a)
                rw [List.filter_cons_of_pos (ties_self a), List.filter_cons_of_pos hties] at hfirst
                exact List.head_eq_of_cons_eq hfirst
          subst hab
          refine congrArg (a :: ·) (ih hrest hremaining fun key => ?_)
          have hkey := h key
          rw [List.filter_cons, List.filter_cons] at hkey
          split at hkey
          · exact List.tail_eq_of_cons_eq hkey
          · exact hkey

theorem stablySorted_iff :
    sorter.StablySorted name items sorted ↔ sorted = sorter.sort name items := by
  constructor
  · intro h
    have hsort : sorter.StablySorted name items (sorter.sort name items) := stablySorted_sort items
    exact h.ascending.eq_of_filter_ties hsort.ascending fun key =>
      (h.stable key).trans (hsort.stable key).symm
  · rintro rfl
    exact stablySorted_sort items

end Items

/-- Sorting naturally, by text, or by a predicate of the caller that is a strict weak order is the
one stable sort of the items. Where it goes by keys, any two of them can be compared and those of
distinct names differ, so that items with distinct names come out alike from any order. -/
theorem sort_canonical {sorter : RecordSorter}
    (h : (∃ key, Keyed sorter key) ∨ ∃ less, custom (some less) = .ok sorter ∧
      IsStrictWeakOrder String fun a b => less a b = true) :
    (∀ {α : Type} (name : α → String) (items sorted : List α),
        sorter.StablySorted name items sorted ↔ sorted = sorter.sort name items) ∧
      ∀ key, Keyed sorter key →
        (∀ a b, (key a).compare? (key b) = some (sorter.order a b) ∧
          (a ≠ b → sorter.order a b ≠ .eq)) ∧
        ∀ {α : Type} (name : α → String) (items others : List α), (items.map name).Nodup →
          items.Perm others → sorter.sort name items = sorter.sort name others := by
  have hweak : IsStrictWeakOrder String sorter.Precedes := by
    rcases h with ⟨key, hkeyed⟩ | ⟨less, hcustom, hweak⟩
    · exact hkeyed.orders.1
    · cases hcustom
      exact hweak
  refine ⟨fun name items sorted => stablySorted_iff, fun key hkeyed => ⟨fun a b => ?_, ?_⟩⟩
  · exact ⟨hkeyed.compare?_eq a b, hkeyed.orders.2.order_ne_eq⟩
  · exact fun name items others hnames hperm =>
      sorter.sort_eq_of_perm name hkeyed.orders.2 hnames hperm

/-- Texts by their lengths, two of which are alike, and numbered names in two orders. -/
theorem sort_canonical_lengths :
    let name (text : String) : String := text
    let shorter (a b : String) : Bool := decide (a.length < b.length)
    let sorter : RecordSorter := ⟨"custom", shorter⟩
    custom (some shorter) = .ok sorter ∧
      (IsStrictWeakOrder String fun a b => shorter a b = true) ∧
      sorter.StablySorted name ["dd", "a", "bb"] ["a", "dd", "bb"] ∧
      Keyed natural Order.naturalKey ∧ ["a10", "a9"].Nodup ∧ ["a10", "a9"].Perm ["a9", "a10"] ∧
      natural.sort name ["a10", "a9"] = natural.sort name ["a9", "a10"] := by
  intro name shorter sorter
  have hweak : IsStrictWeakOrder String fun a b => shorter a b = true := by
    refine { irrefl := ?_, trans := ?_, incomp_trans := ?_ }
    · simp [shorter]
    · simp only [shorter, decide_eq_true_eq]
      exact fun _ _ _ => Nat.lt_trans
    · simp only [shorter, decide_eq_true_eq]
      omega
  have hlengths := (@sort_canonical sorter (.inr ⟨shorter, rfl, hweak⟩)).1 name
    ["dd", "a", "bb"] ["a", "dd", "bb"]
  have hsort : ["a", "dd", "bb"] = sorter.sort name ["dd", "a", "bb"] := by
    have hone : "a".length = 1 := rfl
    have htwo : "dd".length = 2 ∧ "bb".length = 2 := ⟨rfl, rfl⟩
    simp [sort, sorter, shorter, name, List.mergeSort, List.MergeSort.Internal.splitInTwo,
      hone, htwo]
  have hperm : ["a10", "a9"].Perm ["a9", "a10"] := .swap ..
  have hnumbered := (@sort_canonical natural (.inl ⟨_, .natural⟩)).2 _ .natural
  exact ⟨rfl, hweak, hlengths.mpr hsort, .natural, by decide, hperm,
    hnumbered.2 name _ _ (by decide) hperm⟩

end LayeredConfig.RecordSorter
