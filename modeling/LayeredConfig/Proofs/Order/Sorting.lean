import LayeredConfig.Order.RecordSorter
import LayeredConfig.Proofs.Order.Natural
import Mathlib.Data.List.Nodup
import Mathlib.Order.Defs.Unbundled

/-! # Stable sorting by names

A sorter puts items one after another in front of those that do not precede them. So the order of
some of the items does not depend on the others, and items whose names are told apart come out in
one order whatever order they were given in. -/

namespace LayeredConfig.RecordSorter

/-- The sorter puts the first name strictly in front of the second. -/
def Precedes (sorter : RecordSorter) (a b : String) : Prop := sorter.less a b = true

/-! ## Orders of names -/

/-- Strictly below is a strict weak order for every comparison that is transitive. -/
theorem isStrictWeakOrder_of_cmp (cmp : String → String → Ordering) [Std.TransCmp cmp] :
    IsStrictWeakOrder String fun a b => (cmp a b == .lt) = true where
  irrefl a h := by
    have hself : cmp a a = .eq := Std.ReflCmp.compare_self
    rw [hself] at h
    cases h
  trans a b c hab hbc := by
    rw [beq_iff_eq] at hab hbc ⊢
    exact Std.TransCmp.lt_trans hab hbc
  incomp_trans a b c hab hbc := by
    have heq : ∀ {x y : String}, ¬(cmp x y == .lt) = true ∧ ¬(cmp y x == .lt) = true →
        cmp x y = .eq := by
      intro x y h
      have hswap : cmp y x = (cmp x y).swap := Std.OrientedCmp.eq_swap
      rw [hswap] at h
      cases hxy : cmp x y <;> simp [hxy] at h ⊢
    have hac : cmp a c = .eq := Std.TransCmp.eq_trans (heq hab) (heq hbc)
    have hca : cmp c a = .eq := Std.OrientedCmp.eq_symm hac
    rw [hac, hca]
    exact ⟨nofun, nofun⟩

instance : IsStrictWeakOrder String lexical.Precedes := isStrictWeakOrder_of_cmp compare

instance : IsStrictWeakOrder String natural.Precedes := isStrictWeakOrder_of_cmp Order.natural

/-- The sorter has an order for any two names that are not the same. -/
def TellsApart (sorter : RecordSorter) : Prop :=
  ∀ a b, ¬sorter.Precedes a b → ¬sorter.Precedes b a → a = b

theorem tellsApart_of_cmp (cmp : String → String → Ordering) [Std.OrientedCmp cmp]
    [Std.LawfulEqCmp cmp] (label : String) :
    TellsApart ⟨label, fun a b => cmp a b == .lt⟩ := by
  intro a b hab hba
  have hswap : cmp b a = (cmp a b).swap := Std.OrientedCmp.eq_swap
  have heq : cmp a b = .eq := by
    simp only [Precedes, hswap] at hab hba
    cases h : cmp a b <;> simp [h] at hab hba ⊢
  exact Std.LawfulEqCmp.eq_of_compare heq

theorem tellsApart_lexical : lexical.TellsApart := tellsApart_of_cmp compare _

theorem tellsApart_natural : natural.TellsApart := tellsApart_of_cmp Order.natural _

theorem orders_of_standard {sorter : RecordSorter} (h : sorter = .natural ∨ sorter = .lexical) :
    IsStrictWeakOrder String sorter.Precedes ∧ sorter.TellsApart := by
  rcases h with rfl | rfl
  · exact ⟨inferInstance, tellsApart_natural⟩
  · exact ⟨inferInstance, tellsApart_lexical⟩

/-! ## Sorting -/

section Items

variable {α β : Type} (sorter : RecordSorter) (name : α → String)

/-- What the items are named by may be attached to them before or after they are sorted. -/
theorem sort_map (f : β → α) (items : List β) :
    sorter.sort name (items.map f) = (sorter.sort (fun item => name (f item)) items).map f := by
  rw [sort, sort, List.map_mergeSort]
  exact fun _ _ _ _ => rfl

theorem sort_perm (items : List α) : (sorter.sort name items).Perm items :=
  List.mergeSort_perm items _

/-- The first item may stand in front of the second. -/
def inOrder (a b : α) : Bool := !sorter.less (name b) (name a)

theorem sort_eq_mergeSort (items : List α) :
    sorter.sort name items = items.mergeSort (sorter.inOrder name) := rfl

theorem inOrder_eq_true {a b : α} :
    sorter.inOrder name a b = true ↔ ¬sorter.Precedes (name b) (name a) := by
  simp [inOrder, Precedes]

variable [IsStrictWeakOrder String sorter.Precedes]

theorem inOrder_total (a b : α) : sorter.inOrder name a b || sorter.inOrder name b a := by
  rw [Bool.or_eq_true, inOrder_eq_true, inOrder_eq_true]
  by_cases hba : sorter.Precedes (name b) (name a)
  · exact .inr (asymm hba)
  · exact .inl hba

theorem inOrder_trans (a b c : α) (hab : sorter.inOrder name a b) (hbc : sorter.inOrder name b c) :
    sorter.inOrder name a c := by
  rw [inOrder_eq_true] at hab hbc ⊢
  intro hca
  -- One of the two steps is strict, or all three names are alike.
  by_cases hba : sorter.Precedes (name a) (name b)
  · exact hbc (IsTrans.trans _ _ _ hca hba)
  · by_cases hcb : sorter.Precedes (name b) (name c)
    · exact hab (IsTrans.trans _ _ _ hcb hca)
    · exact (IsStrictWeakOrder.incomp_trans _ _ _ ⟨hba, hab⟩ ⟨hcb, hbc⟩).2 hca

theorem pairwise_sort (items : List α) :
    (sorter.sort name items).Pairwise fun a b => sorter.inOrder name a b :=
  List.pairwise_mergeSort (sorter.inOrder_trans name) (sorter.inOrder_total name) items

/-- An item is put behind those that precede it and in front of all others. -/
theorem sort_cons (item : α) (items : List α) :
    let before := (sorter.sort name items).filter fun other => !sorter.inOrder name item other
    let after := (sorter.sort name items).filter fun other => sorter.inOrder name item other
    sorter.sort name (item :: items) = before ++ item :: after ∧
      sorter.sort name items = before ++ after := by
  obtain ⟨before, after, hcons, hitems, hbefore⟩ :=
    List.mergeSort_cons (sorter.inOrder_trans name) (sorter.inOrder_total name) item items
  have hsorted := sorter.pairwise_sort name (item :: items)
  rw [sort_eq_mergeSort, hcons] at hsorted
  have hafter : ∀ other ∈ after, sorter.inOrder name item other = true :=
    (List.pairwise_cons.mp (List.pairwise_append.mp hsorted).2.1).1
  have hfront : (before ++ after).filter (fun other => !sorter.inOrder name item other) = before := by
    rw [List.filter_append, List.filter_eq_self.mpr hbefore, List.filter_eq_nil_iff.mpr,
      List.append_nil]
    intro other hother
    rw [hafter other hother]
    exact nofun
  have hbehind : (before ++ after).filter (fun other => sorter.inOrder name item other) = after := by
    rw [List.filter_append, List.filter_eq_self.mpr hafter, List.filter_eq_nil_iff.mpr,
      List.nil_append]
    intro other hother
    simpa using hbefore other hother
  rw [sort_eq_mergeSort, sort_eq_mergeSort, hcons, hitems, hfront, hbehind]
  exact ⟨rfl, rfl⟩

/-- Leaving items out does not change the order of the others. -/
theorem sort_filter (keep : α → Bool) (items : List α) :
    sorter.sort name (items.filter keep) = (sorter.sort name items).filter keep := by
  induction items with
  | nil => simp [sort]
  | cons item items ih =>
      obtain ⟨hcons, hitems⟩ := sorter.sort_cons name item items
      cases hkeep : keep item with
      | false =>
          have hdrop : ¬keep item = true := by
            rw [hkeep]
            exact nofun
          rw [List.filter_cons_of_neg hdrop, ih, hcons, List.filter_append,
            List.filter_cons_of_neg hdrop, ← List.filter_append, ← hitems]
      | true =>
          rw [List.filter_cons_of_pos hkeep, (sorter.sort_cons name item (items.filter keep)).1, ih,
            List.filter_comm, List.filter_comm _ keep, hcons, List.filter_append,
            List.filter_cons_of_pos hkeep]

/-- Items whose names are told apart come out in one order whatever order they were given in. -/
theorem sort_eq_of_perm (htells : sorter.TellsApart) {items others : List α}
    (hnames : (items.map name).Nodup) (hperm : items.Perm others) :
    sorter.sort name items = sorter.sort name others := by
  have hsorted : (sorter.sort name items).Perm (sorter.sort name others) :=
    (sorter.sort_perm name items).trans (hperm.trans (sorter.sort_perm name others).symm)
  refine hsorted.eq_of_pairwise ?_ (sorter.pairwise_sort name items)
    (sorter.pairwise_sort name others)
  intro a b ha hb hab hba
  rw [inOrder_eq_true] at hab hba
  have hmem : a ∈ items ∧ b ∈ items :=
    ⟨(sorter.sort_perm name items).mem_iff.mp ha,
      hperm.mem_iff.mpr ((sorter.sort_perm name others).mem_iff.mp hb)⟩
  exact List.inj_on_of_nodup_map hnames hmem.1 hmem.2 (htells _ _ hba hab)

/-- That is so behind other items, too, which may have any of these names. -/
theorem sort_append_eq_of_perm (htells : sorter.TellsApart) (front : List α)
    {items others : List α} (hnames : (items.map name).Nodup) (hperm : items.Perm others) :
    sorter.sort name (front ++ items) = sorter.sort name (front ++ others) := by
  induction front with
  | nil => exact sorter.sort_eq_of_perm name htells hnames hperm
  | cons item front ih =>
      rw [List.cons_append, List.cons_append, (sorter.sort_cons name item _).1, ih,
        ← (sorter.sort_cons name item _).1]

end Items

end LayeredConfig.RecordSorter
