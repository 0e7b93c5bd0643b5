import LayeredConfig.Log
import Mathlib.Data.List.Forall2

/-! # How computations end

Two ways of telling how a computation ends, both of which pass from the parts of a sequence to the
whole: by what its answer and its fault can be, and by another computation that it equals unless it
ends with one fault. -/

namespace LayeredConfig

variable {α β γ : Type}

namespace Traced

instance : LawfulMonad Traced := LawfulMonad.mk' Traced
  (by
    rintro α ⟨events, result⟩
    cases result <;> simp [Functor.map, bind, pure])
  (fun _ _ => rfl)
  (by
    rintro α β γ ⟨events, result⟩ f g
    cases result with
    | error fault => rfl
    | ok a =>
        simp only [Bind.bind, bind]
        rcases f a with ⟨later, result⟩
        cases result <;> simp [List.append_assoc])

@[simp] theorem result_mapM (f : α → Traced β) (xs : List α) :
    (xs.mapM f).result = xs.mapM fun x => (f x).result := by
  induction xs with
  | nil => rfl
  | cons x rest ih =>
      simp only [List.mapM_cons, result_bind, ih]
      rfl

theorem liftM_ok (a : α) : (liftM (Except.ok a : Except Fault α) : Traced α) = Pure.pure a := rfl

theorem bind_congr {x : Traced α} {f g : α → Traced β}
    (h : ∀ a, x.result = .ok a → f a = g a) : x >>= f = x >>= g := by
  obtain ⟨events, result⟩ := x
  cases result with
  | error fault => rfl
  | ok a => simp only [Bind.bind, bind, h a rfl]

end Traced

/-- Where each member has an answer of its own, the sequence has them all. -/
theorem mapM_eq_pure {m : Type → Type} [Monad m] [LawfulMonad m] {f : α → m β} {g : α → β}
    {xs : List α} (h : ∀ x ∈ xs, f x = pure (g x)) : xs.mapM f = pure (xs.map g) := by
  induction xs with
  | nil => rw [List.mapM_nil, List.map_nil]
  | cons x rest ih =>
      rw [List.mapM_cons, h x List.mem_cons_self, pure_bind,
        ih fun y hy => h y (List.mem_cons_of_mem x hy), pure_bind, List.map_cons]

/-! ## Answers and faults -/

/-- The result is one of the answers, or else one of the faults. -/
inductive Ends (faults : Fault → Prop) (answers : α → Prop) : Except Fault α → Prop
  | answer {a : α} (h : answers a) : Ends faults answers (.ok a)
  | fault {fault : Fault} (h : faults fault) : Ends faults answers (.error fault)

namespace Ends

variable {faults : Fault → Prop} {answers : α → Prop} {results : β → Prop} {x : Except Fault α}

theorem mono {more : Fault → Prop} {others : α → Prop} (h : Ends faults answers x)
    (hmore : ∀ fault, faults fault → more fault) (hothers : ∀ a, answers a → others a) :
    Ends more others x := by
  cases h with
  | answer h => exact .answer (hothers _ h)
  | fault h => exact .fault (hmore _ h)

theorem nil : Ends faults (fun ys => ∀ y ∈ ys, results y) (.ok []) :=
  .answer fun _ hy => (List.not_mem_nil hy).elim

theorem of_ok {a : α} (h : Ends faults answers (.ok a)) : answers a := by
  cases h with
  | answer h => exact h

theorem of_error {fault : Fault} (h : Ends faults answers (.error fault)) : faults fault := by
  cases h with
  | fault h => exact h

theorem bind {f : α → Except Fault β} (h : Ends faults answers x)
    (hf : ∀ a, answers a → Ends faults results (f a)) : Ends faults results (x.bind f) := by
  cases h with
  | answer h => exact hf _ h
  | fault h => exact .fault h

theorem any : Ends (fun _ => True) (fun _ => True) x := by
  cases x with
  | ok a => exact .answer trivial
  | error fault => exact .fault trivial

theorem and {others : α → Prop} (h : Ends faults answers x)
    (hothers : Ends (fun _ => True) others x) :
    Ends faults (fun a => answers a ∧ others a) x := by
  cases h with
  | answer h => exact .answer ⟨h, hothers.of_ok⟩
  | fault h => exact .fault h

/-- Without a fault to end with there is an answer. -/
theorem exists_answer (h : Ends (fun _ => False) answers x) : ∃ a, x = .ok a ∧ answers a := by
  cases h with
  | answer h => exact ⟨_, rfl, h⟩
  | fault h => exact h.elim

theorem forall₂_mapM {R : α → β → Prop} {f : α → Except Fault β} {xs : List α}
    (h : ∀ a ∈ xs, Ends faults (R a) (f a)) : Ends faults (List.Forall₂ R xs) (xs.mapM f) := by
  induction xs with
  | nil => exact .answer .nil
  | cons a rest ih =>
      rw [List.mapM_cons]
      refine bind (h a List.mem_cons_self) fun y hy => ?_
      exact bind (ih fun b hb => h b (List.mem_cons_of_mem a hb)) fun ys hys =>
        .answer (.cons hy hys)

/-- The positions of the members may take part in what is done with them. -/
theorem forall₂_mapM_zipIdx {R : α → β → Prop} {f : α × Nat → Except Fault β} {xs : List α}
    (h : ∀ a ∈ xs, ∀ index, Ends faults (R a) (f (a, index))) :
    Ends faults (List.Forall₂ R xs) (xs.zipIdx.mapM f) := by
  have hpairs : Ends faults (List.Forall₂ (fun pair => R pair.1) xs.zipIdx)
      (xs.zipIdx.mapM f) :=
    forall₂_mapM fun pair hpair => h pair.1 (List.fst_mem_of_mem_zipIdx hpair) pair.2
  refine hpairs.mono (fun _ h => h) fun ys hys => ?_
  rw [← List.zipIdx_map_fst 0 xs]
  exact List.forall₂_map_left_iff.mpr hys

/-- Where nothing is left out, each member has its place in the outcome. -/
theorem forall₂_filterMapM {R : α → β → Prop} {f : α → Except Fault (Option β)} {xs : List α}
    (h : ∀ a ∈ xs, Ends faults (fun y? => ∃ y, y? = some y ∧ R a y) (f a)) :
    Ends faults (List.Forall₂ R xs) (xs.filterMapM f) := by
  induction xs with
  | nil => exact .answer .nil
  | cons a rest ih =>
      rw [List.filterMapM_cons]
      refine bind (h a List.mem_cons_self) ?_
      rintro _ ⟨y, rfl, hy⟩
      exact bind (ih fun b hb => h b (List.mem_cons_of_mem a hb)) fun ys hys =>
        .answer (.cons hy hys)

theorem mapM {f : α → Except Fault β} {xs : List α}
    (h : ∀ a ∈ xs, Ends faults results (f a)) :
    Ends faults (fun ys => ∀ y ∈ ys, results y) (xs.mapM f) := by
  refine (forall₂_mapM (R := fun _ => results) h).mono (fun _ h => h) fun ys hys => ?_
  clear h
  induction hys with
  | nil => exact fun _ hy => (List.not_mem_nil hy).elim
  | cons hy _ ih => exact List.forall_mem_cons.mpr ⟨hy, ih⟩

/-- Rows that are put together in one row. -/
theorem mapM_flatten {f : α → Except Fault (List β)} {xs : List α}
    (h : ∀ a ∈ xs, Ends faults (fun ys => ∀ y ∈ ys, results y) (f a)) :
    Ends faults (fun ys => ∀ y ∈ ys, results y)
      ((xs.mapM f).bind fun rows => .ok rows.flatten) := by
  refine bind (mapM h) fun rows hrows => .answer fun y hy => ?_
  obtain ⟨row, hrow, hy⟩ := List.mem_flatten.mp hy
  exact hrows row hrow y hy

theorem foldlM {f : α → β → Except Fault α} {xs : List β} {start : α} (hstart : answers start)
    (h : ∀ a, answers a → ∀ b ∈ xs, Ends faults answers (f a b)) :
    Ends faults answers (xs.foldlM f start) := by
  induction xs generalizing start with
  | nil => exact .answer hstart
  | cons b rest ih =>
      rw [List.foldlM_cons]
      refine bind (h start hstart b List.mem_cons_self) fun a ha => ?_
      exact ih ha fun a ha c hc => h a ha c (List.mem_cons_of_mem b hc)

end Ends

section Except

variable {ε : Type} {x : Except ε α} {b : β}

/-- A computation whose answer passes a test ends with one that does. -/
theorem exists_ok_of_any {p : α → Bool} (h : x.toOption.any p = true) :
    ∃ a, x = .ok a ∧ p a = true := by
  cases x with
  | error => cases h
  | ok a => exact ⟨a, rfl, h⟩

theorem exists_of_bind_eq_ok {f : α → Except ε β} (h : (x >>= f) = .ok b) :
    ∃ a, x = .ok a ∧ f a = .ok b := by
  cases x with
  | error fault => cases h
  | ok a => exact ⟨a, rfl, h⟩

theorem exists_of_map_eq_ok {f : α → β} (h : x.map f = .ok b) : ∃ a, x = .ok a ∧ b = f a := by
  cases x with
  | error fault => cases h
  | ok a => exact ⟨a, rfl, (Except.ok.inj h).symm⟩

/-- Members of which nothing comes may be left out. -/
theorem filterMap_mapM_filter {f g : α → Except ε (Option β)} {keep : α → Bool} {xs : List α}
    (hkept : ∀ x ∈ xs, keep x = true → g x = f x)
    (hdropped : ∀ x ∈ xs, keep x = false → f x = .ok none) :
    ((xs.filter keep).mapM g).map (List.filterMap id) = (xs.mapM f).map (List.filterMap id) := by
  induction xs with
  | nil => rfl
  | cons x rest ih =>
      rw [List.forall_mem_cons] at hkept hdropped
      have hcons (h : α → Except ε (Option β)) (ys : List α) :
          ((x :: ys).mapM h).map (List.filterMap id) =
            (h x).bind fun y? => ((ys.mapM h).map (List.filterMap id)).map (y?.toList ++ ·) := by
        rw [List.mapM_cons]
        cases h x with
        | error fault => rfl
        | ok y? => cases y? <;> cases ys.mapM h <;> rfl
      cases hkeep : keep x with
      | false =>
          rw [List.filter_cons_of_neg (by simp [hkeep]), ih hkept.2 hdropped.2, hcons,
            hdropped.1 hkeep]
          cases rest.mapM f <;> rfl
      | true =>
          rw [List.filter_cons_of_pos hkeep, hcons, hcons, hkept.1 hkeep,
            ih hkept.2 hdropped.2]

theorem forall₂_of_mapM_eq_ok {f : α → Except ε β} {xs : List α} {ys : List β}
    (h : xs.mapM f = .ok ys) : List.Forall₂ (fun x y => f x = .ok y) xs ys := by
  induction xs generalizing ys with
  | nil =>
      cases h
      exact .nil
  | cons x rest ih =>
      rw [List.mapM_cons] at h
      obtain ⟨y, hy, h⟩ := exists_of_bind_eq_ok h
      obtain ⟨others, hothers, h⟩ := exists_of_bind_eq_ok h
      cases h
      exact .cons hy (ih hothers)

end Except

/-- The first result is the second one, or the fault stands in its place. -/
def SameOr (fault : Fault) (first second : Except Fault α) : Prop :=
  first = second ∨ first = .error fault

namespace SameOr

variable {fault : Fault} {first second : Except Fault α}

theorem refl (result : Except Fault α) : SameOr fault result result := .inl rfl

theorem bind {f g : α → Except Fault β} (h : SameOr fault first second)
    (hf : ∀ a, SameOr fault (f a) (g a)) : SameOr fault (first.bind f) (second.bind g) := by
  rcases h with rfl | rfl
  · cases first with
    | error _ => exact .inl rfl
    | ok a => exact hf a
  · exact .inr rfl

theorem mapM {f g : α → Except Fault β} {xs : List α} (h : ∀ a ∈ xs, SameOr fault (f a) (g a)) :
    SameOr fault (xs.mapM f) (xs.mapM g) := by
  induction xs with
  | nil => exact .inl rfl
  | cons a rest ih =>
      rw [List.mapM_cons, List.mapM_cons]
      refine bind (h a List.mem_cons_self) fun b => ?_
      exact bind (ih fun c hc => h c (List.mem_cons_of_mem a hc)) fun bs => refl _

theorem foldlM {f g : α → β → Except Fault α} {xs : List β}
    (h : ∀ a b, SameOr fault (f a b) (g a b)) (start : α) :
    SameOr fault (xs.foldlM f start) (xs.foldlM g start) := by
  induction xs generalizing start with
  | nil => exact .inl rfl
  | cons b rest ih =>
      rw [List.foldlM_cons, List.foldlM_cons]
      exact bind (h start b) fun a => ih a

end SameOr

/-! ## Rows in step -/

section Rows

variable {R : α → β → Prop} {xs : List α} {ys : List β}

theorem exists_of_mem_left (h : List.Forall₂ R xs ys) {x : α} (hx : x ∈ xs) :
    ∃ y ∈ ys, R x y := by
  induction h with
  | nil => cases hx
  | cons hr _ ih =>
      rcases List.mem_cons.mp hx with rfl | hx
      · exact ⟨_, List.mem_cons_self, hr⟩
      · obtain ⟨y, hy, hxy⟩ := ih hx
        exact ⟨y, List.mem_cons_of_mem _ hy, hxy⟩

theorem exists_of_mem_right (h : List.Forall₂ R xs ys) {y : β} (hy : y ∈ ys) :
    ∃ x ∈ xs, R x y :=
  exists_of_mem_left h.flip hy

/-- Two rows in step are the two sides of one row of pairs. -/
theorem exists_pairs (h : List.Forall₂ R xs ys) :
    ∃ pairs : List (α × β), xs = pairs.map (·.1) ∧ ys = pairs.map (·.2) ∧
      ∀ pair ∈ pairs, R pair.1 pair.2 := by
  induction h with
  | nil => exact ⟨[], rfl, rfl, fun _ hmem => (List.not_mem_nil hmem).elim⟩
  | @cons x y xs ys hr _ ih =>
      obtain ⟨pairs, rfl, rfl, hpairs⟩ := ih
      exact ⟨(x, y) :: pairs, rfl, rfl, List.forall_mem_cons.mpr ⟨hr, hpairs⟩⟩

theorem map_eq_map_iff_zip {f : α → γ} {g : β → γ} {xs : List α} {ys : List β} :
    xs.map f = ys.map g ↔ xs.length = ys.length ∧ ∀ pair ∈ xs.zip ys, f pair.1 = g pair.2 := by
  rw [← List.forall₂_eq_eq_eq, List.forall₂_map_left_iff, List.forall₂_map_right_iff,
    List.forall₂_iff_zip]
  exact and_congr_right fun _ => ⟨fun h _ hpair => h hpair, fun h _ _ hpair => h _ hpair⟩

/-- Every member of the second of two rows of one length has its partner in the first. -/
theorem exists_mem_zip_right (hlength : xs.length = ys.length) {y : β} (hy : y ∈ ys) :
    ∃ x, (x, y) ∈ xs.zip ys := by
  rw [← List.map_snd_zip (Nat.le_of_eq hlength.symm)] at hy
  obtain ⟨⟨x, _⟩, hpair, rfl⟩ := List.mem_map.mp hy
  exact ⟨x, hpair⟩

theorem forall₂_trans {S : β → γ → Prop} {T : α → γ → Prop} {zs : List γ}
    (hxs : List.Forall₂ R xs ys) (hys : List.Forall₂ S ys zs)
    (h : ∀ x y z, R x y → S y z → T x z) : List.Forall₂ T xs zs := by
  induction hxs generalizing zs with
  | nil => cases hys; exact .nil
  | cons hr _ ih =>
      cases hys with
      | cons hs hys => exact .cons (h _ _ _ hr hs) (ih hys)

theorem forall₂_zip_right {S : α → γ → Prop} {zs : List γ} (hys : List.Forall₂ R xs ys)
    (hzs : List.Forall₂ S xs zs) :
    List.Forall₂ (fun x pair => R x pair.1 ∧ S x pair.2) xs (ys.zip zs) := by
  induction hys generalizing zs with
  | nil => exact .nil
  | cons hr _ ih =>
      cases hzs with
      | cons hs hzs => exact .cons ⟨hr, hs⟩ (ih hzs)

end Rows

/-! ## Rows of optional values -/

theorem mapM_eq_some_iff {f : α → Option β} {xs : List α} {ys : List β} :
    xs.mapM f = some ys ↔ List.Forall₂ (fun x y => f x = some y) xs ys := by
  induction xs generalizing ys with
  | nil => simp [eq_comm]
  | cons x rest ih =>
      simp only [List.mapM_cons, Option.bind_eq_bind, Option.bind_eq_some_iff,
        List.forall₂_cons_left_iff, ih, Option.pure_def, Option.some.injEq]
      constructor
      · rintro ⟨y, hy, ys, hys, rfl⟩
        exact ⟨y, ys, hy, hys, rfl⟩
      · rintro ⟨y, ys, hy, hys, rfl⟩
        exact ⟨y, hy, ys, hys, rfl⟩

theorem mapM_map_eq (f : α → Option β) (g : β → γ) (xs : List α) :
    (xs.mapM fun x => (f x).map g) = (xs.mapM f).map fun ys => ys.map g := by
  induction xs with
  | nil => rfl
  | cons x rest ih =>
      rw [List.mapM_cons, List.mapM_cons, ih]
      cases f x <;> cases rest.mapM f <;> rfl

/-- Members that are exchanged one by one for such of which the same becomes. -/
theorem mapM_congr {f : α → Option β} {xs ys : List α}
    (h : List.Forall₂ (fun x y => f y = f x) xs ys) : ys.mapM f = xs.mapM f := by
  induction h with
  | nil => rfl
  | cons h _ ih => rw [List.mapM_cons, List.mapM_cons, h, ih]

end LayeredConfig
