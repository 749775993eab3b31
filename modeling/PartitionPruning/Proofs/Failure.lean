import PartitionPruning.Value.Constant

/-! Computations that may fail: the steps that a computation with a result has gone through, and the
steps of one that has been ended. -/

namespace PartitionPruning

section

variable {ε α β : Type} {x : Except ε α}

theorem ok_bind (a : α) (f : α → Except ε β) : (Except.ok a >>= f) = f a := rfl

theorem bind_eq_ok {f : α → Except ε β} {b : β} :
    x >>= f = .ok b ↔ ∃ a, x = .ok a ∧ f a = .ok b := by
  cases x <;> simp [bind, Except.bind]

theorem map_eq_ok {f : α → β} {b : β} : f <$> x = .ok b ↔ ∃ a, x = .ok a ∧ f a = b := by
  cases x <;> simp [Functor.map, Except.map]

theorem exists_map_eq_ok_iff {f : α → β} : (∃ b, f <$> x = .ok b) ↔ ∃ a, x = .ok a := by
  cases x <;> simp [Functor.map, Except.map]

theorem bind_eq_error {f : α → Except ε β} {e : ε} :
    (x >>= f) = .error e ↔ x = .error e ∨ ∃ a, x = .ok a ∧ f a = .error e := by
  cases x <;> simp [bind, Except.bind]

theorem map_eq_error {f : α → β} {e : ε} : f <$> x = .error e ↔ x = .error e := by
  cases x <;> simp [Functor.map, Except.map]

theorem toOption_eq_some {a : α} : x.toOption = some a ↔ x = .ok a := by
  cases x <;> simp [Except.toOption]

/-- A computation on every item of a list has a result if it has one on each of them. -/
theorem mapM_eq_ok {f : α → Except ε β} {xs : List α} {ys : List β} :
    xs.mapM f = .ok ys ↔ xs.map f = ys.map .ok := by
  induction xs generalizing ys with
  | nil => cases ys <;> simp [pure, Except.pure]
  | cons x xs ih =>
    simp only [List.mapM_cons, bind_eq_ok, ih, pure, Except.pure]
    constructor
    · rintro ⟨y, hy, zs, hzs, heq⟩
      obtain rfl := Except.ok.inj heq
      simp [hy, hzs]
    · intro h
      cases ys with
      | nil => simp at h
      | cons y ys =>
        obtain ⟨hy, hys⟩ := List.cons.inj h
        exact ⟨y, hy, ys, hys, rfl⟩

/-- What a computation on every item leaves as it is. -/
theorem mapM_eq_ok_self_iff {f : α → Except ε α} {xs : List α} :
    xs.mapM f = .ok xs ↔ ∀ x ∈ xs, f x = .ok x := by
  rw [mapM_eq_ok]
  exact List.map_inj_left

/-- Computations on items and on what other functions make of them and of their results. -/
theorem mapM_map_eq_ok {γ δ : Type} {f : α → Except ε β} {f' : γ → Except ε δ} {g : α → γ}
    {g' : β → δ} {xs : List α} {ys : List β}
    (hf : ∀ x ∈ xs, ∀ y, f x = .ok y → f' (g x) = .ok (g' y)) (h : xs.mapM f = .ok ys) :
    (xs.map g).mapM f' = .ok (ys.map g') := by
  rw [mapM_eq_ok] at h ⊢
  induction xs generalizing ys with
  | nil =>
    obtain rfl := List.map_eq_nil_iff.mp h.symm
    rfl
  | cons x xs ih =>
    cases ys with
    | nil => contradiction
    | cons y ys =>
      obtain ⟨hfirst, hrest⟩ := List.cons.inj h
      obtain ⟨hx, hxs⟩ := List.forall_mem_cons.mp hf
      exact congr (congrArg List.cons (hx y hfirst)) (ih hxs hrest)

theorem exists_mapM_eq_ok {f : α → Except ε β} {xs : List α} (h : ∀ x ∈ xs, ∃ y, f x = .ok y) :
    ∃ ys, xs.mapM f = .ok ys := by
  induction xs with
  | nil => exact ⟨[], rfl⟩
  | cons x xs ih =>
    obtain ⟨y, hy⟩ := h x List.mem_cons_self
    obtain ⟨ys, hys⟩ := ih fun z hz => h z (List.mem_cons_of_mem _ hz)
    exact ⟨y :: ys, by rw [List.mapM_cons, hy, hys]; rfl⟩

theorem exists_of_mapM_eq_ok {f : α → Except ε β} {xs : List α} {ys : List β} {x : α}
    (h : xs.mapM f = .ok ys) (hx : x ∈ xs) : ∃ y ∈ ys, f x = .ok y := by
  have hmem : f x ∈ ys.map .ok := mapM_eq_ok.mp h ▸ List.mem_map_of_mem hx
  obtain ⟨y, hy, heq⟩ := List.mem_map.mp hmem
  exact ⟨y, hy, heq.symm⟩

theorem exists_mapM_eq_ok_iff {f : α → Except ε β} {xs : List α} :
    (∃ ys, xs.mapM f = .ok ys) ↔ ∀ x ∈ xs, ∃ y, f x = .ok y := by
  constructor
  · rintro ⟨ys, hys⟩ x hx
    obtain ⟨y, -, hy⟩ := exists_of_mapM_eq_ok hys hx
    exact ⟨y, hy⟩
  · exact exists_mapM_eq_ok

theorem exists_of_mem_of_mapM_eq_ok {f : α → Except ε β} {xs : List α} {ys : List β} {y : β}
    (h : xs.mapM f = .ok ys) (hy : y ∈ ys) : ∃ x ∈ xs, f x = .ok y := by
  have hmem : .ok y ∈ xs.map f := mapM_eq_ok.mp h ▸ List.mem_map_of_mem hy
  exact List.mem_map.mp hmem

/-- A computation on every item of a list fails as it does on the first item where it fails. -/
theorem mapM_eq_error {f : α → Except ε β} {xs : List α} {e : ε} :
    xs.mapM f = .error e ↔ ∃ before x after, xs = before ++ x :: after ∧
      (∀ w ∈ before, ∃ y, f w = .ok y) ∧ f x = .error e := by
  induction xs with
  | nil => simp [pure, Except.pure]
  | cons x xs ih =>
    rw [List.mapM_cons, bind_eq_error]
    constructor
    · rintro (hx | ⟨y, hy, h⟩)
      · exact ⟨[], x, xs, rfl, by simp, hx⟩
      · have hxs : xs.mapM f = .error e :=
          (bind_eq_error.mp h).resolve_right (by simp [pure, Except.pure])
        obtain ⟨before, z, after, rfl, hbefore, hz⟩ := ih.mp hxs
        exact ⟨x :: before, z, after, rfl, List.forall_mem_cons.mpr ⟨⟨y, hy⟩, hbefore⟩, hz⟩
    · rintro ⟨_ | ⟨w, before⟩, z, after, heq, hbefore, hz⟩
      · obtain ⟨rfl, -⟩ := List.cons.inj heq
        exact Or.inl hz
      · obtain ⟨rfl, rfl⟩ := List.cons.inj heq
        obtain ⟨⟨y, hy⟩, hbefore⟩ := List.forall_mem_cons.mp hbefore
        exact Or.inr ⟨y, hy, bind_eq_error.mpr (Or.inl (ih.mpr ⟨before, z, after, rfl, hbefore, hz⟩))⟩

theorem foldlM_cons_eq_ok {σ : Type} {f : σ → α → Except ε σ} {a : α} {as : List α} {s s' : σ} :
    (a :: as).foldlM f s = .ok s' ↔ ∃ t, f s a = .ok t ∧ as.foldlM f t = .ok s' := by
  rw [List.foldlM_cons, bind_eq_ok]

theorem foldlM_append_eq_ok {σ : Type} {f : σ → α → Except ε σ} {as bs : List α} {s s' : σ} :
    (as ++ bs).foldlM f s = .ok s' ↔ ∃ t, as.foldlM f s = .ok t ∧ bs.foldlM f t = .ok s' := by
  rw [List.foldlM_append, bind_eq_ok]

/-- What holds after a run held before it, or one of the items has brought it about. -/
theorem exists_of_foldlM_eq_ok {σ : Type} {f : σ → α → Except ε σ} {as : List α} {s s' : σ}
    {P : σ → Prop} {Q : α → Prop} (hstep : ∀ a s s', f s a = .ok s' → P s' → P s ∨ Q a)
    (h : as.foldlM f s = .ok s') (hs' : P s') : P s ∨ ∃ a ∈ as, Q a := by
  induction as generalizing s with
  | nil =>
    obtain rfl := Except.ok.inj h
    exact Or.inl hs'
  | cons a as ih =>
    obtain ⟨t, ha, has⟩ := foldlM_cons_eq_ok.mp h
    rcases ih has with ht | ⟨b, hb, hQ⟩
    · exact (hstep a s t ha ht).imp id fun hQ => ⟨a, List.mem_cons_self, hQ⟩
    · exact Or.inr ⟨b, List.mem_cons_of_mem _ hb, hQ⟩

end

/-- Items that were made of others are read back as those. -/
theorem mapM_attach_map {ε α β : Type} {make : β → α} {ys : List β}
    {f : { x // x ∈ ys.map make } → Except ε β}
    (h : ∀ y (hy : y ∈ ys), f ⟨make y, List.mem_map_of_mem hy⟩ = .ok y) :
    (ys.map make).attach.mapM f = .ok ys := by
  have hmade : ys.attach.map (fun y => Except.ok (ε := ε) y.1) = ys.map .ok :=
    List.attach_map_val (f := Except.ok)
  rw [mapM_eq_ok, List.attach_map, List.map_map, ← hmade]
  exact List.map_congr_left fun y _ => h y.1 y.2

theorem mapM_eq_some {α β : Type} {f : α → Option β} {xs : List α} {ys : List β} :
    xs.mapM f = some ys ↔ xs.map f = ys.map some := by
  induction xs generalizing ys with
  | nil => cases ys <;> simp
  | cons x xs ih =>
    rw [List.mapM_cons]
    cases ys with
    | nil => cases f x <;> cases xs.mapM f <;> simp
    | cons y ys =>
      rw [List.map_cons, List.map_cons, List.cons.injEq, ← ih]
      cases f x <;> cases xs.mapM f <;> simp

namespace Failure

variable {α β : Type} {x : Except Fault α}

theorem lift_ok (a : α) : (liftM (Except.ok a : Except Fault α) : Except Failure α) = .ok a := rfl

theorem lift_error (cause : Fault) :
    (liftM (Except.error cause : Except Fault α) : Except Failure α) = .error (.fault cause) := rfl

theorem lift_eq_ok {a : α} : (liftM x : Except Failure α) = .ok a ↔ x = .ok a := by
  cases x with
  | ok b => simp [lift_ok]
  | error cause => simp [lift_error]

theorem lift_ne_abort : (liftM x : Except Failure α) ≠ .error .abort := by
  cases x with
  | ok b => simp [lift_ok]
  | error cause => simp [lift_error]

/-- Only a later step can have ended a computation. -/
theorem lift_bind_eq_abort {f : α → Except Failure β} :
    (liftM x >>= f) = .error .abort ↔ ∃ a, x = .ok a ∧ f a = .error .abort := by
  cases x with
  | ok b => simp [lift_ok, bind, Except.bind]
  | error cause => simp [lift_error, bind, Except.bind]

end Failure

end PartitionPruning
