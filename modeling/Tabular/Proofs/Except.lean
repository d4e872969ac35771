import Mathlib.Data.List.Forall2

namespace Tabular

variable {ε α β : Type}

theorem bind_eq_ok {x : Except ε α} {f : α → Except ε β} {b : β} :
    x >>= f = .ok b ↔ ∃ a, x = .ok a ∧ f a = .ok b := by
  cases x with
  | error e => simp [bind, Except.bind]
  | ok a => simp [bind, Except.bind]

theorem bind_eq_error {x : Except ε α} {f : α → Except ε β} {e : ε} :
    x >>= f = .error e ↔ x = .error e ∨ ∃ a, x = .ok a ∧ f a = .error e := by
  cases x with
  | error e' => simp [bind, Except.bind]
  | ok a => simp [bind, Except.bind]

theorem ok_eq_error {a : α} {b : β} {e : ε} :
    (.ok a : Except ε α) = .error e ↔ (.ok b : Except ε β) = .error e := by
  simp

theorem error_eq_error {e e' : ε} :
    (.error e : Except ε α) = .error e' ↔ (.error e : Except ε β) = .error e' := by
  simp

theorem map_eq_ok {x : Except ε α} {f : α → β} {b : β} :
    x.map f = .ok b ↔ ∃ a, x = .ok a ∧ f a = b := by
  cases x with
  | error e => simp [Except.map]
  | ok a => simp [Except.map]

theorem bind_eq_map {x : Except ε α} {f : α → Except ε β} {g : α → β} (h : ∀ a, f a = .ok (g a)) :
    x >>= f = x.map g := by
  cases x with
  | error e => rfl
  | ok a => exact h a

theorem map_map {γ : Type} {x : Except ε α} {f : α → β} {g : β → γ} :
    (x.map f).map g = x.map fun a => g (f a) := by
  cases x with
  | error e => rfl
  | ok a => rfl

theorem exists_map_eq_ok {x : Except ε α} {f : α → β} :
    (∃ b, x.map f = .ok b) ↔ ∃ a, x = .ok a := by
  simp only [map_eq_ok]
  exact ⟨fun ⟨_, a, ha, _⟩ => ⟨a, ha⟩, fun ⟨a, ha⟩ => ⟨f a, a, ha, rfl⟩⟩

theorem bind_pure_eq_ok {x : Except ε α} {f : α → β} {b : β} :
    (x >>= fun a => pure (f a)) = .ok b ↔ ∃ a, x = .ok a ∧ f a = b := by
  simp [bind_eq_ok, pure, Except.pure]

theorem exists_bind_pure_eq_ok {x : Except ε α} {f : α → β} :
    (∃ b, (x >>= fun a => pure (f a)) = .ok b) ↔ ∃ a, x = .ok a := by
  simp only [bind_pure_eq_ok]
  exact ⟨fun ⟨_, a, ha, _⟩ => ⟨a, ha⟩, fun ⟨a, ha⟩ => ⟨f a, a, ha, rfl⟩⟩

theorem guard_eq_ok {c : Prop} [Decidable c] {e : ε} {x : Except ε α} {f : PUnit → Except ε α}
    {a : α} : (if c then throw e >>= f else x) = .ok a ↔ ¬c ∧ x = .ok a := by
  by_cases hc : c
  · simp [hc, bind, Except.bind, throw, throwThe, MonadExceptOf.throw]
  · simp [hc]

theorem guard_eq_error {c : Prop} [Decidable c] {e e' : ε} {x : Except ε α}
    {f : PUnit → Except ε α} :
    (if c then throw e >>= f else x) = .error e' ↔ (c ∧ e = e') ∨ (¬c ∧ x = .error e') := by
  by_cases hc : c
  · simp [hc, bind, Except.bind, throw, throwThe, MonadExceptOf.throw]
  · simp [hc]

theorem forM_eq_ok {f : α → Except ε Unit} {xs : List α} :
    xs.forM f = .ok () ↔ ∀ x ∈ xs, f x = .ok () := by
  induction xs with
  | nil => exact ⟨fun _ _ h => absurd h List.not_mem_nil, fun _ => rfl⟩
  | cons x xs ih =>
    have hstep : (x :: xs).forM f = f x >>= fun _ => xs.forM f := rfl
    rw [hstep, bind_eq_ok, List.forall_mem_cons, ← ih]
    exact ⟨fun ⟨_, hx, hxs⟩ => ⟨hx, hxs⟩, fun ⟨hx, hxs⟩ => ⟨(), hx, hxs⟩⟩

theorem foldlM_induction (inv : β → Prop) {f : β → α → Except ε β}
    (step : ∀ b x c, inv b → f b x = .ok c → inv c) {xs : List α} {b c : β} (hb : inv b)
    (h : xs.foldlM f b = .ok c) : inv c := by
  induction xs generalizing b with
  | nil =>
    cases h
    exact hb
  | cons x xs ih =>
    rw [List.foldlM_cons, bind_eq_ok] at h
    obtain ⟨next, hnext, h⟩ := h
    exact ih (step b x next hb hnext) h

theorem mapM_eq_ok {f : α → Except ε β} {xs : List α} {ys : List β} :
    xs.mapM f = .ok ys ↔ List.Forall₂ (fun x y => f x = .ok y) xs ys := by
  induction xs generalizing ys with
  | nil =>
    rw [List.forall₂_nil_left_iff, List.mapM_nil]
    exact ⟨fun h => (Except.ok.inj h).symm, fun h => congrArg _ h.symm⟩
  | cons x xs ih =>
    rw [List.mapM_cons, bind_eq_ok, List.forall₂_cons_left_iff]
    constructor
    · rintro ⟨y, hy, h⟩
      obtain ⟨zs, hzs, h⟩ := bind_eq_ok.1 h
      exact ⟨y, zs, hy, ih.1 hzs, (Except.ok.inj h).symm⟩
    · rintro ⟨y, zs, hy, hzs, rfl⟩
      exact ⟨y, hy, bind_eq_ok.2 ⟨zs, ih.2 hzs, rfl⟩⟩

theorem exists_mapM_eq_ok {f : α → Except ε β} {xs : List α} :
    (∃ ys, xs.mapM f = .ok ys) ↔ ∀ x ∈ xs, ∃ y, f x = .ok y := by
  simp only [mapM_eq_ok]
  induction xs with
  | nil => exact ⟨fun _ _ h => absurd h List.not_mem_nil, fun _ => ⟨[], .nil⟩⟩
  | cons x xs ih =>
    rw [List.forall_mem_cons, ← ih]
    constructor
    · rintro ⟨_, hy | ⟨hy, hys⟩⟩
      exact ⟨⟨_, hy⟩, _, hys⟩
    · rintro ⟨⟨y, hy⟩, ys, hys⟩
      exact ⟨y :: ys, .cons hy hys⟩

theorem exists_of_forall₂ {r : α → β → Prop} {xs : List α} {ys : List β}
    (h : List.Forall₂ r xs ys) {x : α} (hx : x ∈ xs) : ∃ y ∈ ys, r x y := by
  induction h with
  | nil => cases hx
  | @cons x' y xs ys hxy h ih =>
    rcases List.mem_cons.1 hx with rfl | hx
    · exact ⟨y, List.mem_cons_self, hxy⟩
    · obtain ⟨z, hz, hxz⟩ := ih hx
      exact ⟨z, List.mem_cons_of_mem y hz, hxz⟩

theorem exists_of_mapM {f : α → Except ε β} {xs : List α} {ys : List β} (h : xs.mapM f = .ok ys) :
    ∀ y ∈ ys, ∃ x ∈ xs, f x = .ok y :=
  fun _ hy => exists_of_forall₂ (mapM_eq_ok.1 h).flip hy

theorem exists_of_mapM_error {f : α → Except ε β} {xs : List α} {e : ε}
    (h : xs.mapM f = .error e) : ∃ x ∈ xs, f x = .error e := by
  induction xs with
  | nil => cases h
  | cons x xs ih =>
    rw [List.mapM_cons] at h
    cases hx : f x with
    | error e' =>
      rw [hx] at h
      cases h
      exact ⟨x, List.mem_cons_self, hx⟩
    | ok y =>
      cases hxs : xs.mapM f with
      | error e' =>
        rw [hx, hxs] at h
        cases h
        obtain ⟨z, hz, hez⟩ := ih hxs
        exact ⟨z, List.mem_cons_of_mem x hz, hez⟩
      | ok ys =>
        rw [hx, hxs] at h
        cases h

theorem mapM_map_eq_pure {m : Type → Type} [Monad m] [LawfulMonad m] {γ : Type} {f : β → m γ}
    {g : α → β} {k : α → γ} {xs : List α} (h : ∀ a ∈ xs, f (g a) = pure (k a)) :
    (xs.map g).mapM f = pure (xs.map k) := by
  induction xs with
  | nil => rfl
  | cons a xs ih =>
    obtain ⟨hhead, htail⟩ := List.forall_mem_cons.1 h
    rw [List.map_cons, List.mapM_cons, hhead, ih htail, pure_bind, pure_bind, List.map_cons]

/-- A computation that fails if a check does, with the same error, and else gives a result that
satisfies `P`. -/
inductive Follows (P : α → Prop) : Except ε Unit → Except ε α → Prop where
  | ok {a : α} (holds : P a) : Follows P (.ok ()) (.ok a)
  | error (e : ε) : Follows P (.error e) (.error e)

namespace Follows

variable {P : α → Prop} {Q : β → Prop} {check check' : Except ε Unit} {x : Except ε α}

theorem bind (h : Follows P check x) {f : α → Except ε β}
    (hf : ∀ a, P a → Follows Q check' (f a)) :
    Follows Q (check >>= fun _ => check') (x >>= f) := by
  cases h with
  | ok holds => exact hf _ holds
  | error e => exact .error e

theorem map (h : Follows P check x) {f : α → β} (hf : ∀ a, P a → Q (f a)) :
    Follows Q check (x.map f) := by
  cases h with
  | ok holds => exact .ok (hf _ holds)
  | error e => exact .error e

theorem exists_of_ok (h : Follows P check x) (hcheck : check = .ok ()) :
    ∃ a, x = .ok a ∧ P a := by
  cases h with
  | ok holds => exact ⟨_, rfl, holds⟩
  | error e => cases hcheck

theorem check_eq_ok (h : Follows P check x) {a : α} (ha : x = .ok a) : check = .ok () := by
  cases h with
  | ok holds => rfl
  | error e => cases ha

theorem eq_error_iff (h : Follows P check x) {e : ε} : x = .error e ↔ check = .error e := by
  cases h with
  | ok holds => exact ok_eq_error
  | error e => exact error_eq_error

end Follows

end Tabular
