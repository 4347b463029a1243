import Mathlib.Data.List.Forall2

/-!
# Attempts that can fail

An attempt gives a value or the reason why there is none. Attempts one after the other end at the
first that fails, and so do attempts on each item of a list.
-/

namespace CacheActivity

variable {α β ε : Type}

theorem bind_eq_ok {x : Except ε α} {f : α → Except ε β} {b : β}
    (h : x >>= f = .ok b) : ∃ a, x = .ok a ∧ f a = .ok b := by
  cases x with
  | error e => cases h
  | ok a => exact ⟨a, rfl, h⟩

/-- What each step preserves holds behind all of them. -/
theorem invariant_of_foldlM {f : β → α → Except ε β} {P : β → Prop} {as : List α} {b b' : β}
    (hstart : P b) (hstep : ∀ b b' a, P b → f b a = .ok b' → P b')
    (h : as.foldlM f b = .ok b') : P b' := by
  induction as generalizing b with
  | nil =>
    cases h
    exact hstart
  | cons a as ih =>
    rw [List.foldlM_cons] at h
    obtain ⟨c, hfirst, hrest⟩ := bind_eq_ok h
    exact ih (hstep b c a hstart hfirst) hrest

section MapM

variable {f : α → Except ε β}

theorem mapM_eq_ok_iff {xs : List α} {ys : List β} :
    xs.mapM f = .ok ys ↔ List.Forall₂ (fun x y => f x = .ok y) xs ys := by
  induction xs generalizing ys with
  | nil =>
    rw [List.mapM_nil, List.forall₂_nil_left_iff]
    exact ⟨fun h => (Except.ok.inj h).symm, fun h => h ▸ rfl⟩
  | cons x xs ih =>
    rw [List.mapM_cons, List.forall₂_cons_left_iff]
    cases hx : f x with
    | error e => simp [bind, Except.bind]
    | ok y =>
      cases hxs : xs.mapM f with
      | error e => simp [bind, Except.bind, ← ih, hxs]
      | ok zs => simp [bind, Except.bind, pure, Except.pure, ← ih, hxs, eq_comm]

theorem flatten_mapM_eq_ok_iff {g : α → Except ε (List β)} {xs : List α} {ys : List β} :
    List.flatten <$> xs.mapM g = .ok ys ↔
      ∃ parts, List.Forall₂ (fun x part => g x = .ok part) xs parts ∧ ys = parts.flatten := by
  simp only [← mapM_eq_ok_iff]
  cases xs.mapM g with
  | error e => simp [Functor.map, Except.map]
  | ok parts => simp [Functor.map, Except.map, eq_comm]

theorem exists_mem_of_mapM_eq_error {xs : List α} {e : ε} (h : xs.mapM f = .error e) :
    ∃ x ∈ xs, f x = .error e := by
  induction xs with
  | nil => cases h
  | cons x xs ih =>
    rw [List.mapM_cons] at h
    cases hx : f x with
    | error e' =>
      rw [hx] at h
      cases h
      exact ⟨x, List.mem_cons_self, hx⟩
    | ok y =>
      cases hxs : xs.mapM f with
      | error e' =>
        rw [hx, hxs] at h
        cases h
        obtain ⟨x', hm, he⟩ := ih hxs
        exact ⟨x', List.mem_cons_of_mem x hm, he⟩
      | ok ys =>
        rw [hx, hxs] at h
        cases h

theorem mapM_congr {g : α → Except ε β} {xs : List α} (h : ∀ x ∈ xs, f x = g x) :
    xs.mapM f = xs.mapM g := by
  induction xs with
  | nil => rfl
  | cons x xs ih =>
    rw [List.mapM_cons, List.mapM_cons, h x List.mem_cons_self,
      ih fun y hy => h y (List.mem_cons_of_mem x hy)]

/-- All attempts succeed just where each of them does. -/
theorem exists_mapM_eq_ok_iff {xs : List α} :
    (∃ ys, xs.mapM f = .ok ys) ↔ ∀ x ∈ xs, ∃ y, f x = .ok y := by
  constructor
  · rintro ⟨ys, h⟩ x hx
    rw [mapM_eq_ok_iff] at h
    induction h with
    | nil => exact absurd hx List.not_mem_nil
    | @cons x' y xs ys hy _ ih =>
      rcases List.mem_cons.1 hx with rfl | hx
      · exact ⟨y, hy⟩
      · exact ih hx
  · intro h
    cases hxs : xs.mapM f with
    | ok ys => exact ⟨ys, rfl⟩
    | error e =>
      obtain ⟨x, hx, he⟩ := exists_mem_of_mapM_eq_error hxs
      obtain ⟨y, hy⟩ := h x hx
      rw [hy] at he
      cases he

/-- Attempts group by group are attempts one by one. -/
theorem flatten_mapM_flatMap {γ : Type} (f : α → Except ε (List β)) (g : γ → List α)
    (xs : List γ) : List.flatten <$> (xs.flatMap g).mapM f =
      List.flatten <$> xs.mapM fun x => List.flatten <$> (g x).mapM f := by
  let parts := fun x => List.flatten <$> (g x).mapM f
  induction xs with
  | nil => rfl
  | cons x xs ih =>
    rw [List.flatMap_cons, List.mapM_append, List.mapM_cons]
    cases (g x).mapM f with
    | error e => rfl
    | ok first =>
      calc List.flatten <$> ((xs.flatMap g).mapM f >>= fun rest => pure (first ++ rest))
          = (first.flatten ++ ·) <$> List.flatten <$> (xs.flatMap g).mapM f := by
            cases (xs.flatMap g).mapM f with
            | error e => rfl
            | ok rest => exact congrArg Except.ok List.flatten_append
        _ = (first.flatten ++ ·) <$> List.flatten <$> xs.mapM parts := by rw [ih]
        _ = List.flatten <$> (xs.mapM parts >>= fun rest => pure (first.flatten :: rest)) := by
            cases xs.mapM parts <;> rfl

end MapM

end CacheActivity
