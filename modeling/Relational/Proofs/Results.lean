import Mathlib.Data.List.Forall2
import Relational.Error

/-!
# Results of computations that can fail

What follows from the success of a computation that is put together from others, and which
computations never ask for a position that is not there.
-/
namespace Relational

section Success
variable {ε α β γ : Type}

theorem exists_of_mem_right {R : α → β → Prop} {xs : List α} {ys : List β} {y : β}
    (h : List.Forall₂ R xs ys) (hy : y ∈ ys) : ∃ x ∈ xs, R x y := by
  induction h with
  | nil => cases hy
  | cons here _ ih =>
    rcases List.mem_cons.1 hy with rfl | hy
    · exact ⟨_, List.mem_cons_self, here⟩
    · obtain ⟨x, hx, related⟩ := ih hy
      exact ⟨x, List.mem_cons_of_mem _ hx, related⟩

theorem bind_eq_ok {x : Except ε α} {f : α → Except ε β} {b : β} :
    (x >>= f) = .ok b ↔ ∃ a, x = .ok a ∧ f a = .ok b := by
  cases x <;> simp [bind, Except.bind]

theorem map_eq_ok {x : Except ε α} {f : α → β} {b : β} :
    x.map f = .ok b ↔ ∃ a, x = .ok a ∧ f a = b := by
  cases x <;> simp [Except.map]

theorem mapError_eq_ok {x : Except ε α} {f : ε → γ} {a : α} :
    x.mapError f = .ok a ↔ x = .ok a := by
  cases x <;> simp [Except.mapError]

theorem mapM_eq_ok {f : α → Except ε β} {xs : List α} {ys : List β} :
    xs.mapM f = .ok ys ↔ List.Forall₂ (fun x y => f x = .ok y) xs ys := by
  induction xs generalizing ys with
  | nil => cases ys <;> simp [pure, Except.pure]
  | cons x xs ih =>
    rw [List.mapM_cons, bind_eq_ok]
    constructor
    · rintro ⟨y, hy, h⟩
      obtain ⟨rest, hrest, h⟩ := bind_eq_ok.1 h
      cases h
      exact .cons hy (ih.1 hrest)
    · intro h
      cases h with
      | cons hy hrest => exact ⟨_, hy, bind_eq_ok.2 ⟨_, ih.2 hrest, rfl⟩⟩

theorem exists_mapM_eq_ok {f : α → Except ε β} {xs : List α} (h : ∀ x ∈ xs, ∃ y, f x = .ok y) :
    ∃ ys, xs.mapM f = .ok ys := by
  induction xs with
  | nil => exact ⟨[], rfl⟩
  | cons x xs ih =>
    obtain ⟨y, hy⟩ := h x List.mem_cons_self
    obtain ⟨ys, hys⟩ := ih fun x hx => h x (List.mem_cons_of_mem _ hx)
    exact ⟨y :: ys, mapM_eq_ok.2 (.cons hy (mapM_eq_ok.1 hys))⟩

theorem exists_mapM_iff {f : α → Except ε β} {xs : List α} :
    (∃ ys, xs.mapM f = .ok ys) ↔ ∀ x ∈ xs, ∃ y, f x = .ok y := by
  refine ⟨?_, exists_mapM_eq_ok⟩
  rintro ⟨ys, h⟩ x hx
  obtain ⟨y, -, here⟩ := exists_of_mem_right (mapM_eq_ok.1 h).flip hx
  exact ⟨y, here⟩

theorem mapM_congr {f g : α → Except ε β} {xs : List α} (h : ∀ x ∈ xs, f x = g x) :
    xs.mapM f = xs.mapM g := by
  induction xs with
  | nil => rfl
  | cons x xs ih =>
    have rest := ih fun y hy => h y (List.mem_cons_of_mem x hy)
    rw [List.mapM_cons, List.mapM_cons, h x List.mem_cons_self, rest]

theorem foldlM_cons_eq_ok {f : β → α → Except ε β} {x : α} {xs : List α} {b c : β} :
    (x :: xs).foldlM f b = .ok c ↔ ∃ d, f b x = .ok d ∧ xs.foldlM f d = .ok c := by
  rw [List.foldlM_cons, bind_eq_ok]

theorem mapM_eq_mapM {f : α → Except ε γ} {g : β → Except ε γ} {xs : List α} {ys : List β}
    (h : List.Forall₂ (fun x y => f x = g y) xs ys) : xs.mapM f = ys.mapM g := by
  induction h with
  | nil => rfl
  | cons here _ ih => rw [List.mapM_cons, List.mapM_cons, here, ih]

theorem mapM_flatMap {f : α → List β} {g : β → Except ε γ} {xs : List α} :
    (xs.flatMap f).mapM g = (xs.mapM fun x => (f x).mapM g).map List.flatten := by
  induction xs with
  | nil => rfl
  | cons x xs ih =>
    rw [List.flatMap_cons, List.mapM_append, ih, List.mapM_cons]
    cases (f x).mapM g with
    | error e => rfl
    | ok ys => cases xs.mapM fun x => (f x).mapM g <;> rfl

/-- Items that are found one by one are found at once, and used after that. -/
theorem forall₂_bind_eq_ok {f : α → Except ε β} {xs : List (Except ε α)} {ys : List β} :
    List.Forall₂ (fun x y => (x >>= f) = .ok y) xs ys ↔
      ∃ found : List α, xs = found.map .ok ∧ List.Forall₂ (fun a y => f a = .ok y) found ys := by
  constructor
  · intro h
    induction h with
    | nil => exact ⟨[], rfl, .nil⟩
    | cons here _ ih =>
      obtain ⟨a, rfl, ha⟩ := bind_eq_ok.1 here
      obtain ⟨found, rfl, rest⟩ := ih
      exact ⟨a :: found, rfl, .cons ha rest⟩
  · rintro ⟨found, rfl, h⟩
    exact List.forall₂_map_left_iff.2 h

theorem foldlM_preserves {f : β → α → Except ε β} {P : β → Prop} {xs : List α} {b c : β}
    (step : ∀ b, P b → ∀ x ∈ xs, ∀ c, f b x = .ok c → P c) (hb : P b)
    (h : xs.foldlM f b = .ok c) : P c := by
  induction xs generalizing b with
  | nil =>
    cases h
    exact hb
  | cons x xs ih =>
    obtain ⟨d, hd, h⟩ := foldlM_cons_eq_ok.1 h
    have head : P d := step b hb x List.mem_cons_self d hd
    exact ih (fun b hb y hy => step b hb y (List.mem_cons_of_mem _ hy)) head h

end Success

section Failure
variable {ε α β : Type}

/-- The first item that is not good is bad. -/
def FirstBad (good bad : α → Prop) (xs : List α) : Prop :=
  ∃ front x back, xs = front ++ x :: back ∧ (∀ y ∈ front, good y) ∧ bad x

theorem not_firstBad_nil {good bad : α → Prop} : ¬ FirstBad good bad [] := by
  rintro ⟨front, x, back, h, -⟩
  simp at h

theorem firstBad_cons {good bad : α → Prop} {x : α} {xs : List α} :
    FirstBad good bad (x :: xs) ↔ bad x ∨ good x ∧ FirstBad good bad xs := by
  constructor
  · rintro ⟨front, y, back, h, before, here⟩
    cases front with
    | nil =>
      cases h
      exact .inl here
    | cons z front =>
      cases h
      obtain ⟨first, rest⟩ := List.forall_mem_cons.1 before
      exact .inr ⟨first, front, y, back, rfl, rest, here⟩
  · rintro (here | ⟨first, front, y, back, rfl, before, here⟩)
    · exact ⟨[], x, xs, rfl, by simp, here⟩
    · exact ⟨x :: front, y, back, rfl, List.forall_mem_cons.2 ⟨first, before⟩, here⟩

theorem bind_eq_error {x : Except ε α} {f : α → Except ε β} {e : ε} :
    (x >>= f) = .error e ↔ x = .error e ∨ ∃ a, x = .ok a ∧ f a = .error e := by
  cases x <;> simp [bind, Except.bind]

theorem map_eq_error {x : Except ε α} {f : α → β} {e : ε} :
    x.map f = .error e ↔ x = .error e := by
  cases x <;> simp [Except.map]

theorem mapM_eq_error {f : α → Except ε β} {xs : List α} {e : ε} :
    xs.mapM f = .error e ↔ FirstBad (fun x => ∃ y, f x = .ok y) (fun x => f x = .error e) xs := by
  induction xs with
  | nil => exact iff_of_false (by simp [pure, Except.pure]) not_firstBad_nil
  | cons x xs ih =>
    have last : ∀ y, (xs.mapM f >>= fun ys => pure (y :: ys)) = .error e ↔
        xs.mapM f = .error e := by
      intro y
      rw [bind_eq_error]
      exact or_iff_left fun ⟨_, _, h⟩ => by cases h
    rw [List.mapM_cons, bind_eq_error, firstBad_cons, ← ih]
    simp only [last, exists_and_right]

end Failure

section InRange
variable {α β : Type}

/-- The computation does not fail for want of a position. -/
def InRange (x : Except Error α) : Prop := ∀ i, x ≠ .error (.outOfRange i)

theorem InRange.of_ok {x : Except Error α} {a : α} (h : x = .ok a) : InRange x := by
  intro i hi
  rw [h] at hi
  cases hi

theorem inRange_ok (a : α) : InRange (.ok a) := .of_ok rfl

theorem inRange_error {e : Error} (h : ∀ i, e ≠ .outOfRange i) :
    InRange (.error e : Except Error α) := by
  intro i hi
  cases hi
  exact h i rfl

theorem InRange.bind {x : Except Error α} {f : α → Except Error β} (hx : InRange x)
    (hf : ∀ a, x = .ok a → InRange (f a)) : InRange (x >>= f) := by
  cases x with
  | error e => exact fun i hi => hx i (by cases hi; rfl)
  | ok a => exact hf a rfl

theorem InRange.map {x : Except Error α} (hx : InRange x) (f : α → β) : InRange (x.map f) := by
  cases x with
  | error e => exact fun i hi => hx i (by cases hi; rfl)
  | ok a => exact inRange_ok _

theorem inRange_mapError {ε : Type} {f : ε → Error} (x : Except ε α)
    (h : ∀ e, x = .error e → ∀ i, f e ≠ .outOfRange i) : InRange (x.mapError f) := by
  cases x with
  | error e => exact inRange_error (h e rfl)
  | ok a => exact inRange_ok a

theorem InRange.mapM {f : α → Except Error β} {xs : List α} (h : ∀ x ∈ xs, InRange (f x)) :
    InRange (xs.mapM f) := by
  induction xs with
  | nil => exact inRange_ok _
  | cons x xs ih =>
    rw [List.mapM_cons]
    apply (h x List.mem_cons_self).bind
    intro y _
    apply (ih fun x hx => h x (List.mem_cons_of_mem _ hx)).bind
    exact fun ys _ => inRange_ok _

theorem InRange.foldlM {f : β → α → Except Error β} {P : β → Prop} {xs : List α} {b : β} (hb : P b)
    (step : ∀ b, P b → ∀ x ∈ xs, InRange (f b x) ∧ ∀ c, f b x = .ok c → P c) :
    InRange (xs.foldlM f b) := by
  induction xs generalizing b with
  | nil => exact inRange_ok _
  | cons x xs ih =>
    rw [List.foldlM_cons]
    obtain ⟨head, keeps⟩ := step b hb x List.mem_cons_self
    apply head.bind
    intro c hc
    exact ih (keeps c hc) fun b hb y hy => step b hb y (List.mem_cons_of_mem _ hy)

end InRange
end Relational
