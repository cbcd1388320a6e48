import FlashImage.Machine.Word
import FlashImage.Proofs.Outcome
import Mathlib.Algebra.Group.Nat.Defs

/-!
# Computations without fault

A computation is shown free of faults by an equation that says what it gives, `.ok a` or `settled r`. For
an operation on words or arrays there is such an equation on the condition that nothing is out of range.
These equations compose: a settled first step leaves the second step alone (`settled_bind`), and a loop does
what each round does (`mapM_eq`, `mapM_settled`, `foldlM_zipIdx`).
-/

namespace FlashImage.Machine

/-! ### Words -/

theorem word_eq {size n : Nat} (h : n < size) : word size n = .ok n := if_pos h

theorem add_eq {a b : Nat} (h : a + b < 2 ^ 64) : add a b = .ok (a + b) := word_eq h

theorem mul_eq {a b : Nat} (h : a * b < 2 ^ 64) : mul a b = .ok (a * b) := word_eq h

theorem add_fault {a b : Nat} (h : 2 ^ 64 ≤ a + b) : add a b = .error .overflow :=
  if_neg (Nat.not_lt.2 h)

theorem mul_fault {a b : Nat} (h : 2 ^ 64 ≤ a * b) : mul a b = .error .overflow :=
  if_neg (Nat.not_lt.2 h)

theorem sub_eq {a b : Nat} (h : b ≤ a) : sub a b = .ok (a - b) := if_pos h

theorem checkedAdd_eq {a b : Nat} (h : a + b < 2 ^ 64) : checkedAdd a b = some (a + b) := if_pos h

theorem checkedAdd_eq_none {a b : Nat} (h : 2 ^ 64 ≤ a + b) : checkedAdd a b = none :=
  if_neg (Nat.not_lt.2 h)

theorem checkedMul_eq {a b : Nat} (h : a * b < 2 ^ 64) : checkedMul a b = some (a * b) := if_pos h

example : add (2 ^ 64 - 1) 1 = .error .overflow ∧ sub 3 4 = .error .underflow := ⟨rfl, rfl⟩

theorem shiftLeft_eq {x n : Nat} (h : n < 32) : shiftLeft x n = .ok ((x <<< n) % 2 ^ 32) := if_pos h

theorem shiftRight_eq {x : UInt32} {n : Nat} (h : n < 32) :
    shiftRight x n = .ok (x >>> UInt32.ofNat n) := if_pos h

/-! ### Arrays -/

theorem element_eq {α : Type} {xs : List α} {i : Nat} (h : i < xs.length) :
    element xs i = .ok xs[i] := by
  rw [element, List.getElem?_eq_getElem h]

theorem sliceFrom_eq {bs : Bytes} {first : Nat} (h : first ≤ bs.length) :
    sliceFrom bs first = .ok (bs.drop first) := if_pos h

theorem sliceTo_eq {bs : Bytes} {last : Nat} (h : last ≤ bs.length) :
    sliceTo bs last = .ok (bs.take last) := if_pos h

theorem sliceBetween_eq {bs : Bytes} {first last : Nat} (h : first ≤ last) (h' : last ≤ bs.length) :
    sliceBetween bs first last = .ok (bs.slice first (last - first)) := if_pos ⟨h, h'⟩

theorem allocate_eq {size : Nat} (h : size < 2 ^ 63) : allocate size = .ok () := if_pos h

theorem allocate_fault {size : Nat} (h : 2 ^ 63 ≤ size) : allocate size = .error .capacity :=
  if_neg (Nat.not_lt.2 h)

theorem filled_eq {size : Nat} (h : size < 2 ^ 63) (b : UInt8) :
    filled size b = .ok (List.replicate size b) := by
  rw [filled, allocate_eq h]
  rfl

/-! ### Settled steps -/

variable {ε δ α β : Type}

@[simp] theorem lift_ok (a : α) : (liftM (.ok a : Run α) : Step ε α) = settled (.ok a) := rfl

@[simp] theorem settled_ok_bind (a : α) (f : α → Step ε β) : settled (.ok a) >>= f = f a := rfl

@[simp] theorem adapt_settled (f : ε → δ) (r : Except ε α) :
    ExceptT.adapt f (settled r) = settled (r.mapError f) := by
  cases r <;> rfl

@[simp] theorem map_settled (f : α → β) (r : Except ε α) : f <$> settled r = settled (r.map f) := by
  cases r <;> rfl

/-- **Steps in a row.** What follows a settled step has to be settled only on the result of that step. -/
theorem settled_bind {r : Except ε α} {f : α → Step ε β} {g : α → Except ε β}
    (h : ∀ a, r = .ok a → f a = settled (g a)) : settled r >>= f = settled (r >>= g) := by
  cases r with
  | error e => rfl
  | ok a => exact h a rfl

/-! ### Steps that fault -/

/-- **A step that ends in a fault**, and so has neither a result nor a refusal. -/
def Faults (x : Step ε α) : Prop := ∃ fault, x.run = .error fault

theorem faults_lift (fault : Fault) : Faults (liftM (.error fault : Run α) : Step ε α) := ⟨fault, rfl⟩

theorem not_faults_settled (r : Except ε α) : ¬ Faults (settled r) := fun ⟨_, h⟩ => nomatch h

/-- What follows a step that faults is not done. -/
theorem Faults.bind {x : Step ε α} (h : Faults x) (f : α → Step ε β) : Faults (x >>= f) := by
  obtain ⟨fault, h⟩ := h
  refine ⟨fault, ?_⟩
  rw [ExceptT.run_bind, h]
  rfl

theorem Faults.adapt {x : Step ε α} (h : Faults x) (f : ε → δ) : Faults (x.adapt f) := by
  obtain ⟨fault, h⟩ := h
  refine ⟨fault, ?_⟩
  have h : x = ExceptT.mk (.error fault) := h
  rw [h]
  rfl

/-- What follows a sum faults, or the sum does. -/
theorem faults_add {a b : Nat} {f : Nat → Step ε β} (h : a + b < 2 ^ 64 → Faults (f (a + b))) :
    Faults ((liftM (add a b) : Step ε Nat) >>= f) := by
  rcases Nat.lt_or_ge (a + b) (2 ^ 64) with hlt | hge
  · rw [add_eq hlt, lift_ok, settled_ok_bind]
    exact h hlt
  · rw [add_fault hge]
    exact (faults_lift _).bind f

/-- What follows a product faults, or the product does. -/
theorem faults_mul {a b : Nat} {f : Nat → Step ε β} (h : a * b < 2 ^ 64 → Faults (f (a * b))) :
    Faults ((liftM (mul a b) : Step ε Nat) >>= f) := by
  rcases Nat.lt_or_ge (a * b) (2 ^ 64) with hlt | hge
  · rw [mul_eq hlt, lift_ok, settled_ok_bind]
    exact h hlt
  · rw [mul_fault hge]
    exact (faults_lift _).bind f

/-! ### Loops -/

/-- A loop of rounds without fault collects what the rounds give. -/
theorem mapM_eq {f : α → Run β} {g : α → β} {xs : List α} (h : ∀ x ∈ xs, f x = .ok (g x)) :
    xs.mapM f = .ok (xs.map g) := by
  induction xs with
  | nil => rfl
  | cons x xs ih =>
    obtain ⟨hx, hxs⟩ := List.forall_mem_cons.1 h
    rw [List.mapM_cons, hx, ih hxs]
    rfl

/-- **A loop with a state and a counter.** If each round leads from the state after some rounds to the
state after one more, the loop leads to the state after all of them. -/
theorem foldlM_zipIdx {σ : Type} {step : σ → α → Nat → Run σ} {after : Nat → σ} {xs : List α}
    (h : ∀ k x, xs[k]? = some x → step (after k) x k = .ok (after (k + 1))) :
    xs.zipIdx.foldlM (fun st x => step st x.1 x.2) (after 0) = .ok (after xs.length) := by
  -- The counter of the rest of a loop starts at the number of rounds that are over.
  have hfrom (n : Nat) (rest : List α)
      (h : ∀ k x, rest[k]? = some x → step (after (n + k)) x (n + k) = .ok (after (n + k + 1))) :
      (rest.zipIdx n).foldlM (fun st x => step st x.1 x.2) (after n) = .ok (after (n + rest.length)) := by
    induction rest generalizing n with
    | nil => rfl
    | cons x rest ih =>
      have hrest : ∀ k y, rest[k]? = some y →
          step (after (n + 1 + k)) y (n + 1 + k) = .ok (after (n + 1 + k + 1)) := by
        intro k y hy
        rw [Nat.add_right_comm n 1 k]
        exact h (k + 1) y hy
      rw [List.zipIdx_cons, List.foldlM_cons, show step (after n) x n = _ from h 0 x rfl, ok_bind]
      rw [ih (n + 1) hrest, List.length_cons, Nat.add_right_comm n 1, Nat.add_assoc]
  have hrun := hfrom 0 xs (by simpa only [Nat.zero_add] using h)
  rwa [Nat.zero_add] at hrun

/-- A search without fault finds what there is to find. -/
theorem anyM_eq {p : α → Run Bool} {q : α → Bool} {xs : List α} (h : ∀ x ∈ xs, p x = .ok (q x)) :
    xs.anyM p = .ok (xs.any q) := by
  induction xs with
  | nil => rfl
  | cons x xs ih =>
    obtain ⟨hx, hxs⟩ := List.forall_mem_cons.1 h
    rw [List.anyM, hx, ih hxs, List.any_cons]
    cases q x <;> rfl

/-- A loop of settled rounds that are not refused collects what the rounds give. -/
theorem mapM_settled {f : α → Step ε β} {g : α → β} {xs : List α}
    (h : ∀ x ∈ xs, f x = settled (.ok (g x))) : xs.mapM f = settled (.ok (xs.map g)) := by
  induction xs with
  | nil => rfl
  | cons x xs ih =>
    obtain ⟨hx, hxs⟩ := List.forall_mem_cons.1 h
    rw [List.mapM_cons, hx, ih hxs]
    rfl

end FlashImage.Machine
