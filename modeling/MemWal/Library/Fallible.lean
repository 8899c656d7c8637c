import Mathlib.Data.List.Forall2

namespace MemWal.Library.Fallible
variable {ε α β : Type}

def ensure (condition : Prop) [Decidable condition] (failure : ε) : Except ε Unit :=
  if condition then .ok () else .error failure

def require (value : Option α) (failure : ε) : Except ε α :=
  match value with
  | some found => .ok found
  | none => .error failure

@[simp] theorem ensure_ok {condition : Prop} [Decidable condition] {failure : ε} {result : Unit} :
    ensure condition failure = .ok result ↔ condition := by
  by_cases holds : condition <;> simp [ensure,holds]

@[simp] theorem require_ok {value : Option α} {failure : ε} {found : α} :
    require value failure = .ok found ↔ value = some found := by
  cases value <;> simp [require]

@[simp] theorem bind_ok {first : Except ε α} {rest : α → Except ε β} {result : β} :
    (first >>= rest) = .ok result ↔ ∃ value, first = .ok value ∧ rest value = .ok result := by
  cases first <;> simp [bind,Except.bind]

@[simp] theorem pure_ok {value result : α} :
    (pure value : Except ε α) = .ok result ↔ value = result := by simp [pure,Except.pure]

theorem ensure_error {condition : Prop} [Decidable condition] {failure error : ε} :
    ensure condition failure = .error error ↔ ¬ condition ∧ failure = error := by
  by_cases holds : condition <;> simp [ensure,holds]

theorem require_error {value : Option α} {failure error : ε} :
    require value failure = .error error ↔ value = none ∧ failure = error := by
  cases value <;> simp [require]

theorem bind_error {first : Except ε α} {rest : α → Except ε β} {error : ε} :
    (first >>= rest) = .error error ↔ first = .error error ∨ ∃ value, first = .ok value ∧ rest value = .error error := by
  cases first <;> simp [bind,Except.bind]

theorem toOption_some {outcome : Except ε α} {value : α} : outcome.toOption = some value ↔ outcome = .ok value := by
  cases outcome <;> simp [Except.toOption]

theorem mapM_ok {f : α → Except ε β} {xs : List α} {ys : List β} (made : xs.mapM f = .ok ys) :
    List.Forall₂ (fun x y => f x = .ok y) xs ys := by
  induction xs generalizing ys with
  | nil =>
    rw [List.mapM_nil] at made
    cases made
    exact .nil
  | cons x rest ih =>
    simp only [List.mapM_cons,bind_ok,pure_ok] at made
    obtain ⟨y,head,tail,others,rfl⟩ := made
    exact .cons head (ih others)

end MemWal.Library.Fallible
