import Mathlib.Algebra.Order.Ring.Nat
import MemWal.Library.Fallible

namespace MemWal.Library.Checked
variable {α : Type}

-- What stops an operation on machine integers or on a vector.
inductive Fault where
  | overflow
  | underflow
  | outOfBounds
  deriving DecidableEq, Repr

-- Unsigned integers of a width are numbers; every operation checks its result.
def add (width a b : Nat) : Except Fault Nat := if a + b < 2 ^ width then .ok (a + b) else .error .overflow

def sub (a b : Nat) : Except Fault Nat := if b ≤ a then .ok (a - b) else .error .underflow

def mul (width a b : Nat) : Except Fault Nat := if a * b < 2 ^ width then .ok (a * b) else .error .overflow

def narrow (width a : Nat) : Except Fault Nat := if a < 2 ^ width then .ok a else .error .overflow

-- Only the amount is checked: what leaves the word at the top is lost.
def shiftLeft (width a amount : Nat) : Except Fault Nat :=
  if amount < width then .ok (a * 2 ^ amount % 2 ^ width) else .error .overflow

def index (vector : List α) (i : Nat) : Except Fault α :=
  match vector[i]? with
  | some found => .ok found
  | none => .error .outOfBounds

section Total
variable {width a b : Nat}

theorem add_total (fits : a + b < 2 ^ width) : add width a b = .ok (a + b) := if_pos fits

theorem sub_total (order : b ≤ a) : sub a b = .ok (a - b) := if_pos order

theorem mul_total (fits : a * b < 2 ^ width) : mul width a b = .ok (a * b) := if_pos fits

theorem narrow_total (fits : a < 2 ^ width) : narrow width a = .ok a := if_pos fits

theorem shiftLeft_total (small : b < width) (fits : a * 2 ^ b < 2 ^ width) :
    shiftLeft width a b = .ok (a * 2 ^ b) := by
  rw [shiftLeft,if_pos small,Nat.mod_eq_of_lt fits]

theorem index_total {vector : List α} {i : Nat} (inside : i < vector.length) :
    index vector i = .ok vector[i] := by
  simp [index,inside]

end Total
end MemWal.Library.Checked
