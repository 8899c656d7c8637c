import Mathlib.Algebra.Group.Nat.Defs
import Mathlib.Data.List.Basic

namespace MemWal.Library

-- A number that a double holds exactly as an integer, or another one under the
-- text that it prints as.
inductive JsonNumber where
  | safe (value : Int) (bound : value.natAbs < 2^53)
  | other (text : String)
  deriving DecidableEq

-- A value as `JSON.parse` yields it: the members of an object stand in the order
-- in which they are listed.
inductive Json where
  | null
  | bool (value : Bool)
  | number (value : JsonNumber)
  | string (text : String)
  | array (items : List Json)
  | object (members : List (String × Json))

def JsonNumber.text : JsonNumber → String
  | .safe value _ => toString value
  | .other text => text

namespace Json

abbrev Members := List (String × Json)

def field (key : String) : Members → Option Json
  | [] => none
  | (name,value) :: rest => if name = key then some value else field key rest

-- `{...members, [key]: value}`
def assign (key : String) (value : Json) : Members → Members
  | [] => [(key,value)]
  | (name,old) :: rest => if name = key then (name,value) :: rest else (name,old) :: assign key value rest

-- What a condition takes for true; a member that is not there is not.
def truthy : Option Json → Bool
  | none | some .null => false
  | some (.bool value) => value
  | some (.number (.safe value _)) => decide (value ≠ 0)
  | some (.string text) => decide (text ≠ "")
  | some _ => true

-- `String(value)`
mutual
def text : Json → String
  | .null => "null"
  | .bool value => toString value
  | .number value => value.text
  | .string text => text
  | .array items => ",".intercalate (texts items)
  | .object _ => "[object Object]"

def texts : List Json → List String
  | [] => []
  | .null :: rest => "" :: texts rest
  | item :: rest => text item :: texts rest
end

def nat (n : Nat) : Json :=
  .number (if bound : n < 2^53 then .safe n (by simpa using bound) else .other (toString n))

theorem nat_small {n : Nat} (small : n < 2^53) : nat n = .number (.safe n (by simpa using small)) := by
  rw [nat,dif_pos small]

section Members
variable {key other : String} {value : Json} {members : Members}

@[simp] theorem field_assign : field key (assign key value members) = some value := by
  induction members with
  | nil => simp [assign,field]
  | cons member rest ih =>
    by_cases same : member.1 = key
    · simp [assign,field,same]
    · simp [assign,field,same,ih]

theorem field_assign_other (different : other ≠ key) : field other (assign key value members) = field other members := by
  induction members with
  | nil => simp [assign,field,different.symm]
  | cons member rest ih =>
    by_cases same : member.1 = key
    · simp [assign,field,same,different.symm]
    · rw [assign,if_neg same]
      simp only [field,ih]

theorem assign_same (there : field key members = some value) : assign key value members = members := by
  induction members with
  | nil => cases there
  | cons member rest ih =>
    rw [field] at there
    rw [assign]
    split at there
    · rename_i same
      cases there
      rw [if_pos same]
    · rename_i other
      rw [if_neg other,ih there]

end Members
end Json
end MemWal.Library
