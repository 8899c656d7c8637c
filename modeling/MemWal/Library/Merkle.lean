import Mathlib.Data.List.Induction

namespace MemWal.Library.Merkle

inductive Tree (α : Type) where
  | leaf (value : α)
  | node (left right : Tree α)
  deriving DecidableEq

def Tree.leaves : Tree α → List α
  | .leaf value => [value]
  | .node left right => left.leaves ++ right.leaves

-- Messages are what is hashed. The laws ask for nothing of the hash itself:
-- only that the byte layouts of leaves and inner nodes never overlap.
structure Scheme (α δ μ : Type) where
  hash : μ → δ
  leafMessage : α → μ
  nodeMessage : δ → δ → μ
  leaf_injective : ∀ a b, leafMessage a = leafMessage b → a = b
  node_injective : ∀ a b c d, nodeMessage a b = nodeMessage c d → a = c ∧ b = d
  apart : ∀ a l r, leafMessage a ≠ nodeMessage l r

namespace Scheme
variable (S : Scheme α δ μ)

def root : Tree α → δ
  | .leaf value => S.hash (S.leafMessage value)
  | .node left right => S.hash (S.nodeMessage (root left) (root right))

def messages : Tree α → List μ
  | .leaf value => [S.leafMessage value]
  | .node left right => S.nodeMessage (S.root left) (S.root right) :: (messages left ++ messages right)

-- One rung: a sibling, and whether it stands on the left.
def rung (current : δ) (sibling : δ × Bool) : μ :=
  if sibling.2 then S.nodeMessage sibling.1 current else S.nodeMessage current sibling.1

def climb (current : δ) (path : List (δ × Bool)) : δ :=
  path.foldl (fun reached sibling => S.hash (S.rung reached sibling)) current

def climbMessages (current : δ) : List (δ × Bool) → List μ
  | [] => []
  | sibling :: rest => S.rung current sibling :: climbMessages (S.hash (S.rung current sibling)) rest

-- Every leaf with its authentication path, from the leaf up to the root.
def paths : Tree α → List (α × List (δ × Bool))
  | .leaf value => [(value,[])]
  | .node left right =>
    (paths left).map (fun p => (p.1,p.2 ++ [(S.root right,false)])) ++
      (paths right).map (fun p => (p.1,p.2 ++ [(S.root left,true)]))

theorem paths_leaves (t : Tree α) : (S.paths t).map Prod.fst = t.leaves := by
  induction t with
  | leaf value => rfl
  | node left right hl hr =>
    simp only [paths,List.map_append,List.map_map,Function.comp_def,Tree.leaves,← hl,← hr]

theorem climb_snoc (current : δ) (path : List (δ × Bool)) (sibling : δ × Bool) :
    S.climb current (path ++ [sibling]) = S.hash (S.rung (S.climb current path) sibling) := by
  simp [climb]

theorem climbMessages_snoc (current : δ) (path : List (δ × Bool)) (sibling : δ × Bool) :
    S.climbMessages current (path ++ [sibling]) =
      S.climbMessages current path ++ [S.rung (S.climb current path) sibling] := by
  induction path generalizing current with
  | nil => rfl
  | cons head rest ih => simp [climbMessages,climb,ih]

theorem climb_complete {t : Tree α} {value : α} {path : List (δ × Bool)}
    (present : (value,path) ∈ S.paths t) : S.climb (S.hash (S.leafMessage value)) path = S.root t := by
  induction t generalizing path with
  | leaf other =>
    simp only [paths,List.mem_singleton,Prod.mk.injEq] at present
    obtain ⟨rfl,rfl⟩ := present
    rfl
  | node left right hl hr =>
    simp only [paths,List.mem_append,List.mem_map,Prod.mk.injEq,Prod.exists] at present
    rcases present with ⟨_,shorter,member,rfl,rfl⟩ | ⟨_,shorter,member,rfl,rfl⟩
    · rw [climb_snoc,hl member]; rfl
    · rw [climb_snoc,hr member]; rfl

-- The path is the adversary's, of any length. Peeling it from the root end
-- pins each rung to the tree: the induction is on the path, for every subtree.
theorem climb_sound (known : List μ)
    (free : ∀ x ∈ known, ∀ y ∈ known, S.hash x = S.hash y → x = y)
    {value : α} (leaf : S.leafMessage value ∈ known) (path : List (δ × Bool))
    (rungs : S.climbMessages (S.hash (S.leafMessage value)) path ⊆ known)
    (t : Tree α) (tree : S.messages t ⊆ known)
    (reached : S.climb (S.hash (S.leafMessage value)) path = S.root t) : value ∈ t.leaves := by
  induction path using List.reverseRecOn generalizing t with
  | nil =>
    have equal : S.hash (S.leafMessage value) = S.root t := reached
    cases t with
    | leaf other =>
      have same := free _ leaf _ (tree (List.mem_singleton.mpr rfl)) equal
      exact List.mem_singleton.mpr (S.leaf_injective _ _ same)
    | node left right =>
      exact absurd (free _ leaf _ (tree List.mem_cons_self) equal) (S.apart _ _ _)
  | append_singleton shorter sibling ih =>
    rw [climbMessages_snoc] at rungs
    rw [climb_snoc] at reached
    have lower := ih (fun m member => rungs (List.mem_append_left _ member))
    have top : S.rung (S.climb (S.hash (S.leafMessage value)) shorter) sibling ∈ known :=
      rungs (List.mem_append_right _ (List.mem_singleton.mpr rfl))
    cases t with
    | leaf other =>
      have same := free _ top _ (tree (List.mem_singleton.mpr rfl)) reached
      unfold rung at same
      split at same
      all_goals exact absurd same.symm (S.apart _ _ _)
    | node left right =>
      have same := free _ top _ (tree List.mem_cons_self) reached
      have inLeft : S.messages left ⊆ known := fun m member =>
        tree (List.mem_cons_of_mem _ (List.mem_append_left _ member))
      have inRight : S.messages right ⊆ known := fun m member =>
        tree (List.mem_cons_of_mem _ (List.mem_append_right _ member))
      unfold rung at same
      split at same
      · exact List.mem_append_right _ (lower right inRight (S.node_injective _ _ _ _ same).2)
      · exact List.mem_append_left _ (lower left inLeft (S.node_injective _ _ _ _ same).1)

end Scheme
end MemWal.Library.Merkle
