import MemWal.Account.Module
import MemWal.Library.Merkle
import MemWal.Library.Blake2b

namespace MemWal.Account
open Library Library.Fallible Library.Merkle

structure AccountLeaf where
  legacyAccountId : ID
  owner : Address
  active : Bool
  createdAt : UInt64
  deriving DecidableEq

-- `migration_delegate_leaf` aborts on any other key length, so the leaf's key
-- is a 32-byte string by type.
structure DelegateLeaf where
  legacyAccountId : ID
  publicKey : Bytes32
  label : Bytes
  createdAt : UInt64
  deriving DecidableEq

inductive Leaf where
  | account (fields : AccountLeaf)
  | delegate (fields : DelegateLeaf)
  deriving DecidableEq

def AccountLeaf.message (l : AccountLeaf) : Bytes :=
  accountLeafMessage l.legacyAccountId l.owner l.active l.createdAt

def DelegateLeaf.message (l : DelegateLeaf) : Bytes :=
  delegateLeafMessage l.legacyAccountId l.publicKey.bytes l.label l.createdAt

def Leaf.message : Leaf → Bytes
  | .account fields => fields.message
  | .delegate fields => fields.message

def Leaf.value (H : Hash256) : Leaf → Except Abort Bytes
  | .account l => return migrationAccountLeaf H l.legacyAccountId l.owner l.active l.createdAt
  | .delegate l => migrationDelegateLeaf H l.legacyAccountId l.publicKey.bytes l.label l.createdAt

-- The root as the module's own functions compute it.
def treeRoot (H : Hash256) : Merkle.Tree Leaf → Except Abort Bytes
  | .leaf value => value.value H
  | .node left right => do
    let l ← treeRoot H left
    let r ← treeRoot H right
    migrationMerkleParent H l r

-- What the loop of `assert_migration_proof` hashes.
def proofMessages (H : Hash256) (current : Bytes) : List Bytes → List Bool → List Bytes
  | sibling :: proof,siblingIsLeft :: sides =>
    let message := if siblingIsLeft then merkleParentMessage sibling current
      else merkleParentMessage current sibling
    message :: proofMessages H (H.digest message) proof sides
  | _,_ => []

theorem bcsU64_injective {a b : UInt64} (equal : bcsU64 a = bcsU64 b) : a = b := by
  have fits : ∀ n : UInt64, n.toNat < 256 ^ 8 := fun n => n.toNat_lt
  exact UInt64.toNat_inj.mp (Bytes.writeLe_injective (fits a) (fits b) equal)

theorem bcsBool_injective {a b : Bool} (equal : bcsBool a = bcsBool b) : a = b := by
  revert equal
  cases a <;> cases b <;> decide

theorem accountLeaf_injective {a b : AccountLeaf} (equal : a.message = b.message) : a = b := by
  obtain ⟨id,rest⟩ := Bytes32.append_inj (List.append_cancel_left equal)
  obtain ⟨owner,rest⟩ := Bytes32.append_inj rest
  obtain ⟨active,created⟩ := List.append_inj rest rfl
  cases a; cases b
  cases id; cases owner; cases bcsBool_injective active; cases bcsU64_injective created
  rfl

theorem delegateLeaf_injective {a b : DelegateLeaf} (equal : a.message = b.message) : a = b := by
  obtain ⟨id,rest⟩ := Bytes32.append_inj (List.append_cancel_left equal)
  obtain ⟨key,rest⟩ := Bytes32.append_inj rest
  obtain ⟨label,created⟩ := Bytes.writeBlock_prefix rest
  cases a; cases b
  cases id; cases key; cases label; cases bcsU64_injective created
  rfl

theorem leaf_message_injective (a b : Leaf) (equal : a.message = b.message) : a = b := by
  cases a with
  | account l =>
    cases b with
    | account r => exact congrArg Leaf.account (accountLeaf_injective equal)
    | delegate r =>
      simp [Leaf.message,AccountLeaf.message,DelegateLeaf.message,accountLeafMessage,
        delegateLeafMessage] at equal
  | delegate l =>
    cases b with
    | account r =>
      simp [Leaf.message,AccountLeaf.message,DelegateLeaf.message,accountLeafMessage,
        delegateLeafMessage] at equal
    | delegate r => exact congrArg Leaf.delegate (delegateLeaf_injective equal)

theorem leaf_apart (leaf : Leaf) (left right : Bytes) : leaf.message ≠ merkleParentMessage left right := by
  intro equal
  cases leaf with
  | account l =>
    simp [Leaf.message,AccountLeaf.message,accountLeafMessage,merkleParentMessage] at equal
  | delegate l =>
    simp [Leaf.message,DelegateLeaf.message,delegateLeafMessage,merkleParentMessage] at equal

def allowlist (H : Hash256) : Scheme Leaf Bytes32 Bytes where
  hash := H.apply
  leafMessage := Leaf.message
  nodeMessage left right := merkleParentMessage left.bytes right.bytes
  leaf_injective := leaf_message_injective
  node_injective a b c d equal := by
    obtain ⟨left,right⟩ := Bytes32.append_inj (List.append_cancel_left equal)
    cases b; cases d; cases right
    exact ⟨left,rfl⟩
  apart leaf left right := leaf_apart leaf left.bytes right.bytes

def treeMessages (H : Hash256) (t : Merkle.Tree Leaf) : List Bytes := (allowlist H).messages t

def authPaths (H : Hash256) (t : Merkle.Tree Leaf) : List (Leaf × List Bytes × List Bool) :=
  ((allowlist H).paths t).map (fun p => (p.1,p.2.map (fun s => s.1.bytes),p.2.map Prod.snd))

section Bridge
variable {H : Hash256}

theorem leaf_value (leaf : Leaf) : leaf.value H = .ok (H.digest leaf.message) := by
  cases leaf with
  | account l => rfl
  | delegate l =>
    simp [Leaf.value,migrationDelegateLeaf,ensure,ed25519PublicKeyLength,l.publicKey.length32,
      bind,Except.bind,pure,Except.pure,Leaf.message,DelegateLeaf.message]

theorem merkleParent_ok {left right parent : Bytes} (joined : migrationMerkleParent H left right = .ok parent) :
    left.length = 32 ∧ right.length = 32 ∧ parent = H.digest (merkleParentMessage left right) := by
  simp only [migrationMerkleParent,bind_ok,ensure_ok,exists_const,pure_ok] at joined
  exact ⟨joined.1,joined.2.1,joined.2.2.symm⟩

theorem merkleParent_total (left right : Bytes32) :
    migrationMerkleParent H left.bytes right.bytes =
      .ok (H.digest (merkleParentMessage left.bytes right.bytes)) := by
  simp [migrationMerkleParent,ensure,merkleHashLength,left.length32,right.length32,bind,Except.bind,
    pure,Except.pure]

theorem treeRoot_eq (t : Merkle.Tree Leaf) : treeRoot H t = .ok ((allowlist H).root t).bytes := by
  induction t with
  | leaf value => exact leaf_value value
  | node left right hl hr =>
    simp only [treeRoot,hl,hr]
    exact merkleParent_total _ _

theorem fold_total (current : Bytes32) (path : List (Bytes32 × Bool)) :
    foldMigrationProof H current.bytes (path.map (fun s => s.1.bytes)) (path.map Prod.snd) =
      .ok ((allowlist H).climb current path).bytes := by
  induction path generalizing current with
  | nil => rfl
  | cons head rest ih =>
    obtain ⟨sibling,side⟩ := head
    cases side with
    | true =>
      simp only [List.map_cons,foldMigrationProof,↓reduceIte,merkleParent_total,bind,Except.bind]
      exact ih (H.apply _)
    | false =>
      simp only [List.map_cons,foldMigrationProof,Bool.false_eq_true,↓reduceIte,merkleParent_total,bind,Except.bind]
      exact ih (H.apply _)

-- A run of the loop that does not abort is a climb: all siblings had 32 bytes.
theorem fold_climbs (current : Bytes32) (proof : List Bytes) (sides : List Bool) (reached : Bytes)
    (lengths : proof.length = sides.length)
    (ran : foldMigrationProof H current.bytes proof sides = .ok reached) :
    ∃ path, reached = ((allowlist H).climb current path).bytes ∧
      (allowlist H).climbMessages current path = proofMessages H current.bytes proof sides := by
  induction proof generalizing current sides with
  | nil =>
    cases sides with
    | nil => cases ran; exact ⟨[],rfl,rfl⟩
    | cons => cases lengths
  | cons sibling rest ih =>
    cases sides with
    | nil => cases lengths
    | cons side sides =>
      simp only [foldMigrationProof] at ran
      cases side with
      | true =>
        simp only [↓reduceIte,bind_ok] at ran
        obtain ⟨parent,joined,ran⟩ := ran
        obtain ⟨length,_,rfl⟩ := merkleParent_ok joined
        obtain ⟨path,same,messages⟩ := ih (H.apply (merkleParentMessage sibling current.bytes)) sides
          (Nat.succ.inj lengths) ran
        refine ⟨(⟨sibling,length⟩,true) :: path,same,?_⟩
        simp only [Scheme.climbMessages,proofMessages,Scheme.rung,↓reduceIte]
        exact congrArg (List.cons _) messages
      | false =>
        simp only [Bool.false_eq_true,↓reduceIte,bind_ok] at ran
        obtain ⟨parent,joined,ran⟩ := ran
        obtain ⟨_,length,rfl⟩ := merkleParent_ok joined
        obtain ⟨path,same,messages⟩ := ih (H.apply (merkleParentMessage current.bytes sibling)) sides
          (Nat.succ.inj lengths) ran
        refine ⟨(⟨sibling,length⟩,false) :: path,same,?_⟩
        simp only [Scheme.climbMessages,proofMessages,Scheme.rung,Bool.false_eq_true,↓reduceIte]
        exact congrArg (List.cons _) messages

theorem proof_complete {t : Merkle.Tree Leaf} {leaf : Leaf} {proof : List Bytes} {sides : List Bool}
    (present : (leaf,proof,sides) ∈ authPaths H t) :
    assertMigrationProof H ((allowlist H).root t).bytes (H.digest leaf.message) proof sides = .ok () := by
  obtain ⟨⟨value,path⟩,member,equal⟩ := List.mem_map.mp present
  cases equal
  have reached : (allowlist H).climb (H.apply value.message) path = (allowlist H).root t :=
    (allowlist H).climb_complete member
  have folded := fold_total (H:=H) (H.apply value.message) path
  rw [reached] at folded
  simp only [assertMigrationProof,bind_ok,ensure_ok,exists_const]
  exact ⟨Bytes32.length32 _,by simp,_,folded,rfl⟩

theorem proof_sound (leaf : Leaf) {t : Merkle.Tree Leaf} {proof : List Bytes} {sides : List Bool}
    (free : H.CollisionFree (treeMessages H t ++
      leaf.message :: proofMessages H (H.digest leaf.message) proof sides))
    (accepted : assertMigrationProof H ((allowlist H).root t).bytes (H.digest leaf.message) proof sides =
      .ok ()) : leaf ∈ t.leaves := by
  simp only [assertMigrationProof,bind_ok,ensure_ok,exists_const] at accepted
  obtain ⟨_,lengths,reached,ran,rfl⟩ := accepted
  obtain ⟨path,same,messages⟩ := fold_climbs (H.apply leaf.message) proof sides _ lengths ran
  have climbed : (allowlist H).climb (H.apply leaf.message) path = (allowlist H).root t := by
    generalize (allowlist H).climb (H.apply leaf.message) path = left at same
    generalize (allowlist H).root t = right at same
    cases left; cases right; cases same
    rfl
  refine (allowlist H).climb_sound (treeMessages H t ++
    leaf.message :: proofMessages H (H.digest leaf.message) proof sides) ?_ ?_ path ?_ t ?_ climbed
  · intro x left y right equal
    exact free x left y right (congrArg Bytes32.bytes equal)
  · exact List.mem_append_right _ List.mem_cons_self
  · intro m member
    exact List.mem_append_right _ (List.mem_cons_of_mem _ (messages ▸ member))
  · intro m member
    exact List.mem_append_left _ member

end Bridge

-- Collision freedom is asked only of the messages at hand: those the tree was
-- built from and those the submitted proof makes the verifier hash.
theorem allowlist_proofs_exact (H : Hash256) (t : Merkle.Tree Leaf) :
    ∃ root, treeRoot H t = .ok root ∧
    (∀ leaf ∈ t.leaves, ∃ proof sides, (leaf,proof,sides) ∈ authPaths H t) ∧
    (∀ leaf proof sides value, (leaf,proof,sides) ∈ authPaths H t → leaf.value H = .ok value →
      assertMigrationProof H root value proof sides = .ok ()) ∧
    (∀ legacyAccountId owner active createdAt proof sides,
      H.CollisionFree (treeMessages H t ++
        accountLeafMessage legacyAccountId owner active createdAt ::
        proofMessages H (migrationAccountLeaf H legacyAccountId owner active createdAt) proof sides) →
      assertMigrationProof H root (migrationAccountLeaf H legacyAccountId owner active createdAt)
        proof sides = .ok () →
      Leaf.account ⟨legacyAccountId,owner,active,createdAt⟩ ∈ t.leaves) ∧
    (∀ legacyAccountId publicKey label createdAt value proof sides,
      migrationDelegateLeaf H legacyAccountId publicKey label createdAt = .ok value →
      H.CollisionFree (treeMessages H t ++
        delegateLeafMessage legacyAccountId publicKey label createdAt ::
        proofMessages H value proof sides) →
      assertMigrationProof H root value proof sides = .ok () →
      ∃ key : Bytes32, key.bytes = publicKey ∧
        Leaf.delegate ⟨legacyAccountId,key,label,createdAt⟩ ∈ t.leaves) := by
  refine ⟨_,treeRoot_eq t,?_,?_,?_,?_⟩
  · intro leaf member
    rw [← (allowlist H).paths_leaves] at member
    obtain ⟨⟨_,path⟩,present,rfl⟩ := List.mem_map.mp member
    exact ⟨_,_,List.mem_map.mpr ⟨_,present,rfl⟩⟩
  · intro leaf proof sides value present computed
    rw [leaf_value] at computed
    cases computed
    exact proof_complete present
  · intro legacyAccountId owner active createdAt proof sides free accepted
    exact proof_sound (.account ⟨legacyAccountId,owner,active,createdAt⟩) free accepted
  · intro legacyAccountId publicKey label createdAt value proof sides computed free accepted
    simp only [migrationDelegateLeaf,bind_ok,ensure_ok,exists_const,pure_ok] at computed
    obtain ⟨length,rfl⟩ := computed
    exact ⟨⟨publicKey,length⟩,rfl,
      proof_sound (.delegate ⟨legacyAccountId,⟨publicKey,length⟩,label,createdAt⟩) free accepted⟩

def sampleTree : Merkle.Tree Leaf :=
  .node (.leaf (.account ⟨sample 1,sample 2,true,7⟩)) (.leaf (.delegate ⟨sample 1,sample 3,[104,105],8⟩))

-- The delegate leaf of the sample with the account's digest as left sibling.
theorem sample_delegate_proof_accepted :
    ∃ root, treeRoot Blake2b.hash256 sampleTree = .ok root ∧ ∃ key : Bytes32, key.bytes = (sample 3).bytes ∧
      Leaf.delegate ⟨sample 1,key,[104,105],8⟩ ∈ sampleTree.leaves := by
  obtain ⟨root,built,_,_,_,delegates⟩ := allowlist_proofs_exact Blake2b.hash256 sampleTree
  refine ⟨root,built,?_⟩
  refine delegates (sample 1) (sample 3).bytes [104,105] 8 _
    [migrationAccountLeaf Blake2b.hash256 (sample 1) (sample 2) true 7] [true] rfl ?_ ?_
  · have distinct : ((treeMessages Blake2b.hash256 sampleTree).map Blake2b.digest).Nodup := by
      decide +kernel
    refine (Hash256.collisionFree_of_nodup distinct).subset ?_
    decide +kernel
  · rw [treeRoot_eq] at built
    cases built
    decide +kernel

end MemWal.Account
