import MemWal.Account.History
import MemWal.Account.Journal
import MemWal.Indexer.Handler
import MemWal.Library.Blake2b

namespace MemWal.Indexer
open Library Library.Fallible Account

-- The event structs of the module, fields in the order of their declaration.
def eventName : Event → String
  | .accountCreated .. => "AccountCreated"
  | .accountImported .. => "AccountImported"
  | .delegateKeyAdded .. => "DelegateKeyAdded"
  | .delegateKeyRemoved .. => "DelegateKeyRemoved"
  | .accountDeactivated .. => "AccountDeactivated"
  | .accountReactivated .. => "AccountReactivated"
  | .accountQuarantined .. => "AccountQuarantined"
  | .accountQuarantineCleared .. => "AccountQuarantineCleared"
  | .registryMigrated .. => "RegistryMigrated"
  | .migrationCapMinted .. => "MigrationCapMinted"
  | .migrationCapBurned .. => "MigrationCapBurned"
  | .migrationFinalized .. => "MigrationFinalized"
  | .allowlistRootPinned .. => "AllowlistRootPinned"
  | .allowlistRootRepinned .. => "AllowlistRootRepinned"

def eventContents : Event → Bytes
  | .accountCreated accountId owner => accountId.bytes ++ owner.bytes
  | .accountImported legacyAccountId newAccountId owner => legacyAccountId.bytes ++ newAccountId.bytes ++ owner.bytes
  | .delegateKeyAdded accountId publicKey suiAddress label =>
    accountId.bytes ++ Bytes.writeBlock publicKey ++ suiAddress.bytes ++ Bytes.writeBlock label
  | .delegateKeyRemoved accountId publicKey suiAddress =>
    accountId.bytes ++ Bytes.writeBlock publicKey ++ suiAddress.bytes
  | .accountDeactivated accountId owner => accountId.bytes ++ owner.bytes
  | .accountReactivated accountId owner => accountId.bytes ++ owner.bytes
  | .accountQuarantined accountId owner => accountId.bytes ++ owner.bytes
  | .accountQuarantineCleared accountId owner => accountId.bytes ++ owner.bytes
  | .registryMigrated registryId was now => registryId.bytes ++ bcsU64 was ++ bcsU64 now
  | .migrationCapMinted capId => capId.bytes
  | .migrationCapBurned capId => capId.bytes
  | .migrationFinalized registryId evidence expires => registryId.bytes ++ Bytes.writeBlock evidence ++ bcsU64 expires
  | .allowlistRootPinned registryId root accounts delegates =>
    registryId.bytes ++ Bytes.writeBlock root ++ bcsU64 accounts ++ bcsU64 delegates
  | .allowlistRootRepinned registryId oldRoot newRoot accounts delegates =>
    registryId.bytes ++ Bytes.writeBlock oldRoot ++ Bytes.writeBlock newRoot ++ bcsU64 accounts ++ bcsU64 delegates

def encode (package : Address) (event : Event) : Ev := ⟨package,"account",eventName event,eventContents event⟩

-- What other modules emit: an event type belongs to the module that declares
-- it, and no other module can emit it.
def ForeignEv (package : Address) : Type := {ev : Ev // ¬ (ev.address = package ∧ ev.moduleName = "account")}

inductive Command (package : Address) where
  | call (fresh : ID) (call : Call)
  | foreign (emitted : List (ForeignEv package))

-- A transaction is one sender's block of commands; it happens as a whole or not at all.
structure Transaction (package : Address) where
  sender : Address
  commands : List (Command package)

section Chain
variable {package : Address} (H : Hash256)

def executeCommand (sender : Address) (state : World × List Ev) : Command package → Except Abort (World × List Ev)
  | .call fresh call => do
    let next ← execute H state.1 ⟨⟨sender,fresh⟩,call⟩
    return (next,state.2 ++ (next.events.drop state.1.events.length).map (encode package))
  | .foreign emitted => return (state.1,state.2 ++ emitted.map Subtype.val)

def executeTransaction (w : World) (tx : Transaction package) : World × Option (List Ev) :=
  match tx.commands.foldlM (executeCommand H tx.sender) (w,[]) with
  | .ok (next,events) => (next,some events)
  | .error _ => (w,none)

def runCheckpoint : World → List (Transaction package) → World × Checkpoint
  | w,[] => (w,[])
  | w,tx :: rest =>
    let (next,events) := executeTransaction H w tx
    let (last,others) := runCheckpoint next rest
    (last,events :: others)

def runChain : World → List (List (Transaction package)) → World × List Checkpoint
  | w,[] => (w,[])
  | w,txs :: rest =>
    let (next,checkpoint) := runCheckpoint H w txs
    let (last,others) := runChain next rest
    (last,checkpoint :: others)

end Chain

-- The row that an entry of the registry is to have.
def storedAccount (entry : Address × ID) : StoredAccount := ⟨hexText entry.2,hexText entry.1⟩

def entryRow (entry : Address × ID) : Text × Text := (storedAccount entry).row

-- Events leave the pipeline the rows of the registry entries `added`.
def Yields (package : Address) (events : List Ev) (added : List (Address × ID)) : Prop :=
  ∀ rows, events.foldlM (processEvent package) rows = .ok (rows ++ added.map storedAccount)

section Emission
variable {package : Address}

theorem Yields.nil : Yields package [] [] := by
  intro rows
  simp [pure,Except.pure]

theorem Yields.append {a b : List Ev} {x y : List (Address × ID)} (first : Yields package a x)
    (second : Yields package b y) : Yields package (a ++ b) (x ++ y) := by
  intro rows
  rw [List.foldlM_append,first rows]
  change b.foldlM (processEvent package) (rows ++ x.map storedAccount) = _
  rw [second,List.map_append,List.append_assoc]

theorem yields_foreign (ev : ForeignEv package) : Yields package [ev.val] [] := by
  intro rows
  have skipped : ¬ (ev.val.address = package ∧ ev.val.moduleName = "account" ∧ ev.val.name = "AccountCreated") :=
    fun matched => ev.property ⟨matched.1,matched.2.1⟩
  simp [processEvent,skipped,pure,Except.pure,bind,Except.bind]

theorem yields_foreigns (emitted : List (ForeignEv package)) : Yields package (emitted.map Subtype.val) [] := by
  induction emitted with
  | nil => exact Yields.nil
  | cons ev rest ih => exact (yields_foreign ev).append ih

-- The filter on the name lets AccountCreated through and nothing else.
theorem name_created {event : Event} : eventName event = "AccountCreated" ↔ (created event).isSome := by
  cases event <;> simp [eventName,created]

theorem yields_event (event : Event) : Yields package [encode package event] (created event).toList := by
  intro rows
  cases known : created event with
  | none =>
    have skipped : eventName event ≠ "AccountCreated" := by
      rw [ne_eq,name_created,known]
      decide
    simp [processEvent,encode,skipped,pure,Except.pure,bind,Except.bind]
  | some entry =>
    cases event with
    | accountCreated accountId owner =>
      cases known
      simp [processEvent,encode,eventName,eventContents,fromBytes_written,storedAccount,pure,Except.pure,bind,Except.bind]
    | _ => cases known

theorem yields_events (events : List Event) :
    Yields package (events.map (encode package)) (events.filterMap created) := by
  induction events with
  | nil => exact Yields.nil
  | cons event rest ih =>
    have first : Yields package _ _ := yields_event event
    have whole := first.append ih
    cases known : created event with
    | none =>
      rw [List.filterMap_cons_none known]
      simpa [known] using whole
    | some entry =>
      rw [List.filterMap_cons_some known]
      simpa [known] using whole

end Emission

-- A stretch of the chain: the registry grew by `added`, and the pipeline reads
-- the rows of just these entries off the events.
structure Grown (H : Hash256) (package : Address) (w next : World) (events : List Ev) (added : List (Address × ID)) :
    Prop where
  entries : next.registry.accounts.entries = w.registry.accounts.entries ++ added
  yields : Yields package events added
  represents : Represents H w → Represents H next

section Growth
variable {H : Hash256} {package : Address} {w : World}

theorem Grown.refl : Grown H package w w [] [] := ⟨(List.append_nil _).symm,Yields.nil,id⟩

theorem Grown.trans {u v : World} {a b : List Ev} {x y : List (Address × ID)} (first : Grown H package w u a x)
    (second : Grown H package u v b y) : Grown H package w v (a ++ b) (x ++ y) := by
  refine ⟨?_,first.yields.append second.yields,fun valid => second.represents (first.represents valid)⟩
  rw [second.entries,first.entries,List.append_assoc]

theorem executeCommand_grown {sender : Address} {events events' : List Ev} {next : World} {command : Command package}
    (ran : executeCommand H sender (w,events) command = .ok (next,events')) :
    ∃ more added, events' = events ++ more ∧ Grown H package w next more added := by
  cases command with
  | call fresh call =>
    simp only [executeCommand,bind_ok,pure_ok] at ran
    obtain ⟨_,done,equal⟩ := ran
    cases equal
    obtain ⟨emitted,log,entries⟩ := execute_journals done
    refine ⟨_,_,rfl,entries,?_,fun valid => execute_represents w _ next valid done⟩
    rw [log,List.drop_left]
    exact yields_events emitted
  | foreign emitted =>
    cases ran
    exact ⟨_,[],rfl,(List.append_nil _).symm,yields_foreigns emitted,id⟩

theorem executeCommands_grown {sender : Address} {commands : List (Command package)} {events events' : List Ev}
    {next : World} (ran : commands.foldlM (executeCommand H sender) (w,events) = .ok (next,events')) :
    ∃ more added, events' = events ++ more ∧ Grown H package w next more added := by
  induction commands generalizing w events with
  | nil =>
    cases ran
    exact ⟨[],[],(List.append_nil _).symm,Grown.refl⟩
  | cons command rest ih =>
    rw [List.foldlM_cons,bind_ok] at ran
    obtain ⟨⟨u,middle⟩,one,others⟩ := ran
    obtain ⟨more,added,rfl,grown⟩ := executeCommand_grown one
    obtain ⟨more',added',rfl,grown'⟩ := ih others
    exact ⟨_,_,List.append_assoc _ _ _,grown.trans grown'⟩

theorem executeTransaction_grown (tx : Transaction package) :
    ∃ added, Grown H package w (executeTransaction H w tx).1 ((executeTransaction H w tx).2.getD []) added := by
  unfold executeTransaction
  split
  · rename_i next events ran
    obtain ⟨more,added,rfl,grown⟩ := executeCommands_grown ran
    exact ⟨added,grown⟩
  · exact ⟨[],Grown.refl⟩

theorem runCheckpoint_grown (txs : List (Transaction package)) :
    ∃ added, Grown H package w (runCheckpoint H w txs).1 ((runCheckpoint H w txs).2.flatMap (fun tx => tx.getD [])) added := by
  induction txs generalizing w with
  | nil => exact ⟨[],Grown.refl⟩
  | cons tx rest ih =>
    obtain ⟨added,grown⟩ := executeTransaction_grown (H := H) (w := w) tx
    obtain ⟨added',grown'⟩ := ih (w := (executeTransaction H w tx).1)
    exact ⟨_,grown.trans grown'⟩

-- `process` reads the transactions one after another.
theorem process_eq (checkpoint : Checkpoint) :
    process package checkpoint = (checkpoint.flatMap (fun tx => tx.getD [])).foldlM (processEvent package) [] := by
  have onward : ∀ rows, checkpoint.foldlM (fun rows tx => (tx.getD []).foldlM (processEvent package) rows) rows =
      (checkpoint.flatMap (fun tx => tx.getD [])).foldlM (processEvent package) rows := by
    induction checkpoint with
    | nil => exact fun _ => rfl
    | cons tx rest ih =>
      intro rows
      rw [List.foldlM_cons,List.flatMap_cons,List.foldlM_append]
      exact congrArg _ (funext ih)
  exact onward []

theorem Grown.process {next : World} {checkpoint : Checkpoint} {added : List (Address × ID)}
    (grown : Grown H package w next (checkpoint.flatMap (fun tx => tx.getD [])) added) :
    process package checkpoint = .ok (added.map storedAccount) := by
  rw [process_eq,grown.yields,List.nil_append]

-- Cut into checkpoints, the growth of the registry is cut into the parts that
-- the pipeline gets to see.
theorem runChain_grown (blocks : List (List (Transaction package))) :
    ∃ parts : List (List (Address × ID)), (runChain H w blocks).1.registry.accounts.entries =
        w.registry.accounts.entries ++ parts.flatten ∧
      (runChain H w blocks).2.map (process package) = parts.map (fun added => .ok (added.map storedAccount)) ∧
      (Represents H w → Represents H (runChain H w blocks).1) := by
  induction blocks generalizing w with
  | nil => exact ⟨[],(List.append_nil _).symm,rfl,id⟩
  | cons txs rest ih =>
    obtain ⟨added,grown⟩ := runCheckpoint_grown (H := H) (w := w) txs
    obtain ⟨parts,entries,processed,represents⟩ := ih (w := (runCheckpoint H w txs).1)
    refine ⟨added :: parts,?_,?_,fun valid => represents (grown.represents valid)⟩
    · change (runChain H (runCheckpoint H w txs).1 rest).1.registry.accounts.entries = _
      rw [entries,grown.entries,List.flatten_cons,List.append_assoc]
    · change process package (runCheckpoint H w txs).2 :: (runChain H (runCheckpoint H w txs).1 rest).2.map (process package) = _
      rw [grown.process,processed]
      rfl

end Growth

def part (parts : List (List γ)) (n : Nat) : List γ := parts[n]?.getD []

theorem mem_part {parts : List (List γ)} {n : Nat} {x : γ} : x ∈ part parts n ↔ ∃ own, parts[n]? = some own ∧ x ∈ own := by
  unfold part
  cases parts[n]? with
  | none => simp
  | some own => simp

theorem part_flatten {parts : List (List γ)} {n : Nat} {x : γ} (member : x ∈ part parts n) : x ∈ parts.flatten := by
  obtain ⟨own,found,there⟩ := mem_part.mp member
  exact List.mem_flatten.mpr ⟨own,List.mem_of_getElem? found,there⟩

theorem part_map (parts : List (List γ)) (f : γ → δ) (n : Nat) : part (parts.map (List.map f)) n = (part parts n).map f := by
  unfold part
  rw [List.getElem?_map]
  cases parts[n]? with
  | none => rfl
  | some own => rfl

-- Parts of a list without repetitions, each picked once.
theorem parts_nodup {parts : List (List γ)} (distinct : parts.flatten.Nodup) {batch : List Nat} (once : batch.Nodup) :
    (batch.flatMap (part parts)).Nodup := by
  obtain ⟨each,apart⟩ := List.nodup_flatten.mp distinct
  refine List.nodup_flatMap.mpr ⟨?_,once.imp ?_⟩
  · intro n _
    unfold part
    cases found : parts[n]? with
    | none => exact List.nodup_nil
    | some own => exact each own (List.mem_of_getElem? found)
  · intro i j differs x one two
    obtain ⟨a,left,here⟩ := mem_part.mp one
    obtain ⟨b,right,there⟩ := mem_part.mp two
    obtain ⟨low,rfl⟩ := List.getElem?_eq_some_iff.mp left
    obtain ⟨high,rfl⟩ := List.getElem?_eq_some_iff.mp right
    rw [List.pairwise_iff_getElem] at apart
    rcases Nat.lt_or_gt_of_ne differs with less | more
    · exact apart i j low high less here there
    · exact apart j i high low more there here

theorem mapM_of_ok {ι : Type} {f : ι → Except Failure γ} {g : ι → γ} {xs : List ι} (each : ∀ x ∈ xs, f x = .ok (g x)) :
    xs.mapM f = .ok (xs.map g) := by
  induction xs with
  | nil => rfl
  | cons x rest ih =>
    rw [List.mapM_cons,each x List.mem_cons_self,ih (fun y member => each y (List.mem_cons_of_mem _ member))]
    rfl

-- The table that the registry asks for.
def registryTable (H : Hash256) (w : World) (valid : Represents H w) : AccountsTable where
  rows := w.registry.accounts.entries.map entryRow
  primary := by
    rw [List.map_map]
    refine List.Nodup.map_on ?_ (w.registry.accounts.unique.of_map _)
    intro a here b there same
    exact List.inj_on_of_nodup_map valid.distinct_ids here there (hexText_injective same)
  unique := by
    rw [List.map_map]
    refine List.Nodup.map_on ?_ (w.registry.accounts.unique.of_map _)
    intro a here b there same
    exact List.inj_on_of_nodup_map w.registry.accounts.unique here there (hexText_injective same)

section Commits
variable {package : Address} {checkpoints : List Checkpoint} {parts : List (List (Address × ID))}
  (processed : checkpoints.map (process package) = parts.map (fun added => .ok (added.map storedAccount)))
include processed

theorem process_part (n : Fin checkpoints.length) :
    process package (checkpoints.get n) = .ok ((part parts n).map storedAccount) := by
  have at_n := congrArg (fun results => results[n.val]?) processed
  simp only [List.getElem?_map,List.getElem?_eq_getElem n.isLt,Option.map_some] at at_n
  unfold part
  cases found : parts[n.val]? with
  | none => simp [found] at at_n
  | some own =>
    rw [found,Option.map_some,Option.some.injEq] at at_n
    exact at_n

omit processed in
theorem entryRows_within {whole : AccountsTable} (all : whole.rows = parts.flatten.map entryRow) (n : Nat) :
    (part parts n).map entryRow ⊆ whole.rows := by
  rw [all]
  exact List.map_subset _ (fun _ => part_flatten)

-- A commit whose checkpoints are distinct goes through, and the table then has
-- their rows as well.
theorem commitBatch_within {whole table : AccountsTable} (all : whole.rows = parts.flatten.map entryRow)
    (within : table.rows ⊆ whole.rows) {batch : List (Fin checkpoints.length)} (once : batch.Nodup) :
    ∃ next, commitBatch package checkpoints table batch = .ok next ∧
      ∀ r, r ∈ next.rows ↔ r ∈ table.rows ∨ ∃ n ∈ batch, r ∈ (part parts n).map entryRow := by
  let values := (batch.map (fun n : Fin checkpoints.length => (part parts n).map storedAccount)).flatten
  have listed : values.map StoredAccount.row = (batch.map Fin.val).flatMap (part (parts.map (List.map entryRow))) := by
    rw [List.flatMap_map,List.map_flatten,List.map_map,List.flatMap]
    refine congrArg List.flatten (List.map_congr_left ?_)
    intro n _
    rw [part_map]
    exact List.map_map
  have member : ∀ r, r ∈ values.map StoredAccount.row ↔ ∃ n ∈ batch, r ∈ (part parts n).map entryRow := by
    intro r
    rw [listed,List.mem_flatMap]
    constructor
    · intro found
      obtain ⟨i,picked,there⟩ := found
      obtain ⟨n,own,rfl⟩ := List.mem_map.mp picked
      exact ⟨n,own,part_map parts entryRow n ▸ there⟩
    · intro found
      obtain ⟨n,own,there⟩ := found
      exact ⟨n,List.mem_map_of_mem own,(part_map parts entryRow n).symm ▸ there⟩
  have wanted : values.map StoredAccount.row ⊆ whole.rows := by
    intro r there
    obtain ⟨n,_,here⟩ := (member r).mp there
    exact entryRows_within all n here
  have distinct : ((values.map StoredAccount.row).map Prod.snd).Nodup := by
    have rows : (values.map StoredAccount.row).Nodup := by
      rw [listed]
      apply parts_nodup
      · rw [← List.map_flatten,← all]
        exact whole.nodup
      · exact once.map (fun _ _ => Fin.ext)
    exact rows.map_on (fun r one q two same => Pairs.same_row (wanted one) (wanted two) same)
  obtain ⟨next,stored,now⟩ := Pairs.upsertAll_within wanted distinct within
  refine ⟨next,?_,fun r => (now r).trans (or_congr_right (member r))⟩
  rw [commitBatch,mapM_of_ok (fun n _ => process_part processed n)]
  simp only [bind_ok,pure_ok]
  refine ⟨_,rfl,(next,values.length),?_,rfl⟩
  change commit values table = _
  rw [commit,stored]

theorem schedule_within {whole : AccountsTable} (all : whole.rows = parts.flatten.map entryRow)
    {schedule : List (List (Fin checkpoints.length))} (once : ∀ batch ∈ schedule, batch.Nodup) {table : AccountsTable}
    (within : table.rows ⊆ whole.rows) :
    ∃ next, schedule.foldlM (commitBatch package checkpoints) table = .ok next ∧ next.rows ⊆ whole.rows ∧
      table.rows ⊆ next.rows ∧ ∀ batch ∈ schedule, ∀ n ∈ batch, (part parts n).map entryRow ⊆ next.rows := by
  induction schedule generalizing table with
  | nil => exact ⟨table,rfl,within,List.Subset.refl _,fun _ member => absurd member List.not_mem_nil⟩
  | cons batch rest ih =>
    obtain ⟨middle,committed,now⟩ := commitBatch_within processed all within (once batch List.mem_cons_self)
    have inside : middle.rows ⊆ whole.rows := by
      intro r member
      rcases (now r).mp member with old | ⟨n,_,new⟩
      · exact within old
      · exact entryRows_within all n new
    obtain ⟨next,others,bounded,kept,done⟩ := ih (fun b member => once b (List.mem_cons_of_mem _ member)) inside
    refine ⟨next,?_,bounded,?_,?_⟩
    · rw [List.foldlM_cons,committed]
      exact others
    · intro r member
      exact kept ((now r).mpr (.inl member))
    · intro b member n picked
      rcases List.mem_cons.mp member with rfl | later
      · intro r row
        exact kept ((now r).mpr (.inr ⟨n,picked,row⟩))
      · exact done b later n picked

end Commits

-- Whatever is published, called and cut into checkpoints, and however often
-- and in whatever groups the checkpoints are committed.
theorem read_model_equals_registry (H : Hash256) (g : Genesis) (package : Address)
    (blocks : List (List (Transaction package))) (last : World) (checkpoints : List Checkpoint)
    (chain : runChain H (init g.registryId g.adminCapId g.publisher) blocks = (last,checkpoints))
    (schedule : List (List (Fin checkpoints.length))) (once : ∀ batch ∈ schedule, batch.Nodup)
    (covered : ∀ n, ∃ batch ∈ schedule, n ∈ batch) :
    ∃ table, index package checkpoints schedule = .ok table ∧
      table.rows.Perm (last.registry.accounts.entries.map (fun entry => (hexText entry.2,hexText entry.1))) := by
  obtain ⟨parts,entries,processed,represents⟩ := runChain_grown (H := H)
    (w := init g.registryId g.adminCapId g.publisher) blocks
  rw [chain] at entries processed represents
  have valid := represents (init_represents H g.registryId g.adminCapId g.publisher)
  have all : (registryTable H last valid).rows = parts.flatten.map entryRow := congrArg (List.map entryRow) entries
  obtain ⟨table,indexed,bounded,_,done⟩ := schedule_within processed all once
    (fun _ member => absurd member List.not_mem_nil : Pairs.empty.rows ⊆ (registryTable H last valid).rows)
  refine ⟨table,indexed,(List.perm_ext_iff_of_nodup table.nodup (registryTable H last valid).nodup).mpr ?_⟩
  intro r
  constructor
  · exact fun member => bounded member
  · intro member
    rw [all] at member
    obtain ⟨entry,there,rfl⟩ := List.mem_map.mp member
    obtain ⟨own,listed,here⟩ := List.mem_flatten.mp there
    obtain ⟨n,found⟩ := List.mem_iff_getElem?.mp listed
    have count : checkpoints.length = parts.length := by simpa using congrArg List.length processed
    have inside : n < checkpoints.length := by
      rw [count]
      exact (List.getElem?_eq_some_iff.mp found).1
    obtain ⟨batch,planned,picked⟩ := covered ⟨n,inside⟩
    exact done batch planned ⟨n,inside⟩ picked (List.mem_map_of_mem (mem_part.mpr ⟨own,found,here⟩))

-- Two accounts, one of them asked for twice, and a namesake event of another
-- package; the second checkpoint is committed before the first, and again.
def sampleBlocks : List (List (Transaction (sample 9))) :=
  [[⟨sample 3,[.call (sample 20) (.pinAllowlistRoot (List.replicate 32 0) 0 0)]⟩,
    ⟨sample 3,[.call (sample 20) (.finalizeMigration 0 (List.replicate 32 0) 0),
      .foreign [⟨⟨sample 8,"account","AccountCreated",[]⟩,by decide⟩]]⟩,
    ⟨sample 4,[.call (sample 21) (.createAccount 5)]⟩],
  [⟨sample 4,[.call (sample 22) (.createAccount 6)]⟩,⟨sample 5,[.call (sample 23) (.createAccount 7)]⟩]]

def sampleChain : World × List Checkpoint := runChain Blake2b.hash256 (init (sample 1) (sample 2) (sample 3)) sampleBlocks

theorem sampleChain_checked : sampleChain.2.length = 2 ∧
    sampleChain.1.registry.accounts.entries = [(sample 4,sample 21),(sample 5,sample 23)] := by decide +kernel

def sampleBatch (n : Nat) (inside : n < 2) : Fin sampleChain.2.length := ⟨n,by rw [sampleChain_checked.1]; exact inside⟩

theorem two_accounts_indexed : ∃ table, index (sample 9) sampleChain.2
      [[sampleBatch 1 (by decide)],[sampleBatch 0 (by decide),sampleBatch 1 (by decide)]] = .ok table ∧
    table.rows.Perm [(hexText (sample 21),hexText (sample 4)),(hexText (sample 23),hexText (sample 5))] := by
  obtain ⟨table,indexed,rows⟩ := read_model_equals_registry Blake2b.hash256 ⟨sample 1,sample 2,sample 3⟩ (sample 9)
    sampleBlocks sampleChain.1 sampleChain.2 rfl
    [[sampleBatch 1 (by decide)],[sampleBatch 0 (by decide),sampleBatch 1 (by decide)]]
    (by simp [sampleBatch]) (by
      intro found
      obtain ⟨n,inside⟩ := found
      rw [sampleChain_checked.1] at inside
      obtain rfl | rfl : n = 0 ∨ n = 1 := by omega
      all_goals simp [sampleBatch])
  refine ⟨table,indexed,?_⟩
  rw [sampleChain_checked.2] at rows
  exact rows

end MemWal.Indexer
