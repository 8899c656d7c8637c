import Mathlib.Data.List.Lex
import Mathlib.Data.String.Basic
import MemWal.Library.Traces
import MemWal.SecurityDelete.Listing
import MemWal.SecurityDelete.Reconciler

namespace MemWal.SecurityDelete.Sweeping
open Library Listing

structure SweepCursor where
  updatedAt : DateTime
  owner : DbText
  blobId : DbText

structure SweepRow where
  owner : DbText
  blobId : DbText
  objectId : Option ObjectId
  updatedAt : DateTime

def sweepRow (row : TrackedBlob) : SweepRow := ⟨row.owner,row.blobId,row.objectId,row.updatedAt⟩

def sweepCursorKey : String := "reconciler_sweep_cursor:v2"

inductive Op where
  | jobStateGet (key : String)
  | sweepCandidates (cursor : Option SweepCursor) (limit : Int)
  | batchGetObjects (ids : List ObjectId)
  | walrusEpoch
  | sweepMarkExternal (owner blobId : DbText) (toState : BlobState)
  | jobStateSet (key value : String)

@[reducible] def Answer : Op → Type
  | .jobStateGet _ => Except AppError (Option String)
  | .sweepCandidates _ _ => Except AppError (List SweepRow)
  | .batchGetObjects _ => Except AppError (List (Option ObjectInfo))
  | .walrusEpoch => Except AppError Nat
  | .sweepMarkExternal _ _ _ => Except AppError Bool
  | .jobStateSet _ _ => Except AppError Unit

abbrev Job := Program Op Answer AppError

def call (op : Op) : Job (Answer op) := .perform op

variable (serde : Serde) (cfg : ReconcilerCfg)

def readCheckpoint (entry : Option String) : Except AppError (Option SweepCheckpoint) :=
  match entry.filter (fun raw => raw ≠ "") with
  | none => .ok none
  | some raw =>
    match serde.sweepCheckpointFromStr raw with
    | .ok checkpoint => .ok (some checkpoint)
    | .error error => .error (.internal s!"decode sweep cursor: {error}")

def sweepPairs (epoch : Nat) (pairs : List (SweepRow × Option ObjectInfo)) : Job Nat :=
  pairs.foldlM (fun swept pair => do
    match terminalState pair.2 pair.1.blobId.text pair.1.owner.text epoch cfg.expiryMarginEpochs with
    | none => return swept
    | some state =>
      let marked ← .orFail id (← call (.sweepMarkExternal pair.1.owner pair.1.blobId state))
      return if marked then swept + 1 else swept) 0

def cursorOf (checkpoint : Option SweepCheckpoint) : Option SweepCursor :=
  checkpoint.map (fun checkpoint => ⟨checkpoint.updatedAt,⟨checkpoint.owner⟩,⟨checkpoint.blobId⟩⟩)

def runSweepPage : Job Nat := do
  let entry ← .orFail id (← call (.jobStateGet sweepCursorKey))
  let cursor ← .orFail id (readCheckpoint serde entry)
  let candidates ← .orFail id (← call (.sweepCandidates (cursorOf cursor) cfg.sweepPage))
  match candidates.getLast? with
  | none => do
    .orFail id (← call (.jobStateSet sweepCursorKey ""))
    return 0
  | some last => do
    let objects ← .orFail id (← call (.batchGetObjects (candidates.filterMap SweepRow.objectId)))
    let epoch ← .orFail id (← call .walrusEpoch)
    let swept ← sweepPairs cfg epoch (candidates.zip objects)
    .orFail id (← call (.jobStateSet sweepCursorKey
      (serde.sweepCheckpointToString ⟨2,last.updatedAt,last.owner.text,last.blobId.text⟩)))
    return swept

-- The part of a reconciler tick that the sweep is.
def sweepTick : Job Nat :=
  if cfg.sweepPage ≤ 0 then .fail (.badRequest "reconciler sweep_page must be positive")
  else runSweepPage serde cfg

section Serving
variable [LinearOrder DbText]

def sweepKey (row : TrackedBlob) : DateTime ×ₗ (DbText ×ₗ DbText) :=
  toLex (row.updatedAt,toLex (row.owner,row.blobId))

def candidate (row : TrackedBlob) : Bool := row.state = .deletable && row.objectId.isSome

def sweepCandidates (table : Table) (cursor : Option SweepCursor) (limit : Int) : List SweepRow :=
  (Keyset.page sweepKey limit.toNat
    (cursor.map (fun cursor => toLex (cursor.updatedAt,toLex (cursor.owner,cursor.blobId)))) (table.rows.filter candidate)).map sweepRow

-- `deletion_job_state`
abbrev JobState := Store String String

-- The table as a query finds it, and what else is not for the sweep to tell. A
-- write whose answer is lost may have been made.
structure Choice where
  table : Table
  failed : Option AppError
  committed : Bool
  objects : List (Option ObjectInfo)
  epoch : Nat
  marked : Bool

def Choice.answer {α : Type} (c : Choice) (value : α) : Except AppError α :=
  match c.failed with
  | some error => .error error
  | none => .ok value

def Choice.written (c : Choice) : Bool := c.failed.isNone || c.committed

def serve (s : JobState) (op : Op) (c : Choice) : JobState × Answer op :=
  match op with
  | .jobStateGet key => (s,c.answer (s.get? key))
  | .sweepCandidates cursor limit => (s,c.answer (sweepCandidates c.table cursor limit))
  | .batchGetObjects _ => (s,c.answer c.objects)
  | .walrusEpoch => (s,c.answer c.epoch)
  | .sweepMarkExternal _ _ _ => (s,c.answer c.marked)
  | .jobStateSet key value => (if c.written then s.upsert key value else s,c.answer ())

abbrev Call := Made JobState Op Choice

-- Nothing but the sweep writes its entry; the rows are anyone's.
def Others (s t : JobState) : Prop := s.get? sweepCursorKey = t.get? sweepCursorKey

def settled (s : JobState) (calls : List Call) : JobState :=
  match calls.getLast? with
  | some made => (serve made.state made.op made.choice).1
  | none => s

-- Ticks one after the other, any of which may stop at any of its calls.
inductive Ticks : JobState → List (List Call) → Prop where
  | nil (s : JobState) : Ticks s []
  | cons (s : JobState) (calls : List Call) (rest : List (List Call)) :
      Execution serve Others (sweepTick serde cfg) s calls → Ticks (settled s calls) rest → Ticks s (calls :: rest)

-- What a tick has written, the rows it has read, and where.
def saves (calls : List Call) : List String :=
  calls.filterMap (fun made => match made.op with
    | .jobStateSet _ value => if made.choice.written then some value else none
    | _ => none)

def candidatesOf (calls : List Call) : List SweepRow :=
  calls.flatMap (fun made => match made.op with
    | .sweepCandidates cursor limit => if made.choice.failed.isNone then sweepCandidates made.choice.table cursor limit else []
    | _ => [])

def tablesOf (calls : List Call) : List Table :=
  calls.filterMap (fun made => match made.op with
    | .sweepCandidates _ _ => if made.choice.failed.isNone then some made.choice.table else none
    | _ => none)

-- The rows of a page that a tick has left its checkpoint behind.
def visited (calls : List Call) : List SweepRow := if saves calls = [] then [] else candidatesOf calls

variable {serde} {cfg}

section Calls
variable {α β : Type} {s : JobState} {calls : List Call}

theorem ran_call {op : Op} {next : Answer op → Job β} (ran : Execution serve Others (.call op next) s calls) :
    calls = [] ∨ ∃ t c more, calls = ⟨t,op,c⟩ :: more ∧ Others s t ∧
      Execution serve Others (next (serve t op c).2) (serve t op c).1 more := by
  cases calls with
  | nil => exact .inl rfl
  | cons made more =>
    obtain ⟨t,op',c⟩ := made
    obtain ⟨rfl,since,ran⟩ := ran
    exact .inr ⟨t,c,more,rfl,since,ran⟩

theorem ran_answer {value : α} {c : Choice} {next : α → Job β}
    (ran : Execution serve Others (.orFail id (c.answer value) >>= next) s calls) :
    calls = [] ∨ c.failed = none ∧ Execution serve Others (next value) s calls := by
  unfold Choice.answer at ran
  cases failed : c.failed with
  | none =>
    rw [failed] at ran
    exact .inr ⟨rfl,ran⟩
  | some error =>
    rw [failed] at ran
    cases calls with
    | nil => exact .inl rfl
    | cons made more => cases ran

def writes : Op → Bool
  | .jobStateSet _ _ => true
  | _ => false

def Quiet (calls : List Call) : Prop := ∀ made ∈ calls, writes made.op = false

omit [LinearOrder DbText] in
theorem quiet_nil : Quiet [] := fun _ member => nomatch member

omit [LinearOrder DbText] in
theorem Quiet.cons {made : Call} (here : writes made.op = false) (quiet : Quiet calls) : Quiet (made :: calls) :=
  List.forall_mem_cons.mpr ⟨here,quiet⟩

theorem serve_quiet {t : JobState} {op : Op} {c : Choice} (quiet : writes op = false) : (serve t op c).1 = t := by
  cases op with
  | jobStateSet key value => cases quiet
  | _ => rfl

omit [LinearOrder DbText] in
theorem Quiet.saves (quiet : Quiet calls) : saves calls = [] := by
  apply List.filterMap_eq_nil_iff.mpr
  intro made member
  have still := quiet made member
  split
  · rename_i key value same
    rw [same] at still
    cases still
  · rfl

-- Until a tick writes, it meets the entry that it has started with.
theorem Quiet.meets {p : Job β} {last : Call} (quiet : Quiet calls) (ran : Execution serve Others p s (calls ++ [last])) :
    Others s last.state := by
  induction calls generalizing p s with
  | nil =>
    cases p with
    | done value => cases ran
    | fail error => cases ran
    | call op next => exact ran.2.1
  | cons made more ih =>
    cases p with
    | done value => cases ran
    | fail error => cases ran
    | call op next =>
      obtain ⟨rfl,since,ran⟩ := ran
      have later := ih (fun other member => quiet other (List.mem_cons_of_mem _ member)) ran
      rw [serve_quiet (quiet made List.mem_cons_self)] at later
      exact since.trans later

theorem Quiet.settled {p : Job β} (quiet : Quiet calls) (ran : Execution serve Others p s calls) :
    Others s (settled s calls) := by
  rcases List.eq_nil_or_concat calls with rfl | ⟨before,last,rfl⟩
  · rfl
  · rw [List.concat_eq_append] at *
    have since := Quiet.meets (fun made member => quiet made (List.mem_append_left _ member)) ran
    unfold Sweeping.settled
    rw [List.getLast?_concat]
    change Others s (serve last.state last.op last.choice).1
    rw [serve_quiet (quiet last (List.mem_append_right _ List.mem_cons_self))]
    exact since

-- The marks of a page, before whatever comes after them.
theorem ran_pairs {epoch : Nat} {next : Nat → Job β} {pairs : List (SweepRow × Option ObjectInfo)} {swept : Nat}
    (ran : Execution serve Others (pairs.foldlM (fun swept pair => do
      match terminalState pair.2 pair.1.blobId.text pair.1.owner.text epoch cfg.expiryMarginEpochs with
      | none => return swept
      | some state =>
        let marked ← .orFail id (← call (.sweepMarkExternal pair.1.owner pair.1.blobId state))
        return if marked then swept + 1 else swept) swept >>= next) s calls) :
    ∃ marks rest, calls = marks ++ rest ∧ Quiet marks ∧ tablesOf marks = [] ∧ candidatesOf marks = [] ∧
      (rest = [] ∨ ∃ count t, Execution serve Others (next count) t rest) := by
  induction pairs generalizing swept s calls with
  | nil => exact ⟨[],calls,rfl,quiet_nil,rfl,rfl,.inr ⟨swept,s,ran⟩⟩
  | cons pair more ih =>
    rw [List.foldlM_cons] at ran
    cases state : terminalState pair.2 pair.1.blobId.text pair.1.owner.text epoch cfg.expiryMarginEpochs with
    | none =>
      simp only [state] at ran
      exact ih ran
    | some state' =>
      simp only [state] at ran
      rcases ran_call ran with rfl | ⟨t,c,later,rfl,since,ran⟩
      · exact ⟨[],[],rfl,quiet_nil,rfl,rfl,.inl rfl⟩
      · simp only [serve,Choice.answer] at ran
        cases failed : c.failed with
        | some error =>
          simp only [failed] at ran
          cases later with
          | nil => exact ⟨_,[],rfl,quiet_nil.cons rfl,rfl,rfl,.inl rfl⟩
          | cons made more => cases ran
        | none =>
          simp only [failed] at ran
          obtain ⟨marks,rest,rfl,quiet,tables,rows,ending⟩ := ih ran
          exact ⟨_ :: marks,rest,rfl,quiet.cons rfl,tables,rows,ending⟩

theorem ran_write {key value : String} {count : Nat} (ran : Execution serve Others (do
      .orFail id (← call (.jobStateSet key value))
      return count : Job Nat) s calls) : calls = [] ∨ ∃ t c, calls = [⟨t,.jobStateSet key value,c⟩] := by
  rcases ran_call ran with rfl | ⟨t,c,more,rfl,_,ran⟩
  · exact .inl rfl
  · rcases ran_answer ran with rfl | ⟨_,ran⟩
    · exact .inr ⟨t,c,rfl⟩
    · cases more with
      | nil => exact .inr ⟨t,c,rfl⟩
      | cons made more => cases ran

-- What a tick writes, if it comes to that: its checkpoint, or none after the
-- last page.
def written (serde : Serde) (page : List SweepRow) : String :=
  match page.getLast? with
  | none => ""
  | some last => serde.sweepCheckpointToString ⟨2,last.updatedAt,last.owner.text,last.blobId.text⟩

theorem tick_calls (ran : Execution serve Others (sweepTick serde cfg) s calls) :
    Quiet calls ∨ ∃ before t c checkpoint table, Quiet before ∧ 0 < cfg.sweepPage ∧
      readCheckpoint serde (s.get? sweepCursorKey) = .ok checkpoint ∧ tablesOf before = [table] ∧
      candidatesOf before = sweepCandidates table (cursorOf checkpoint) cfg.sweepPage ∧
      calls = before ++ [⟨t,.jobStateSet sweepCursorKey (written serde (candidatesOf before)),c⟩] := by
  unfold sweepTick at ran
  split at ran
  · cases calls with
    | nil => exact .inl quiet_nil
    | cons made more => cases ran
  rename_i positive
  rcases ran_call ran with rfl | ⟨t₁,c₁,calls₁,rfl,since₁,ran⟩
  · exact .inl quiet_nil
  rcases ran_answer ran with rfl | ⟨failed₁,ran⟩
  · exact .inl (quiet_nil.cons rfl)
  rw [← since₁] at ran
  cases read : readCheckpoint serde (s.get? sweepCursorKey) with
  | error e =>
    rw [read] at ran
    cases calls₁ with
    | nil => exact .inl (quiet_nil.cons rfl)
    | cons made more => cases ran
  | ok checkpoint =>
    rw [read] at ran
    rcases ran_call ran with rfl | ⟨t₂,c₂,calls₂,rfl,since₂,ran⟩
    · exact .inl (quiet_nil.cons rfl)
    rcases ran_answer ran with rfl | ⟨failed₂,ran⟩
    · exact .inl ((quiet_nil.cons rfl).cons rfl)
    have tables (rest : List Call) (none_ : tablesOf rest = []) :
        tablesOf (⟨t₁,.jobStateGet sweepCursorKey,c₁⟩ :: ⟨t₂,.sweepCandidates (cursorOf checkpoint) cfg.sweepPage,c₂⟩ :: rest) =
          [c₂.table] := by
      unfold tablesOf at none_ ⊢
      rw [List.filterMap_cons_none rfl,List.filterMap_cons_some (b:=c₂.table) (by rw [failed₂]; rfl),none_]
    have rows (rest : List Call) (none_ : candidatesOf rest = []) :
        candidatesOf (⟨t₁,.jobStateGet sweepCursorKey,c₁⟩ :: ⟨t₂,.sweepCandidates (cursorOf checkpoint) cfg.sweepPage,c₂⟩ :: rest) =
          sweepCandidates c₂.table (cursorOf checkpoint) cfg.sweepPage := by
      change (if c₂.failed.isNone then sweepCandidates c₂.table (cursorOf checkpoint) cfg.sweepPage else []) ++ candidatesOf rest = _
      rw [failed₂,none_]
      exact List.append_nil _
    have quiet {rest : List Call} (later : Quiet rest) :
        Quiet (⟨t₁,.jobStateGet sweepCursorKey,c₁⟩ :: ⟨t₂,.sweepCandidates (cursorOf checkpoint) cfg.sweepPage,c₂⟩ :: rest) :=
      (later.cons rfl).cons rfl
    generalize isPage : sweepCandidates c₂.table (cursorOf checkpoint) cfg.sweepPage = page at ran rows
    cases ends : page.getLast? with
    | none =>
      rw [ends] at ran
      rcases ran_write ran with rfl | ⟨t,c,rfl⟩
      · exact .inl (quiet quiet_nil)
      · have none_ := rows [] rfl
        refine .inr ⟨_,t,c,checkpoint,c₂.table,quiet quiet_nil,by omega,rfl,tables [] rfl,none_.trans isPage.symm,?_⟩
        rw [none_,written,ends]
        rfl
    | some last =>
      rw [ends] at ran
      rcases ran_call ran with rfl | ⟨t₃,c₃,calls₃,rfl,_,ran⟩
      · exact .inl (quiet quiet_nil)
      rcases ran_answer ran with rfl | ⟨_,ran⟩
      · exact .inl (quiet (quiet_nil.cons rfl))
      rcases ran_call ran with rfl | ⟨t₄,c₄,calls₄,rfl,_,ran⟩
      · exact .inl (quiet (quiet_nil.cons rfl))
      rcases ran_answer ran with rfl | ⟨_,ran⟩
      · exact .inl (quiet ((quiet_nil.cons rfl).cons rfl))
      obtain ⟨marks,rest,rfl,still,noTables,noRows,ending⟩ := ran_pairs ran
      rcases ending with rfl | ⟨count,t,ran⟩
      · rw [List.append_nil]
        exact .inl (quiet ((still.cons rfl).cons rfl))
      rcases ran_write ran with rfl | ⟨t,c,rfl⟩
      · rw [List.append_nil]
        exact .inl (quiet ((still.cons rfl).cons rfl))
      · have most : Quiet (⟨t₃,.batchGetObjects (page.filterMap SweepRow.objectId),c₃⟩ :: ⟨t₄,.walrusEpoch,c₄⟩ :: marks) :=
          (still.cons rfl).cons rfl
        have all_ := rows (⟨t₃,.batchGetObjects (page.filterMap SweepRow.objectId),c₃⟩ :: ⟨t₄,.walrusEpoch,c₄⟩ :: marks) noRows
        refine .inr ⟨_,t,c,checkpoint,c₂.table,quiet most,by omega,rfl,tables _ noTables,all_.trans isPage.symm,?_⟩
        rw [all_,written,ends]
        rfl

theorem tick_effect (ran : Execution serve Others (sweepTick serde cfg) s calls) :
    saves calls = [] ∧ Others s (settled s calls) ∨
    ∃ checkpoint table, 0 < cfg.sweepPage ∧ readCheckpoint serde (s.get? sweepCursorKey) = .ok checkpoint ∧
      tablesOf calls = [table] ∧ candidatesOf calls = sweepCandidates table (cursorOf checkpoint) cfg.sweepPage ∧
      saves calls = [written serde (candidatesOf calls)] ∧
      (settled s calls).get? sweepCursorKey = some (written serde (candidatesOf calls)) := by
  rcases tick_calls ran with quiet | ⟨before,t,c,checkpoint,table,quiet,positive,read,tables,rows,rfl⟩
  · exact .inl ⟨quiet.saves,quiet.settled ran⟩
  have since := quiet.meets ran
  generalize value : written serde (candidatesOf before) = text at *
  have rows' : candidatesOf (before ++ [⟨t,.jobStateSet sweepCursorKey text,c⟩]) = candidatesOf before := by
    unfold candidatesOf
    rw [List.flatMap_append]
    exact List.append_nil _
  have tables' : tablesOf (before ++ [⟨t,.jobStateSet sweepCursorKey text,c⟩]) = tablesOf before := by
    unfold tablesOf
    rw [List.filterMap_append]
    exact List.append_nil _
  have ends : settled s (before ++ [⟨t,.jobStateSet sweepCursorKey text,c⟩]) =
      if c.written then t.upsert sweepCursorKey text else t := by
    unfold settled
    rw [List.getLast?_concat]
    rfl
  have saved : saves (before ++ [⟨t,.jobStateSet sweepCursorKey text,c⟩]) = if c.written then [text] else [] := by
    have none_ := quiet.saves
    unfold saves at none_ ⊢
    rw [List.filterMap_append,none_]
    cases made : c.written <;> simp [made]
  rw [ends,saved,tables',rows',value]
  cases made : c.written with
  | true => exact .inr ⟨checkpoint,table,positive,read,tables,rows,rfl,by rw [if_pos rfl,Store.get?_upsert,if_pos rfl]⟩
  | false => exact .inl ⟨rfl,since⟩

end Calls

-- `serde_json` gives back the checkpoint that it wrote for a row.
def ReadsCheckpoints (serde : Serde) (table : Table) : Prop := ∀ row ∈ table.rows,
  serde.sweepCheckpointToString ⟨2,row.updatedAt,row.owner.text,row.blobId.text⟩ ≠ "" ∧
  serde.sweepCheckpointFromStr (serde.sweepCheckpointToString ⟨2,row.updatedAt,row.owner.text,row.blobId.text⟩) =
    .ok ⟨2,row.updatedAt,row.owner.text,row.blobId.text⟩

-- From a start without a checkpoint up to the next time that one is cleared.
structure Cycle (serde : Serde) (cfg : ReconcilerCfg) (s : JobState) (ticks : List (List Call)) : Prop where
  fresh : (s.get? sweepCursorKey).getD "" = ""
  ran : Ticks serde cfg s ticks
  cleared : ∃ earlier last, ticks = earlier ++ [last] ∧ saves last = [""] ∧ ∀ calls ∈ earlier, saves calls ≠ [""]

def checkpointPlace (checkpoint : Option SweepCheckpoint) : Option (DateTime ×ₗ (DbText ×ₗ DbText)) :=
  checkpoint.map (fun checkpoint => toLex (checkpoint.updatedAt,toLex (⟨checkpoint.owner⟩,⟨checkpoint.blobId⟩)))

theorem sweepCandidates_page (table : Table) (checkpoint : Option SweepCheckpoint) (limit : Int) :
    sweepCandidates table (cursorOf checkpoint) limit =
      (Keyset.page sweepKey limit.toNat (checkpointPlace checkpoint) (table.rows.filter candidate)).map sweepRow := by
  unfold sweepCandidates cursorOf checkpointPlace
  rw [Option.map_map]
  rfl

omit [LinearOrder DbText] in
theorem written_last {page : List TrackedBlob} {last : TrackedBlob} (ends : page.getLast? = some last) :
    written serde (page.map sweepRow) =
      serde.sweepCheckpointToString ⟨2,last.updatedAt,last.owner.text,last.blobId.text⟩ := by
  unfold written
  rw [List.getLast?_map,ends]
  rfl

-- A row whose checkpoint is written comes off the table, so that its text is not
-- taken for a cleared entry, and the next tick goes on from it.
theorem page_last {table : Table} {checkpoint : Option SweepCheckpoint} {limit : Nat} {last : TrackedBlob}
    (reads : ReadsCheckpoints serde table)
    (ends : (Keyset.page sweepKey limit (checkpointPlace checkpoint) (table.rows.filter candidate)).getLast? = some last) :
    serde.sweepCheckpointToString ⟨2,last.updatedAt,last.owner.text,last.blobId.text⟩ ≠ "" ∧
      readCheckpoint serde (some (serde.sweepCheckpointToString ⟨2,last.updatedAt,last.owner.text,last.blobId.text⟩)) =
        .ok (some ⟨2,last.updatedAt,last.owner.text,last.blobId.text⟩) := by
  have inside := Keyset.mem_remaining.mp (List.mem_of_mem_take (List.mem_of_getLast? ends))
  obtain ⟨written,read⟩ := reads last (List.mem_filter.mp inside.1).1
  refine ⟨written,?_⟩
  simp [readCheckpoint,Option.filter,written,read]

theorem ticks_swept {s : JobState} {earlier : List (List Call)} {final : List Call} {checkpoint : Option SweepCheckpoint}
    (ran : Ticks serde cfg s (earlier ++ [final])) (cleared : saves final = [""]) (before : ∀ calls ∈ earlier, saves calls ≠ [""])
    (reads : ∀ calls ∈ earlier ++ [final], ∀ table ∈ tablesOf calls, ReadsCheckpoints serde table)
    (read : readCheckpoint serde (s.get? sweepCursorKey) = .ok checkpoint) :
    ∃ tables pages, Keyset.Swept sweepKey cfg.sweepPage.toNat (checkpointPlace checkpoint)
        ((tables : List Table).map (fun table => table.rows.filter candidate)) pages ∧ 0 < cfg.sweepPage ∧
      (∀ table ∈ tables, ∃ calls ∈ earlier ++ [final], table ∈ tablesOf calls) ∧
      (earlier ++ [final]).flatMap visited = pages.flatten.map sweepRow := by
  induction earlier generalizing s checkpoint with
  | nil =>
    cases ran with
    | cons _ _ _ executed _ =>
      rcases tick_effect executed with ⟨quiet,_⟩ | ⟨checkpoint',table,positive,read',tables,rows,saved,_⟩
      · rw [quiet] at cleared
        cases cleared
      rw [read] at read'
      cases read'
      rw [cleared] at saved
      have listed : table ∈ tablesOf final := by rw [tables]; exact List.mem_cons_self
      rw [rows,sweepCandidates_page] at saved
      cases ends : (Keyset.page sweepKey cfg.sweepPage.toNat (checkpointPlace checkpoint) (table.rows.filter candidate)).getLast? with
      | some last =>
        rw [written_last ends] at saved
        exact absurd (List.cons.inj saved).1.symm (page_last (reads final List.mem_cons_self table listed) ends).1
      | none =>
        have none_ := List.getLast?_eq_none_iff.mp ends
        refine ⟨[table],[],.ends _ _ none_,positive,?_,?_⟩
        · intro other member
          rw [List.mem_singleton.mp member]
          exact ⟨final,List.mem_cons_self,listed⟩
        · rw [List.nil_append,List.flatMap_singleton,visited,rows,sweepCandidates_page,none_]
          split <;> rfl
  | cons calls more ih =>
    cases ran with
    | cons _ _ _ executed ran =>
      have later (checkpoint : Option SweepCheckpoint)
          (read : readCheckpoint serde ((settled s calls).get? sweepCursorKey) = .ok checkpoint) := ih ran
        (fun calls member => before calls (List.mem_cons_of_mem _ member))
        (fun calls member => reads calls (List.mem_cons_of_mem _ member)) read
      rw [List.cons_append,List.flatMap_cons]
      rcases tick_effect executed with ⟨quiet,same⟩ | ⟨checkpoint',table,positive,read',tables,rows,saved,after⟩
      · obtain ⟨tables,pages,swept,positive,among,listed⟩ := later checkpoint (by rw [← same]; exact read)
        refine ⟨tables,pages,swept,positive,?_,?_⟩
        · intro table member
          obtain ⟨other,there,inside⟩ := among table member
          exact ⟨other,List.mem_cons_of_mem _ there,inside⟩
        · rw [visited,if_pos quiet]
          exact listed
      · rw [read] at read'
        cases read'
        have here : table ∈ tablesOf calls := by rw [tables]; exact List.mem_cons_self
        rw [rows,sweepCandidates_page] at saved after
        cases ends : (Keyset.page sweepKey cfg.sweepPage.toNat (checkpointPlace checkpoint) (table.rows.filter candidate)).getLast? with
        | none =>
          rw [List.getLast?_eq_none_iff.mp ends] at saved
          exact absurd saved (before calls List.mem_cons_self)
        | some last =>
          obtain ⟨_,again⟩ := page_last (reads calls List.mem_cons_self table here) ends
          rw [written_last ends] at after
          rw [← after] at again
          obtain ⟨others,pages,swept,_,among,listed⟩ := later _ again
          refine ⟨table :: others,_ :: pages,.next _ _ last _ pages ends swept,positive,?_,?_⟩
          · intro other member
            rcases List.mem_cons.mp member with same | there
            · exact ⟨calls,List.mem_cons_self,by rw [same]; exact here⟩
            · obtain ⟨tick,there,inside⟩ := among other there
              exact ⟨tick,List.mem_cons_of_mem _ there,inside⟩
          · have some_ : saves calls ≠ [] := by rw [saved]; exact List.cons_ne_nil _ _
            rw [visited,if_neg some_,rows,sweepCandidates_page,listed,List.flatten_cons,List.map_append]

omit [LinearOrder DbText] in
-- The primary key leaves a row one place among the candidates of a table.
theorem candidates_distinct (table : Table) : ((table.rows.filter candidate).map sweepKey).Nodup := by
  have keys := table.primaryKey.sublist ((List.filter_sublist (l:=table.rows) (p:=candidate)).map
    (fun row => (row.owner,row.blobId)))
  apply List.Nodup.of_map (fun key : DateTime ×ₗ (DbText ×ₗ DbText) => ((ofLex (ofLex key).2).1,(ofLex (ofLex key).2).2))
  rw [List.map_map]
  exact keys

-- A candidate that every query of a cycle finds as it is has been on one page.
theorem candidate_swept_once {s : JobState} {ticks : List (List Call)} (cycle : Cycle serde cfg s ticks)
    (reads : ∀ calls ∈ ticks, ∀ table ∈ tablesOf calls, ReadsCheckpoints serde table) {row : TrackedBlob}
    (suited : candidate row = true) (kept : ∀ calls ∈ ticks, ∀ table ∈ tablesOf calls, row ∈ table.rows) :
    (ticks.flatMap visited).filter (fun other => other.owner = row.owner ∧ other.blobId = row.blobId) = [sweepRow row] := by
  obtain ⟨fresh,ran,earlier,final,rfl,cleared,before⟩ := cycle
  have read : readCheckpoint serde (s.get? sweepCursorKey) = .ok none := by
    cases found : s.get? sweepCursorKey with
    | none => rfl
    | some entry =>
      rw [found] at fresh
      change entry = "" at fresh
      rw [fresh]
      rfl
  obtain ⟨tables,pages,swept,positive,among,listed⟩ := ticks_swept ran cleared before reads read
  have present : ∀ table ∈ tables, row ∈ table.rows := by
    intro table member
    obtain ⟨calls,tick,inside⟩ := among table member
    exact kept calls tick table inside
  have once := swept.once (k:=sweepKey row) (by omega)
    (List.forall_mem_map.mpr (fun table _ => candidates_distinct table))
    (List.forall_mem_map.mpr (fun table member => List.mem_map_of_mem (List.mem_filter.mpr ⟨present table member,suited⟩))) rfl
  -- Rows of one table with the primary key of the row are the row.
  have same : ∀ other ∈ pages.flatten, (other.owner = row.owner ∧ other.blobId = row.blobId) → other = row := by
    intro other member keys
    obtain ⟨rows,there,inside⟩ := swept.of_tables member
    obtain ⟨table,tabled,rfl⟩ := List.mem_map.mp there
    exact List.inj_on_of_nodup_map table.primaryKey (List.mem_filter.mp inside).1 (present table tabled)
      (Prod.ext keys.1 keys.2)
  have counted : (pages.flatten.filter (fun other => other.owner = row.owner ∧ other.blobId = row.blobId)).length = 1 := by
    rw [← List.countP_eq_length_filter,← once]
    apply List.countP_congr
    intro other member
    rw [decide_eq_true_eq,decide_eq_true_eq]
    constructor
    · intro keys
      rw [same other member keys]
    · intro equal
      have parts := congrArg (fun key => (ofLex (ofLex key).2)) equal
      exact ⟨congrArg Prod.fst parts,congrArg Prod.snd parts⟩
  obtain ⟨other,only⟩ := List.length_eq_one_iff.mp counted
  have inside := List.mem_filter.mp (only ▸ List.mem_cons_self : other ∈ pages.flatten.filter _)
  rw [listed,List.filter_map]
  change (pages.flatten.filter (fun other => other.owner = row.owner ∧ other.blobId = row.blobId)).map sweepRow = _
  rw [only,same other inside.1 (of_decide_eq_true inside.2)]
  rfl

theorem rows_visited_once (serde : Serde) (table : Table) (state : AppState) (owner : DbText) (query : ListQuery)
    (states : List BlobState) (cfg : ReconcilerCfg) (s : JobState) (ticks : List (List Call)) (row : TrackedBlob)
    (pool : state.legacyDb = some table) (named : ∀ row ∈ table.rows, row.blobId.text ≠ "")
    (readsCursors : ReadsCursors serde table) (valid : parseStates query.state = .ok states)
    (inRange : 1 ≤ query.limit.getD 100 ∧ query.limit.getD 100 ≤ listMax) (first : query.cursor = none)
    (cycle : Cycle serde cfg s ticks)
    (readsCheckpoints : ∀ calls ∈ ticks, ∀ table ∈ tablesOf calls, ReadsCheckpoints serde table)
    (suited : candidate row = true) (kept : ∀ calls ∈ ticks, ∀ table ∈ tablesOf calls, row ∈ table.rows) :
    (∃ (pages : List ListResponse) (rows : List TrackedBlob), Follows serde state owner query pages ∧
      (∀ other, Follows serde state owner query other → other = pages) ∧
      rows.Perm (table.matching owner states) ∧ rows.Pairwise (fun a b => TrackedBlob.listKey a < TrackedBlob.listKey b) ∧
      pages.flatMap ListResponse.items = rows.map (fun row => blobItem serde row.blobRow) ∧
      ∀ page ∈ pages, ∀ raw, page.nextCursor = some raw → Produced serde table raw) ∧
    (ticks.flatMap visited).filter (fun other => other.owner = row.owner ∧ other.blobId = row.blobId) = [sweepRow row] := by
  constructor
  · have start : decodeCursor serde query.cursor = .ok none := by
      rw [first]
      rfl
    obtain ⟨pages,follows,listed,produced⟩ := follows_remaining owner readsCursors named pool valid inRange start
    refine ⟨pages,_,follows,fun other again => again.unique follows,?_,Keyset.remaining_sorted matching_distinct,listed,produced⟩
    refine Keyset.remaining_perm.trans (.of_eq ?_)
    exact List.filter_eq_self.mpr (fun _ _ => rfl)
  · exact candidate_swept_once cycle readsCheckpoints suited kept

end Serving

section Reconciling

def rowKey (e : (Owner × BlobId) × TrackingRow) : Timestamp ×ₗ (Owner ×ₗ BlobId) :=
  toLex (e.2.updatedAt,toLex (e.1.1,e.1.2))

theorem sweepBefore_iff (a b : (Owner × BlobId) × TrackingRow) : sweepBefore a b = true ↔ rowKey a ≤ rowKey b := by
  simp [sweepBefore,rowKey,Prod.Lex.le_iff]

theorem before_iff (cursor : SecurityDelete.SweepCursor) (e : (Owner × BlobId) × TrackingRow) :
    cursor.before e = true ↔ toLex (cursor.updatedAt,toLex (cursor.owner,cursor.blobId)) < rowKey e := by
  simp [SecurityDelete.SweepCursor.before,rowKey,Prod.Lex.lt_iff]

-- The query of the whole reconciler's model is such a page too, off its own
-- table and with texts in the order of their characters.
theorem db_sweepCandidates (db : Db) (cursor : Option SecurityDelete.SweepCursor) (limit : Nat) :
    db.sweepCandidates cursor limit = Keyset.page rowKey limit
      (cursor.map (fun cursor => toLex (cursor.updatedAt,toLex (cursor.owner,cursor.blobId))))
      (db.tracking.entries.filter (fun e => e.2.state = .deletable && e.2.objectId.isSome)) := by
  unfold Db.sweepCandidates Keyset.page Keyset.remaining
  simp only [sweepBefore_iff,List.filter_filter]
  congr 2
  apply List.filter_congr
  intro e _
  rw [Bool.and_comm]
  cases cursor with
  | none => simp
  | some cursor =>
    have same : cursor.before e = decide (toLex (cursor.updatedAt,toLex (cursor.owner,cursor.blobId)) < rowKey e) := by
      rw [Bool.eq_iff_iff,decide_eq_true_eq]
      exact before_iff cursor e
    simp [same]

end Reconciling

section Sample

-- The collation of the C locale.
local instance codePoints : LinearOrder DbText := LinearOrder.lift' (fun t => t.text.toList.map Char.toNat) (by
  intro a b same
  have chars := List.map_injective_iff.mpr (fun a b equal => Char.toNat_inj.mp equal) same
  cases a
  cases b
  exact congrArg DbText.mk (String.toList_inj.mp chars))

def sampleTime : DateTime := ⟨5,by decide⟩

def sampleOwner : DbText := ⟨"0x000000000000000000000000000000000000000000000000000000000000000a"⟩

def sampleRow (blobId : String) (seq : Nat) : TrackedBlob :=
  ⟨sampleOwner,⟨blobId⟩,some "0x1",.deletable,none,sampleTime,seq,sampleTime,sampleTime⟩

def sampleTable : Table where
  rows := [sampleRow "b" 1,sampleRow "a" 2]
  primaryKey := by simp [sampleRow]

-- The texts of `serde_json` where nothing has to be escaped.
def sampleSerde : Serde where
  listCursorToVec cursor := ("\x7b\"v\":1,\"createdAtMicros\":5,\"blobId\":\"" ++ cursor.blobId ++ "\"\x7d").toList.map
    (fun c => UInt8.ofNat c.toNat)
  listCursorFromSlice bytes :=
    if bytes = ("\x7b\"v\":1,\"createdAtMicros\":5,\"blobId\":\"a\"\x7d").toList.map (fun c => UInt8.ofNat c.toNat) then .ok ⟨1,5,"a"⟩
    else if bytes = ("\x7b\"v\":1,\"createdAtMicros\":5,\"blobId\":\"b\"\x7d").toList.map (fun c => UInt8.ofNat c.toNat) then .ok ⟨1,5,"b"⟩
    else .error "expected value"
  sweepCheckpointToString checkpoint := "\x7b\"v\":2,\"updated_at\":\"1970-01-01T00:00:00.000005Z\",\"owner\":\"" ++
    checkpoint.owner ++ "\",\"blob_id\":\"" ++ checkpoint.blobId ++ "\"\x7d"
  sweepCheckpointFromStr text :=
    if text = "\x7b\"v\":2,\"updated_at\":\"1970-01-01T00:00:00.000005Z\",\"owner\":\"" ++ sampleOwner.text ++ "\",\"blob_id\":\"a\"\x7d" then
      .ok ⟨2,sampleTime,sampleOwner.text,"a"⟩
    else if text = "\x7b\"v\":2,\"updated_at\":\"1970-01-01T00:00:00.000005Z\",\"owner\":\"" ++ sampleOwner.text ++ "\",\"blob_id\":\"b\"\x7d" then
      .ok ⟨2,sampleTime,sampleOwner.text,"b"⟩
    else .error "expected value"
  toRfc3339 _ := "1970-01-01T00:00:00.000005+00:00"

def sampleCfg : ReconcilerCfg := ⟨600,600,1,0,none,0⟩

def sampleChoice (blobId : String) : Choice :=
  ⟨sampleTable,none,true,[some ⟨"0x1",1,"d",some "0xa",some blobId,none⟩],0,true⟩

def sampleTick (s : JobState) (blobId : String) : List Call :=
  play serve (sweepTick sampleSerde sampleCfg) s (List.replicate 5 (sampleChoice blobId))

-- One row each on two pages, then the page after the last.
def firstTick : List Call := sampleTick .empty "a"

def secondTick : List Call := sampleTick (settled .empty firstTick) "b"

def thirdTick : List Call := sampleTick (settled (settled .empty firstTick) secondTick) "b"

theorem sample_cycle : Cycle sampleSerde sampleCfg .empty [firstTick,secondTick,thirdTick] := by
  have ran (s : JobState) (blobId : String) : Execution serve Others (sweepTick sampleSerde sampleCfg) s (sampleTick s blobId) := by
    apply play_execution
    intro s
    rfl
  refine ⟨rfl,.cons _ _ _ (ran _ _) (.cons _ _ _ (ran _ _) (.cons _ _ _ (ran _ _) (.nil _))),[firstTick,secondTick],_,rfl,?_,?_⟩
  · decide +kernel
  · decide +kernel

theorem sample_tables : ∀ calls ∈ [firstTick,secondTick,thirdTick], ∀ table ∈ tablesOf calls, table = sampleTable := by
  have one (s : JobState) (blobId : String) : ∀ table ∈ tablesOf (sampleTick s blobId), table = sampleTable := by
    intro table member
    obtain ⟨made,inside,read⟩ := List.mem_filterMap.mp member
    have given := List.eq_of_mem_replicate (play_choice inside)
    split at read
    · rw [given] at read
      cases read
      rfl
    · cases read
  exact List.forall_mem_cons.mpr ⟨one _ _,List.forall_mem_cons.mpr ⟨one _ _,List.forall_mem_singleton.mpr (one _ _)⟩⟩

theorem two_rows_visited :
    (∃ (pages : List ListResponse) (rows : List TrackedBlob),
      Follows sampleSerde ⟨some sampleTable,900⟩ sampleOwner ⟨none,none,some 1⟩ pages ∧
      (∀ other, Follows sampleSerde ⟨some sampleTable,900⟩ sampleOwner ⟨none,none,some 1⟩ other → other = pages) ∧
      rows.Perm (sampleTable.matching sampleOwner [.deletable]) ∧
      rows.Pairwise (fun a b => TrackedBlob.listKey a < TrackedBlob.listKey b) ∧
      pages.flatMap ListResponse.items = rows.map (fun row => blobItem sampleSerde row.blobRow) ∧
      ∀ page ∈ pages, ∀ raw, page.nextCursor = some raw → Produced sampleSerde sampleTable raw) ∧
    ([firstTick,secondTick,thirdTick].flatMap visited).filter (fun other =>
      other.owner = (sampleRow "a" 2).owner ∧ other.blobId = (sampleRow "a" 2).blobId) = [sweepRow (sampleRow "a" 2)] := by
  apply rows_visited_once sampleSerde sampleTable ⟨some sampleTable,900⟩ sampleOwner ⟨none,none,some 1⟩ [.deletable] sampleCfg
    .empty [firstTick,secondTick,thirdTick] (sampleRow "a" 2) rfl
  · decide +kernel
  · unfold ReadsCursors
    decide +kernel
  · decide +kernel
  · decide
  · rfl
  · exact sample_cycle
  · intro calls tick table read
    rw [sample_tables calls tick table read]
    unfold ReadsCheckpoints
    decide +kernel
  · rfl
  · intro calls tick table read
    rw [sample_tables calls tick table read]
    exact List.mem_cons_of_mem _ List.mem_cons_self

end Sample

end MemWal.SecurityDelete.Sweeping
