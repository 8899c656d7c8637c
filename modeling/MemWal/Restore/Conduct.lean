import MemWal.Restore.Routes

namespace MemWal.Restore
open Library
open Blobs (Text OnChainBlob)

def NoInsert : Op → Prop
  | .insertVector _ => False
  | _ => True

section Kinds

theorem download_only (owner ns : Text) (downloaded : List (Text × Bytes)) (blobId : Text) :
    (downloadOne owner ns downloaded blobId).Only NoInsert := by
  apply Program.Only.bind (.perform trivial)
  intro answer
  cases answer with
  | data bytes => trivial
  | blobNotFound => exact .bind (.perform trivial) (fun _ => trivial)
  | failed => trivial

theorem decrypt_only (config : Config) (auth : AuthInfo) (credential : SealCredential) (ns : Text)
    (decrypted : List (Text × Text)) (item : Text × Bytes) :
    (decryptOne config auth credential ns decrypted item).Only NoInsert := by
  apply Program.Only.bind (.perform trivial)
  intro answer
  cases answer with
  | ok plaintext =>
    dsimp only
    split
    · trivial
    · exact .bind (.perform trivial) (fun _ => trivial)
  | error e =>
    change Program.Only NoInsert (if permanentFromError e = true then _ else _)
    split
    · exact .bind (.perform trivial) (fun _ => trivial)
    · trivial

theorem embed_only (results : List (Text × List Int)) (item : Text × Text) : (embedOne results item).Only NoInsert := by
  apply Program.Only.bind (.perform trivial)
  intro answer
  cases answer <;> trivial

theorem query_only (owner ns packageId : Text) (limit : Nat) : (queryBlobsByOwner owner ns packageId limit).Only NoInsert := by
  apply Program.Only.bind (.perform trivial)
  intro answer
  cases answer <;> trivial

end Kinds

theorem arranged_perm {α : Type} (order : List Nat) (items : List α) : (arranged order items).Perm items := by
  unfold arranged
  split
  · rename_i perm
    have same := perm.filterMap (fun i => items[i]?)
    have whole : (List.range items.length).map (fun i => items[i]?) = items.map some := by
      apply List.ext_getElem
      · simp
      · intro i low high
        have small : i < items.length := by simpa using low
        simp [small]
    have listed : (List.range items.length).filterMap (fun i => items[i]?) = items := by
      calc (List.range items.length).filterMap (fun i => items[i]?)
          = ((List.range items.length).map (fun i => items[i]?)).filterMap id := by rw [List.filterMap_map]; rfl
        _ = items := by
          rw [whole,List.filterMap_map]
          exact List.filterMap_some
    rw [listed] at same
    exact same
  · exact .refl _

-- What a loop over tasks collects: at most one item for each of them, in order.
theorem collects {α β : Type} {key : α → Text} {f : List (Text × β) → α → Handler (List (Text × β))}
    (one : ∀ acc item calls out, Completes serve (f acc item) calls (.ok out) →
      out = acc ∨ ∃ value, out = acc ++ [(key item,value)])
    {items : List α} {out : List (Text × β)} {calls : List (Made World Op Choice)}
    (completes : Completes serve (items.foldlM f []) calls (.ok out)) :
    (out.map Prod.fst).Sublist (items.map key) := by
  refine Completes.foldlM (I:=fun seen acc => (acc.map Prod.fst).Sublist (seen.map key)) ?_ (List.Sublist.refl _) completes
  intro seen item acc calls out held done
  rw [List.map_append]
  rcases one acc item calls out done with rfl | ⟨value,rfl⟩
  · exact held.trans (List.sublist_append_left _ _)
  · rw [List.map_append]
    exact held.append (List.Sublist.refl _)

theorem download_one {owner ns : Text} (acc : List (Text × Bytes)) (item : Text) (calls : List (Made World Op Choice))
    (out : List (Text × Bytes)) (completes : Completes serve (downloadOne owner ns acc item) calls (.ok out)) :
    out = acc ∨ ∃ value, out = acc ++ [(item,value)] := by
  obtain ⟨_,_,answer,_,_,rest⟩ := Completes.bind_ok completes
  cases answer with
  | data bytes =>
    obtain ⟨_,rfl⟩ := Completes.pure_ok rest
    exact .inr ⟨bytes,rfl⟩
  | blobNotFound =>
    obtain ⟨_,_,_,_,_,rest⟩ := Completes.bind_ok rest
    obtain ⟨_,rfl⟩ := Completes.pure_ok rest
    exact .inl rfl
  | failed =>
    obtain ⟨_,rfl⟩ := Completes.pure_ok rest
    exact .inl rfl

theorem decrypt_one {config : Config} {auth : AuthInfo} {credential : SealCredential} {ns : Text}
    (acc : List (Text × Text)) (item : Text × Bytes) (calls : List (Made World Op Choice)) (out : List (Text × Text))
    (completes : Completes serve (decryptOne config auth credential ns acc item) calls (.ok out)) :
    out = acc ∨ ∃ value, out = acc ++ [(item.1,value)] := by
  obtain ⟨_,_,answer,_,_,rest⟩ := Completes.bind_ok completes
  cases answer with
  | ok plaintext =>
    dsimp only at rest
    split at rest
    · rename_i text _
      obtain ⟨_,rfl⟩ := Completes.pure_ok rest
      exact .inr ⟨text,rfl⟩
    · obtain ⟨_,_,_,_,_,rest⟩ := Completes.bind_ok rest
      obtain ⟨_,rfl⟩ := Completes.pure_ok rest
      exact .inl rfl
  | error e =>
    change Completes serve (if permanentFromError e = true then _ else _) _ _ at rest
    split at rest
    · obtain ⟨_,_,_,_,_,rest⟩ := Completes.bind_ok rest
      obtain ⟨_,rfl⟩ := Completes.pure_ok rest
      exact .inl rfl
    · obtain ⟨_,rfl⟩ := Completes.pure_ok rest
      exact .inl rfl

theorem embed_one (acc : List (Text × List Int)) (item : Text × Text) (calls : List (Made World Op Choice))
    (out : List (Text × List Int)) (completes : Completes serve (embedOne acc item) calls (.ok out)) :
    out = acc ∨ ∃ value, out = acc ++ [(item.1,value)] := by
  obtain ⟨_,_,answer,_,_,rest⟩ := Completes.bind_ok completes
  cases answer with
  | some vector =>
    obtain ⟨_,rfl⟩ := Completes.pure_ok rest
    exact .inr ⟨vector,rfl⟩
  | none =>
    obtain ⟨_,rfl⟩ := Completes.pure_ok rest
    exact .inl rfl

def insertOp (owner ns : Text) (downloaded : List (Text × Bytes)) (item : Text × List Int) : Op :=
  .insertVector ⟨owner,ns,item.1,item.2,blobSize downloaded item.1,importanceStandard⟩

theorem inserts_in_order {owner ns : Text} {downloaded : List (Text × Bytes)} {results : List (Text × List Int)}
    {s : World} {calls : List (Made World Op Choice)}
    (ran : Execution serve (fun _ _ => True) (results.foldlM (insertOne owner ns downloaded) ()) s calls) :
    calls.map Made.op <+: results.map (insertOp owner ns downloaded) := by
  induction results generalizing s calls with
  | nil =>
    cases calls with
    | nil => exact List.nil_prefix
    | cons made rest => cases ran
  | cons item results ih =>
    cases calls with
    | nil => exact List.nil_prefix
    | cons made rest =>
      rw [List.foldlM_cons] at ran
      obtain ⟨same,_,tail⟩ := ran
      have first : made.op = insertOp owner ns downloaded item := same
      rw [List.map_cons,List.map_cons,first,List.cons_prefix_cons]
      refine ⟨rfl,?_⟩
      revert tail
      generalize (serve made.state _ made.choice).1 = now
      generalize (serve made.state _ made.choice).2 = answer
      intro tail
      cases answer with
      | ok _ => exact ih tail
      | error e =>
        cases rest with
        | nil => exact List.nil_prefix
        | cons next more => cases tail

def insertedId : Op → Option Text
  | .insertVector row => some row.blobId
  | _ => none

theorem insertedId_results (owner ns : Text) (downloaded : List (Text × Bytes)) (results : List (Text × List Int)) :
    (results.map (insertOp owner ns downloaded)).filterMap insertedId = results.map Prod.fst := by
  rw [List.filterMap_map]
  exact congrFun (List.filterMap_eq_map (f:=Prod.fst)) results

-- The insertions after the page is known: of its ids, each as often as it is there.
theorem recover_inserts {config : Config} {auth : AuthInfo} {credential : SealCredential} {ns : Text} {page : List Text}
    {s : World} {calls : List (Made World Op Choice)} {last : Made World Op Choice} {row : VectorRow}
    (ran : Execution serve (fun _ _ => True) (recover config auth credential ns page) s (calls ++ [last]))
    (inserts : last.op = .insertVector row) :
    row.owner = auth.owner ∧ row.ns = ns ∧ row.blobId ∈ page ∧
    ((∃ earlier ∈ calls, ∃ row', earlier.op = .insertVector row' ∧ row'.blobId = row.blobId) → ¬ page.Nodup) := by
  have other : ¬ NoInsert last.op := by
    rw [inserts]
    exact id
  have downloads : ∀ items : List Text, (items.foldlM (downloadOne auth.owner ns) [] : Handler _).Only NoInsert :=
    fun items => .foldlM (download_only _ _) items _
  have decrypts : ∀ items : List (Text × Bytes), (items.foldlM (decryptOne config auth credential ns) [] : Handler _).Only NoInsert :=
    fun items => .foldlM (decrypt_only _ _ _ _) items _
  have embeds : ∀ items : List (Text × Text), (items.foldlM embedOne [] : Handler _).Only NoInsert :=
    fun items => .foldlM embed_only items _
  unfold recover at ran
  obtain ⟨order₀,rest₀,order,_,split₀,ordered₀,ran₀⟩ := Execution.beyond_last ran _ (.perform trivial) other
  obtain ⟨down,rest₁,downloaded,_,split₁,downs,ran₁⟩ := Execution.beyond_last ran₀ _ (downloads _) other
  obtain ⟨order₂,rest₂,order',_,split₂,ordered₂,ran₂⟩ := Execution.beyond_last ran₁ _ (.perform trivial) other
  obtain ⟨dec,rest₃,decrypted,_,split₃,decs,ran₃⟩ := Execution.beyond_last ran₂ _ (decrypts _) other
  obtain ⟨emb,rest₄,results,_,split₄,embs,ran₄⟩ := Execution.beyond_last ran₃ _ (embeds _) other
  have order_ := inserts_in_order (Execution.of_map ran₄)
  rw [List.map_append,List.map_singleton,inserts] at order_
  -- the ids that are inserted, against those of the page
  have inside : (results.map Prod.fst).Subperm page := by
    have first := collects download_one downs
    have second := collects decrypt_one decs
    have third := collects embed_one embs
    rw [List.map_id'] at first
    exact third.subperm.trans (second.subperm.trans (((arranged_perm order' downloaded).map Prod.fst).subperm.trans
      (first.subperm.trans (arranged_perm order page).subperm)))
  obtain ⟨more,ops⟩ := order_
  have ids : rest₄.filterMap (fun call => insertedId call.op) ++ row.blobId :: more.filterMap insertedId =
      results.map Prod.fst := by
    have same := congrArg (List.filterMap insertedId) ops
    rw [insertedId_results] at same
    simpa [List.filterMap_append,List.filterMap_map,insertedId,Function.comp_def] using same
  obtain ⟨item,_,own⟩ : ∃ item ∈ results, insertOp auth.owner ns downloaded item = .insertVector row := by
    apply List.mem_map.mp
    rw [← ops]
    simp
  cases own
  refine ⟨rfl,rfl,?_,?_⟩
  · apply inside.subset
    rw [← ids]
    simp
  · rintro ⟨earlier,member,row',op,same⟩ distinct
    have kind : ¬ NoInsert earlier.op := by
      rw [op]
      exact id
    have late : earlier ∈ rest₄ := by
      rw [split₀] at member
      have member₁ := ordered₀.skips (.perform trivial) member kind
      rw [split₁] at member₁
      have member₂ := downs.skips (downloads _) member₁ kind
      rw [split₂] at member₂
      have member₃ := ordered₂.skips (.perform trivial) member₂ kind
      rw [split₃] at member₃
      have member₄ := decs.skips (decrypts _) member₃ kind
      rw [split₄] at member₄
      exact embs.skips (embeds _) member₄ kind
    have before : row'.blobId ∈ rest₄.filterMap (fun call => insertedId call.op) :=
      List.mem_filterMap.mpr ⟨earlier,late,by rw [op]; rfl⟩
    have once : (results.map Prod.fst).Nodup := by
      obtain ⟨part,perm,sub⟩ := inside
      exact perm.nodup_iff.mp (sub.nodup distinct)
    rw [← ids,List.nodup_append] at once
    rw [same] at before
    exact once.2.2 _ before _ List.mem_cons_self rfl

theorem query_ok {owner ns packageId : Text} {limit : Nat} {calls : List (Made World Op Choice)} {blobs : List OnChainBlob}
    {sourceCapped : Bool}
    (completes : Completes serve (queryBlobsByOwner owner ns packageId limit) calls (.ok (blobs,sourceCapped))) :
    ∃ query, calls = [query] ∧ query.op = .queryBlobsByOwner owner ns packageId limit ∧
      query.choice.query owner ns packageId limit = .answered blobs sourceCapped := by
  obtain ⟨first,rest,answer,rfl,asked,tail⟩ := Completes.bind_ok completes
  obtain ⟨state,choice,rfl,equal⟩ := Completes.perform asked
  cases answer with
  | answered found capped =>
    obtain ⟨rfl,same⟩ := Completes.pure_ok tail
    cases same
    exact ⟨_,rfl,rfl,(Except.ok.inj equal).symm⟩
  | transport error => exact absurd tail Completes.not_fail
  | status body => exact absurd tail Completes.not_fail
  | unparsed error => exact absurd tail Completes.not_fail

theorem fallible_ok {α : Type} {s next : World} {answer value : α} {fault : Option Fault}
    (ok : (fallible s next answer fault).2 = .ok value) : value = answer ∧ fault = none := by
  cases fault with
  | none =>
    cases ok
    exact ⟨rfl,rfl⟩
  | some fault => cases fault <;> cases ok

-- What an insertion of a call rests on: the listing and the two reads it made.
structure Grounds (config : Config) (auth : AuthInfo) (body : RestoreRequest) (calls : List (Made World Op Choice))
    (row : VectorRow) : Prop where
  place : row.owner = auth.owner ∧ row.ns = body.ns
  based : ∃ query ∈ calls, ∃ read ∈ calls, ∃ failed ∈ calls, ∃ blobs sourceCapped,
    query.op = .queryBlobsByOwner auth.owner body.ns config.packageId (clampRestoreLimit body.limit) ∧
    query.choice.query auth.owner body.ns config.packageId (clampRestoreLimit body.limit) = .answered blobs sourceCapped ∧
    read.op = .getBlobsByNamespace auth.owner body.ns ∧ failed.op = .getFailedBlobIds auth.owner body.ns ∧
    row.blobId ∈ blobs.map OnChainBlob.blobId ∧ row.blobId ∉ read.state.blobIds auth.owner body.ns ∧
    row.blobId ∉ failed.state.failedIds auth.owner body.ns ∧
    ((∃ earlier ∈ calls, ∃ row', earlier.op = .insertVector row' ∧ row'.blobId = row.blobId) →
      ¬ (blobs.map OnChainBlob.blobId).Nodup)

theorem grounds {config : Config} {auth : AuthInfo} {body : RestoreRequest} {s : World} {calls : List (Made World Op Choice)}
    {last : Made World Op Choice} {row : VectorRow}
    (ran : Execution serve (fun _ _ => True) (restore config auth body) s (calls ++ [last]))
    (inserts : last.op = .insertVector row) : Grounds config auth body calls row := by
  have other : ¬ NoInsert last.op := by
    rw [inserts]
    exact id
  unfold restore at ran
  obtain ⟨start₀,rest₀,_,_,split₀,done₀,ran₀⟩ := Execution.beyond_last ran _ (.orFail _) other
  obtain ⟨start₁,rest₁,_,_,split₁,done₁,ran₁⟩ := Execution.beyond_last ran₀ _ (.perform trivial) other
  obtain ⟨start₂,rest₂,_,_,split₂,done₂,ran₂⟩ := Execution.beyond_last ran₁ _ (.orFail _) other
  obtain ⟨start₃,rest₃,credential,_,split₃,done₃,ran₃⟩ := Execution.beyond_last ran₂ _ (.orFail _) other
  obtain ⟨queries,rest₄,⟨blobs,sourceCapped⟩,_,split₄,queried,ran₄⟩ :=
    Execution.beyond_last ran₃ _ (query_only _ _ _ _) other
  obtain ⟨_,early⟩ | ⟨_,ran₅⟩ := Execution.ite ran₄
  · cases rest₄ <;> cases early
  obtain ⟨reads,rest₅,existing,_,split₅,read,ran₆⟩ := Execution.beyond_last ran₅ _ (.perform trivial) other
  obtain ⟨start₆,rest₆,existingBlobIds,_,split₆,found,ran₇⟩ := Execution.beyond_last ran₆ _ (.orFail _) other
  obtain ⟨cached,rest₇,failed,_,split₇,failures,ran₈⟩ := Execution.beyond_last ran₇ _ (.perform trivial) other
  obtain ⟨start₈,rest₈,failedBlobIds,_,split₈,missed,ran₉⟩ := Execution.beyond_last ran₈ _ (.orFail _) other
  obtain ⟨_,early⟩ | ⟨_,ran₁⟩ := Execution.ite ran₉
  · cases rest₈ <;> cases early
  obtain ⟨placed,named,there,repeated⟩ := recover_inserts (Execution.of_map ran₁) inserts
  obtain ⟨query,rfl,asked,answered⟩ := query_ok queried
  obtain ⟨_,known⟩ := Completes.orFail_ok found
  obtain ⟨_,gone⟩ := Completes.orFail_ok missed
  subst known gone
  obtain ⟨before,choice,rfl,reading⟩ := Completes.perform read
  obtain ⟨before',choice',rfl,caching⟩ := Completes.perform failures
  obtain ⟨rfl,_⟩ := fallible_ok (Except.ok.inj reading).symm
  obtain ⟨rfl,_⟩ := fallible_ok (Except.ok.inj caching).symm
  have sub := (List.take_sublist (clampRestoreLimit body.limit) ((blobs.map OnChainBlob.blobId).filter
    (fun id => !(before.blobIds auth.owner body.ns ++ before'.failedIds auth.owner body.ns).contains id)))
  have missing := sub.subset there
  simp only [List.mem_filter,Bool.not_eq_true',List.contains_eq_mem,List.mem_append,decide_eq_false_iff_not,
    not_or] at missing
  obtain ⟨listed,absent,uncached⟩ := missing
  refine ⟨⟨placed,named⟩,query,?_,⟨before,_,choice⟩,?_,⟨before',_,choice'⟩,?_,blobs,sourceCapped,asked,answered,rfl,rfl,
    listed,absent,uncached,?_⟩
  · rw [split₀,split₁,split₂,split₃,split₄]
    simp
  · rw [split₀,split₁,split₂,split₃,split₄,split₅]
    simp
  · rw [split₀,split₁,split₂,split₃,split₄,split₅,split₆,split₇]
    simp
  · rintro ⟨earlier,member,row',op,same⟩ distinct
    have kind : ¬ NoInsert earlier.op := by
      rw [op]
      exact id
    refine repeated ⟨earlier,?_,row',op,same⟩ ((sub.trans List.filter_sublist).nodup distinct)
    rw [split₀] at member
    have member₁ := done₀.skips (.orFail _) member kind
    rw [split₁] at member₁
    have member₂ := done₁.skips (.perform trivial) member₁ kind
    rw [split₂] at member₂
    have member₃ := done₂.skips (.orFail _) member₂ kind
    rw [split₃] at member₃
    have member₄ := done₃.skips (.orFail _) member₃ kind
    rw [split₄] at member₄
    have member₅ := queried.skips (query_only _ _ _ _) member₄ kind
    rw [split₅] at member₅
    have member₆ := read.skips (.perform trivial) member₅ kind
    rw [split₆] at member₆
    have member₇ := found.skips (.orFail _) member₆ kind
    rw [split₇] at member₇
    have member₈ := failures.skips (.perform trivial) member₇ kind
    rw [split₈] at member₈
    exact missed.skips (.orFail _) member₈ kind

end MemWal.Restore
