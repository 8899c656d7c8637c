import MemWal.OAuth.Conduct

namespace MemWal.OAuth
open Library Auth

-- Every token is due to a code or to a refresh token that was presented.
def Origin (log : List Fact) (sha : String) : Prop :=
  (∃ code type, .issued code type sha ∈ log) ∨
    ∃ presented other, .rotated presented sha other ∈ log ∨ .rotated presented other sha ∈ log

structure Rooted (s : World) : Prop where
  origin : ∀ sha row, s.tokens.get? sha = some row → Origin s.log sha
  delegates : ∀ grantId row, s.grants.get? grantId = some row → (s.delegates.get? row.delegateRef).isSome = true

theorem Origin.mono {log more : List Fact} {sha : String} (origin : Origin log sha) (longer : log <+: more) :
    Origin more sha := by
  rcases origin with ⟨code,type,member⟩ | ⟨presented,other,member⟩
  · exact .inl ⟨code,type,longer.subset member⟩
  · exact .inr ⟨presented,other,member.imp (fun there => longer.subset there) (fun there => longer.subset there)⟩

section Calls
variable {kit : Kit} {s now : World} {worker : Nat}

theorem Rooted.later (rooted : Rooted s) (later : Later s now)
    (tokens : ∀ sha row, now.tokens.get? sha = some row → (∃ old, s.tokens.get? sha = some old) ∨ Origin now.log sha)
    (grants : ∀ grantId row, now.grants.get? grantId = some row →
      (∃ old, s.grants.get? grantId = some old ∧ old.delegateRef = row.delegateRef) ∨
        (s.delegates.get? row.delegateRef).isSome = true) : Rooted now := by
  have kept : ∀ delegateRef, (s.delegates.get? delegateRef).isSome = true →
      (now.delegates.get? delegateRef).isSome = true := by
    intro delegateRef there
    obtain ⟨row,found⟩ := Option.isSome_iff_exists.mp there
    obtain ⟨next,after,_⟩ := later.delegates delegateRef row found
    exact Option.isSome_iff_exists.mpr ⟨next,after⟩
  refine ⟨?_,?_⟩
  · intro sha row found
    rcases tokens sha row found with ⟨old,before⟩ | origin
    · exact (rooted.origin sha old before).mono later.log
    · exact origin
  · intro grantId row found
    rcases grants grantId row found with ⟨old,before,same⟩ | there
    · exact kept _ (same ▸ rooted.delegates grantId old before)
    · exact kept _ there

theorem Rooted.of_same (rooted : Rooted s) (later : Later s now) (tokens : now.tokens = s.tokens)
    (grants : now.grants = s.grants) : Rooted now := by
  refine rooted.later later ?_ ?_
  · rw [tokens]
    exact fun _ row found => .inl ⟨row,found⟩
  · rw [grants]
    exact fun _ row found => .inl ⟨row,found,rfl⟩

theorem commit_rooted (rooted : Rooted s) {op : Op} (allowed : MayCall s worker op) (c : Choice) :
    Rooted (commit kit s worker op c).1 := by
  have later := @commit_later kit s worker op c
  cases op with
  | insertOauthGrant grant =>
    obtain ⟨sha,holds⟩ := allowed
    rcases insertOauthGrant_cases kit s worker grant holds with equal | ⟨fresh,_,delegate,equal⟩
    · simp only [commit,equal] at later ⊢
      exact rooted.of_same later rfl rfl
    · simp only [commit,equal] at later ⊢
      refine rooted.later later (fun _ row found => .inl ⟨row,found⟩) ?_
      intro grantId row found
      rw [Store.get?_insert _ fresh] at found
      split at found
      · cases found
        exact .inr delegate
      · exact .inl ⟨row,found,rfl⟩
  | insertOauthToken start token =>
    obtain ⟨sha,type,held,next⟩ := allowed
    rcases insertOauthToken_cases kit s worker start token next with equal | ⟨fresh,_,equal⟩
    · simp only [commit,equal] at later ⊢
      exact rooted.of_same later rfl rfl
    · simp only [commit,equal] at later ⊢
      refine rooted.later later ?_ (fun _ row found => .inl ⟨row,found,rfl⟩)
      intro h row found
      rw [Store.get?_insert _ fresh] at found
      split at found
      · rename_i same
        exact .inr (.inl ⟨sha,type,by simp [same]⟩)
      · exact .inl ⟨row,found⟩
  | revokeOauthToken sha =>
    refine rooted.later later ?_ (fun _ row found => .inl ⟨row,found,rfl⟩)
    intro h row found
    simp only [commit,World.revokeOauthToken,get?_modify,Option.map_eq_some_iff] at found
    obtain ⟨old,before,_⟩ := found
    exact .inl ⟨old,before⟩
  | revokeOauthGrant grantId =>
    refine rooted.later later ?_ ?_
    · intro h row found
      simp only [commit,World.revokeOauthGrant,Store.get?_update,Option.map_eq_some_iff] at found
      obtain ⟨old,before,_⟩ := found
      exact .inl ⟨old,before⟩
    · intro g row found
      simp only [commit,World.revokeOauthGrant,get?_modify,Option.map_eq_some_iff] at found
      obtain ⟨old,before,equal⟩ := found
      refine .inl ⟨old,before,?_⟩
      split at equal
      · rw [← equal]
      · rw [equal]
  | rotateOauthRefreshToken presented clientId access refresh =>
    rcases rotate_cases kit s presented clientId access refresh with ⟨row,rotates,equal⟩ | ⟨equal,_⟩
    · simp only [commit,equal] at later ⊢
      refine rooted.later later ?_ (fun _ row found => .inl ⟨row,found,rfl⟩)
      intro h token found
      rw [rotates.get?] at found
      split at found
      · rename_i same
        exact .inr (.inr ⟨presented,_,.inr (by rw [same]; exact List.mem_append_right _ List.mem_cons_self)⟩)
      · split at found
        · rename_i same
          exact .inr (.inr ⟨presented,_,.inl (by rw [same]; exact List.mem_append_right _ List.mem_cons_self)⟩)
        · obtain ⟨old,before,_⟩ := Option.map_eq_some_iff.mp found
          exact .inl ⟨old,before⟩
    · simp only [commit,equal] at later ⊢
      exact rooted.of_same later rfl rfl
  | insertOauthClient client =>
    rcases insertOauthClient_cases kit s client with equal | ⟨_,_,_,equal⟩
    · simp only [commit,equal] at later ⊢
      exact rooted.of_same later rfl rfl
    · simp only [commit,equal] at later ⊢
      exact rooted.of_same later rfl rfl
  | insertOauthDelegate key label =>
    rcases insertOauthDelegate_cases kit s key label with equal | ⟨_,_,_,equal⟩
    · simp only [commit,equal] at later ⊢
      exact rooted.of_same later rfl rfl
    · simp only [commit,equal] at later ⊢
      exact rooted.of_same later rfl rfl
  | insertOauthSession session query =>
    rcases insertOauthSession_cases kit s session query with equal | ⟨_,_,_,equal⟩
    · simp only [commit,equal] at later ⊢
      exact rooted.of_same later rfl rfl
    · simp only [commit,equal] at later ⊢
      exact rooted.of_same later rfl rfl
  | consumeOauthSession sessionId =>
    rcases consumeOauthSession_cases s sessionId with equal | ⟨_,_,_,_,equal⟩
    · simp only [commit,equal] at later ⊢
      exact rooted.of_same later rfl rfl
    · simp only [commit,equal] at later ⊢
      exact rooted.of_same later rfl rfl
  | insertOauthCode code =>
    rcases insertOauthCode_cases kit s code with equal | ⟨_,equal⟩
    · simp only [commit,equal] at later ⊢
      exact rooted.of_same later rfl rfl
    · simp only [commit,equal] at later ⊢
      exact rooted.of_same later rfl rfl
  | consumeOauthCode clientId sha =>
    rcases consumeOauthCode_cases s worker clientId sha with equal | ⟨_,_,_,_,equal⟩
    · simp only [commit,equal] at later ⊢
      exact rooted.of_same later rfl rfl
    · simp only [commit,equal] at later ⊢
      exact rooted.of_same later rfl rfl
  | _ => exact rooted.of_same later rfl rfl

end Calls

section Runs
variable {kit : Kit} {cfg : McpOAuthConfig} {clock : Int} {objects : Store String ObjectContent} {acts : List Act}

theorem rooted_at (kit : Kit) (cfg : McpOAuthConfig) (clock : Int) (objects : Store String ObjectContent)
    (acts : List Act) (i : Nat) : Rooted (at_ kit cfg (fresh clock objects) acts i).shared := by
  refine Crew.invariant (K:=fun _ _ _ _ => True) (fun _ _ _ _ => trivial) (start_sound kit cfg clock objects)
    (fun _ _ _ _ _ _ _ => trivial) ⟨nofun,nofun⟩ ?_ ?_ ?_ i
  · intro s k op c _ allowed _ rooted
    change Rooted (serve kit s k op c).1
    rcases serve_state kit s k op c with equal | equal
    · rw [equal]
      exact rooted
    · rw [equal]
      exact commit_rooted rooted allowed c
  · exact fun s k _ rooted => ⟨rooted.origin,rooted.delegates⟩
  · intro s event _ rooted
    refine rooted.of_same (happen_later event) ?_ ?_
    · cases event with
      | object objectId content => cases content <;> rfl
      | _ => rfl
    · cases event with
      | object objectId content => cases content <;> rfl
      | _ => rfl

-- Where in the run a call of a request was served.
theorem call_position {start : World} {i worker : Nat} {made : Made World Op Choice}
    (member : made ∈ callsOf kit cfg start acts i worker) :
    ∃ p act, i < p ∧ acts[p]? = some act ∧
      Crew.served (at_ kit cfg start acts p) act = some (worker,made.op,made.choice) ∧
      made.state = (at_ kit cfg start acts p).shared ∧
      (at_ kit cfg start acts (p+1)).shared = (serve kit made.state worker made.op made.choice).1 := by
  obtain ⟨j,act,found,call,state⟩ := Crew.made_position member
  rw [at_,Runs.before_drop] at call state
  rw [List.getElem?_drop] at found
  refine ⟨i+1+j,act,by omega,found,call,state,?_⟩
  obtain ⟨next,ran,equal⟩ := @Crew.exec_served _ _ _ _ _ _ _ _ (server kit cfg) _ _ _ _ _ call
  rw [at_,Runs.before_succ found,Runs.settle_ok ran,equal,state]
  rfl

theorem calls_of_fresh {start : World} {i worker : Nat} {request : Request}
    (spawned : acts[i]? = some (.spawn worker request))
    (free : (at_ kit cfg start acts i).workers.get? worker = none) :
    Execution (fun s op c => serve kit s worker op c) (fun _ _ => True) (handle kit cfg request) start
      (callsOf kit cfg start acts i worker) := by
  refine @Crew.made_execution _ _ _ _ _ _ _ _ (server kit cfg) _ _ (acts.drop (i+1)) _ _ ?_
  have ran : (server kit cfg).exec (at_ kit cfg start acts i) (.spawn worker request) =
      .ok ⟨(at_ kit cfg start acts i).shared,(at_ kit cfg start acts i).workers.upsert worker (handle kit cfg request)⟩ := by
    simp only [Crew.exec,free]
    rfl
  have next : at_ kit cfg start acts (i+1) = ⟨(at_ kit cfg start acts i).shared,
      (at_ kit cfg start acts i).workers.upsert worker (handle kit cfg request)⟩ :=
    (Runs.before_succ spawned).trans (Runs.settle_ok ran)
  rw [next,Store.get?_upsert,if_pos rfl]

end Runs
-- The facts that a call can add.
def Notes (kit : Kit) (s : World) : Op → Fact → Prop
  | .insertOauthClient _,.registered _ _ => True
  | .insertOauthSession session query,.opened _ session' query' => session' = session ∧ query' = query
  | .consumeOauthSession id,.sessionConsumed id' _ => id' = id
  | .insertOauthCode code,.completed _ code' => code' = code
  | .consumeOauthCode _ sha,.codeConsumed sha' _ => sha' = sha
  | .insertOauthGrant _,.granted _ _ _ => True
  | .insertOauthToken _ _,.issued _ _ _ => True
  | .rotateOauthRefreshToken presented clientId access refresh,.rotated presented' accessSha refreshSha =>
    presented' = presented ∧ accessSha = kit.hash (accessTokenPrefix ++ kit.random s.drawn) ∧
      refreshSha = kit.hash (refreshTokenPrefix ++ kit.random (s.drawn+1)) ∧
      ∃ row, Rotates kit s presented clientId access refresh row
  | _,_ => False

section Notes
variable {kit : Kit} {s : World} {worker : Nat}

theorem commit_notes {op : Op} {c : Choice} {fact : Fact} (member : fact ∈ (commit kit s worker op c).1.log) :
    fact ∈ s.log ∨ Notes kit s op fact := by
  cases op with
  | insertOauthClient client =>
    rcases insertOauthClient_cases kit s client with equal | ⟨_,_,_,equal⟩
    · simp only [commit,equal] at member
      exact .inl member
    · simp only [commit,equal,List.mem_append,List.mem_singleton] at member
      exact member.imp id (fun same => by rw [same]; trivial)
  | insertOauthDelegate key label =>
    rcases insertOauthDelegate_cases kit s key label with equal | ⟨_,_,_,equal⟩ <;> simp only [commit,equal] at member <;>
      exact .inl member
  | insertOauthSession session query =>
    rcases insertOauthSession_cases kit s session query with equal | ⟨_,_,_,equal⟩
    · simp only [commit,equal] at member
      exact .inl member
    · simp only [commit,equal,List.mem_append,List.mem_singleton] at member
      exact member.imp id (fun same => by rw [same]; exact ⟨rfl,rfl⟩)
  | consumeOauthSession sessionId =>
    rcases consumeOauthSession_cases s sessionId with equal | ⟨_,_,_,_,equal⟩
    · simp only [commit,equal] at member
      exact .inl member
    · simp only [commit,equal,List.mem_append,List.mem_singleton] at member
      exact member.imp id (fun same => by rw [same]; rfl)
  | insertOauthCode code =>
    rcases insertOauthCode_cases kit s code with equal | ⟨_,equal⟩
    · simp only [commit,equal] at member
      exact .inl member
    · simp only [commit,equal,List.mem_append,List.mem_singleton] at member
      exact member.imp id (fun same => by rw [same]; rfl)
  | consumeOauthCode clientId sha =>
    rcases consumeOauthCode_cases s worker clientId sha with equal | ⟨_,_,_,_,equal⟩
    · simp only [commit,equal] at member
      exact .inl member
    · simp only [commit,equal,List.mem_append,List.mem_singleton] at member
      exact member.imp id (fun same => by rw [same]; rfl)
  | insertOauthGrant grant =>
    simp only [commit,World.insertOauthGrant] at member
    split at member
    · exact .inl member
    · dsimp only at member
      split at member
      · rcases List.mem_append.mp member with old | new
        · exact .inl old
        · rw [List.mem_singleton.mp new]
          exact .inr trivial
      · exact .inl member
  | insertOauthToken start token =>
    simp only [commit,World.insertOauthToken] at member
    split at member
    · exact .inl member
    · dsimp only at member
      split at member
      · rcases List.mem_append.mp member with old | new
        · exact .inl old
        · rw [List.mem_singleton.mp new]
          exact .inr trivial
      · rcases List.mem_append.mp member with old | new
        · exact .inl old
        · rw [List.mem_singleton.mp new]
          exact .inr trivial
      · exact .inl member
  | rotateOauthRefreshToken presented clientId access refresh =>
    rcases rotate_cases kit s presented clientId access refresh with ⟨row,rotates,equal⟩ | ⟨equal,_⟩
    · simp only [commit,equal,afterRotation,List.mem_append,List.mem_singleton] at member
      exact member.imp id (fun same => by rw [same]; exact ⟨rfl,rfl,rfl,row,rotates⟩)
    · simp only [commit,equal] at member
      exact .inl member
  | _ => exact .inl member

theorem happen_log (event : Event) : (happen s event).log = s.log := by
  cases event with
  | object objectId content => cases content <;> rfl
  | _ => rfl

end Notes

section Noted
variable {kit : Kit} {cfg : McpOAuthConfig} {clock : Int} {objects : Store String ObjectContent} {acts : List Act}

-- A fact that is new was noted by a call.
theorem noted_next {i : Nat} {fact : Fact} (before : fact ∉ (at_ kit cfg (fresh clock objects) acts i).shared.log)
    (member : fact ∈ (at_ kit cfg (fresh clock objects) acts (i+1)).shared.log) :
    ∃ act worker op choice, acts[i]? = some act ∧
      Crew.served (at_ kit cfg (fresh clock objects) acts i) act = some (worker,op,choice) ∧
      MayCall (at_ kit cfg (fresh clock objects) acts i).shared worker op ∧
      Notes kit (at_ kit cfg (fresh clock objects) acts i).shared op fact ∧
      fact ∈ (commit kit (at_ kit cfg (fresh clock objects) acts i).shared worker op choice).1.log ∧
      (at_ kit cfg (fresh clock objects) acts (i+1)).shared =
        (commit kit (at_ kit cfg (fresh clock objects) acts i).shared worker op choice).1 := by
  cases found : acts[i]? with
  | none =>
    rw [at_,Runs.before_past found] at member
    exact absurd member before
  | some act =>
    rcases Crew.effect_at (fun _ _ _ _ => trivial) (start_sound kit cfg clock objects) found with effect | equal
    · cases effect with
      | served worker op choice call allowed equal =>
        change (at_ kit cfg (fresh clock objects) acts (i+1)).shared =
          (serve kit (at_ kit cfg (fresh clock objects) acts i).shared worker op choice).1 at equal
        rcases serve_state kit (at_ kit cfg (fresh clock objects) acts i).shared worker op choice with still | done
        · rw [equal,still] at member
          exact absurd member before
        · rw [done] at equal
          rw [equal] at member
          exact ⟨_,worker,op,choice,rfl,call,allowed,(commit_notes member).resolve_left before,member,equal⟩
      | abandoned worker equal =>
        change (at_ kit cfg (fresh clock objects) acts (i+1)).shared = _ at equal
        rw [equal] at member
        exact absurd member before
      | happened event equal =>
        change (at_ kit cfg (fresh clock objects) acts (i+1)).shared = happen _ event at equal
        rw [equal,happen_log] at member
        exact absurd member before
      | unmoved worker request equal =>
        change (at_ kit cfg (fresh clock objects) acts (i+1)).shared = _ at equal
        rw [equal] at member
        exact absurd member before
    · change at_ kit cfg (fresh clock objects) acts (i+1) = at_ kit cfg (fresh clock objects) acts i at equal
      rw [equal] at member
      exact absurd member before

-- Every fact was noted by a call.
theorem noted {i : Nat} {fact : Fact} (member : fact ∈ (at_ kit cfg (fresh clock objects) acts i).shared.log) :
    ∃ q act worker op choice, q < i ∧ acts[q]? = some act ∧
      Crew.served (at_ kit cfg (fresh clock objects) acts q) act = some (worker,op,choice) ∧
      MayCall (at_ kit cfg (fresh clock objects) acts q).shared worker op ∧
      Notes kit (at_ kit cfg (fresh clock objects) acts q).shared op fact ∧
      fact ∉ (at_ kit cfg (fresh clock objects) acts q).shared.log ∧
      fact ∈ (commit kit (at_ kit cfg (fresh clock objects) acts q).shared worker op choice).1.log ∧
      (at_ kit cfg (fresh clock objects) acts (q+1)).shared =
        (commit kit (at_ kit cfg (fresh clock objects) acts q).shared worker op choice).1 := by
  induction i with
  | zero => cases member
  | succ i ih =>
    by_cases before : fact ∈ (at_ kit cfg (fresh clock objects) acts i).shared.log
    · obtain ⟨q,act,worker,op,choice,small,rest⟩ := ih before
      exact ⟨q,act,worker,op,choice,Nat.lt_succ_of_lt small,rest⟩
    · obtain ⟨act,worker,op,choice,found,call,allowed,notes,after,equal⟩ := noted_next before member
      exact ⟨i,act,worker,op,choice,Nat.lt_succ_self i,found,call,allowed,notes,before,after,equal⟩

end Noted
end MemWal.OAuth
