import MemWal.Remember.Conduct
import MemWal.Remember.Routes

namespace MemWal.Remember
open Library Library.Fallible

variable {config : Config} {s : System} {k : Nat} {ε α β : Type}

-- The sidecar

theorem served_faulty_same {fault : Fault} {answer : α} : (s.faulty fault s answer).1 = s := by
  cases fault <;> rfl

theorem asks {what : Probe} {next : Nat → Handler α} {post : Except Unit α → System → Prop}
    (failed : ∀ now, Later config k s now → post (.error ()) now)
    (rest : ∀ n now, Later config k s now → Consistent config now → Keeps (order config) k post (next n) now) :
    Keeps (order config) k post (ask what >>= next) s := by
  intro now since inv
  refine ⟨trivial,fun c _ => ?_⟩
  have unmoved : (serve config now k (.probe what) c).1 = now := served_faulty_same
  change Keeps (order config) k post (Program.orFail id (serve config now k (.probe what) c).2 >>= next)
    (serve config now k (.probe what) c).1
  rw [unmoved]
  exact Keeps.orFail_bind (fun n _ => rest n now since inv) (fun _ _ => failed now since)

-- Questions to the chain and the SDK change nothing.
def Asking (op : Op) : Prop := ∃ what, op = .probe what

theorem keeps_asking {P : System → Prop} {p : Handler α} (stable : ∀ s now, Later config k s now → P s → P now)
    (only : p.Only Asking) (start : P s) : Keeps (order config) k (fun _ now => P now) p s := by
  induction p generalizing s with
  | done value => exact start
  | fail error => exact start
  | call op resume ih =>
    intro now since _
    obtain ⟨⟨what,rfl⟩,rest⟩ := only
    refine ⟨trivial,fun c _ => ih _ (rest _) ?_⟩
    have unmoved : (serve config now k (.probe what) c).1 = now := served_faulty_same
    exact unmoved.symm ▸ stable s now since start

theorem ask_only (what : Probe) : (ask what).Only Asking :=
  .bind (.perform ⟨what,rfl⟩) (fun _ => .orFail _)

theorem ensureNotExpired_only (maxEpoch : Option Nat) : (ensureNotExpired maxEpoch).Only Asking := by
  cases maxEpoch with
  | none => trivial
  | some maxEpoch => exact .bind (ask_only _) (fun _ => .orFail _)

theorem checkExecutionIdentity_only (identity : Option Nat) : (checkExecutionIdentity identity).Only Asking := by
  cases identity with
  | none => trivial
  | some identity => exact .bind (ask_only _) (fun _ => trivial)

-- What a handler answers fits the request, in any later state.
def Answers (config : Config) (request : DurableUploadRequest) (result : Except Unit DurableUploadResponse)
    (s : System) : Prop := ∀ response, result = .ok response → Fits config s request response

theorem Answers.failed {request : DurableUploadRequest} (s : System) : Answers config request (.error ()) s :=
  fun _ ok => by cases ok

theorem prepareRegisterTransaction_only (config : Config) (signer : Address) :
    (prepareRegisterTransaction config signer).Only Asking :=
  .bind (ask_only _) (fun _ => .bind (ask_only _) (fun _ => trivial))

theorem keeps_encode {data : Ciphertext} :
    Keeps (order config) k (fun result now => Later config k s now ∧
      ∀ step, result = .ok step → ∃ nonce, step = .encoded (config.sdk.blobId data) nonce) (encode config data) s := by
  refine asks (fun now since => ⟨since,fun _ ok => by cases ok⟩) ?_
  · intro nonce now since _
    refine ⟨since,?_⟩
    intro step ok
    cases ok
    exact ⟨nonce,rfl⟩

section Handler
variable {request : DurableUploadRequest} {posted : Nat}

theorem keeps_execute {transaction : PreparedRegisterTransaction} (sent : s.requests.get? posted = some request)
    (register : request.registerTransaction = some transaction)
    (digest : transaction.digest = config.digestFromBytes transaction.transactionBytes) :
    Keeps (order config) k (fun result now => now.requests.get? posted = some request ∧
      ∀ outcome, result = .ok outcome → now.executed.get? transaction.digest = some outcome)
      (executePreparedRegisterTransaction request.jobId transaction) s := by
  refine calls ?_
  intro now since consistent
  refine ⟨trivial,fun c _ => ?_⟩
  have there : now.requests.get? posted = some request := since.requests posted request sent
  have unmoved : (serve config now k (.getTransaction transaction.digest) c).1 = now := served_faulty_same
  have looked : ∀ outcome, (serve config now k (.getTransaction transaction.digest) c).2 = .ok (some outcome) →
      now.executed.get? transaction.digest = some outcome := by
    intro outcome answer
    simp only [serve] at answer
    cases fault : c.fault with
    | none =>
      rw [fault] at answer
      simp only [System.faulty,Except.ok.injEq] at answer
      split at answer
      · cases answer
      · exact answer
    | before =>
      rw [fault] at answer
      cases answer
    | after =>
      rw [fault] at answer
      cases answer
  rw [unmoved]
  refine Keeps.orFail_bind ?_ (fun _ _ => ⟨there,fun _ ok => by cases ok⟩)
  intro existing found
  cases existing with
  | some outcome =>
    refine ⟨there,?_⟩
    intro other ok
    cases ok
    exact looked outcome found
  | none =>
    have run : ∀ after, Later config k now after → Keeps (order config) k (fun result now =>
        now.requests.get? posted = some request ∧
          ∀ outcome, result = .ok outcome → now.executed.get? transaction.digest = some outcome)
        (do
          let executed : Except Unit Outcome ←
            .perform (Op.executeTransaction request.jobId transaction.transactionBytes)
          .orFail id executed) after := by
      intro after more
      refine calls ?_
      intro later again _
      have known : later.requests.get? posted = some request :=
        again.requests posted request (more.requests posted request there)
      refine ⟨⟨posted,request,transaction,known,rfl,register,digest⟩,fun c _ => ?_⟩
      have still : (serve config later k (.executeTransaction request.jobId transaction.transactionBytes) c).1.requests =
          later.requests := by
        simp only [serve]
        split <;> rfl
      refine Keeps.orFail ?_ ?_
      · intro outcome answer
        refine ⟨still ▸ known,?_⟩
        intro other ok
        cases ok
        rw [digest]
        simp only [serve] at answer ⊢
        split at answer
        · rename_i executed fault
          cases answer
          exact executed
        · cases answer
        · cases answer
      · intro _ _
        exact ⟨still ▸ known,fun _ ok => by cases ok⟩
    refine Keeps.bind (Q:=fun _ later => Later config k now later) consistent
      (keeps_asking (fun _ _ more held => Later.trans held more) (ensureNotExpired_only _) (.refl k now)) ?_ ?_
    · intro _ after _ more
      exact run after more
    · intro _ after _ more
      exact ⟨more.requests posted request there,fun _ ok => by cases ok⟩

theorem validated {prepared validated : PreparedRegisterTransaction} {walletAddress : Address}
    (valid : validatePreparedRegisterTransaction config prepared walletAddress = .ok validated) :
    validated = prepared ∧ prepared.digest = config.digestFromBytes prepared.transactionBytes := by
  simp only [validatePreparedRegisterTransaction,bind_ok,ensure_ok,pure_ok] at valid
  obtain ⟨_,digest,_,_,_,_,_,_,same⟩ := valid
  exact ⟨same.symm,digest.symm⟩

theorem keeps_encoded {blobId : BlobId} {nonce : Nat} (resume : request.resumeStep = some (.encoded blobId nonce))
    (sent : s.requests.get? posted = some request) {signer walletAddress : Address} (inv : Consistent config s) :
    Keeps (order config) k (Answers config request) (resumeEncoded config request signer walletAddress) s := by
  refine Keeps.bind inv keeps_encode ?_ (fun _ now _ _ => .failed now)
  intro encoded now consistent known
  obtain ⟨number,same⟩ := known.2 encoded rfl
  subst same
  have there : now.requests.get? posted = some request := known.1.requests posted request sent
  cases register : request.registerTransaction with
  | some prepared =>
    refine Keeps.orFail_bind ?_ (fun _ _ => .failed now)
    intro accepted valid
    obtain ⟨rfl,digest⟩ := validated valid
    refine Keeps.bind consistent (keeps_execute there register digest) ?_ (fun _ now _ _ => .failed now)
    intro outcome after sound executed
    refine Keeps.orFail_bind ?_ (fun _ _ => .failed after)
    intro blobObjectId object
    have created : Created after accepted.digest blobObjectId :=
      ⟨outcome,executed.2 outcome rfl,by simpa using object⟩
    refine asks (fun now _ => .failed now) ?_
    intro _ later more _ response ok
    cases ok
    simp only [Fits,resume,WriteBlobStep.blobObjectId,register]
    exact ⟨blobObjectId,Created.stays more.toGrows created,rfl⟩
  | none =>
    refine Keeps.orFail_bind ?_ (fun _ _ => .failed now)
    intro _ _
    refine Keeps.bind (Q:=fun _ _ => True) consistent
      (keeps_asking (fun _ _ _ held => held) (prepareRegisterTransaction_only config signer) trivial) ?_
      (fun _ now _ _ => .failed now)
    intro transaction after _ _
    refine asks (fun now _ => .failed now) ?_
    intro identity later _ _ response ok
    cases ok
    simp only [Fits,resume,WriteBlobStep.blobObjectId,register]
    exact ⟨number,transaction,trivial,rfl,rfl⟩

-- A step that has an object is answered by a step for the same blob and object.
theorem fits_step {step next : WriteBlobStep} {blobObjectId : ObjectId} (resume : request.resumeStep = some step)
    (object : step.blobObjectId = some blobObjectId) (blob : next.blobId = step.blobId)
    (same : next.blobObjectId = some blobObjectId) : Fits config s request (stepAnswer next) := by
  simp only [Fits,resume,object]
  exact ⟨next,rfl,blob,same⟩

theorem keeps_certifiedStep {blobId : BlobId} {blobObjectId : ObjectId} :
    Keeps (order config) k (fun result _ => ∀ step, result = .ok (some step) → step = .certified blobId blobObjectId)
      (certifiedStep blobId blobObjectId) s := by
  refine asks (fun _ _ _ ok => by cases ok) ?_
  intro epoch now _ _ step ok
  by_cases zero : epoch = 0
  · rw [if_pos zero] at ok
    cases ok
  · rw [if_neg zero] at ok
    cases ok
    rfl

theorem keeps_registered {blobId : BlobId} {blobObjectId : ObjectId} {digest : Digest} (inv : Consistent config s)
    (resume : request.resumeStep = some (.registered blobId blobObjectId digest)) :
    Keeps (order config) k (Answers config request)
      (resumeRegistered config request.data blobId blobObjectId digest) s := by
  refine Keeps.bind inv keeps_certifiedStep ?_ (fun _ now _ _ => .failed now)
  intro already now consistent known
  cases already with
  | some step =>
    intro response ok
    cases ok
    rw [known step rfl]
    exact fits_step resume rfl rfl rfl
  | none =>
    refine Keeps.bind consistent keeps_encode ?_ (fun _ now _ _ => .failed now)
    intro _ after _ _
    refine asks (fun now _ => .failed now) ?_
    intro number later _ _ response ok
    cases ok
    exact fits_step resume rfl (config.sdk.sameBlob _ _ _ _)
      (congrArg some (config.sdk.sameObject blobId blobObjectId digest number))

theorem keeps_uploaded {blobId : BlobId} {blobObjectId : ObjectId} {certificate : Nat} (inv : Consistent config s)
    (resume : request.resumeStep = some (.uploaded blobId blobObjectId certificate)) :
    Keeps (order config) k (Answers config request) (resumeUploaded blobId blobObjectId) s := by
  refine Keeps.bind inv keeps_certifiedStep ?_ (fun _ now _ _ => .failed now)
  intro already now consistent known
  cases already with
  | some step =>
    intro response ok
    cases ok
    rw [known step rfl]
    exact fits_step resume rfl rfl rfl
  | none =>
    refine asks (fun now _ => .failed now) ?_
    intro _ after _ sound
    refine Keeps.bind sound keeps_certifiedStep ?_ (fun _ now _ _ => .failed now)
    intro certified later _ known
    refine Keeps.orFail_bind ?_ (fun _ _ => .failed later)
    intro step required response ok
    cases ok
    rw [known step (congrArg Except.ok (require_ok.mp required))]
    exact fits_step resume rfl rfl rfl

theorem keeps_uploadStep (sent : s.requests.get? posted = some request) (inv : Consistent config s) :
    Keeps (order config) k (Answers config request) (uploadStep config request) s := by
  refine Keeps.orFail_bind (fun _ _ => ?_) (fun _ _ => .failed s)
  refine Keeps.orFail_bind (fun signer _ => ?_) (fun _ _ => .failed s)
  refine Keeps.orFail_bind (fun _ _ => ?_) (fun _ _ => .failed s)
  refine Keeps.bind (Q:=fun _ now => Later config k s now) inv
    (keeps_asking (fun _ _ more held => Later.trans held more) (checkExecutionIdentity_only _) (.refl k s)) ?_
    (fun _ now _ _ => .failed now)
  intro _ now _ since
  refine asks (fun now _ => .failed now) ?_
  intro _ after more consistent
  refine Keeps.orFail_bind (fun _ _ => ?_) (fun _ _ => .failed after)
  have there : after.requests.get? posted = some request :=
    more.requests posted request (since.requests posted request sent)
  cases resume : request.resumeStep with
  | none =>
    refine Keeps.bind consistent keeps_encode ?_ (fun _ now _ _ => .failed now)
    intro step later _ known response ok
    cases ok
    obtain ⟨nonce,same⟩ := known.2 step rfl
    simp only [Fits,resume]
    exact ⟨nonce,by rw [same]⟩
  | some step =>
    cases step with
    | encoded blobId nonce => exact keeps_encoded resume there consistent
    | registered blobId blobObjectId digest => exact keeps_registered consistent resume
    | uploaded blobId blobObjectId certificate => exact keeps_uploaded consistent resume
    | certified blobId blobObjectId =>
      intro response ok
      cases ok
      exact fits_step resume rfl rfl rfl

end Handler

-- A request is never forgotten.
theorem served_requests {id : Nat} {request : DurableUploadRequest} {op : Op} {c : Choice} (inv : Consistent config s)
    (sent : s.requests.get? id = some request) :
    (serve config s k op c).1.requests.get? id = some request := by
  have faulty : ∀ {α : Type} (fault : Fault) (next : System) (answer : α), next.requests = s.requests →
      (s.faulty fault next answer).1.requests.get? id = some request := by
    intro α fault next answer same
    cases fault with
    | none => exact same ▸ sent
    | before => exact sent
    | after => exact same ▸ sent
  cases op with
  | post other =>
    simp only [serve]
    rw [Store.get?_insert]
    · split
      · rename_i same
        have below := (inv.requests id request sent).1
        rw [same] at below
        exact absurd below (Nat.lt_irrefl _)
      · exact sent
    · cases present : s.requests.get? s.nextId with
      | none => rfl
      | some again => exact absurd (inv.requests _ again present).1 (Nat.lt_irrefl _)
  | findByKey => exact faulty _ _ _ rfl
  | update => exact faulty _ _ _ rfl
  | claimPreparation => exact faulty _ _ _ rfl
  | claimPaidRecovery => exact faulty _ _ _ rfl
  | pushBulk => exact faulty _ _ _ rfl
  | sealEncrypt => exact faulty _ _ _ rfl
  | getTransaction => exact faulty _ _ _ rfl
  | probe => exact faulty _ _ _ rfl
  | insert job row =>
    simp only [serve]
    split
    · exact sent
    · split <;> exact faulty _ _ _ rfl
  | fetchBulk => exact sent
  | acknowledgeBulk => exact sent
  | spawn => exact sent
  | takeTask => exact sent
  | accept => exact sent
  | respond => exact sent
  | nextIndex => exact sent
  | newUuid => exact sent
  | setMetadataBatch =>
    simp only [serve]
    split <;> exact sent
  | select =>
    simp only [serve]
    split <;> exact sent
  | tryAcquire =>
    simp only [serve]
    split
    · split <;> exact sent
    · exact sent
  | release =>
    simp only [serve]
    split <;> exact sent
  | push =>
    simp only [serve]
    split <;> exact sent
  | fetch =>
    simp only [serve]
    split <;> exact sent
  | acknowledge =>
    simp only [serve]
    split <;> exact sent
  | insertVector =>
    simp only [serve]
    split
    · exact sent
    · split <;> exact sent
  | receive =>
    simp only [serve]
    split <;> exact sent
  | take =>
    simp only [serve]
    split <;> exact sent
  | executeTransaction =>
    simp only [serve]
    split <;> exact sent

theorem keeps_sidecarHandler (config : Config) (posted : Nat) (s : System) :
    Keeps (order config) k (fun _ _ => True) (sidecarHandler config posted) s := by
  refine calls ?_
  intro now _ _
  refine ⟨trivial,fun c inv => ?_⟩
  cases received : (serve config now k (.take posted) c).2 with
  | none => trivial
  | some request =>
    have sent : (serve config now k (.take posted) c).1.requests.get? posted = some request := by
      simp only [serve] at received ⊢
      split at received
      · cases received
      · rename_i open_
        rw [if_neg open_]
        exact received
    have step : Keeps (order config) k (fun result now => Answers config request result now ∧
        now.requests.get? posted = some request) (uploadStep config request) (serve config now k (.take posted) c).1 :=
      .remember (fun _ _ since held => since.requests posted request held) (fun _ _ _ inv held => served_requests inv held)
        (keeps_uploadStep sent inv) sent
    refine Keeps.bind inv (Keeps.attempt step) ?_ (fun _ _ _ _ => trivial)
    intro result after _ known later since _
    obtain ⟨inner,same,answers,there⟩ := known
    cases same
    refine ⟨?_,fun _ _ => trivial⟩
    intro response some_
    refine ⟨request,since.requests posted request there,?_⟩
    cases result with
    | error _ => cases some_
    | ok answer =>
      cases some_
      exact Fits.stays since.toGrows (answers response rfl)

end MemWal.Remember
