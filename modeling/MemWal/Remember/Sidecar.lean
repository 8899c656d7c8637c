import MemWal.Remember.Service

namespace MemWal.Remember
open Library Library.Fallible

-- A handler that throws, or that answers with an error status, fails.
abbrev Handler (α : Type) : Type := Program Op Op.Answer Unit α

def ask (what : Probe) : Handler Nat := do
  let answered : Except Unit Nat ← .perform (Op.probe what)
  .orFail id answered

def encode (config : Config) (data : Ciphertext) : Handler WriteBlobStep := do
  let nonce ← ask .encode
  return .encoded (config.sdk.blobId data) nonce

def certifiedStep (blobId : BlobId) (blobObjectId : ObjectId) : Handler (Option WriteBlobStep) := do
  let epoch ← ask .certified
  return if epoch = 0 then none else some (.certified blobId blobObjectId)

def createdBlobObjectIdFromTransaction (outcome : Outcome) : Option ObjectId :=
  if outcome.success then
    match outcome.createdBlobs with
    | [blobObjectId] => some blobObjectId
    | _ => none
  else none

-- Built for the signer, who also pays the gas.
def prepareRegisterTransaction (config : Config) (signer : Address) : Handler PreparedRegisterTransaction := do
  let content ← ask .buildTransaction
  let maxEpoch ← ask .currentEpoch
  let bytes := ⟨signer,signer,some maxEpoch,content⟩
  return ⟨bytes,signer,config.digestFromBytes bytes⟩

def validatePreparedRegisterTransaction (config : Config) (prepared : PreparedRegisterTransaction)
    (walletAddress : Address) : Except Unit PreparedRegisterTransaction := do
  ensure (config.digestFromBytes prepared.transactionBytes = prepared.digest) ()
  ensure (prepared.transactionBytes.sender = walletAddress) ()
  ensure (prepared.transactionBytes.gasOwner = walletAddress) ()
  ensure (prepared.signature = walletAddress) ()
  return prepared

def ensureNotExpired : Option Nat → Handler Unit
  | none => return ()
  | some maxEpoch => do
    let epoch ← ask .currentEpoch
    .orFail id (ensure (epoch ≤ maxEpoch) ())

def executePreparedRegisterTransaction (job : JobId) (prepared : PreparedRegisterTransaction) : Handler Outcome := do
  let looked : Except Unit (Option Outcome) ← .perform (Op.getTransaction prepared.digest)
  let existing ← .orFail id looked
  match existing with
  | some outcome => return outcome
  | none => do
    ensureNotExpired prepared.transactionBytes.maxEpoch
    let executed : Except Unit Outcome ← .perform (Op.executeTransaction job prepared.transactionBytes)
    .orFail id executed

def stepAnswer (step : WriteBlobStep) : DurableUploadResponse := {step := some step}

def resumeEncoded (config : Config) (request : DurableUploadRequest) (signer walletAddress : Address) :
    Handler DurableUploadResponse := do
  let encoded ← encode config request.data
  match request.registerTransaction with
  | some prepared => do
    let validated ← .orFail id (validatePreparedRegisterTransaction config prepared walletAddress)
    let outcome ← executePreparedRegisterTransaction request.jobId validated
    let blobObjectId ← .orFail id (require (createdBlobObjectIdFromTransaction outcome) ())
    let _ ← ask .registeredBlob
    return stepAnswer (.registered encoded.blobId blobObjectId validated.digest)
  | none => do
    .orFail id (ensure config.directSigningAllowed ())
    let registerTransaction ← prepareRegisterTransaction config signer
    let identity ← ask .executionIdentity
    return {
      resumeStep := some encoded
      registerTransaction := some registerTransaction
      walletAddress := some signer
      uploadExecutionIdentity := some identity}

def resumeRegistered (config : Config) (data : Ciphertext) (blobId : BlobId) (blobObjectId : ObjectId)
    (txDigest : Digest) : Handler DurableUploadResponse := do
  let alreadyCertified ← certifiedStep blobId blobObjectId
  match alreadyCertified with
  | some step => return stepAnswer step
  | none => do
    let _ ← encode config data
    let number ← ask .upload
    let uploaded := config.sdk.uploaded blobId blobObjectId txDigest number
    return stepAnswer (.uploaded uploaded.1 uploaded.2.1 uploaded.2.2)

def resumeUploaded (blobId : BlobId) (blobObjectId : ObjectId) : Handler DurableUploadResponse := do
  let alreadyCertified ← certifiedStep blobId blobObjectId
  match alreadyCertified with
  | some step => return stepAnswer step
  | none => do
    let _ ← ask .certify
    let certified ← certifiedStep blobId blobObjectId
    let step ← .orFail id (require certified ())
    return stepAnswer step

def checkExecutionIdentity : Option Nat → Handler Unit
  | none => return ()
  | some _ => do
    let _ ← ask .executionIdentity
    return ()

-- POST /walrus/upload-step-v3
def uploadStep (config : Config) (request : DurableUploadRequest) : Handler DurableUploadResponse := do
  .orFail id (ensure (request.data ≠ []) ())
  let signer ← .orFail id (require (config.address request.keyIndex) ())
  let walletAddress := request.walletAddress.getD signer
  .orFail id (ensure (request.registerTransaction.isSome → request.resumeStep.any WriteBlobStep.isEncoded) ())
  checkExecutionIdentity request.uploadExecutionIdentity
  let _ ← ask .uploadSlots
  .orFail id (ensure (signer = walletAddress) ())
  match request.resumeStep with
  | none => do
    let step ← encode config request.data
    return stepAnswer step
  | some (.encoded _ _) => resumeEncoded config request signer walletAddress
  | some (.registered blobId blobObjectId txDigest) =>
    resumeRegistered config request.data blobId blobObjectId txDigest
  | some (.uploaded blobId blobObjectId _) => resumeUploaded blobId blobObjectId
  | some (.certified blobId blobObjectId) => return stepAnswer (.certified blobId blobObjectId)

-- The handler goes on when the caller has stopped waiting.
def sidecarHandler (config : Config) (posted : Nat) : Program Op Op.Answer Unit Unit := do
  let received : Option DurableUploadRequest ← .perform (Op.take posted)
  match received with
  | none => return ()
  | some request => do
    let result ← Program.attempt (uploadStep config request)
    .perform (Op.respond posted result.toOption)

end MemWal.Remember
