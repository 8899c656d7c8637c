import MemWal.Auth.Hints
import MemWal.Library.Separated

namespace MemWal.Auth
open Library Library.Separated Library.Fallible

-- The four texts that a UUID is parsed from.

def hexDigits (text : List Char) : Bool := text.all (fun c => (hexDigit c).isSome)

def hyphenated (text : List Char) : Bool :=
  text.length = 36 && [8,13,18,23].all (fun i => text[i]? = some '-') &&
    text.all (fun c => c = '-' || (hexDigit c).isSome)

def uuidText (text : List Char) : Bool :=
  text.length = 32 && hexDigits text || hyphenated text ||
    "urn:uuid:".toList.isPrefixOf text && hyphenated (text.drop 9) ||
    text.head? = some '{' && text.getLast? = some '}' && hyphenated (text.drop 1).dropLast

-- Nothing else is one for the crate that the middleware asks.
def ReadsUuids (kit : Kit) : Prop := ∀ text, (kit.uuidVersion text).isSome = true → uuidText text.toList = true

-- What the HTTP parser has made sure of: a method is a token, and a target is a
-- path, a query, an asterisk, or an authority, which leaves no path.

def tokenChar (c : Char) : Bool := c.isAlphanum || "!#$%&'*+-.^_|~".toList.contains c || c = Char.ofNat 96

structure SignedRequest.Parsed (request : SignedRequest) : Prop where
  method : request.method.toList.all tokenChar = true
  target : request.pathAndQuery = "" ∨ request.pathAndQuery = "*" ∨ request.pathAndQuery.toList.head? = some '/' ∨
    request.pathAndQuery.toList.head? = some '?'

-- The request gets as far as its signature, which is checked against this message.
structure Checked (kit : Kit) (request : SignedRequest) (message : SignedMessage) : Prop where
  parsed : request.Parsed
  timestamp : request.timestamp = some message.timestamp
  nonce : request.nonce = some message.nonce
  method : message.method = request.method
  target : message.pathAndQuery = request.pathAndQuery
  body : message.body = request.body
  account : message.accountId = request.accountId.getD ""
  seconds : (parseI64 message.timestamp).isSome = true
  uuid : (kit.uuidVersion message.nonce).isSome = true

def SignedMessage.bodyHash (kit : Kit) (message : SignedMessage) : String := hexEncode (kit.sha256.digest message.body)

-- The six texts of a message.
def SignedMessage.fields (kit : Kit) (message : SignedMessage) : List String :=
  [message.timestamp,message.method,message.pathAndQuery,message.bodyHash kit,message.nonce,message.accountId]

-- What a signature is to cover.
def SignedRequest.covered (request : SignedRequest) :
    Option String × String × String × Bytes × Option String × Option AccountId :=
  (request.timestamp,request.method,request.pathAndQuery,request.body,request.nonce,request.accountId)

def SignedMessage.front (message : SignedMessage) : String := message.method ++ "." ++ message.pathAndQuery

-- The target of one message goes on with the hash and the nonce of the other,
-- and the other's account id has the hash, the nonce and the account id of the one.
def Straddles (kit : Kit) (long short : SignedMessage) : Prop :=
  long.timestamp = short.timestamp ∧ ∃ rest : String,
    long.front ++ "." = short.front ++ "." ++ short.bodyHash kit ++ "." ++ short.nonce ++ "." ++ rest ∧
    short.accountId = rest ++ long.bodyHash kit ++ "." ++ long.nonce ++ "." ++ long.accountId

section Formats

theorem parseDigits_plain {digits : List Char} (parsed : (parseDigits digits).isSome = true) :
    ∀ c ∈ digits, c.isDigit = true := by
  cases digits with
  | nil => cases parsed
  | cons head tail =>
    by_cases all : (head :: tail).all Char.isDigit = true
    · exact List.all_eq_true.mp all
    · simp only [parseDigits,if_neg all] at parsed
      cases parsed

theorem digit_plain {c : Char} (digit : c.isDigit = true) : c ≠ '.' := by
  intro same
  subst same
  revert digit
  decide

theorem timestamp_plain {text : String} (parsed : (parseI64 text).isSome = true) : '.' ∉ text.toList := by
  have signed : ∀ {sign : Char} {digits : List Char}, sign ≠ '.' → (parseDigits digits).isSome = true →
      '.' ∉ sign :: digits := by
    intro sign digits other read member
    rcases List.mem_cons.mp member with first | inside
    · exact other first.symm
    · exact digit_plain (parseDigits_plain read _ inside) rfl
  unfold parseI64 at parsed
  simp only at parsed
  split at parsed
  · rename_i digits spelled
    rw [spelled]
    apply signed (by decide)
    cases read : parseDigits digits with
    | none =>
      rw [read] at parsed
      cases parsed
    | some n => rfl
  · rename_i digits spelled
    rw [spelled]
    apply signed (by decide)
    cases read : parseDigits digits with
    | none =>
      rw [read] at parsed
      cases parsed
    | some n => rfl
  · cases read : parseDigits text.toList with
    | none =>
      rw [read] at parsed
      cases parsed
    | some n =>
      intro member
      exact digit_plain (parseDigits_plain (by rw [read]; rfl) _ member) rfl

theorem hexDigit_plain {c : Char} (digit : (hexDigit c).isSome = true) : c ≠ '.' := by
  intro same
  subst same
  revert digit
  decide

theorem hyphenated_plain {text : List Char} (shaped : hyphenated text = true) : text.length = 36 ∧ '.' ∉ text := by
  simp only [hyphenated,Bool.and_eq_true,decide_eq_true_eq] at shaped
  refine ⟨shaped.1.1,?_⟩
  intro member
  have letter := List.all_eq_true.mp shaped.2 _ member
  revert letter
  decide

theorem uuidText_plain {text : List Char} (shaped : uuidText text = true) : text.length ≤ 45 ∧ '.' ∉ text := by
  simp only [uuidText,Bool.or_eq_true,Bool.and_eq_true,decide_eq_true_eq] at shaped
  rcases shaped with ((simple | plain) | urn) | braced
  · refine ⟨by omega,?_⟩
    intro member
    exact hexDigit_plain (List.all_eq_true.mp simple.2 _ member) rfl
  · obtain ⟨length,absent⟩ := hyphenated_plain plain
    exact ⟨by omega,absent⟩
  · obtain ⟨rest,rfl⟩ := List.isPrefixOf_iff_prefix.mp urn.1
    have dropped : ("urn:uuid:".toList ++ rest).drop 9 = rest := by
      rw [show 9 = "urn:uuid:".toList.length from by decide,List.drop_left]
    rw [dropped] at urn
    obtain ⟨length,absent⟩ := hyphenated_plain urn.2
    refine ⟨by rw [List.length_append,length]; decide,?_⟩
    intro member
    rcases List.mem_append.mp member with front | inside
    · revert front
      decide
    · exact absent inside
  · obtain ⟨⟨first,last⟩,within⟩ := braced
    cases text with
    | nil => cases first
    | cons c rest =>
      rw [List.drop_one,List.tail_cons] at within
      obtain ⟨length,absent⟩ := hyphenated_plain within
      have some_ : rest ≠ [] := by
        intro none_
        rw [none_] at length
        cases length
      rw [List.getLast?_cons_of_ne_nil some_,List.getLast?_eq_some_getLast some_,Option.some.injEq] at last
      have parts := List.dropLast_append_getLast some_
      rw [last] at parts
      constructor
      · rw [← parts,List.length_cons,List.length_append,length]
        decide
      · intro member
        rw [← parts,Option.some.inj first] at member
        rcases List.mem_cons.mp member with front | later
        · revert front
          decide
        · rcases List.mem_append.mp later with inside | back
          · exact absent inside
          · revert back
            decide

theorem hexLetter_plain : ∀ n, n < 16 → hexLetter n ≠ '.' := by decide

theorem hexEncode_plain (bytes : Bytes) : '.' ∉ (hexEncode bytes).toList := by
  rw [hexEncode_letters]
  intro member
  obtain ⟨b,_,letter⟩ := List.mem_flatMap.mp member
  rcases List.mem_cons.mp letter with high | rest
  · exact hexLetter_plain _ (nibbles b).1 high.symm
  · exact hexLetter_plain _ (nibbles b).2 (List.mem_singleton.mp rest).symm

end Formats

section Messages
variable {kit : Kit} {request other : SignedRequest} {m n : SignedMessage}

theorem token_plain {text : String} (token : text.toList.all tokenChar = true) :
    '/' ∉ text.toList ∧ '?' ∉ text.toList := by
  constructor
  · intro member
    have letter := List.all_eq_true.mp token _ member
    revert letter
    decide
  · intro member
    have letter := List.all_eq_true.mp token _ member
    revert letter
    decide

theorem message_letters (kit : Kit) (message : SignedMessage) : (message.text kit).toList =
    message.timestamp.toList ++ '.' :: (message.front.toList ++ '.' :: ((message.bodyHash kit).toList ++ '.' ::
      (message.nonce.toList ++ '.' :: message.accountId.toList))) := by
  have dot : ".".toList = ['.'] := by decide
  simp only [SignedMessage.text,SignedMessage.front,SignedMessage.bodyHash,String.toList_append,dot,List.append_assoc,
    List.nil_append,List.cons_append]

-- A target does not begin with characters of a method.
theorem target_begins {method rest target : List Char} (a : request.Parsed)
    (token : '/' ∉ method ∧ '?' ∉ method) (inside : ∀ c ∈ rest, c ∈ method) :
    request.pathAndQuery.toList ≠ rest ++ '.' :: target := by
  intro spelled
  rcases a.target with none_ | star | slash | query
  · rw [none_] at spelled
    exact List.append_ne_nil_of_right_ne_nil rest (List.cons_ne_nil _ _) spelled.symm
  · have letters : "*".toList = ['*'] := by decide
    rw [star,letters] at spelled
    cases rest with
    | nil => exact absurd (List.cons.inj spelled).1 (by decide)
    | cons c rest => exact List.append_ne_nil_of_right_ne_nil rest (List.cons_ne_nil _ _) (List.cons.inj spelled).2.symm
  · rw [spelled] at slash
    cases rest with
    | nil => exact absurd (Option.some.inj slash) (by decide)
    | cons c rest => exact token.1 (Option.some.inj slash ▸ inside c List.mem_cons_self)
  · rw [spelled] at query
    cases rest with
    | nil => exact absurd (Option.some.inj query) (by decide)
    | cons c rest => exact token.2 (Option.some.inj query ▸ inside c List.mem_cons_self)

theorem front_unique (a : request.Parsed) (b : other.Parsed)
    (same : request.method.toList ++ '.' :: request.pathAndQuery.toList =
      other.method.toList ++ '.' :: other.pathAndQuery.toList) :
    request.method = other.method ∧ request.pathAndQuery = other.pathAndQuery := by
  rcases joined_eq.mp same with equal | longer | longer
  · exact ⟨String.toList_inj.mp equal.1,String.toList_inj.mp equal.2⟩
  · obtain ⟨u,method,target⟩ := longer
    have inside : ∀ c ∈ u, c ∈ other.method.toList := by
      intro c member
      rw [method]
      exact List.mem_append_right _ (List.mem_cons_of_mem _ member)
    exact absurd target (target_begins a (token_plain b.method) inside)
  · obtain ⟨u,method,target⟩ := longer
    have inside : ∀ c ∈ u, c ∈ request.method.toList := by
      intro c member
      rw [method]
      exact List.mem_append_right _ (List.mem_cons_of_mem _ member)
    exact absurd target (target_begins b (token_plain a.method) inside)

-- What stands behind the front is read from its first two separators on.
structure Plain (kit : Kit) (message : SignedMessage) : Prop where
  timestamp : '.' ∉ message.timestamp.toList
  hash : '.' ∉ (message.bodyHash kit).toList
  hashLength : (message.bodyHash kit).toList.length = 64
  nonce : '.' ∉ message.nonce.toList
  nonceLength : message.nonce.toList.length ≤ 45

theorem Checked.plain (uuids : ReadsUuids kit) (checked : Checked kit request m) : Plain kit m := by
  obtain ⟨length,absent⟩ := uuidText_plain (uuids _ checked.uuid)
  refine ⟨timestamp_plain checked.seconds,hexEncode_plain _,?_,absent,length⟩
  rw [SignedMessage.bodyHash,hexEncode_length,kit.sha256.length32]

def SignedMessage.tail (kit : Kit) (message : SignedMessage) : List Char :=
  (message.bodyHash kit).toList ++ '.' :: (message.nonce.toList ++ '.' :: message.accountId.toList)

theorem tail_unique (a : Plain kit m) (b : Plain kit n) : m.tail kit = n.tail kit ↔
    m.bodyHash kit = n.bodyHash kit ∧ m.nonce = n.nonce ∧ m.accountId = n.accountId := by
  rw [SignedMessage.tail,SignedMessage.tail,joined_plain a.hash b.hash,joined_plain a.nonce b.nonce,String.toList_inj,
    String.toList_inj,String.toList_inj]

-- A tail that goes on with a whole other tail has it in its account id.
theorem tail_longer (a : Plain kit m) (b : Plain kit n) (u : List Char) : m.tail kit = u ++ '.' :: n.tail kit ↔
    ∃ rest, u ++ ['.'] = (m.bodyHash kit).toList ++ '.' :: (m.nonce.toList ++ '.' :: rest) ∧
      m.accountId.toList = rest ++ n.tail kit := by
  constructor
  · intro same
    rcases (joined_left a.hash).mp same with equal | longer
    · -- The hash would be followed by a nonce of its length.
      have nonces := (joined_plain a.nonce b.hash).mp equal.2
      have lengths := congrArg List.length nonces.1
      have bound := a.nonceLength
      rw [b.hashLength] at lengths
      omega
    · obtain ⟨v,front,back⟩ := longer
      rcases (joined_left a.nonce).mp back with equal | longer
      · obtain ⟨nonces,accounts⟩ := equal
        exact ⟨[],by rw [front,← nonces,List.append_assoc,List.cons_append],accounts⟩
      · obtain ⟨w,nonce,account⟩ := longer
        refine ⟨w ++ ['.'],?_,by rw [account,List.append_assoc,List.singleton_append]⟩
        rw [front,nonce]
        simp
  · intro parts
    obtain ⟨rest,front,account⟩ := parts
    have joined : u ++ '.' :: n.tail kit = u ++ ['.'] ++ n.tail kit := by
      rw [List.append_assoc,List.singleton_append]
    rw [joined,front,SignedMessage.tail,account]
    simp

theorem straddles_iff : Straddles kit n m ↔ n.timestamp = m.timestamp ∧
    ∃ u, n.front.toList = m.front.toList ++ '.' :: u ∧ ∃ rest,
      u ++ ['.'] = (m.bodyHash kit).toList ++ '.' :: (m.nonce.toList ++ '.' :: rest) ∧
      m.accountId.toList = rest ++ n.tail kit := by
  have dot : ".".toList = ['.'] := by decide
  apply and_congr_right
  intro _
  constructor
  · intro straddles
    obtain ⟨rest,front,account⟩ := straddles
    have fronts := congrArg String.toList front
    have accounts := congrArg String.toList account
    simp only [String.toList_append,dot,List.append_assoc,List.cons_append,List.nil_append] at fronts accounts
    rcases joined_eq.mp fronts with equal | longer | longer
    · exact absurd equal.2.symm (List.append_ne_nil_of_right_ne_nil _ (List.cons_ne_nil _ _))
    · obtain ⟨u,_,back⟩ := longer
      exact absurd back.symm (List.append_ne_nil_of_right_ne_nil _ (List.cons_ne_nil _ _))
    · obtain ⟨u,front,back⟩ := longer
      exact ⟨u,front,rest.toList,back.symm,accounts⟩
  · intro straddles
    obtain ⟨u,front,rest,goes,account⟩ := straddles
    refine ⟨String.ofList rest,?_,?_⟩
    · apply String.toList_inj.mp
      have moved : n.front.toList ++ ['.'] = m.front.toList ++ '.' :: (u ++ ['.']) := by
        rw [front,List.append_assoc,List.cons_append]
      simp only [String.toList_append,dot,String.toList_ofList,List.append_assoc,List.cons_append,List.nil_append,moved,goes]
    · apply String.toList_inj.mp
      simp only [String.toList_append,dot,String.toList_ofList,List.append_assoc,List.cons_append,List.nil_append,account,
        SignedMessage.tail]

theorem text_eq_iff (a : Plain kit m) (b : Plain kit n) : m.text kit = n.text kit ↔
    (m.timestamp = n.timestamp ∧ m.front = n.front ∧ m.tail kit = n.tail kit) ∨ Straddles kit m n ∨ Straddles kit n m := by
  rw [straddles_iff,straddles_iff,← String.toList_inj,message_letters,message_letters,joined_plain a.timestamp b.timestamp]
  change _ ∧ m.front.toList ++ '.' :: m.tail kit = n.front.toList ++ '.' :: n.tail kit ↔ _
  rw [joined_eq,String.toList_inj,String.toList_inj]
  constructor
  · intro same
    obtain ⟨times,equal | longer | longer⟩ := same
    · exact .inl ⟨times,equal⟩
    · obtain ⟨u,front,tail⟩ := longer
      exact .inr (.inr ⟨times.symm,u,front,(tail_longer a b u).mp tail⟩)
    · obtain ⟨u,front,tail⟩ := longer
      exact .inr (.inl ⟨times,u,front,(tail_longer b a u).mp tail⟩)
  · intro same
    rcases same with equal | longer | longer
    · exact ⟨equal.1,.inl equal.2⟩
    · obtain ⟨times,u,front,parts⟩ := longer
      exact ⟨times,.inr (.inr ⟨u,front,(tail_longer b a u).mpr parts⟩)⟩
    · obtain ⟨times,u,front,parts⟩ := longer
      exact ⟨times.symm,.inr (.inl ⟨u,front,(tail_longer a b u).mpr parts⟩)⟩

theorem straddles_apart (straddles : Straddles kit n m) : n.front ≠ m.front := by
  intro same
  obtain ⟨_,u,front,_⟩ := straddles_iff.mp straddles
  have lengths := congrArg List.length front
  rw [same,List.length_append,List.length_cons] at lengths
  omega

-- A straddled account id has a separator in it.
theorem straddles_dotted (straddles : Straddles kit n m) : '.' ∈ m.accountId.toList := by
  obtain ⟨_,_,_,rest,_,account⟩ := straddles_iff.mp straddles
  rw [account,SignedMessage.tail]
  exact List.mem_append_right _ (List.mem_append_right _ List.mem_cons_self)

theorem Checked.front_unique {kit : Kit} (a : Checked kit request m) (b : Checked kit other n) (same : m.front = n.front) :
    m.method = n.method ∧ m.pathAndQuery = n.pathAndQuery := by
  have dot : ".".toList = ['.'] := by decide
  have letters := congrArg String.toList same
  simp only [SignedMessage.front,String.toList_append,dot,List.append_assoc,List.singleton_append,a.method,a.target,b.method,
    b.target] at letters
  rw [a.method,a.target,b.method,b.target]
  exact Auth.front_unique a.parsed b.parsed letters

theorem text_fields (uuids : ReadsUuids kit) (a : Checked kit request m) (b : Checked kit other n) :
    m.text kit = n.text kit ↔ m.fields kit = n.fields kit ∨ Straddles kit m n ∨ Straddles kit n m := by
  rw [text_eq_iff (a.plain uuids) (b.plain uuids),tail_unique (a.plain uuids) (b.plain uuids)]
  apply or_congr_left
  simp only [SignedMessage.fields,List.cons.injEq,and_true]
  constructor
  · intro same
    obtain ⟨times,front,tail⟩ := same
    obtain ⟨method,target⟩ := a.front_unique b front
    exact ⟨times,method,target,tail⟩
  · intro same
    obtain ⟨times,method,target,tail⟩ := same
    exact ⟨times,by rw [SignedMessage.front,SignedMessage.front,method,target],tail⟩

theorem fields_apart (same : m.fields kit = n.fields kit) : ¬ (Straddles kit m n ∨ Straddles kit n m) := by
  simp only [SignedMessage.fields,List.cons.injEq,and_true] at same
  have fronts : m.front = n.front := by rw [SignedMessage.front,SignedMessage.front,same.2.1,same.2.2.1]
  intro straddles
  rcases straddles with left | right
  · exact straddles_apart left fronts
  · exact straddles_apart right fronts.symm

end Messages

-- Of two requests that are alike but for this, one has an empty account header and
-- the other has none.
def BlankAccount (first second : SignedRequest) : Prop :=
  {first with accountId := none}.covered = {second with accountId := none}.covered ∧
    (first.accountId = none ∧ second.accountId = some "" ∨ first.accountId = some "" ∧ second.accountId = none)

section Requests
variable {kit : Kit} {first second : SignedRequest} {m n : SignedMessage}

theorem covered_fields (a : Checked kit first m) (b : Checked kit second n)
    (alike : {first with accountId := none}.covered = {second with accountId := none}.covered)
    (accounts : first.accountId.getD "" = second.accountId.getD "") : m.fields kit = n.fields kit := by
  simp only [SignedRequest.covered,Prod.mk.injEq,and_true] at alike
  obtain ⟨times,methods,targets,bodies,nonces⟩ := alike
  rw [a.timestamp,b.timestamp,Option.some.injEq] at times
  rw [a.nonce,b.nonce,Option.some.injEq] at nonces
  simp only [SignedMessage.fields,SignedMessage.bodyHash,a.method,b.method,a.target,b.target,a.body,b.body,a.account,b.account,
    times,methods,targets,bodies,nonces,accounts]

theorem fields_covered (a : Checked kit first m) (b : Checked kit second n) (free : kit.sha256.CollisionFree [m.body,n.body])
    (same : m.fields kit = n.fields kit) (header : ¬ BlankAccount first second) : first.covered = second.covered := by
  simp only [SignedMessage.fields,List.cons.injEq,and_true] at same
  obtain ⟨times,methods,targets,hashes,nonces,accounts⟩ := same
  have bodies : m.body = n.body :=
    free _ List.mem_cons_self _ (List.mem_cons_of_mem _ List.mem_cons_self) (hexEncode_injective hashes)
  rw [a.method,b.method] at methods
  rw [a.target,b.target] at targets
  rw [a.body,b.body] at bodies
  rw [a.account,b.account] at accounts
  have alike : {first with accountId := none}.covered = {second with accountId := none}.covered := by
    simp only [SignedRequest.covered,a.timestamp,b.timestamp,a.nonce,b.nonce,times,methods,targets,bodies,nonces]
  have headers : first.accountId = second.accountId := by
    cases one : first.accountId with
    | none =>
      cases two : second.accountId with
      | none => rfl
      | some account =>
        rw [one,two] at accounts
        have empty : some account = some "" := congrArg some accounts.symm
        exact absurd ⟨alike,.inl ⟨one,two.trans empty⟩⟩ header
    | some account =>
      cases two : second.accountId with
      | none =>
        rw [one,two] at accounts
        have empty : some account = some "" := congrArg some accounts
        exact absurd ⟨alike,.inr ⟨one.trans empty,two⟩⟩ header
      | some account' =>
        rw [one,two] at accounts
        exact congrArg some accounts
  simp only [SignedRequest.covered,a.timestamp,b.timestamp,a.nonce,b.nonce,times,methods,targets,bodies,nonces,headers]

end Requests

-- Two requests with one message are one request exactly when neither account id
-- has the end of the other message in it, and when an empty account header is
-- not taken for none.
theorem canonical_message_iff (kit : Kit) (uuids : ReadsUuids kit) (first second : SignedRequest) (m n : SignedMessage)
    (a : Checked kit first m) (b : Checked kit second n) :
    ((m.text kit = n.text kit → m.fields kit = n.fields kit) ↔ ¬ Straddles kit m n ∧ ¬ Straddles kit n m) ∧
    (kit.sha256.CollisionFree [m.body,n.body] →
      ((m.text kit = n.text kit → first.covered = second.covered) ↔
        ¬ Straddles kit m n ∧ ¬ Straddles kit n m ∧ ¬ BlankAccount first second)) := by
  have texts := text_fields uuids a b
  constructor
  · rw [texts]
    constructor
    · intro unique
      constructor
      · intro straddles
        exact fields_apart (unique (.inr (.inl straddles))) (.inl straddles)
      · intro straddles
        exact fields_apart (unique (.inr (.inr straddles))) (.inr straddles)
    · intro clear same
      rcases same with fields | left | right
      · exact fields
      · exact absurd left clear.1
      · exact absurd right clear.2
  · intro free
    rw [texts]
    have accounts : ∀ {first second : SignedRequest}, first.covered = second.covered → first.accountId = second.accountId :=
      fun same => congrArg (fun covered => covered.2.2.2.2.2) same
    have others : first.covered = second.covered → {first with accountId := none}.covered = {second with accountId := none}.covered :=
      fun same => congrArg (fun c => (c.1,c.2.1,c.2.2.1,c.2.2.2.1,c.2.2.2.2.1,(none : Option AccountId))) same
    have whole : first.covered = second.covered → m.fields kit = n.fields kit :=
      fun same => covered_fields a b (others same) (by rw [accounts same])
    constructor
    · intro unique
      refine ⟨?_,?_,?_⟩
      · intro straddles
        exact fields_apart (whole (unique (.inr (.inl straddles)))) (.inl straddles)
      · intro straddles
        exact fields_apart (whole (unique (.inr (.inr straddles)))) (.inr straddles)
      · intro blank
        have texts : first.accountId.getD "" = second.accountId.getD "" := by
          rcases blank.2 with headers | headers
          · rw [headers.1,headers.2]
            rfl
          · rw [headers.1,headers.2]
            rfl
        have headers := accounts (unique (.inl (covered_fields a b blank.1 texts)))
        rcases blank.2 with differ | differ
        · rw [differ.1,differ.2] at headers
          cases headers
        · rw [differ.1,differ.2] at headers
          cases headers
    · intro clear same
      rcases same with fields | left | right
      · exact fields_covered a b free fields clear.2.2
      · exact absurd left clear.1
      · exact absurd right clear.2.1

section Spliced

-- A kit that takes the documented UUID texts.
def readingKit : Kit := {sampleKit with uuidVersion := fun text => if uuidText text.toList then some 4 else none}

theorem readingKit_uuids : ReadsUuids readingKit := by
  intro text found
  simp only [readingKit] at found
  split at found
  · assumption
  · cases found

def otherNonce : String := "9b2f6c1e-0d4a-4c3b-8e57-6f1a2b3c4d5e"

def zeroHash : String := "0000000000000000000000000000000000000000000000000000000000000000"

def recalled (target nonce accountId : String) : SignedRequest :=
  {replayed with nonce := some nonce, pathAndQuery := target, accountId := some accountId}

def recalledMessage (target nonce accountId : String) : SignedMessage := ⟨"1000","POST",target,[],nonce,accountId⟩

theorem recalled_checked {target nonce accountId : String} (path : target.toList.head? = some '/')
    (uuid : uuidText nonce.toList = true) :
    Checked readingKit (recalled target nonce accountId) (recalledMessage target nonce accountId) where
  parsed := ⟨show "POST".toList.all tokenChar = true by decide,.inr (.inr (.inl path))⟩
  timestamp := rfl
  nonce := rfl
  method := rfl
  target := rfl
  body := rfl
  account := rfl
  seconds := show (parseI64 "1000").isSome = true by decide
  uuid := by simp [readingKit,recalledMessage,uuid]

-- The account hint of the first request spells the end of the second one's
-- message, whose query goes on with the hash and the nonce of the first.
theorem one_message_two_requests :
    ¬ ∀ (kit : Kit) (first second : SignedRequest) (m n : SignedMessage), ReadsUuids kit → Checked kit first m →
      Checked kit second n → kit.sha256.CollisionFree [m.body,n.body] → m.text kit = n.text kit →
      m.fields kit = n.fields kit := by
  intro unique
  have hash : hexEncode (List.replicate 32 0) = zeroHash := by decide +kernel
  have splicing := @recalled_checked "/api/recall?a=1" sampleNonce (zeroHash ++ "." ++ otherNonce ++ ".0xb") (by decide)
    (by decide +kernel)
  have spliced := @recalled_checked ("/api/recall?a=1" ++ "." ++ zeroHash ++ "." ++ sampleNonce) otherNonce "0xb"
    (by decide +kernel) (by decide +kernel)
  have free : readingKit.sha256.CollisionFree [[],[]] := by
    intro x left y right _
    simp only [List.mem_cons,List.not_mem_nil,or_false,or_self] at left right
    rw [left,right]
  have same := unique _ _ _ _ _ readingKit_uuids splicing spliced free (by
    simp only [SignedMessage.text,recalledMessage,readingKit,sampleKit,hash,String.append_assoc]
    rfl)
  simp only [SignedMessage.fields,List.cons.injEq] at same
  exact absurd same.2.2.1 (by decide +kernel)

end Spliced

-- Requests whose account ids are object ids are told apart.
theorem plain_requests_apart :
    (recalledMessage "/api/recall" sampleNonce "0xa").text readingKit ≠
      (recalledMessage "/api/recall" otherNonce "0xb").text readingKit := by
  have first := @recalled_checked "/api/recall" sampleNonce "0xa" (by decide) (by decide +kernel)
  have second := @recalled_checked "/api/recall" otherNonce "0xb" (by decide) (by decide +kernel)
  intro same
  have fields := (canonical_message_iff readingKit readingKit_uuids _ _ _ _ first second).1.mpr
    ⟨fun straddles => absurd (straddles_dotted straddles) (by decide),
      fun straddles => absurd (straddles_dotted straddles) (by decide)⟩ same
  simp only [SignedMessage.fields,List.cons.injEq] at fields
  exact absurd fields.2.2.2.2.1 (by decide +kernel)

end MemWal.Auth
