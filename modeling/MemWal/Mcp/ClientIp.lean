import MemWal.Mcp.Proxy
import Mathlib.Data.List.DropRight

namespace MemWal.Mcp
open Library OAuth

structure SocketAddr (IpAddr : Type) where
  ip : IpAddr
  port : Nat
  deriving DecidableEq, Repr

-- Every line of a header, in order.
def HeaderMap.getAll (headers : HeaderMap) (name : String) : List String :=
  (headers.filter (fun h => decide (toAsciiLowercase h.1 = name))).map Prod.snd

def splitCommas (value : String) : List String := (value.toList.splitOn ',').map String.ofList

-- A line with a byte that is no visible ASCII ends the search.
def forwardedEntries (headers : HeaderMap) : Option (List String) := do
  let values ← (headers.getAll clientIpHeader).mapM toStr
  return values.flatMap (fun value => (splitCommas value).map trim)

def checkedSub (a b : Nat) : Option Nat := if b ≤ a then some (a - b) else none

section Resolution
variable {IpAddr : Type} (parse : String → Option IpAddr)

def canonicalClientIp (headers : HeaderMap) (peer : SocketAddr IpAddr) (trustedProxyHops : Nat) : IpAddr :=
  if trustedProxyHops = 0 then peer.ip
  else
    match forwardedEntries headers with
    | none => peer.ip
    | some forwarded => (do
        let index ← checkedSub forwarded.length trustedProxyHops
        let candidate ← forwarded[index]?
        parse candidate).getD peer.ip

end Resolution

-- The list that the lines of the header make, as it was sent.
def forwardingChain (headers : HeaderMap) : List String := (headers.getAll clientIpHeader).flatMap splitCommas

def Readable (headers : HeaderMap) : Prop := ∀ value ∈ headers.getAll clientIpHeader, visible value = true

-- What an entry stands for, the peer where it is no address.
def resolvedEntry {IpAddr : Type} (parse : String → Option IpAddr) (peer : SocketAddr IpAddr) (entry : String) : IpAddr :=
  (parse (trim entry)).getD peer.ip

section Chains
variable {IpAddr : Type} {parse : String → Option IpAddr} {headers headers' : HeaderMap} {peer : SocketAddr IpAddr}
  {hops : Nat}

theorem forwardedEntries_readable (readable : Readable headers) :
    forwardedEntries headers = some ((forwardingChain headers).map trim) := by
  have read : ∀ values : List String, (∀ value ∈ values, visible value = true) → values.mapM toStr = some values := by
    intro values clean
    induction values with
    | nil => rfl
    | cons value rest ih =>
      have first : toStr value = some value := if_pos (clean value List.mem_cons_self)
      have tail := ih (fun other member => clean other (List.mem_cons_of_mem _ member))
      simp [List.mapM_cons,first,tail]
  rw [forwardedEntries,read _ readable]
  simp [forwardingChain,List.map_flatMap]

theorem forwardedEntries_unreadable (unreadable : ¬ Readable headers) : forwardedEntries headers = none := by
  have unread : ∀ values : List String, ¬ (∀ value ∈ values, visible value = true) → values.mapM toStr = none := by
    intro values dirty
    induction values with
    | nil => exact absurd nofun dirty
    | cons value rest ih =>
      by_cases clean : visible value = true
      · have later : ¬ ∀ other ∈ rest, visible other = true :=
          fun all => dirty (List.forall_mem_cons.mpr ⟨clean,all⟩)
        simp [List.mapM_cons,ih later]
      · have first : toStr value = none := if_neg clean
        simp [List.mapM_cons,first]
  rw [forwardedEntries,unread _ unreadable]
  rfl

theorem canonical_unreadable (unreadable : ¬ Readable headers) : canonicalClientIp parse headers peer hops = peer.ip := by
  rw [canonicalClientIp,forwardedEntries_unreadable unreadable]
  split <;> rfl

-- The trusted entry is the first one of the last `hops`.
theorem canonical_readable {entry : String} {rest : List String} (readable : Readable headers)
    (enough : hops ≤ (forwardingChain headers).length) (last : (forwardingChain headers).rtake hops = entry :: rest) :
    canonicalClientIp parse headers peer hops = resolvedEntry parse peer entry := by
  have trusting : hops ≠ 0 := by
    intro zero
    rw [zero,List.rtake_zero] at last
    cases last
  have found : (forwardingChain headers)[(forwardingChain headers).length - hops]? = some entry := by
    rw [List.rtake] at last
    rw [← List.head?_drop,last]
    rfl
  rw [canonicalClientIp,if_neg trusting,forwardedEntries_readable readable]
  simp only [checkedSub,List.length_map,if_pos enough,Option.bind_eq_bind,Option.bind_some,List.getElem?_map,found,
    Option.map_some]
  rfl

end Chains

-- What the two requests resolve to is the same unless one of them, and not the
-- other, has a byte that is no visible ASCII somewhere in the chain.
theorem client_ip_iff {IpAddr : Type} (parse : String → Option IpAddr) (peer : SocketAddr IpAddr) {hops : Nat}
    {headers headers' : HeaderMap} (enough : hops ≤ (forwardingChain headers).length)
    (enough' : hops ≤ (forwardingChain headers').length)
    (agree : (forwardingChain headers).rtake hops = (forwardingChain headers').rtake hops) :
    (∀ any, canonicalClientIp parse any peer 0 = peer.ip) ∧
    (canonicalClientIp parse headers peer hops = canonicalClientIp parse headers' peer hops ↔
      (Readable headers ↔ Readable headers') ∨
        ∀ entry ∈ ((forwardingChain headers).rtake hops).head?, resolvedEntry parse peer entry = peer.ip) := by
  constructor
  · intro any
    rfl
  · cases last : (forwardingChain headers).rtake hops with
    | nil =>
      have zero : hops = 0 := by
        have length := congrArg List.length last
        simp [List.rtake] at length
        omega
      subst zero
      simp [canonicalClientIp]
    | cons entry rest =>
      have last' := agree.symm.trans last
      simp only [List.head?_cons,Option.mem_def,Option.some.injEq,forall_eq']
      by_cases readable : Readable headers
      · rw [canonical_readable readable enough last]
        by_cases readable' : Readable headers'
        · rw [canonical_readable readable' enough' last']
          simp [readable,readable']
        · rw [canonical_unreadable readable']
          simp [readable,readable']
      · rw [canonical_unreadable readable]
        by_cases readable' : Readable headers'
        · rw [canonical_readable readable' enough' last',eq_comm]
          simp [readable,readable']
        · rw [canonical_unreadable readable']
          simp [readable,readable']

-- Addresses as they are written, of which these requests name one.
def sampleParse (text : String) : Option String := if text = "198.51.100.7" then some text else none

def samplePeer : SocketAddr String := ⟨"10.0.0.5",443⟩

def chainOf (lines : List String) : HeaderMap := lines.map (fun value => ("X-Forwarded-For",value))

theorem prepended_entry_ignored :
    (∀ any, canonicalClientIp sampleParse any samplePeer 0 = samplePeer.ip) ∧
    (canonicalClientIp sampleParse (chainOf ["192.0.2.66,x","198.51.100.7"]) samplePeer 1 =
        canonicalClientIp sampleParse (chainOf ["198.51.100.7"]) samplePeer 1 ↔
      (Readable (chainOf ["192.0.2.66,x","198.51.100.7"]) ↔ Readable (chainOf ["198.51.100.7"])) ∨
        ∀ entry ∈ ((forwardingChain (chainOf ["192.0.2.66,x","198.51.100.7"])).rtake 1).head?,
          resolvedEntry sampleParse samplePeer entry = samplePeer.ip) :=
  client_ip_iff sampleParse samplePeer (by decide +kernel) (by decide +kernel) (by decide +kernel)

-- The byte 0xe9 in front of the client's own entry.
theorem opaque_byte_resolves_to_peer :
    1 ≤ (forwardingChain (chainOf ["é,198.51.100.7"])).length ∧ 1 ≤ (forwardingChain (chainOf ["198.51.100.7"])).length ∧
    (forwardingChain (chainOf ["é,198.51.100.7"])).rtake 1 = (forwardingChain (chainOf ["198.51.100.7"])).rtake 1 ∧
    canonicalClientIp sampleParse (chainOf ["é,198.51.100.7"]) samplePeer 1 ≠
      canonicalClientIp sampleParse (chainOf ["198.51.100.7"]) samplePeer 1 := by
  decide +kernel

end MemWal.Mcp
