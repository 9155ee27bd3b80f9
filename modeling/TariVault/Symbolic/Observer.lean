import TariVault.Program.Interleaving
import TariVault.Storage.Contents
import TariVault.Symbolic.Discretion

namespace TariVault.Symbolic

open Program TariVault.System

/-! # An observer of concurrent calls

The observer sees what is written to the backend, logged and returned as an error. It
makes calls of its own with what it can derive, and is given some claim strings.
-/

abbrev SealedContents := Std.ExtTreeMap RecordId SealedRecord

/-- The predicate with which a sweep at `now` keeps a record. -/
def SealedRecord.retainedAt (now : DateTime) (record : SealedRecord) : Bool :=
  match record.expiresAt with
  | some expiry => decide (now < expiry)
  | none => true

def SealedContents.sweep (now : DateTime) (contents : SealedContents) : SealedContents :=
  contents.filter fun _ record => record.retainedAt now

def SealedContents.apply (now : DateTime) : (request : Request) → SealedContents → request.Answer × SealedContents
  | .insert recordId record, contents => (.ok (), contents.insert recordId record)
  | .fetch recordId, contents =>
      (match contents[recordId]? with
        | some record => .ok record
        | none => .error .notFound, contents)
  | .delete recordId, contents => (.ok (contents.contains recordId), contents.erase recordId)
  | .deleteExpired, contents =>
      (.ok (contents.size - (SealedContents.sweep now contents).size), SealedContents.sweep now contents)
  | .log _, contents => ((), contents)

structure SymbolicState where
  records : SealedContents
  clock : DateTime
  /-- Every value the clock has shown. -/
  readings : List DateTime

def SymbolicState.initial (clock : DateTime) : SymbolicState := { records := ∅, clock, readings := [clock] }

inductive SymbolicAct : SymbolicState → Event (HostOp.Answer Request.Answer) → SymbolicState → Prop where
  | now {state} : SymbolicAct state ⟨.now, state.clock⟩ state
  | generateKey {state} (key : EncryptionKey) : SymbolicAct state ⟨.generateKey, key⟩ state
  | generateNonce {state} (nonce : Nonce) : SymbolicAct state ⟨.generateNonce, nonce⟩ state
  | newV4 {state} (recordId : RecordId) : SymbolicAct state ⟨.newV4, recordId⟩ state
  | log {state} (line : String) : SymbolicAct state ⟨.log line, ()⟩ state
  -- A sweep compares with a clock value it captured earlier.
  | perform {state : SymbolicState} (request : Request) {captured : DateTime} (shown : captured ∈ state.readings) :
      SymbolicAct state ⟨.storage request, (SealedContents.apply captured request state.records).1⟩
        { state with records := (SealedContents.apply captured request state.records).2 }
  | fail {state} {request : Request} {answer : request.Answer} {failure : StorageFailure}
      (failed : failureOf request answer = some failure) : SymbolicAct state ⟨.storage request, answer⟩ state

/-- Any number of calls over one backend, which may fail, and a clock. -/
abbrev symbolicSystem (accepts : Message → Bool) : System (HostOp Request) (HostOp.Answer Request.Answer) where
  Call := Call
  Result := Except VaultFailure Reply
  State := SymbolicState
  Env := DateTime
  code := Call.code accepts
  act _ := SymbolicAct
  drift state clock state' := state' = { state with clock, readings := clock :: state.readings }

abbrev symbolicStart (accepts : Message → Bool) (clock : DateTime) : Config (symbolicSystem accepts) :=
  Config.start (SymbolicState.initial clock)

/-- What the observer knows from the start besides all texts, which calls are its own, and of which
store calls it is given the claim string. -/
structure Observer where
  initial : Set Message
  calls : Set Nat
  given : Set Nat

variable {accepts : Message → Bool}

inductive Heard (observer : Observer) (config : Config (symbolicSystem accepts)) : Message → Prop where
  | text (value : String) : Heard observer config (text value)
  | initial {message} (known : message ∈ observer.initial) : Heard observer config message
  | outgoing {tid : Nat} {thread : Thread (symbolicSystem accepts)} {event} (found : config.threads tid = some thread)
      (did : thread.Did event) : Heard observer config (outgoing event.op)
  | error {tid : Nat} {thread : Thread (symbolicSystem accepts)} {failure : VaultFailure}
      (found : config.threads tid = some thread) (returned : thread.Returned (.error failure)) :
      Heard observer config failure.message
  | own {tid : Nat} {thread : Thread (symbolicSystem accepts)} {reply : Reply} (mine : tid ∈ observer.calls)
      (found : config.threads tid = some thread) (returned : thread.Returned (.ok reply)) :
      Heard observer config reply.message
  | given {tid : Nat} {thread : Thread (symbolicSystem accepts)} {token : Message} (gift : tid ∈ observer.given)
      (found : config.threads tid = some thread) (returned : thread.Returned (.ok (.claim token))) :
      Heard observer config token

def Observer.knowledge (observer : Observer) (config : Config (symbolicSystem accepts)) : Set Message :=
  {message | Heard observer config message}

/-- The observer calls with what it derives, keys are fresh, and the messages of a
failing backend are made of what it was given. -/
def Allowed (observer : Observer) (config : Config (symbolicSystem accepts)) :
    Label (symbolicSystem accepts) → Prop
  | .invoke tid call => tid ∈ observer.calls → Derivable (observer.knowledge config) call.message
  | .act _ ⟨.generateKey, key⟩ => (∀ message ∈ observer.initial, ¬ message.Mentions {Atom.key key}) ∧
      ∀ tid (thread : Thread (symbolicSystem accepts)), config.threads tid = some thread →
        ¬ thread.Did ⟨.generateKey, key⟩
  | .act _ ⟨.storage request, answer⟩ => ∀ failure, failureOf request answer = some failure →
      Derivable (observer.knowledge config) failure.message
  | _ => True

end TariVault.Symbolic
