import TariVault.Symbolic.Observer

namespace TariVault.Symbolic

open Program TariVault.System

/-! # Storage and logs reveal neither key nor payload

All that the observer hears in a run is guarded, call by call and step by step, when
the keys of the withheld claim strings, and one payload stored under them, are hidden.
-/

variable {accepts : Message → Bool} {observer : Observer} {keys : Set EncryptionKey} {data : Bytes}
  {config last : Config (symbolicSystem accepts)} {label : Label (symbolicSystem accepts)} {clock : DateTime}
  {labels : List (Label (symbolicSystem accepts))}

/-- What a call may return: guarded errors always, and guarded results to those who
tell the observer. -/
def Returns (observer : Observer) (keys : Set EncryptionKey) (data : Bytes) (tid : Nat) :
    Except VaultFailure Reply → Prop :=
  Outcome
    (fun reply => (tid ∈ observer.calls → reply.message.Guards (hidden keys data)) ∧
      (tid ∈ observer.given → ∀ token, reply = .claim token → token.Guards (hidden keys data)))
    fun failure => failure.message.Guards (hidden keys data)

/-- A call of another client whose result the observer is not given. -/
def Withheld (observer : Observer) (tid : Nat) : Prop := tid ∉ observer.calls ∧ tid ∉ observer.given

/-- The program of a call from here on. Withheld calls draw hidden keys, the others draw
other keys. -/
def Continues (observer : Observer) (keys : Set EncryptionKey) (data : Bytes) (tid : Nat)
    (program : Program (HostOp Request) (HostOp.Answer Request.Answer) (Except VaultFailure Reply)) : Prop :=
  program.Keeps (Sends keys data) (Receives keys data fun key => key ∈ keys ↔ Withheld observer tid)
    (Returns observer keys data tid)

def SealedContents.Guards (keys : Set EncryptionKey) (data : Bytes) (contents : SealedContents) : Prop :=
  ∀ (recordId : RecordId) (record : SealedRecord), contents[recordId]? = some record →
    record.message.Guards (hidden keys data)

structure Careful (observer : Observer) (keys : Set EncryptionKey) (data : Bytes)
    (config : Config (symbolicSystem accepts)) : Prop where
  sent : ∀ tid thread, config.threads tid = some thread → ∀ event, thread.Did event → Sends keys data event.op
  stored : SealedContents.Guards keys data config.shared.records
  continues : ∀ tid thread, config.threads tid = some thread → Continues observer keys data tid thread.rest

/-- The hidden keys are those of the withheld calls, and nothing that the observer is
given holds one of them, or the hidden payload. -/
structure Apart (observer : Observer) (keys : Set EncryptionKey) (data : Bytes)
    (config : Config (symbolicSystem accepts)) : Prop where
  unknown : ∀ message ∈ observer.initial, ¬ message.Mentions (hidden keys data)
  payloads : ∀ tid thread proof expiresInSecs, config.threads tid = some thread → tid ∉ observer.calls →
    tid ∈ observer.given → thread.call = .storeProof proof expiresInSecs → ¬ proof.Mentions (hidden keys data)
  drew : ∀ tid thread key, config.threads tid = some thread → thread.Did ⟨.generateKey, key⟩ →
    (key ∈ keys ↔ Withheld observer tid)

theorem Apart.before (apart : Apart observer keys data last) (step : Step config label last) :
    Apart observer keys data config := by
  refine { apart with payloads := ?_, drew := ?_ }
  · intro tid thread proof expiresInSecs found another given stores
    obtain ⟨later, _, found', sameCall, _, _⟩ := step.thread_stable found
    exact apart.payloads tid later proof expiresInSecs found' another given (sameCall.trans stores)
  · intro tid thread key found did
    obtain ⟨later, _, found', _, _, _⟩ := step.thread_stable found
    exact apart.drew tid later key found' (step.past_subset found found' did)

theorem Careful.heard (careful : Careful observer keys data config)
    (unknown : ∀ message ∈ observer.initial, ¬ message.Mentions (hidden keys data)) :
    ∀ message ∈ observer.knowledge config, message.Guards (hidden keys data) := by
  intro message heard
  cases heard with
  | text value => exact text_guards value
  | initial known => exact Term.guards_of_not_mentions (unknown _ known)
  | outgoing found did => exact careful.sent _ _ found _ did
  | error found returned =>
      have continues := careful.continues _ _ found
      rw [returned] at continues
      exact continues.result
  | own mine found returned =>
      have continues := careful.continues _ _ found
      rw [returned] at continues
      exact continues.result.1 mine
  | given gift found returned =>
      have continues := careful.continues _ _ found
      rw [returned] at continues
      exact continues.result.2 gift _ rfl

/-- A call begins carefully when the observer makes it with guarded terms, or another
client makes it. -/
theorem Apart.begins (apart : Apart observer keys data last) {tid : Nat}
    {thread : Thread (symbolicSystem accepts)} (found : last.threads tid = some thread)
    (own : tid ∈ observer.calls → thread.call.message.Guards (hidden keys data)) :
    Continues observer keys data tid (thread.call.code accepts) := by
  by_cases stores : ∃ proof expiresInSecs, thread.call = .storeProof proof expiresInSecs
  · obtain ⟨proof, expiresInSecs, stores⟩ := stores
    by_cases withheld : Withheld observer tid
    · rw [stores]
      have hides : ∀ key, (key ∈ keys ↔ Withheld observer tid) → key ∈ keys := fun key drawn => drawn.mpr withheld
      refine (store_errorGuarded accepts proof expiresInSecs hides).weaken fun result returned => ?_
      cases result with
      | ok reply => exact ⟨fun mine => absurd mine withheld.1, fun gift => absurd gift withheld.2⟩
      | error failure => exact returned
    -- The observer hears the result.
    refine told withheld ?_
    by_cases mine : tid ∈ observer.calls
    · exact own mine
    · have given : tid ∈ observer.given := by_contra fun kept => withheld ⟨mine, kept⟩
      have unmentioned := apart.payloads tid thread proof expiresInSecs found mine given stores
      exact stores ▸ Term.guards_of_not_mentions unmentioned
  by_cases mine : tid ∈ observer.calls
  · exact told (fun withheld => withheld.1 mine) (own mine)
  · refine (code_errorGuarded accepts fun proof expiresInSecs same => stores ⟨proof, expiresInSecs, same⟩).weaken
      fun result returned => ?_
    cases result with
    | ok reply => exact ⟨fun own => absurd own mine, fun _ token same => absurd same (returned token)⟩
    | error failure => exact returned
where
  told (heard : ¬ Withheld observer tid) (guarded : thread.call.message.Guards (hidden keys data)) :
      Continues observer keys data tid (thread.call.code accepts) := by
    have fresh : ∀ key, (key ∈ keys ↔ Withheld observer tid) → key ∉ keys :=
      fun key drawn isHidden => heard (drawn.mp isHidden)
    refine (code_guarded accepts guarded fresh).weaken fun result returned => ?_
    cases result with
    | ok reply =>
        refine ⟨fun _ => returned, ?_⟩
        intro _ token equal
        subst equal
        exact returned
    | error failure => exact returned

theorem SealedContents.Guards.apply {contents : SealedContents} (guards : SealedContents.Guards keys data contents)
    (now : DateTime) {request : Request} (sends : request.message.Guards (hidden keys data)) :
    SealedContents.Guards keys data (SealedContents.apply now request contents).2 := by
  intro recordId record found
  cases request with
  | insert inserted fresh =>
      rw [SealedContents.apply, Std.ExtTreeMap.getElem?_insert] at found
      split at found
      · cases found
        exact sends.2
      · exact guards recordId record found
  | fetch _ => exact guards recordId record found
  | delete _ =>
      rw [SealedContents.apply, Std.ExtTreeMap.getElem?_erase] at found
      split at found
      · contradiction
      · exact guards recordId record found
  | deleteExpired =>
      rw [SealedContents.apply, SealedContents.sweep, Std.ExtTreeMap.getElem?_filter'] at found
      exact guards recordId record (Option.eq_some_of_filter_eq_some found)
  | log _ => exact guards recordId record found

/-- What an operation is answered is guarded, and so is what the backend holds
afterwards. -/
theorem SymbolicAct.guards {state state' : SymbolicState} {event : Event (HostOp.Answer Request.Answer)}
    {draws : EncryptionKey → Prop} (act : SymbolicAct state event state')
    (stored : SealedContents.Guards keys data state.records) (sends : Sends keys data event.op)
    (drawn : ∀ key, event = ⟨.generateKey, key⟩ → draws key)
    (fails : ∀ request answer failure, event = ⟨.storage request, answer⟩ →
      failureOf request answer = some failure → failure.message.Guards (hidden keys data)) :
    Receives keys data draws event ∧ SealedContents.Guards keys data state'.records := by
  cases act with
  | generateKey key => exact ⟨drawn key rfl, stored⟩
  | perform request shown =>
      refine ⟨⟨fun failure => fails request _ failure rfl, ?_⟩, stored.apply _ sends⟩
      cases request with
      | fetch recordId =>
          simp only [SealedContents.apply]
          cases found : state.records[recordId]? with
          | none => trivial
          | some record => exact stored recordId record found
      | _ => trivial
  | @fail request answer failure failed =>
      refine ⟨⟨fun failure => fails request answer failure rfl, ?_⟩, stored⟩
      cases request with
      | fetch recordId =>
          cases answer with
          | ok record => contradiction
          | error failure => trivial
      | _ => trivial
  | _ => exact ⟨trivial, stored⟩

/-- An answer that is allowed is as it should be. -/
theorem Careful.received (careful : Careful observer keys data config) (apart : Apart observer keys data last)
    {tid : Nat} {event : Event (HostOp.Answer Request.Answer)} (allowed : Allowed observer config (.act tid event))
    (step : Step config (.act tid event) last) :
    Receives keys data (fun key => key ∈ keys ↔ Withheld observer tid) event ∧
      SealedContents.Guards keys data last.shared.records := by
  have heard := careful.heard apart.unknown
  cases step with
  | @act _ call past op next answer shared running performed =>
      refine performed.guards careful.stored (careful.continues tid _ running).head ?_ ?_
      · intro key same
        refine apart.drew tid _ key (Function.update_self ..) ?_
        rw [← same]
        exact List.mem_append_right _ List.mem_cons_self
      · intro request answer failure same failed
        cases same
        exact (allowed failure failed).guards heard

theorem Careful.step (careful : Careful observer keys data config) (apart : Apart observer keys data last)
    (allowed : Allowed observer config label) (step : Step config label last) :
    Careful observer keys data last where
  sent := by
    intro tid thread found event did
    obtain ⟨before, foundBefore, _, old | ⟨_, _, next, head⟩⟩ := step.did found did
    · exact careful.sent tid before foundBefore event old
    · have continues := careful.continues tid before foundBefore
      rw [head] at continues
      exact continues.head
  stored := by
    cases step with
    | invoke free => exact careful.stored
    | act running performed => exact (careful.received apart allowed (.act running performed)).2
    | drift changed =>
        cases changed
        exact careful.stored
  continues := by
    intro tid thread found
    rcases step.thread found with unchanged | ⟨rfl, _, _, code⟩ |
      ⟨before, op, next, answer, rfl, foundBefore, head, _, _, _, rest⟩
    · exact careful.continues tid thread unchanged
    · rw [code]
      exact apart.begins found fun mine => (allowed mine).guards (careful.heard apart.unknown)
    · have continues := careful.continues tid before foundBefore
      rw [head] at continues
      rw [rest]
      exact continues.tail (careful.received apart allowed step).1

/-- The invariant holds along every run at whose end the target is apart. -/
theorem careful_run (run : RunWhere (Allowed observer) (symbolicStart accepts clock) labels last)
    (apart : Apart observer keys data last) : Careful observer keys data last := by
  induction run with
  | refl =>
      refine ⟨nofun, ?_, nofun⟩
      intro recordId record found
      simp [symbolicStart, Config.start, SymbolicState.initial] at found
  | snoc _ allowed step ih => exact (ih (apart.before step)).step apart allowed step

/-- No two calls draw one key, and no key is known from the start. -/
theorem keys_fresh (run : RunWhere (Allowed observer) (symbolicStart accepts clock) labels last) {key : EncryptionKey}
    {tid tid' : Nat} {thread thread' : Thread (symbolicSystem accepts)} (found : last.threads tid = some thread)
    (found' : last.threads tid' = some thread') (did : thread.Did ⟨.generateKey, key⟩)
    (did' : thread'.Did ⟨.generateKey, key⟩) :
    tid = tid' ∧ ∀ message ∈ observer.initial, ¬ message.Mentions {Atom.key key} := by
  induction run generalizing thread thread' with
  | refl => contradiction
  | snoc _ allowed step ih =>
      obtain ⟨before, foundBefore, _, drawn⟩ := step.did found did
      obtain ⟨before', foundBefore', _, drawn'⟩ := step.did found' did'
      rcases drawn with old | ⟨rfl, _, _⟩
      · rcases drawn' with old' | ⟨rfl, _, _⟩
        · exact ih foundBefore foundBefore' old old'
        · exact absurd old (allowed.2 tid before foundBefore)
      · rcases drawn' with old' | ⟨same, _, _⟩
        · exact absurd old' (allowed.2 tid' before' foundBefore')
        · cases same
          exact ⟨rfl, allowed.1⟩

/-- The keys of the calls whose results are withheld from the observer. -/
def withheldKeys (observer : Observer) (config : Config (symbolicSystem accepts)) : Set EncryptionKey :=
  {key | ∃ tid thread, config.threads tid = some thread ∧ Withheld observer tid ∧ thread.Did ⟨.generateKey, key⟩}

/-- In every run of calls by any clients, the observer derives neither the key nor the
payload of a proof that another client stored, when the payload is fresh and the claim
string is withheld from it: itself, and inside of other proofs whose claim strings it is
given. -/
theorem observer_derives_neither (run : RunWhere (Allowed observer) (symbolicStart accepts clock) labels last)
    {tid : Nat} {thread : Thread (symbolicSystem accepts)} (found : last.threads tid = some thread)
    {expiresInSecs : Option UInt64} (stores : thread.call = .storeProof (.atom (.payload data)) expiresInSecs)
    (another : tid ∉ observer.calls) (ungiven : tid ∉ observer.given)
    (unknown : ∀ message ∈ observer.initial, ¬ message.Mentions {Atom.payload data})
    (elsewhere : ∀ other otherThread proof expiresInSecs, last.threads other = some otherThread →
      other ∉ observer.calls → other ∈ observer.given → otherThread.call = .storeProof proof expiresInSecs →
        ¬ proof.Mentions (hidden (withheldKeys observer last) data)) :
    (∀ key, thread.Did ⟨.generateKey, key⟩ → ¬ Derivable (observer.knowledge last) (.atom (.key key))) ∧
      ¬ Derivable (observer.knowledge last) thread.call.message := by
  have apart : Apart observer (withheldKeys observer last) data last := by
    refine ⟨?_, elsewhere, ?_⟩
    · intro message known mentioned
      obtain ⟨atom, ⟨key, ⟨other, otherThread, foundOther, _, drew⟩, rfl⟩ | rfl, mentioned⟩ :=
        Term.mentions_iff.mp mentioned
      · exact (keys_fresh run foundOther foundOther drew drew).2 message known mentioned
      · exact unknown message known mentioned
    · intro other otherThread key foundOther did
      constructor
      · intro holds
        obtain ⟨holder, holderThread, foundHolder, withheld, drew⟩ := holds
        rw [(keys_fresh run foundOther foundHolder did drew).1]
        exact withheld
      · exact fun withheld => ⟨other, otherThread, foundOther, withheld, did⟩
  have heard := (careful_run run apart).heard apart.unknown
  rw [stores]
  refine ⟨fun key drew => not_derivable_of_secret heard (.inl ⟨key, ?_, rfl⟩), not_derivable_of_secret heard (.inr rfl)⟩
  exact ⟨tid, thread, found, ⟨another, ungiven⟩, drew⟩

section Runs

/-- A stored proof, as the backend has it. -/
def sealedProof (claimId : ClaimId) (proof : Message) (storedAt : DateTime) : SealedRecord where
  nonce := .atom (.nonce (.replicate 12 0))
  ciphertext := .enc (.atom (.key claimId.encryptionKey)) (.atom (.nonce (.replicate 12 0))) proof
  storedAt := storedAt
  expiresAt := none

/-- What a store call does after it drew its key. -/
def storing (claimId : ClaimId) (proof : Message) (now : DateTime) : List (Event (HostOp.Answer Request.Answer)) :=
  [⟨.generateNonce, .replicate 12 0⟩, ⟨.newV4, claimId.recordId⟩, ⟨.now, now⟩,
    ⟨.storage (.insert claimId.recordId (sealedProof claimId proof now)), .ok ()⟩,
    ⟨.storage (.log (.pair (text "Proof stored; record_id=") (simple claimId.recordId))), ()⟩]

def storedThread (claimId : ClaimId) (proof : Message) (now : DateTime) : Thread (symbolicSystem fun _ => true) :=
  ⟨.storeProof proof none, ⟨.generateKey, claimId.encryptionKey⟩ :: storing claimId proof now,
    .done (.ok (.claim (encodeClaim claimId)))⟩

variable {first config : Config (symbolicSystem fun _ => true)} {labels : List (Label (symbolicSystem fun _ => true))}

/-- A proof is stored, by the observer or by another client. -/
theorem store_runs (front : RunWhere (Allowed observer) first labels config) (tid : Nat) (claimId : ClaimId)
    (proof : Message) (free : config.threads tid = none)
    (derives : tid ∈ observer.calls → Derivable (observer.knowledge config) proof)
    (unknown : ∀ message ∈ observer.initial, ¬ message.Mentions {Atom.key claimId.encryptionKey})
    (fresh : ∀ other (thread : Thread (symbolicSystem fun _ => true)), config.threads other = some thread →
      ¬ thread.Did ⟨.generateKey, claimId.encryptionKey⟩)
    (shown : config.shared.clock ∈ config.shared.readings) :
    ∃ labels, RunWhere (Allowed observer) first labels
      ⟨{ config.shared with
          records := config.shared.records.insert claimId.recordId (sealedProof claimId proof config.shared.clock) },
        Function.update config.threads tid (some (storedThread claimId proof config.shared.clock))⟩ := by
  let call : Call := .storeProof proof none
  let begun : Config (symbolicSystem fun _ => true) :=
    ⟨config.shared, Function.update config.threads tid (some ⟨call, [], call.code fun _ => true⟩)⟩
  obtain ⟨next, draws, leads⟩ : ∃ next, call.code (fun _ => true) = .step .generateKey next ∧
      Leads (next claimId.encryptionKey) (storing claimId proof config.shared.clock)
        (.done (.ok (.claim (encodeClaim claimId)))) :=
    ⟨_, rfl, .step (.step (.step (.step (.step (.refl _)))))⟩
  have nobody : ∀ other (thread : Thread (symbolicSystem fun _ => true)), begun.threads other = some thread →
      ¬ thread.Did ⟨.generateKey, claimId.encryptionKey⟩ := by
    intro other thread found
    rcases find_update found with ⟨_, rfl⟩ | ⟨_, found⟩
    · exact List.not_mem_nil
    · exact fresh other thread found
  have invoked := front.snoc (show Allowed observer config (.invoke tid call) from derives) (.invoke free)
  have drew := invoked.snoc (show Allowed observer begun (.act tid ⟨.generateKey, claimId.encryptionKey⟩) from
    ⟨unknown, nobody⟩) (.act ((Function.update_self ..).trans (by rw [← draws])) (.generateKey _))
  rw [Function.update_idem] at drew
  have acts : @Acts _ _ (symbolicSystem fun _ => true) tid config.shared
      (storing claimId proof config.shared.clock) _ :=
    .cons (.generateNonce _) (.cons (.newV4 _) (.cons .now (.cons (.perform (.insert claimId.recordId _) shown)
      (.cons (.perform (.log _) shown) .nil))))
  let drawn : Config (symbolicSystem fun _ => true) := ⟨config.shared, Function.update config.threads tid
    (some ⟨call, [⟨.generateKey, claimId.encryptionKey⟩], next claimId.encryptionKey⟩)⟩
  have stored := @RunWhere.perform _ _ _ (Allowed observer) drawn _ _ _ _ _ _ _ (Function.update_self ..) leads acts
    fun config past rest event _ member => by
      simp only [storing, List.mem_cons, List.not_mem_nil, or_false] at member
      rcases member with rfl | rfl | rfl | rfl | rfl
      · trivial
      · trivial
      · trivial
      · exact fun _ impossible => absurd impossible nofun
      · exact fun _ impossible => absurd impossible nofun
  rw [Function.update_idem] at stored
  exact ⟨_, drew.trans stored⟩

section Derives

variable {tid : Nat} {claimId : ClaimId} {proof : Message} {now : DateTime}

theorem derives_record (found : config.threads tid = some (storedThread claimId proof now)) :
    Derivable (observer.knowledge config)
      (.pair (simple claimId.recordId) (sealedProof claimId proof now).message) := by
  have inserted : (storedThread claimId proof now).Did
      ⟨.storage (.insert claimId.recordId (sealedProof claimId proof now)), .ok ()⟩ := by
    simp [Thread.Did, storedThread, storing]
  exact .known (.outgoing found inserted)

theorem derives_own_key (mine : tid ∈ observer.calls)
    (found : config.threads tid = some (storedThread claimId proof now)) :
    Derivable (observer.knowledge config) (.atom (.key claimId.encryptionKey)) := by
  have claim : Derivable (observer.knowledge config) (encodeClaim claimId) := .known (.own mine found rfl)
  exact claim.right

end Derives

def victimClaim : ClaimId := ⟨.replicate 16 0, .replicate 32 1⟩

def observerClaim : ClaimId := ⟨.replicate 16 1, .replicate 32 2⟩

/-- The id of another client's record, which the log reveals, with the observer's own key. -/
def forgedClaim : ClaimId := ⟨victimClaim.recordId, observerClaim.encryptionKey⟩

/-- An observer that starts with nothing, makes calls 1 and 2, and is given some claim
strings. -/
def caller (given : Set Nat) : Observer := ⟨∅, {1, 2}, given⟩

/-- A client and the observer store a proof each. Then the observer uses a claim string
that it made up of the client's record id and its own key, and is refused. -/
theorem forged_claim_refused (given : Set Nat) : ∃ labels last refused,
    RunWhere (Allowed (caller given)) (symbolicStart (fun _ => true) .epoch) labels last ∧
      last.threads 0 = some (storedThread victimClaim (.atom (.payload [7])) .epoch) ∧
      last.threads 1 = some (storedThread observerClaim (text "mine") .epoch) ∧
      last.threads 2 = some refused ∧ refused.call = .retrieveProof (encodeClaim forgedClaim) ∧
      refused.Returned (.error .decryptionFailed) := by
  have unknown (key : EncryptionKey) : ∀ message ∈ (caller given).initial, ¬ message.Mentions {Atom.key key} :=
    fun _ known => absurd known (Set.notMem_empty _)
  obtain ⟨_, first⟩ := store_runs (.refl (symbolicStart (fun _ => true) .epoch)) 0 victimClaim
    (.atom (.payload [7])) rfl (fun mine => absurd mine (by simp [caller])) (unknown _)
    (fun _ _ found => absurd found.symm (Option.some_ne_none _)) List.mem_cons_self
  have fresh : ¬ (storedThread victimClaim (.atom (.payload [7])) .epoch).Did
      ⟨.generateKey, observerClaim.encryptionKey⟩ := by
    intro did
    simp [Thread.Did, storedThread, storing, observerClaim, victimClaim] at did
    revert did
    decide
  obtain ⟨_, second⟩ := store_runs first 1 observerClaim (text "mine") rfl (fun _ => .known (.text "mine"))
    (unknown _) (fun other thread found did => by
      rcases find_update found with ⟨_, rfl⟩ | ⟨_, found⟩
      · exact fresh did
      · exact absurd found.symm (Option.some_ne_none _)) List.mem_cons_self
  let record := sealedProof victimClaim (.atom (.payload [7])) .epoch
  let both : Config (symbolicSystem fun _ => true) :=
    ⟨{ SymbolicState.initial .epoch with
        records := ((∅ : SealedContents).insert victimClaim.recordId record).insert observerClaim.recordId
          (sealedProof observerClaim (text "mine") .epoch) },
      Function.update (Function.update (fun _ => none) 0
        (some (storedThread victimClaim (.atom (.payload [7])) .epoch))) 1
        (some (storedThread observerClaim (text "mine") .epoch))⟩
  have victim : both.threads 0 = some (storedThread victimClaim (.atom (.payload [7])) .epoch) := rfl
  have own : both.threads 1 = some (storedThread observerClaim (text "mine") .epoch) := rfl
  have ownKey : Derivable ((caller given).knowledge both) (.atom (.key observerClaim.encryptionKey)) :=
    derives_own_key (Set.mem_insert 1 _) own
  have forges : Derivable ((caller given).knowledge both) (encodeClaim forgedClaim) :=
    .pair (derives_record victim).left ownKey
  have stored : both.shared.records[forgedClaim.recordId]? = some record := rfl
  have fetches : SymbolicAct both.shared ⟨.storage (.fetch forgedClaim.recordId), .ok record⟩ both.shared := by
    have performed := @SymbolicAct.perform both.shared (.fetch forgedClaim.recordId) .epoch List.mem_cons_self
    simp only [SealedContents.apply, stored] at performed
    exact performed
  have leads : Leads ((Call.retrieveProof (encodeClaim forgedClaim)).code fun _ => true)
      [⟨.storage (.fetch forgedClaim.recordId), .ok record⟩] (.done (.error .decryptionFailed)) :=
    .step (.refl _)
  have third := @RunWhere.alone _ _ (symbolicSystem fun _ => true) (Allowed (caller given)) both 2
    (.retrieveProof (encodeClaim forgedClaim)) _ _ _ rfl leads (.cons fetches .nil) (fun _ => forges)
    fun _ _ _ event _ member => by
      cases List.mem_singleton.mp member
      exact fun _ impossible => by cases impossible
  exact ⟨_, _, _, second.trans third, rfl, rfl, rfl, rfl, rfl⟩

/-- Withheld, the claim string keeps the key and the payload. -/
theorem caller_derives_neither : ∃ labels last refused,
    RunWhere (Allowed (caller ∅)) (symbolicStart (fun _ => true) .epoch) labels last ∧
      last.threads 1 = some (storedThread observerClaim (text "mine") .epoch) ∧
      last.threads 2 = some refused ∧ refused.call = .retrieveProof (encodeClaim forgedClaim) ∧
      refused.Returned (.error .decryptionFailed) ∧
      ¬ Derivable ((caller ∅).knowledge last) (.atom (.key victimClaim.encryptionKey)) ∧
      ¬ Derivable ((caller ∅).knowledge last) (.atom (.payload [7])) := by
  obtain ⟨labels, last, refused, run, victim, own, forged, called, returned⟩ := forged_claim_refused ∅
  have secret := observer_derives_neither run victim rfl (by simp [caller]) (Set.notMem_empty 0)
    (fun _ known => absurd known (Set.notMem_empty _)) fun _ _ _ _ _ _ given => absurd given (Set.notMem_empty _)
  exact ⟨labels, last, refused, run, own, forged, called, returned, secret.1 _ List.mem_cons_self, secret.2⟩

/-- Given, it reveals the payload. -/
example : ∃ labels last, RunWhere (Allowed (caller {0})) (symbolicStart (fun _ => true) .epoch) labels last ∧
    Derivable ((caller {0}).knowledge last) (.atom (.payload [7])) := by
  obtain ⟨labels, last, _, run, victim, _⟩ := forged_claim_refused {0}
  have claim : Derivable ((caller {0}).knowledge last) (encodeClaim victimClaim) := .known (.given rfl victim rfl)
  exact ⟨labels, last, run, .opened claim.right (derives_record victim).right.left.right⟩

end Runs

end TariVault.Symbolic
