import TariVault.Vault.Alone
import TariVault.Vault.Schedule

namespace TariVault

open Program VaultM StandardVault VaultEvent Session TariVault.System

/-! # What was stored can be retrieved

Over the file store, until it expires, until its claim string is used and as long
as nobody cancels it, a stored proof is there and is returned byte for byte.
-/

variable {aead : Aead} {supply : Supply} {session session' : Session Contents}

theorem answers_storage {events : List VaultEvent}
    (answers : Answers (respond supply (onContents supply)) session events session')
    (untouched : ∀ event ∈ events, ∀ op, event.op ≠ .storage op) : session'.storage = session.storage := by
  induction answers with
  | nil => rfl
  | @cons session op answer middle events last answered later ih =>
      rw [ih fun event member => untouched event (List.mem_cons_of_mem _ member)]
      have here := untouched _ List.mem_cons_self
      cases op with
      | storage op => exact absurd rfl (here op)
      | panic message => contradiction
      | _ =>
          cases answered
          rfl

theorem answers_drawn {events : List VaultEvent}
    (answers : Answers (respond supply (onContents supply)) session events session') :
    session.drawn <:+ session'.drawn := by
  induction answers with
  | nil => exact List.suffix_refl _
  | cons answered _ ih => exact (respond_drawn answered).trans ih

/-- A store call that succeeds has inserted its record. -/
theorem store_serves {proof : PlaintextProof} {expiresInSecs : Option UInt64} {claimIdStr : String}
    (answered : (Contents.serve aead supply session (.storeProof proof expiresInSecs)).1 =
      some (.ok (.claimId claimIdStr))) :
    ∃ draft : Draft aead proof, claimIdStr = draft.claimId.encode ∧
      (Contents.serve aead supply session (.storeProof proof expiresInSecs)).2.storage =
        session.storage.insert draft.recordId draft.record ∧
      draft.recordId :: session.drawn <:+
        (Contents.serve aead supply session (.storeProof proof expiresInSecs)).2.drawn := by
  obtain ⟨events, leads, answers⟩ := leads_of_exec answered
  obtain ⟨draft, clock, logs, encoded, insertion⟩ := insertion_of_returned leads
  rw [insertion.order] at answers
  refine ⟨draft, encoded, ?_, ?_⟩
  · obtain ⟨before, drafts, finishes⟩ := answers.append_inv
    have drafted := answers_storage drafts (Draft.events_untouched insertion.reading)
    cases finishes with
    | cons inserts logging =>
        have logged := answers_storage logging fun event member op => by
          obtain ⟨line, rfl⟩ := insertion.onlyLogs event member
          simp
        cases inserts
        rw [Contents.serve, logged, ← drafted]
        rfl
  · cases answers with
    | cons drewKey more => cases more with
      | cons drewNonce more => cases more with
        | cons drewId more =>
            obtain ⟨_, rfl⟩ := Prod.mk.inj (Option.some.inj drewKey)
            obtain ⟨_, rfl⟩ := Prod.mk.inj (Option.some.inj drewNonce)
            obtain ⟨sameId, rfl⟩ := Prod.mk.inj (Option.some.inj drewId)
            rw [← sameId]
            exact answers_drawn more

theorem retrieve_serves {claimId : ClaimId} {record : StoredRecord} {nonce : Nonce} {plaintext : Bytes}
    (stored : session.storage[claimId.recordId]? = some record)
    (live : ¬ record.ExpiredAt (supply.now session.taken)) (nonceBytes : nonce.bytes = record.encrypted.nonce)
    (decrypted : aead.decrypt claimId.encryptionKey nonce record.encrypted.ciphertext = some plaintext) :
    ∃ after, Contents.serve aead supply session (.retrieveProof claimId.encode) =
        (some (.ok (.proof ⟨plaintext⟩)), after) ∧
      after.storage = session.storage.erase claimId.recordId := by
  have fetches : respond supply (onContents supply) session (.storage (.fetch claimId.recordId)) =
      some (.ok record, session) := by
    simp [respond, onContents, Contents.apply, stored]
  obtain ⟨clock, middle, reading, read, same⟩ : ∃ clock middle, LiveReading record clock ∧
      Answers (respond supply (onContents supply)) session clock middle ∧
      middle.storage = session.storage := by
    cases expires : record.expiresAt with
    | none => exact ⟨[], session, .never expires, .nil, rfl⟩
    | some expiry =>
        have notPassed : ¬ expiry < supply.now session.taken := fun passed => live ⟨expiry, expires, passed⟩
        exact ⟨_, session.take, .before expires notPassed, .cons rfl .nil, rfl⟩
  obtain ⟨next, line, opens, closes⟩ :=
    retrieve_completes record (ClaimId.decode_encode claimId) reading nonceBytes decrypted
  have completes := opens.trans (.step (closes (middle.storage.contains claimId.recordId)))
  have answers : Answers (respond supply (onContents supply)) session _ _ :=
    .cons fetches (read.append (.cons (rfl : respond supply (onContents supply) middle
      (.storage (.delete claimId.recordId)) = some (.ok _, _))
        (@Answers.cons _ _ _ _ _ (.log line) () _ _ _ rfl .nil)))
  refine ⟨_, exec_of_leads completes answers, ?_⟩
  rw [← same]
  rfl

theorem cleanup_serves : Contents.serve aead supply session .cleanup =
    (some (.ok (.removed (session.storage.due (supply.now session.taken)).size)), { session with
      storage := session.storage.sweep (supply.now session.taken)
      taken := session.taken + 1 }) := by
  let after : Session Contents := { session with
    storage := session.storage.sweep (supply.now session.taken)
    taken := session.taken + 1 }
  obtain ⟨logs, some_, completes⟩ := @cleanup_completes aead (session.storage.due (supply.now session.taken)).size
  have sweeps : respond supply (onContents supply) session (.storage .deleteExpired) =
      some (.ok (session.storage.due (supply.now session.taken)).size, after) := by
    simp only [respond, onContents, Contents.apply_deleteExpired]
    rfl
  have answers : Answers (respond supply (onContents supply)) session
      (swept (.ok (session.storage.due (supply.now session.taken)).size) :: logs) after := by
    rcases some_ with rfl | ⟨line, rfl⟩
    · exact .cons sweeps .nil
    · exact .cons sweeps (.cons (rfl : respond supply (onContents supply) after (.log line) = some ((), after)) .nil)
  exact exec_of_leads completes answers

section Runs

variable {clock : DateTime} {labels labels' : List (Label (vaultSystem aead))}
  {config last : Config (vaultSystem aead)} {exchanges : List Exchange} {recordId : RecordId}
  {record : StoredRecord}

theorem Happened.run {ok : Config (vaultSystem aead) → Label (vaultSystem aead) → Prop} {event : VaultEvent}
    (happened : Happened config event) (run : RunWhere ok config labels last) : Happened last event := by
  induction run with
  | refl => exact happened
  | snoc _ _ step ih => exact ih.step step

/-- A call that ran before an id was drawn has not deleted its record. -/
theorem not_deleted_before (run : Run (vaultStart aead clock) labels config)
    (fresh : recordId ∉ config.shared.drawn) {tid : Nat} {thread : Thread (vaultSystem aead)}
    (found : config.threads tid = some thread) {result : Except StorageError Bool} :
    ¬ thread.Did (deleted recordId result) := by
  intro did
  obtain ⟨record, fetchedIt⟩ := fetched_of_deleted (followed run tid thread found) did
  obtain ⟨tid', thread', found', inserts⟩ := (coherent run).fetched _ _ ⟨tid, thread, found, fetchedIt⟩
  obtain ⟨proof, draft, ttl, front, logs, insertion, rfl, rfl⟩ :=
    insertion_of_mem (followed run tid' thread' found') inserts
  exact fresh ((drawnOnce run).remembered _ ⟨tid', thread', found', insertion.drew⟩)

/-- A retrieval that deleted the record of a store call has answered, and was given
the claim string of that call. -/
theorem retrieval_uses_claim (rejects : aead.RejectsOtherKeys) {proof : PlaintextProof}
    {draft : Draft aead proof} (run : Run (vaultStart aead clock) labels config)
    (happened : Happened config (inserted draft.recordId draft.record (.ok ()))) {tid : Nat}
    {thread : Thread (vaultSystem aead)} (found : config.threads tid = some thread)
    (retrieves : thread.call.Retrieves draft.recordId) {reply : Reply}
    (will : thread.WillReturn (.ok reply)) {outcome : Option (Except VaultError Reply)}
    (halted : Halted outcome thread.rest) :
    outcome = some (.ok reply) ∧ thread.call = .retrieveProof draft.claimId.encode := by
  obtain ⟨claimIdStr, claimId, called, decoded, sameId⟩ := retrieves
  have leads := followed run tid thread found
  rw [called] at leads
  cases outcome with
  | none =>
      obtain ⟨message, next, panics⟩ := halted.panicked rfl
      rw [panics] at leads
      exact (((retrieve_calm claimIdStr).leads leads).2.head).elim
  | some result =>
      have returned := (halted.answered result).mp rfl
      have succeeded : result = .ok reply := will [] result (returned ▸ .refl _)
      subst succeeded
      rw [returned] at leads
      obtain ⟨_, record, nonce, plaintext, _, fetchedIt, _, nonceBytes, decrypted, _⟩ :=
        retrieve_returned decoded leads
      rw [sameId] at fetchedIt
      have sameRecord := inserted_unique (drawnOnce run) (followed run) happened
        ((coherent run).fetched _ _ ⟨tid, thread, found, fetchedIt⟩)
      subst sameRecord
      have sameNonce : nonce = draft.nonce := FixedBytes.ext nonceBytes
      have sameKey : claimId.encryptionKey = draft.key := by
        by_contra different
        have refused := rejects _ _ _ _ _ draft.encrypted different
        rw [← sameNonce] at refused
        exact absurd (refused.symm.trans decrypted) nofun
      have sameClaim : claimId = draft.claimId := by
        obtain ⟨_, _⟩ := claimId
        cases sameId
        cases sameKey
        rfl
      rw [called, ← ClaimId.encode_of_decode decoded, sameClaim]
      exact ⟨rfl, rfl⟩

end Runs

/-- Until it expires, a stored record stays as long as its claim string is not used
with success and no cancellation names it. -/
theorem record_kept (rejects : aead.RejectsOtherKeys) (monotone : Monotone supply.now)
    {start session last : Session Contents} {earlier later : List Exchange} (empty : start.storage = ∅)
    (nothingDrawn : start.drawn = []) (before : Served (Contents.serve aead supply) start earlier session)
    {proof : PlaintextProof} {expiresInSecs : Option UInt64} {draft : Draft aead proof}
    (inserts : (Contents.serve aead supply session (.storeProof proof expiresInSecs)).2.storage =
      session.storage.insert draft.recordId draft.record)
    (draws : draft.recordId :: session.drawn <:+
      (Contents.serve aead supply session (.storeProof proof expiresInSecs)).2.drawn)
    (after : Served (Contents.serve aead supply)
      (Contents.serve aead supply session (.storeProof proof expiresInSecs)).2 later last)
    (fresh : last.drawn.Nodup)
    (unretrieved : ∀ reply, ⟨.retrieveProof draft.claimId.encode, some (.ok reply)⟩ ∉ later)
    (uncancelled : ∀ exchange ∈ later, ¬ exchange.call.Deletes draft.recordId)
    (unexpired : ∀ expiry, draft.record.expiresAt = some expiry → supply.now last.taken < expiry) :
    last.storage[draft.recordId]? = some draft.record := by
  have freshStored : (Contents.serve aead supply session (.storeProof proof expiresInSecs)).2.drawn.Nodup :=
    fresh.sublist after.drawn.sublist
  have freshBefore := freshStored.sublist draws.sublist
  obtain ⟨unseen, freshEarlier⟩ := List.nodup_cons.mp freshBefore
  obtain ⟨_, config₀, run₀, scheduled₀, _⟩ :=
    (@scheduled_start aead supply start nothingDrawn empty).run monotone before freshEarlier
  rw [List.nil_append] at scheduled₀
  obtain ⟨_, config₁, run₁, scheduled₁, kept₁⟩ := scheduled₀.serve monotone
    (.storeProof proof expiresInSecs) freshStored
  obtain ⟨_, config₂, run₂, scheduled₂, kept₂⟩ := scheduled₁.run monotone after fresh
  have whole := (run₀.trans run₁).trans run₂
  have stored₁ : config₁.shared.records[draft.recordId]? = some draft.record := by
    rw [scheduled₁.shows.records, inserts]
    exact Contents.getElem?_insert_self
  have happened : Happened config₂ (inserted draft.recordId draft.record (.ok ())) :=
    ((coherent (run₀.trans run₁)).stored _ _ stored₁).run run₂
  rw [← scheduled₂.shows.records]
  cases present : config₂.shared.records[draft.recordId]? with
  | some other =>
      rw [inserted_unique (drawnOnce whole) (followed whole) happened ((coherent whole).stored _ _ present)]
  | none =>
      exfalso
      obtain ⟨tid, thread, reply, found, claims, did, will⟩ := noneVanished whole _ _ happened present
        fun expiry expires => scheduled₂.shows.clock.trans_lt (unexpired expiry expires)
      rcases lt_trichotomy tid earlier.length with old | rfl | new
      · -- The call ran before the record was there.
        have unchanged : config₂.threads tid = config₀.threads tid := by
          rw [kept₂ tid (by rw [List.length_append]; omega), kept₁ tid (by omega)]
        rw [unchanged] at found
        refine not_deleted_before run₀.run ?_ found did
        rw [scheduled₀.shows.drawn]
        exact unseen
      · obtain ⟨other, found', called, _⟩ := scheduled₂.served earlier.length _ (by
          rw [List.append_assoc, List.getElem?_append_right (le_refl _), Nat.sub_self]
          rfl)
        cases found.symm.trans found'
        rw [called] at claims
        rcases claims with ⟨_, _, impossible, _⟩ | ⟨_, _, impossible, _⟩ <;> contradiction
      · obtain ⟨exchange, here⟩ : ∃ exchange, later[tid - (earlier.length + 1)]? = some exchange := by
          refine ⟨_, List.getElem?_eq_getElem ?_⟩
          by_contra beyond
          have free := scheduled₂.free tid (by
            rw [List.length_append, List.length_append, List.length_singleton]
            omega)
          rw [free] at found
          contradiction
        obtain ⟨other, found', called, halted⟩ := scheduled₂.served tid exchange (by
          rw [List.getElem?_append_right (by rw [List.length_append, List.length_singleton]; omega),
            List.length_append, List.length_singleton]
          exact here)
        cases found.symm.trans found'
        have member := List.mem_of_getElem? here
        rw [called] at claims
        rcases claims with retrieves | deletes
        · rw [← called] at retrieves
          obtain ⟨answered, used⟩ := retrieval_uses_claim rejects whole.run happened found retrieves will halted
          obtain ⟨call, outcome⟩ := exchange
          simp only at called answered
          rw [← called, used, answered] at member
          exact unretrieved reply member
        · exact uncancelled exchange member deletes

section FileStore

variable {serde : Serde} {store : LocalFileStore} {tid : Nat}

/-- The record of a claim string, as the vault file has it. -/
def FileRecord (serde : Serde) (session : Session FileState) (claimIdStr : String) (record : StoredRecord) :
    Prop :=
  ∃ contents claimId, session.storage.Represents serde contents ∧
    ClaimId.decode claimIdStr = .ok claimId ∧ contents[claimId.recordId]? = some record

/-- In every sequential run over a file store, a proof that was stored is returned
exactly, as long as its claim string has not been used with success, no cancellation
names its record, and the stored expiry has not come. -/
theorem stored_then_retrieved (readsBack : serde.ReadsBack) (opens : aead.Opens)
    (rejects : aead.RejectsOtherKeys) (monotone : Monotone supply.now) (hasParent : store.hasParent = true)
    {clock : DateTime} {opened : FileState}
    (created : (LocalFileStore.new serde true).run.run (FileState.respond tid) (.fresh clock) =
      some (.ok (), opened))
    {earlier later : List Exchange} {before stored last : Session FileState}
    (ran : Served (store.serve serde aead supply tid) ⟨opened, 0, []⟩ earlier before)
    {proof : PlaintextProof} {expiresInSecs : Option UInt64} {claimIdStr : String}
    (stores : store.serve serde aead supply tid before (.storeProof proof expiresInSecs) =
      (some (.ok (.claimId claimIdStr)), stored))
    (after : Served (store.serve serde aead supply tid) stored later last) (fresh : last.drawn.Nodup)
    (unretrieved : ∀ reply, ⟨.retrieveProof claimIdStr, some (.ok reply)⟩ ∉ later)
    (uncancelled : ∀ exchange ∈ later, ∀ claimId, ClaimId.decode claimIdStr = .ok claimId →
      ¬ exchange.call.Deletes claimId.recordId)
    (unexpired : ∀ record expiry, FileRecord serde stored claimIdStr record →
      record.expiresAt = some expiry → supply.now last.taken < expiry) :
    (store.serve serde aead supply tid last (.retrieveProof claimIdStr)).1 = some (.ok (.proof proof)) := by
  obtain ⟨opened', created', empty⟩ := LocalFileStore.new_fresh readsBack tid clock
  cases created.symm.trans created'
  have start : Abstracts serde ⟨opened, 0, []⟩ ⟨∅, 0, []⟩ := ⟨empty, rfl, rfl⟩
  obtain ⟨before', ran', abstracts⟩ := Served.agrees readsBack hasParent start ran
  have agrees := @serve_agrees supply tid serde store before before' readsBack hasParent aead
    (.storeProof proof expiresInSecs) abstracts
  rw [stores] at agrees
  obtain ⟨answered, abstractsStored⟩ := agrees
  obtain ⟨draft, rfl, inserts, draws⟩ := store_serves answered.symm
  obtain ⟨last', after', abstractsLast⟩ := Served.agrees readsBack hasParent abstractsStored after
  have alive : ∀ expiry, draft.record.expiresAt = some expiry → supply.now last'.taken < expiry := by
    intro expiry expires
    rw [← abstractsLast.taken]
    refine unexpired draft.record expiry ⟨_, draft.claimId, abstractsStored.represents,
      ClaimId.decode_encode _, ?_⟩ expires
    rw [inserts]
    exact Contents.getElem?_insert_self
  have kept := record_kept rejects monotone rfl rfl ran' inserts draws after' (abstractsLast.drawn ▸ fresh)
    unretrieved (fun exchange member => uncancelled exchange member draft.claimId (ClaimId.decode_encode _)) alive
  obtain ⟨same, _⟩ := @serve_agrees supply tid serde store last last' readsBack hasParent aead
    (.retrieveProof draft.claimId.encode) abstractsLast
  have live : ¬ draft.record.ExpiredAt (supply.now last'.taken) := by
    intro holds
    obtain ⟨expiry, expires, passed⟩ := holds
    exact not_lt_of_gt (alive expiry expires) passed
  obtain ⟨_, retrieved, _⟩ := @retrieve_serves aead supply last' draft.claimId draft.record draft.nonce
    proof.data kept live rfl (opens _ _ _ _ draft.encrypted)
  rw [same, retrieved]

/-- The same key, nonce and id for every draw, and a clock that stands. -/
def Supply.still : Supply where
  now _ := .epoch
  key _ := .replicate 32 1
  nonce _ := .replicate 12 0
  recordId _ := .replicate 16 0

/-- Another key, nonce and id for every draw, and a clock that moves on by 1.5 seconds
once. -/
def Supply.counting : Supply where
  now taken := if taken < 14 then .epoch else ⟨1500000000, by decide, by decide⟩
  key taken := .replicate 32 (UInt8.ofNat taken)
  nonce taken := .replicate 12 (UInt8.ofNat taken)
  recordId taken := .replicate 16 (UInt8.ofNat taken)

theorem Supply.counting_monotone : Monotone Supply.counting.now := by
  intro early late ordered
  simp only [Supply.counting]
  split
  · split
    · exact le_refl _
    · decide
  · rw [if_neg (by omega)]

/-- A proof is stored with a lifetime of a minute, between others. A retrieval with a
wrong key and a sweep that takes another record do not touch it. -/
theorem stored_then_retrieved_amid :
    ∃ opened earlier before stored later last,
      (LocalFileStore.new .concrete true).run.run (FileState.respond 0) (.fresh .epoch) = some (.ok (), opened) ∧
      Served ((LocalFileStore.mk true 0).serve .concrete .keyed .counting 0) ⟨opened, 0, []⟩ earlier before ∧
      earlier.map Exchange.call = [.storeProof ⟨[8]⟩ none] ∧
      (LocalFileStore.mk true 0).serve .concrete .keyed .counting 0 before (.storeProof ⟨[7]⟩ (some 60)) =
        (some (.ok (.claimId (ClaimId.encode ⟨.replicate 16 6, .replicate 32 4⟩))), stored) ∧
      Served ((LocalFileStore.mk true 0).serve .concrete .keyed .counting 0) stored later last ∧
      later.map Exchange.call = [.storeProof ⟨[9]⟩ (some 1),
        .retrieveProof (ClaimId.encode ⟨.replicate 16 6, .replicate 32 5⟩), .cleanup] ∧
      ((LocalFileStore.mk true 0).serve .concrete .keyed .counting 0 last
        (.retrieveProof (ClaimId.encode ⟨.replicate 16 6, .replicate 32 4⟩))).1 = some (.ok (.proof ⟨[7]⟩)) := by
  obtain ⟨opened, created, empty⟩ := LocalFileStore.new_fresh Serde.concrete_readsBack 0 .epoch
  have agrees {low : Session FileState} {high : Session Contents} (call : VaultCall) :=
    @serve_agrees .counting 0 .concrete ⟨true, 0⟩ low high Serde.concrete_readsBack rfl .keyed call
  have start : Abstracts .concrete ⟨opened, 0, []⟩ ⟨∅, 0, []⟩ := ⟨empty, rfl, rfl⟩
  obtain ⟨_, first⟩ := agrees (.storeProof ⟨[8]⟩ none) start
  obtain ⟨answered, second⟩ := agrees (.storeProof ⟨[7]⟩ (some 60)) first
  obtain ⟨_, third⟩ := agrees (.storeProof ⟨[9]⟩ (some 1)) second
  obtain ⟨_, fourth⟩ := agrees (.retrieveProof (ClaimId.encode ⟨.replicate 16 6, .replicate 32 5⟩)) third
  obtain ⟨_, fifth⟩ := agrees .cleanup fourth
  have stores : (LocalFileStore.mk true 0).serve .concrete .keyed .counting 0 _ (.storeProof ⟨[7]⟩ (some 60)) =
      (some (.ok (.claimId (ClaimId.encode ⟨.replicate 16 6, .replicate 32 4⟩))), _) :=
    Prod.ext (answered.trans rfl) rfl
  refine ⟨opened, _, _, _, _, _, created, .snoc .nil _, rfl, stores, .snoc (.snoc (.snoc .nil _) _) _, rfl, ?_⟩
  refine stored_then_retrieved Serde.concrete_readsBack Aead.keyed_opens Aead.keyed_rejectsOtherKeys
    Supply.counting_monotone rfl created (.snoc .nil _) stores (.snoc (.snoc (.snoc .nil _) _) _) ?_ ?_ ?_ ?_
  · rw [fifth.drawn, cleanup_serves]
    decide
  · intro reply member
    have called := List.mem_map_of_mem (f := Exchange.call) member
    simp only [List.map_cons, List.map_nil, List.nil_append, List.cons_append, List.mem_cons, List.not_mem_nil,
      or_false, VaultCall.retrieveProof.injEq, reduceCtorEq, false_or] at called
    have same := congrArg ClaimId.decode called
    rw [ClaimId.decode_encode, ClaimId.decode_encode] at same
    exact absurd same (by decide)
  · intro exchange member claimId _ holds
    obtain ⟨_, _, deletes, _⟩ := holds
    have called := List.mem_map_of_mem (f := Exchange.call) member
    rw [deletes] at called
    simp at called
  · intro record expiry holds expires
    obtain ⟨contents, claimId, represents, decoded, found⟩ := holds
    cases represents.unique second.represents
    rw [ClaimId.decode_encode] at decoded
    cases decoded
    have written : record.expiresAt = some ⟨60000000000, by decide, by decide⟩ := by
      cases found
      rfl
    rw [written] at expires
    cases expires
    simp only [Supply.counting]
    split <;> decide

end FileStore

end TariVault
