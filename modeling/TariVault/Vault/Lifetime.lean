import TariVault.Vault.Alone

namespace TariVault

open Program VaultM TariVault.System

/-! # Requested lifetimes

Three limits meet in the expiry of a record: what fits a signed number of seconds,
what a duration can hold, and what the calendar reaches. Only the first is checked.
-/

variable {aead : Aead} {machine : Machine} {state : VaultState} {secs : UInt64} {proof : PlaintextProof}
  {ciphertext : Bytes}

/-- `Duration::seconds` holds this many seconds. -/
def durationMax : Nat := 9223372036854775807 / 1000

/-- The expiry at a clock value, if the arithmetic does not panic. -/
def expiryAt? (now : DateTime) (secs : UInt64) : Option DateTime :=
  (Duration.seconds? secs.toNat).bind now.add?

def InReach (now : DateTime) (secs : UInt64) : Prop :=
  secs.toNat ≤ durationMax ∧ now.nanos + secs.toNat * nanosPerSecond < yearNanos 262143

theorem expiryAt?_eq_some {now expiry : DateTime} (computed : expiryAt? now secs = some expiry) :
    expiry.nanos = now.nanos + secs.toNat * nanosPerSecond := by
  obtain ⟨duration, lasts, added⟩ := Option.bind_eq_some_iff.mp computed
  unfold Duration.seconds? at lasts
  split at lasts <;> cases lasts
  exact DateTime.ofNanos?_eq_some.mp added

theorem expiryAt?_isSome_iff {now : DateTime} : (expiryAt? now secs).isSome ↔ InReach now secs := by
  have lasts : (-(9223372036854775807 / 1000) ≤ (secs.toNat : Int) ∧
      (secs.toNat : Int) ≤ 9223372036854775807 / 1000) ↔ secs.toNat ≤ durationMax := by
    unfold durationMax
    omega
  unfold expiryAt? Duration.seconds?
  by_cases fits : secs.toNat ≤ durationMax
  · have later : (0 : Int) ≤ secs.toNat * nanosPerSecond := Int.mul_nonneg (by omega) (by decide)
    have above := now.lower
    have reaches : (yearNanos (-262143) ≤ now.nanos + secs.toNat * nanosPerSecond ∧
        now.nanos + secs.toNat * nanosPerSecond < yearNanos 262143) ↔
          now.nanos + secs.toNat * nanosPerSecond < yearNanos 262143 :=
      and_iff_right (above.trans (le_add_of_nonneg_right later))
    rw [if_pos (lasts.mpr fits), Option.bind_some, DateTime.add?, DateTime.isSome_ofNanos?, reaches,
      InReach, and_iff_right fits]
  · rw [if_neg (fun fits' => fits (lasts.mp fits')), InReach]
    exact iff_of_false (by simp) fun reach => fits reach.1

theorem expiryAfter_run (machine : Machine) (state : VaultState) (small : ¬ i64Max < secs.toNat) :
    (expiryAfter (A := BackendOp.Answer) (some secs)).run.run (VaultState.respond machine) state =
      (expiryAt? state.clock secs).map fun expiry => (.ok (some expiry), state) := by
  have read : state.respond machine .now = some (state.clock, state) := rfl
  unfold expiryAfter
  simp only [small, if_false, run_host_bind, Host.now, perform_bind]
  rw [run_step read]
  unfold expiryAt?
  cases Duration.seconds? secs.toNat with
  | none => rfl
  | some duration =>
      simp only [Option.bind_some]
      cases state.clock.add? duration <;> rfl

/-- How a store call with a requested lifetime may end: it refuses the lifetime and
leaves the storage as it was, or it hands the backend a record that expires exactly
so many seconds after the clock, and reports what the backend answers. -/
inductive StoreOutcome (machine : Machine) (state : VaultState) (secs : UInt64) :
    Except VaultError Reply → VaultState → Prop where
  | refused {after} (message : String) (unchanged : after.records = state.records) :
      StoreOutcome machine state secs (.error (.invalidParameter message)) after
  | stored {after record expiry} (expires : record.expiresAt = some expiry)
      (exact : expiry.nanos = state.clock.nanos + secs.toNat * nanosPerSecond)
      (healthy : machine.fault (.insert machine.recordId record) = none)
      (written : after.records = state.records.insert machine.recordId record) :
      StoreOutcome machine state secs
        (.ok (.claimId (ClaimId.encode ⟨machine.recordId, machine.key⟩))) after
  | failed {after record} (error : StorageError)
      (faulty : machine.fault (.insert machine.recordId record) = some error)
      (unchanged : after.records = state.records) :
      StoreOutcome machine state secs (.error (.storage error)) after

/-- The store call comes to an end of that kind. -/
def StoresTotally (aead : Aead) (machine : Machine) (state : VaultState) (proof : PlaintextProof)
    (secs : UInt64) : Prop :=
  ∃ result after, ((VaultCall.storeProof proof (some secs)).code aead).run
      (VaultState.respond machine) state = some (result, after) ∧
    StoreOutcome machine state secs result after

/-- The record that a store call builds. -/
def Machine.record (machine : Machine) (state : VaultState) (ciphertext : Bytes) (expiry : DateTime) :
    StoredRecord :=
  ⟨⟨machine.nonce.bytes, ciphertext⟩, state.clock, some expiry⟩

def VaultState.drew (state : VaultState) (recordId : RecordId) : VaultState :=
  { state with drawn := recordId :: state.drawn }

/-- What the store call does after its parameters are found good. -/
theorem storeProof_run (encrypted : aead.encrypt machine.key machine.nonce proof.data = some ciphertext)
    (fresh : machine.recordId ∉ state.drawn) (positive : secs ≠ 0) (small : ¬ i64Max < secs.toNat) :
    ((VaultCall.storeProof proof (some secs)).code aead).run (VaultState.respond machine) state =
      (expiryAt? state.clock secs).map fun expiry =>
        match machine.fault (.insert machine.recordId (machine.record state ciphertext expiry)) with
        | some error => (.error (.storage error), state.drew machine.recordId)
        | none => (.ok (.claimId (ClaimId.encode ⟨machine.recordId, machine.key⟩)),
            { state.drew machine.recordId with
              records := state.records.insert machine.recordId
                (machine.record state ciphertext expiry) }) := by
  have drewKey : state.respond machine .generateKey = some (machine.key, state) := rfl
  have drewNonce : state.respond machine .generateNonce = some (machine.nonce, state) := rfl
  have drewId : state.respond machine .newV4 = some (machine.recordId, state.drew machine.recordId) := by
    simp only [VaultState.respond, if_neg fresh, VaultState.drew]
  have notZero : ¬ some secs = some 0 := fun same => positive (Option.some.inj same)
  simp only [VaultCall.code, VaultCall.program, run_map, StandardVault.storeProof, notZero, if_false,
    run_host_bind, Host.generateKey, Host.generateNonce, perform_bind]
  rw [run_step drewKey, run_step drewNonce, encrypted]
  simp only [run_host_bind, Host.newV4, perform_bind]
  rw [run_step drewId, ExceptT.run_bind, run_bind, expiryAfter_run machine _ small]
  have sameClock : (state.drew machine.recordId).clock = state.clock := rfl
  rw [sameClock]
  cases expiryAt? state.clock secs with
  | none => rfl
  | some expiry =>
      simp only [Option.map_some, Option.bind_some, run_host_bind, run_attempt_bind, Host.now,
        atomicBackend_insert, perform_bind]
      have read : (state.drew machine.recordId).respond machine .now =
          some (state.clock, state.drew machine.recordId) := rfl
      rw [run_step read]
      have built : (⟨⟨machine.nonce.bytes, ciphertext⟩, state.clock, some expiry⟩ : StoredRecord) =
          machine.record state ciphertext expiry := rfl
      rw [built]
      cases faulty : machine.fault (.insert machine.recordId (machine.record state ciphertext expiry)) with
      | some error =>
          have answered : (state.drew machine.recordId).respond machine
              (.storage (.insert machine.recordId (machine.record state ciphertext expiry))) =
                some (.error error, state.drew machine.recordId) := by
            simp only [VaultState.respond, faulty, BackendOp.failure]
          rw [run_step answered]
          rfl
      | none =>
          have answered : (state.drew machine.recordId).respond machine
              (.storage (.insert machine.recordId (machine.record state ciphertext expiry))) =
                some (.ok (), { state.drew machine.recordId with
                  records := state.records.insert machine.recordId
                    (machine.record state ciphertext expiry) }) := by
            simp only [VaultState.respond, faulty, Contents.apply, VaultState.drew]
          rw [run_step answered]
          rfl

/-- A lifetime that does not fit a signed number of seconds is refused, and so is a
lifetime of no seconds. -/
theorem storeProof_refuses (encrypted : aead.encrypt machine.key machine.nonce proof.data = some ciphertext)
    (fresh : machine.recordId ∉ state.drawn) (invalid : secs = 0 ∨ i64Max < secs.toNat) :
    ∃ message after, ((VaultCall.storeProof proof (some secs)).code aead).run
        (VaultState.respond machine) state = some (.error (.invalidParameter message), after) ∧
      after.records = state.records := by
  by_cases zero : secs = 0
  · subst zero
    exact ⟨_, state, rfl, rfl⟩
  · have large : i64Max < secs.toNat := invalid.resolve_left zero
    have notZero : ¬ some secs = some 0 := fun same => zero (Option.some.inj same)
    have drewKey : state.respond machine .generateKey = some (machine.key, state) := rfl
    have drewNonce : state.respond machine .generateNonce = some (machine.nonce, state) := rfl
    have drewId : state.respond machine .newV4 =
        some (machine.recordId, state.drew machine.recordId) := by
      simp only [VaultState.respond, if_neg fresh, VaultState.drew]
    refine ⟨"expires_in_secs value is too large", state.drew machine.recordId, ?_, rfl⟩
    simp only [VaultCall.code, VaultCall.program, run_map, StandardVault.storeProof, notZero, if_false,
      run_host_bind, Host.generateKey, Host.generateNonce, perform_bind]
    rw [run_step drewKey, run_step drewNonce, encrypted]
    simp only [run_host_bind, Host.newV4, perform_bind]
    rw [run_step drewId]
    simp only [expiryAfter, large, if_true]
    rfl

/-- A store call with a requested lifetime, of a payload that can be encrypted, comes
to an end without panicking if and only if the lifetime is refused or is in reach. -/
theorem lifetime_total_iff (aead : Aead) (machine : Machine) (state : VaultState) (proof : PlaintextProof)
    (secs : UInt64)
    (encrypted : ∃ ciphertext, aead.encrypt machine.key machine.nonce proof.data = some ciphertext)
    (fresh : machine.recordId ∉ state.drawn) :
    StoresTotally aead machine state proof secs ↔
      secs = 0 ∨ i64Max < secs.toNat ∨ InReach state.clock secs := by
  obtain ⟨ciphertext, encrypted⟩ := encrypted
  by_cases invalid : secs = 0 ∨ i64Max < secs.toNat
  · obtain ⟨message, after, ran, unchanged⟩ := @storeProof_refuses aead machine state secs proof
      ciphertext encrypted fresh invalid
    exact iff_of_true ⟨_, after, ran, .refused message unchanged⟩ (invalid.imp_right .inl)
  · obtain ⟨positive, small⟩ := not_or.mp invalid
    have ran := @storeProof_run aead machine state secs proof ciphertext encrypted fresh positive small
    rw [or_iff_right positive, or_iff_right small, ← expiryAt?_isSome_iff, StoresTotally, ran]
    cases computed : expiryAt? state.clock secs with
    | none => simp
    | some expiry =>
        refine iff_of_true ?_ rfl
        have exact := expiryAt?_eq_some computed
        cases faulty : machine.fault (.insert machine.recordId (machine.record state ciphertext expiry)) with
        | some error =>
            exact ⟨_, state.drew machine.recordId, by rw [Option.map_some, faulty], .failed error faulty rfl⟩
        | none =>
            exact ⟨_, _, by rw [Option.map_some, faulty], .stored rfl exact faulty rfl⟩

theorem lifetime_total_one_second :
    StoresTotally .keyed ⟨.replicate 32 1, .replicate 12 0, .replicate 16 0, fun _ => none⟩
      (.initial .epoch) ⟨[7]⟩ 1 :=
  (lifetime_total_iff .keyed ⟨.replicate 32 1, .replicate 12 0, .replicate 16 0, fun _ => none⟩
    (.initial .epoch) ⟨[7]⟩ 1 ⟨_, rfl⟩ List.not_mem_nil).mpr (.inr (.inr ⟨by decide, by decide⟩))

/-- The largest number of seconds that passes the check panics in
`Duration::seconds`, and 300000 years panic in the addition. -/
theorem lifetime_panics :
    (∃ events next, Leads ((VaultCall.storeProof ⟨[7]⟩ (some 9223372036854775807)).code .keyed) events
      (.step (.panic "TimeDelta::seconds out of bounds") next)) ∧
    (∃ events next, Leads ((VaultCall.storeProof ⟨[7]⟩ (some 9467280000000)).code .keyed) events
      (.step (.panic "`DateTime + TimeDelta` overflowed") next)) ∧
    ¬ StoresTotally .keyed ⟨.replicate 32 1, .replicate 12 0, .replicate 16 0, fun _ => none⟩
      (.initial .epoch) ⟨[7]⟩ 9223372036854775807 := by
  refine ⟨⟨[⟨.generateKey, .replicate 32 1⟩, ⟨.generateNonce, .replicate 12 0⟩,
      ⟨.newV4, .replicate 16 0⟩, ⟨.now, .epoch⟩], _, .step (.step (.step (.step (.refl _))))⟩,
    ⟨[⟨.generateKey, .replicate 32 1⟩, ⟨.generateNonce, .replicate 12 0⟩,
      ⟨.newV4, .replicate 16 0⟩, ⟨.now, .epoch⟩], _, .step (.step (.step (.step (.refl _))))⟩, ?_⟩
  intro holds
  obtain ⟨result, after, ran, _⟩ := holds
  have stuck : ((VaultCall.storeProof ⟨[7]⟩ (some 9223372036854775807)).code .keyed).run
      (VaultState.respond ⟨.replicate 32 1, .replicate 12 0, .replicate 16 0, fun _ => none⟩)
      (.initial .epoch) = none := rfl
  rw [stuck] at ran
  contradiction

end TariVault
