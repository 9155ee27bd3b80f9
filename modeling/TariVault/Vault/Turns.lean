import TariVault.Program.Landing
import TariVault.Storage.Sqlite
import TariVault.Vault.Alone

namespace TariVault

open Program VaultEvent TariVault.System

/-! # Calls that take turns

Nothing fails, and a call in its turn is answered as if it were alone. What happens
that way over single operations happens over whatever carries them out.
-/

variable {aead : Aead} {may : DateTime → DateTime → Prop} {first last : Config (vaultSystem aead)}

/-- The years of an inserted record have four digits. -/
def InsertsPlain (event : VaultEvent) : Prop :=
  ∀ recordId record answer, event = ⟨.storage (.insert recordId record), answer⟩ →
    record.storedAt.FourDigits ∧ ∀ expiry, record.expiresAt = some expiry → expiry.FourDigits

/-- Calls are invoked and have their turns, and the clock moves as `may` says. -/
inductive Turns (may : DateTime → DateTime → Prop) (first : Config (vaultSystem aead)) :
    Config (vaultSystem aead) → Prop where
  | refl : Turns may first first
  | invoke {config} (before : Turns may first config) (tid : Nat) (call : VaultCall)
      (free : config.threads tid = none) :
      Turns may first { config with threads := Function.update config.threads tid (some ⟨call, [], call.code aead⟩) }
  | turn {config machine call past rest events final shared} (before : Turns may first config) (tid : Nat)
      (healthy : machine.fault = fun _ => none) (found : config.threads tid = some ⟨call, past, rest⟩)
      (leads : Leads rest events final) (answers : Answers (VaultState.respond machine) config.shared events shared)
      (plain : ∀ event ∈ events, InsertsPlain event) :
      Turns may first ⟨shared, Function.update config.threads tid (some ⟨call, past ++ events, final⟩)⟩
  | tick {config} (before : Turns may first config) (now : DateTime) (moves : may config.shared.clock now)
      (fourDigits : now.FourDigits) :
      Turns may first { config with shared := { config.shared with
        clock := now, readings := now :: config.shared.readings } }

theorem Turns.stay (_turns : Turns may first last) : Turns may last last := .refl

/-- An invocation and a turn in one. -/
theorem Turns.call {config : Config (vaultSystem aead)} {machine : Machine} {events : List VaultEvent}
    {final : VaultProgram (Except VaultError Reply)} {shared : VaultState} (before : Turns may first config) (tid : Nat)
    (call : VaultCall) (free : config.threads tid = none) (healthy : machine.fault = fun _ => none)
    (leads : Leads (call.code aead) events final)
    (answers : Answers (VaultState.respond machine) config.shared events shared)
    (plain : ∀ event ∈ events, InsertsPlain event) :
    Turns may first ⟨shared, Function.update config.threads tid (some ⟨call, events, final⟩)⟩ := by
  have invoked := (before.invoke tid call free).turn tid healthy (Function.update_self ..) leads answers plain
  rwa [Function.update_idem, List.nil_append] at invoked

section Played

variable {Op' : Type} {Answer' : Op' → Type} {real : Realisation (vaultSystem aead) Op' Answer'}
  {home : Nat → VaultCall → real.Call} {ok : real.low.Config → real.low.Label → Prop}
  {resting : real.State → VaultState → Prop}

/-- The same calls are there, each as far as over single operations, and nothing is in
flight. -/
structure Plays (home : Nat → VaultCall → real.Call) (resting : real.State → VaultState → Prop)
    (config : real.low.Config) (config' : Config (vaultSystem aead)) : Prop where
  rests : resting config.shared config'.shared
  absent : ∀ tid, config'.threads tid = none → config.threads tid = none
  present : ∀ tid thread, config'.threads tid = some thread →
    ∃ events, config.threads tid = some ⟨home tid thread.call, events,
      thread.rest.interpret (real.lower (home tid thread.call))⟩

theorem Plays.update {config : real.low.Config} {config' : Config (vaultSystem aead)}
    (plays : Plays home resting config config') {shared : real.State} {shared' : VaultState}
    (rests : resting shared shared') (tid : Nat) (call : VaultCall) (past : List VaultEvent)
    (events : List (Event Answer')) (rest : VaultProgram (Except VaultError Reply)) :
    Plays home resting
      ⟨shared, Function.update config.threads tid
        (some ⟨home tid call, events, rest.interpret (real.lower (home tid call))⟩)⟩
      ⟨shared', Function.update config'.threads tid (some ⟨call, past, rest⟩)⟩ where
  rests := rests
  absent := by
    intro other free
    by_cases same : other = tid
    · subst same
      have busy := (Function.update_self ..).symm.trans free
      contradiction
    · have freeBefore := (Function.update_of_ne same ..).symm.trans free
      exact (Function.update_of_ne same ..).trans (plays.absent other freeBefore)
  present := by
    intro other thread found
    rcases find_update found with ⟨rfl, rfl⟩ | ⟨same, found⟩
    · exact ⟨events, Function.update_self ..⟩
    · obtain ⟨events', found'⟩ := plays.present other thread found
      exact ⟨events', (Function.update_of_ne same ..).trans found'⟩

theorem Plays.returned {config : real.low.Config} {config' : Config (vaultSystem aead)}
    (plays : Plays home resting config config')
    (returned : ∀ tid thread, config'.threads tid = some thread → ∃ result, thread.Returned result) {tid : Nat}
    {thread : real.low.Thread} (found : config.threads tid = some thread) : ∃ result, thread.Returned result := by
  cases there : config'.threads tid with
  | none =>
      rw [plays.absent tid there] at found
      contradiction
  | some counterpart =>
      obtain ⟨_, found'⟩ := plays.present tid counterpart there
      rw [found, Option.some.injEq] at found'
      obtain ⟨result, done⟩ := returned tid counterpart there
      rw [Thread.Returned] at done
      subst found'
      rw [done]
      exact ⟨result, rfl⟩

/-- A storage can take part: its calls can be invoked, their turns taken and the clock
moved. -/
structure TakesTurns (may : DateTime → DateTime → Prop) (home : Nat → VaultCall → real.Call)
    (ok : real.low.Config → real.low.Label → Prop) (resting : real.State → VaultState → Prop) : Prop where
  abstract : ∀ tid call, real.abstract (home tid call) = call
  invokes : ∀ config tid call, ok config (.invoke tid call)
  turn : ∀ {config : real.low.Config} {vault machine tid call past rest events final vault'},
    resting config.shared vault → machine.fault = (fun _ => none) →
    config.threads tid = some ⟨home tid call, past, rest.interpret (real.lower (home tid call))⟩ →
    Leads rest events final → Answers (VaultState.respond machine) vault events vault' →
    (∀ event ∈ events, InsertsPlain event) →
    ∃ labels shared events', RunWhere ok config labels ⟨shared, Function.update config.threads tid
        (some ⟨home tid call, past ++ events', final.interpret (real.lower (home tid call))⟩)⟩ ∧ resting shared vault'
  tick : ∀ {config : real.low.Config} {vault now}, resting config.shared vault → may vault.clock now →
    now.FourDigits → ∃ labels shared, RunWhere ok config labels { config with shared } ∧
      resting shared { vault with clock := now, readings := now :: vault.readings }

/-- Whatever turns calls take over single operations, they can take them there. -/
theorem Turns.played (takes : TakesTurns may home ok resting) {config : real.low.Config}
    (plays : Plays home resting config first) (turns : Turns may first last) :
    ∃ labels config', RunWhere ok config labels config' ∧ Plays home resting config' last := by
  induction turns with
  | refl => exact ⟨[], config, .refl _, plays⟩
  | @invoke middle before tid call free ih =>
      obtain ⟨labels, reached, run, here⟩ := ih
      have code : real.low.code (home tid call) = (call.code aead).interpret (real.lower (home tid call)) := by
        refine (real.code_eq _).trans ?_
        rw [takes.abstract]
      have invoked := run.snoc (takes.invokes _ tid (home tid call)) (.invoke (here.absent tid free))
      rw [code] at invoked
      exact ⟨_, _, invoked, here.update here.rests tid call [] [] _⟩
  | turn before tid healthy found leads answers plain ih =>
      obtain ⟨labels, reached, run, here⟩ := ih
      obtain ⟨events, found'⟩ := here.present _ _ found
      obtain ⟨labels', shared, events', goesOn, rests⟩ :=
        takes.turn here.rests healthy found' leads answers plain
      exact ⟨_, _, run.trans goesOn, here.update rests _ _ _ _ _⟩
  | tick before now moves fourDigits ih =>
      obtain ⟨labels, reached, run, here⟩ := ih
      obtain ⟨labels', shared, ticks, rests⟩ := takes.tick here.rests moves fourDigits
      exact ⟨_, _, run.trans ticks, rests, here.absent, here.present⟩

end Played

theorem insertsPlain_of_ne {event : VaultEvent}
    (other : ∀ recordId record answer, event ≠ ⟨.storage (.insert recordId record), answer⟩) : InsertsPlain event :=
  fun recordId record answer same => absurd same (other recordId record answer)

section Histories

variable {may : DateTime → DateTime → Prop}

/-- A proof is stored, claimed and claimed again, at the epoch and without expiry. -/
theorem claimed_in_turn :
    ∃ middle last : Config (vaultSystem .keyed), ∃ storing claiming missing,
      Turns may (vaultStart .keyed .epoch) middle ∧ Turns may middle last ∧
      middle.threads 0 = some ⟨.storeProof ⟨[7]⟩ none, storing,
        .done (.ok (.claimId (ClaimId.encode ⟨.replicate 16 0, .replicate 32 1⟩)))⟩ ∧
      middle.threads 1 = some ⟨.retrieveProof (ClaimId.encode ⟨.replicate 16 0, .replicate 32 1⟩), claiming,
        .done (.ok (.proof ⟨[7]⟩))⟩ ∧
      middle.threads 2 = none ∧
      last.threads 2 = some ⟨.retrieveProof (ClaimId.encode ⟨.replicate 16 0, .replicate 32 1⟩), missing,
        .done (.error .proofNotFound)⟩ := by
  let machine : Machine := ⟨.replicate 32 1, .replicate 12 0, .replicate 16 0, fun _ => none⟩
  let claimId : ClaimId := ⟨.replicate 16 0, .replicate 32 1⟩
  let record : StoredRecord := ⟨⟨machine.nonce.bytes, machine.key.bytes ++ [7]⟩, .epoch, none⟩
  let stored : VaultState := { VaultState.initial .epoch with
    records := (VaultState.initial .epoch).records.insert machine.recordId record
    drawn := machine.recordId :: (VaultState.initial .epoch).drawn }
  let claimed : VaultState := { stored with records := stored.records.erase claimId.recordId }
  obtain ⟨_, stores, answersStore⟩ := @store_answers .keyed machine (.initial .epoch) ⟨[7]⟩ rfl
    (by simp [VaultState.initial]) _ rfl
  obtain ⟨_, claims, answersClaim⟩ := @retrieve_answers .keyed record machine stored _ claimId rfl
    (ClaimId.decode_encode claimId) Contents.getElem?_insert_self rfl machine.nonce rfl [7]
    (Aead.keyed_opens machine.key machine.nonce [7] _ rfl)
  obtain ⟨misses, answersMissing⟩ := @missing_answers .keyed machine claimed _ claimId rfl
    (ClaimId.decode_encode claimId) Contents.getElem?_erase_self
  have start : Turns may (vaultStart .keyed .epoch) (vaultStart .keyed .epoch) := .refl
  have first := start.call 0 _ rfl rfl stores answersStore (by simp [InsertsPlain]; decide)
  have second := first.call 1 _ rfl rfl claims answersClaim (by simp [InsertsPlain])
  have third := second.stay.call 2 _ rfl rfl misses answersMissing (by simp [InsertsPlain])
  exact ⟨_, _, _, _, _, second, third, rfl, rfl, rfl, rfl⟩

/-- Two retrievals of one proof both fetch its record, and then both delete it. -/
theorem claimed_together :
    ∃ middle last : Config (vaultSystem .keyed), ∃ next next' past past' past'' past''',
      Turns may (vaultStart .keyed .epoch) middle ∧ Turns may middle last ∧
      middle.threads 1 = some ⟨.retrieveProof (ClaimId.encode ⟨.replicate 16 0, .replicate 32 1⟩), past,
        .step (.storage (.delete (.replicate 16 0))) next⟩ ∧
      middle.threads 2 = some ⟨.retrieveProof (ClaimId.encode ⟨.replicate 16 0, .replicate 32 1⟩), past',
        .step (.storage (.delete (.replicate 16 0))) next'⟩ ∧
      last.threads 1 = some ⟨.retrieveProof (ClaimId.encode ⟨.replicate 16 0, .replicate 32 1⟩), past'',
        .done (.ok (.proof ⟨[7]⟩))⟩ ∧
      last.threads 2 = some ⟨.retrieveProof (ClaimId.encode ⟨.replicate 16 0, .replicate 32 1⟩), past''',
        .done (.ok (.proof ⟨[7]⟩))⟩ ∧
      (∀ tid thread, last.threads tid = some thread → ∃ result, thread.Returned result) ∧
      last.shared.drawn = [.replicate 16 0] := by
  let machine : Machine := ⟨.replicate 32 1, .replicate 12 0, .replicate 16 0, fun _ => none⟩
  let claimId : ClaimId := ⟨.replicate 16 0, .replicate 32 1⟩
  let record : StoredRecord := ⟨⟨machine.nonce.bytes, machine.key.bytes ++ [7]⟩, .epoch, none⟩
  let stored : VaultState := { VaultState.initial .epoch with
    records := (VaultState.initial .epoch).records.insert machine.recordId record
    drawn := machine.recordId :: (VaultState.initial .epoch).drawn }
  let claimed : VaultState := { stored with records := stored.records.erase claimId.recordId }
  obtain ⟨_, stores, answersStore⟩ := @store_answers .keyed machine (.initial .epoch) ⟨[7]⟩ rfl
    (by simp [VaultState.initial]) _ rfl
  obtain ⟨next, line, opens, closes⟩ := @retrieve_completes .keyed record _ claimId (ClaimId.decode_encode claimId) []
    (.never rfl) machine.nonce [7] rfl (Aead.keyed_opens machine.key machine.nonce [7] _ rfl)
  have fetches : stored.respond machine (.storage (.fetch claimId.recordId)) = some (.ok record, stored) := by
    simp only [VaultState.respond, machine, Contents.apply]
    rw [show stored.records[claimId.recordId]? = some record from Contents.getElem?_insert_self]
  have start : Turns may (vaultStart .keyed .epoch) (vaultStart .keyed .epoch) := .refl
  have begun := start.call 0 _ rfl rfl stores answersStore (by simp [InsertsPlain]; decide)
  have first := begun.call 1 _ rfl rfl opens (.cons fetches .nil) (by simp [InsertsPlain])
  have second := first.call 2 _ rfl rfl opens (.cons fetches .nil) (by simp [InsertsPlain])
  have deletes (vault : VaultState) (removed : Bool)
      (found : vault.records.contains claimId.recordId = removed) :
      Answers (VaultState.respond machine) vault [⟨.storage (.delete claimId.recordId), .ok removed⟩, ⟨.log line, ()⟩]
        { vault with records := vault.records.erase claimId.recordId } := by
    subst found
    exact .cons rfl (.cons rfl .nil)
  have third := second.stay.turn 1 rfl rfl (.step (closes true)) (deletes stored true rfl) (by simp [InsertsPlain])
  have fourth := third.turn 2 rfl rfl (.step (closes false)) (deletes claimed false rfl) (by simp [InsertsPlain])
  refine ⟨_, _, next, next, _, _, _, _, second, fourth, rfl, rfl, rfl, rfl, fun tid thread found => ?_, rfl⟩
  rcases find_update found with ⟨_, same⟩ | ⟨notSecond, found⟩
  · exact ⟨_, congrArg Thread.rest same⟩
  rcases find_update found with ⟨_, same⟩ | ⟨notFirst, found⟩
  · exact ⟨_, congrArg Thread.rest same⟩
  rcases find_update found with ⟨same, _⟩ | ⟨_, found⟩
  · exact absurd same notSecond
  rcases find_update found with ⟨same, _⟩ | ⟨_, found⟩
  · exact absurd same notFirst
  rcases find_update found with ⟨_, same⟩ | ⟨_, found⟩
  · exact ⟨_, congrArg Thread.rest same⟩
  · exact absurd found.symm (Option.some_ne_none thread)

/-- A proof with a lifetime of a second is stored. After two seconds it is swept, or
claimed in vain. -/
theorem expired_in_turn (forward : may .epoch ⟨2000000000, by decide, by decide⟩) :
    ∃ middle cleaned claimed : Config (vaultSystem .keyed), ∃ record expiry sweeping claiming,
      Turns may (vaultStart .keyed .epoch) middle ∧ Turns may middle cleaned ∧ Turns may middle claimed ∧
      middle.threads 1 = none ∧ middle.shared.records[(FixedBytes.replicate 16 0 : RecordId)]? = some record ∧
      record.expiresAt = some expiry ∧ expiry < middle.shared.clock ∧
      cleaned.threads 1 = some ⟨.cleanup, sweeping, .done (.ok (.removed 1))⟩ ∧
      claimed.threads 1 = some ⟨.retrieveProof (ClaimId.encode ⟨.replicate 16 0, .replicate 32 1⟩), claiming,
        .done (.error .proofExpired)⟩ := by
  let machine : Machine := ⟨.replicate 32 1, .replicate 12 0, .replicate 16 0, fun _ => none⟩
  let claimId : ClaimId := ⟨.replicate 16 0, .replicate 32 1⟩
  let expiry : DateTime := ⟨1000000000, by decide, by decide⟩
  let late : DateTime := ⟨2000000000, by decide, by decide⟩
  let record : StoredRecord := ⟨⟨machine.nonce.bytes, machine.key.bytes ++ [7]⟩, .epoch, some expiry⟩
  let waiting : VaultState := ⟨(∅ : Contents).insert machine.recordId record, late, [late, .epoch], [machine.recordId]⟩
  have stored : waiting.records[claimId.recordId]? = some record := Contents.getElem?_insert_self
  have passed : expiry < late := by decide
  obtain ⟨_, stores, answersStore⟩ := @expiring_answers machine (.initial .epoch) rfl (by simp [VaultState.initial]) rfl
  obtain ⟨_, cleans, answersSweep, noInsert⟩ := @cleanup_answers .keyed machine waiting rfl
  have one : (waiting.records.due waiting.clock).size = 1 := by
    rw [Contents.due, ← Std.ExtTreeMap.length_toList, Std.ExtTreeMap.toList_filter]
    rfl
  rw [one] at cleans
  obtain ⟨_, claims, answersClaim⟩ := @expired_answers .keyed record machine waiting _ claimId rfl
    (ClaimId.decode_encode claimId) stored expiry rfl passed
  have start : Turns may (vaultStart .keyed .epoch) (vaultStart .keyed .epoch) := .refl
  have first := start.call 0 _ rfl rfl stores answersStore (by simp [InsertsPlain]; decide)
  have waited := first.tick late forward (by decide)
  have cleaned := waited.stay.call 1 _ rfl rfl cleans answersSweep
    fun event member => insertsPlain_of_ne (noInsert event member)
  have claimed := waited.stay.call 1 _ rfl rfl claims answersClaim (by simp [InsertsPlain])
  exact ⟨_, _, _, record, expiry, _, _, waited, cleaned, claimed, rfl, stored, rfl, passed, rfl, rfl⟩

/-- A proof without expiry and one with a lifetime of a second are stored. After two
seconds a cleanup removes the second one, and a retrieval with another key is refused.
Then the first one is cancelled. -/
theorem swept_and_cancelled (forward : may .epoch ⟨2000000000, by decide, by decide⟩) :
    ∃ middle last : Config (vaultSystem .keyed), ∃ storing sweeping refused cancelling,
      Turns may (vaultStart .keyed .epoch) middle ∧ Turns may middle last ∧
      middle.threads 0 = some ⟨.storeProof ⟨[7]⟩ none, storing,
        .done (.ok (.claimId (ClaimId.encode ⟨.replicate 16 0, .replicate 32 1⟩)))⟩ ∧
      middle.threads 2 = some ⟨.cleanup, sweeping, .done (.ok (.removed 1))⟩ ∧
      middle.threads 3 = some ⟨.retrieveProof (ClaimId.encode ⟨.replicate 16 0, .replicate 32 2⟩), refused,
        .done (.error .decryptionFailed)⟩ ∧
      last.threads 2 = some ⟨.cleanup, sweeping, .done (.ok (.removed 1))⟩ ∧
      last.threads 4 = some ⟨.deleteProof (ClaimId.encode ⟨.replicate 16 0, .replicate 32 1⟩), cancelling,
        .done (.ok .deleted)⟩ := by
  let machine : Machine := ⟨.replicate 32 1, .replicate 12 0, .replicate 16 0, fun _ => none⟩
  let machine' : Machine := ⟨.replicate 32 2, .replicate 12 0, .replicate 16 1, fun _ => none⟩
  let claimId : ClaimId := ⟨.replicate 16 0, .replicate 32 1⟩
  let wrong : ClaimId := ⟨.replicate 16 0, .replicate 32 2⟩
  let late : DateTime := ⟨2000000000, by decide, by decide⟩
  let record : StoredRecord := ⟨⟨machine.nonce.bytes, machine.key.bytes ++ [7]⟩, .epoch, none⟩
  let record' : StoredRecord := ⟨⟨machine'.nonce.bytes, machine'.key.bytes ++ [7]⟩, .epoch,
    some ⟨1000000000, by decide, by decide⟩⟩
  let stored : VaultState := { VaultState.initial .epoch with
    records := (∅ : Contents).insert machine.recordId record
    drawn := [machine.recordId] }
  let both : VaultState := {
    records := stored.records.insert machine'.recordId record'
    clock := late
    readings := [late, .epoch]
    drawn := [machine'.recordId, machine.recordId] }
  obtain ⟨_, stores, answersStore⟩ := @store_answers .keyed machine (.initial .epoch) ⟨[7]⟩ rfl
    (by simp [VaultState.initial]) _ rfl
  obtain ⟨_, expires, answersExpires⟩ := @expiring_answers machine' stored rfl (by decide) rfl
  obtain ⟨sweep, cleans, answersSweep, noInsert⟩ := @cleanup_answers .keyed machine both rfl
  have one : (both.records.due both.clock).size = 1 := by
    rw [Contents.due, ← Std.ExtTreeMap.length_toList, Std.ExtTreeMap.toList_filter]
    rfl
  rw [one] at cleans
  have kept : (both.records.sweep late)[claimId.recordId]? = some record := by
    rw [Contents.getElem?_sweep]
    rfl
  obtain ⟨refuses, answersRefused⟩ := @refused_answers .keyed record machine
    { both with records := both.records.sweep late } _ wrong rfl (ClaimId.decode_encode wrong) kept rfl machine.nonce
    rfl rfl
  obtain ⟨_, cancels, answersCancel⟩ := @delete_answers .keyed record machine
    { both with records := both.records.sweep late } _ claimId rfl (ClaimId.decode_encode claimId) kept rfl
  have start : Turns may (vaultStart .keyed .epoch) (vaultStart .keyed .epoch) := .refl
  have first := start.call 0 _ rfl rfl stores answersStore (by simp [InsertsPlain]; decide)
  have second := first.call 1 _ rfl rfl expires answersExpires (by simp [InsertsPlain]; decide)
  have waited := second.tick late forward (by decide)
  have swept := waited.call 2 _ rfl rfl cleans answersSweep
    fun event member => insertsPlain_of_ne (noInsert event member)
  have third := swept.call 3 _ rfl rfl refuses answersRefused (by simp [InsertsPlain])
  have fourth := third.stay.call 4 _ rfl rfl cancels answersCancel (by simp [InsertsPlain])
  exact ⟨_, _, _, _, _, _, third, fourth, rfl, rfl, rfl, rfl, rfl⟩

end Histories

end TariVault
