import Mathlib.Algebra.Order.BigOperators.Group.Finset
import Mathlib.Algebra.Order.BigOperators.Group.List
import TariVault.Program.Tally
import TariVault.Vault.Retention

namespace TariVault

open Program VaultEvent TariVault.System

/-! # No removal is reported twice

Every record comes in by one store and goes out by one removal. So what the cleanups
report and the cancellations confirm, together with what is still there, is never more
than what was stored.
-/

variable {aead : Aead} {clock : DateTime} {recordId : RecordId}

/-- How many records an event brings in. -/
def VaultEvent.brings : VaultEvent → Nat
  | ⟨.storage (.insert _ _), .ok _⟩ => 1
  | _ => 0

/-- How many it takes out. -/
def VaultEvent.takes : VaultEvent → Nat
  | ⟨.storage (.delete _), .ok true⟩ => 1
  | ⟨.storage .deleteExpired, .ok removed⟩ => removed
  | _ => 0

theorem size_erase_add (contents : Contents) (recordId : RecordId) :
    (contents.erase recordId).size + takes (deleted recordId (.ok (contents.contains recordId))) = contents.size := by
  rw [Std.ExtTreeMap.size_erase]
  cases found : contents.contains recordId with
  | false => simp [takes]
  | true =>
      have member : recordId ∈ contents := Std.ExtTreeMap.contains_iff_mem.mp found
      have some_ : contents.size ≠ 0 := by
        intro none_
        rw [Std.ExtTreeMap.eq_empty_iff_size_eq_zero.mpr none_] at member
        exact Std.ExtTreeMap.not_mem_empty member
      simp only [if_true, takes]
      omega

/-- The records that are there change by what comes in and what goes out. -/
theorem VaultAct.balance {state state' : VaultState} {event : VaultEvent} (act : VaultAct state event state')
    (fresh : ∀ recordId record result, event = inserted recordId record result → state.records[recordId]? = none) :
    state'.records.size + event.takes = state.records.size + event.brings := by
  cases act with
  | perform op shown =>
      cases op with
      | insert recordId record =>
          have absent : recordId ∉ state.records := by
            rw [Std.ExtTreeMap.mem_iff_isSome_getElem?, fresh recordId record _ rfl]
            simp
          simp [Contents.apply, Std.ExtTreeMap.size_insert, absent, takes, brings]
      | fetch recordId => rfl
      | delete recordId => exact size_erase_add state.records recordId
      | deleteExpired =>
          rw [Contents.apply_deleteExpired]
          exact Contents.size_sweep_add_due ..
  | fail op error => cases op <;> rfl
  | _ => rfl

section Call

variable {call : VaultCall} {past : List VaultEvent} {rest : VaultProgram (Except VaultError Reply)}

/-- How many records a call may bring in. -/
def VaultCall.stores : VaultCall → Nat
  | .storeProof _ _ => 1
  | _ => 0

/-- How many records a result says were taken out. A retrieval does not say whether it
was its own delete that took the record. -/
def removedBy : Except VaultError Reply → Nat
  | .ok .deleted => 1
  | .ok (.removed count) => count
  | _ => 0

theorem brings_of_untouched {event : VaultEvent} (untouched : ∀ op, event.op ≠ .storage op) : event.brings = 0 := by
  obtain ⟨op, answer⟩ := event
  cases op with
  | storage op => exact absurd rfl (untouched op)
  | _ => rfl

theorem brings_pos {event : VaultEvent} (some_ : event.brings ≠ 0) :
    ∃ recordId record, event = inserted recordId record (.ok ()) := by
  obtain ⟨op, answer⟩ := event
  cases op with
  | storage op =>
      cases op with
      | insert recordId record =>
          cases answer with
          | ok _ => exact ⟨recordId, record, rfl⟩
          | error error => exact absurd rfl some_
      | _ => exact absurd rfl some_
  | _ => exact absurd rfl some_

theorem brought_le (leads : Leads (call.code aead) past rest) : (past.map brings).sum ≤ call.stores := by
  by_cases brought : ∃ recordId record, inserted recordId record (.ok ()) ∈ past
  · obtain ⟨recordId, record, member⟩ := brought
    obtain ⟨proof, draft, expiresInSecs, front, logs, insertion, _⟩ := insertion_of_mem leads member
    have early : ((draft.events front).map brings).sum = 0 := by
      refine List.sum_eq_zero fun count counted => ?_
      obtain ⟨event, member, rfl⟩ := List.mem_map.mp counted
      exact brings_of_untouched (Draft.events_untouched insertion.reading event member)
    have late : (logs.map brings).sum = 0 := by
      refine List.sum_eq_zero fun count counted => ?_
      obtain ⟨event, member, rfl⟩ := List.mem_map.mp counted
      obtain ⟨line, rfl⟩ := insertion.onlyLogs event member
      rfl
    rw [insertion.order, insertion.stores, List.map_append, List.map_cons, List.sum_append, List.sum_cons, early, late]
    exact Nat.le_refl 1
  · have nothing : (past.map brings).sum = 0 := by
      refine List.sum_eq_zero fun count counted => ?_
      obtain ⟨event, member, rfl⟩ := List.mem_map.mp counted
      by_contra some_
      obtain ⟨recordId, record, rfl⟩ := brings_pos some_
      exact brought ⟨recordId, record, member⟩
    rw [nothing]
    exact Nat.zero_le _

/-- What a result reports, the call has done. -/
theorem removedBy_le {result : Except VaultError Reply} (leads : Leads (call.code aead) past (.done result)) :
    removedBy result ≤ (past.map takes).sum := by
  have told {event : VaultEvent} (member : event ∈ past) : event.takes ≤ (past.map takes).sum :=
    List.le_sum_of_mem (List.mem_map_of_mem member)
  cases result with
  | error error => exact Nat.zero_le _
  | ok reply =>
      cases call with
      | storeProof proof expiresInSecs =>
          obtain ⟨middle, _, mapped⟩ := leads.map_inv
          obtain ⟨value, rfl, converted⟩ := map_eq_done mapped.symm
          cases value with
          | error error => contradiction
          | ok claimIdStr =>
              cases converted
              exact Nat.zero_le _
      | retrieveProof claimIdStr =>
          obtain ⟨middle, _, mapped⟩ := leads.map_inv
          obtain ⟨value, rfl, converted⟩ := map_eq_done mapped.symm
          cases value with
          | error error => contradiction
          | ok proof =>
              cases converted
              exact Nat.zero_le _
      | deleteProof claimIdStr =>
          obtain ⟨middle, inside, mapped⟩ := leads.map_inv
          obtain ⟨value, rfl, converted⟩ := map_eq_done mapped.symm
          cases value with
          | error error => contradiction
          | ok done_ =>
              cases decoded : ClaimId.decode claimIdStr with
              | error error =>
                  simp only [StandardVault.deleteProof, decoded] at inside
                  obtain ⟨_, impossible⟩ := inside.done_inv
                  contradiction
              | ok claimId =>
                  obtain ⟨_, _, member⟩ := delete_returned decoded leads
                  cases converted
                  exact told member
      | cleanup =>
          obtain ⟨removed, rfl, member⟩ := cleanup_returned leads
          exact told member

end Call

section Runs

variable {labels : List (Label (vaultSystem aead))} {label : Label (vaultSystem aead)}
  {ok : Config (vaultSystem aead) → Label (vaultSystem aead) → Prop} {config last : Config (vaultSystem aead)}
  {made : Finset Nat}

/-- How many records a call has brought in. -/
def broughtIn (thread : Thread (vaultSystem aead)) : Nat := (thread.past.map brings).sum

/-- How many it has taken out. -/
def takenOut (thread : Thread (vaultSystem aead)) : Nat := (thread.past.map takes).sum

/-- What is there, with what was taken out, is what was brought in. -/
structure Balanced (config : Config (vaultSystem aead)) (made : Finset Nat) : Prop where
  roster : Roster made config.threads
  sum : config.shared.records.size + ∑ tid ∈ made, tally takenOut config.threads tid =
    ∑ tid ∈ made, tally broughtIn config.threads tid

theorem Balanced.step (balanced : Balanced config made) (coherent : Coherent config) (step : Step config label last) :
    ∃ made', Balanced last made' := by
  obtain ⟨roster, sum⟩ := balanced
  cases step with
  | @invoke tid call free =>
      refine ⟨insert tid made, roster.enter, ?_⟩
      rw [roster.sum_enter free, roster.sum_enter free]
      simpa [takenOut, broughtIn] using sum
  | @act tid call past op next answer shared running performed =>
      refine ⟨made, roster.move running, ?_⟩
      -- A record is inserted under an id that no call has inserted under before.
      have fresh : ∀ recordId record result, (⟨op, answer⟩ : VaultEvent) = inserted recordId record result →
          config.shared.records[recordId]? = none := by
        intro recordId record result same
        cases same
        cases stored : config.shared.records[recordId]? with
        | none => rfl
        | some other =>
            exact absurd (coherent.stored recordId other stored)
              (not_inserted_before coherent.once coherent.followed running rfl)
      have balance := VaultAct.balance performed fresh
      have took := @Roster.sum_move _ _ _ takenOut _ _ _ ⟨call, past ++ [⟨op, answer⟩], next answer⟩ _ roster running
      have brought :=
        @Roster.sum_move _ _ _ broughtIn _ _ _ ⟨call, past ++ [⟨op, answer⟩], next answer⟩ _ roster running
      simp only [takenOut, broughtIn, List.map_append, List.map_singleton, List.sum_append, List.sum_singleton]
        at took brought sum ⊢
      omega
  | drift changed =>
      simp only at changed
      subst changed
      exact ⟨made, roster, sum⟩

theorem balanced (run : RunWhere ok (vaultStart aead clock) labels last) : ∃ made, Balanced last made := by
  induction run with
  | refl => exact ⟨∅, .start _, by simp [VaultState.initial, Config.start]⟩
  | snoc run _ step ih =>
      obtain ⟨made, balanced⟩ := ih
      exact balanced.step (coherent run) step

/-- What a call that has returned says it has removed. -/
def reported {Op : Type} {Answer : Op → Type} {sys : System Op Answer} (removed : sys.Result → Nat)
    (thread : sys.Thread) : Nat :=
  match thread.rest with
  | .done result => removed result
  | .step _ _ => 0

/-- Whatever carries out the storage operations, what was reported adds up. -/
theorem Refinement.Mirrored.removalsCounted {Op' : Type} {Answer' : Op' → Type}
    {real : Realisation (vaultSystem aead) Op' Answer'} {last' : real.low.Config} (mirrored : Mirrored last' last)
    (run : RunWhere ok (vaultStart aead clock) labels last) :
    ∃ made, Roster made last'.threads ∧
      last.shared.records.size + ∑ tid ∈ made, tally (reported removedBy) last'.threads tid ≤
        ∑ tid ∈ made, tally (fun thread => (real.abstract thread.call).stores) last'.threads tid := by
  obtain ⟨made, roster, sum⟩ := balanced run
  have took : ∀ tid ∈ made, tally (reported removedBy) last'.threads tid ≤ tally takenOut last.threads tid := by
    intro tid _
    cases found : last'.threads tid with
    | none =>
        rw [tally_of_none found]
        exact Nat.zero_le _
    | some thread =>
        obtain ⟨counterpart, foundHigh, _, returns⟩ := mirrored.present tid thread found
        rw [tally_of_some found, tally_of_some foundHigh, reported]
        split
        · rename_i result returned
          have leads := followed run tid counterpart foundHigh
          rw [returns result returned] at leads
          exact removedBy_le leads
        · exact Nat.zero_le _
  have brought : ∀ tid ∈ made, tally broughtIn last.threads tid ≤
      tally (fun thread => (real.abstract thread.call).stores) last'.threads tid := by
    intro tid _
    cases found : last'.threads tid with
    | none =>
        rw [tally_of_none (mirrored.absent tid found)]
        exact Nat.zero_le _
    | some thread =>
        obtain ⟨counterpart, foundHigh, called, _⟩ := mirrored.present tid thread found
        rw [tally_of_some found, tally_of_some foundHigh, ← called]
        exact brought_le (followed run tid counterpart foundHigh)
  refine ⟨made, fun tid => (roster tid).trans ⟨fun free => ?_, mirrored.absent tid⟩, ?_⟩
  · cases found : last'.threads tid with
    | none => rfl
    | some thread =>
        obtain ⟨_, foundHigh, _⟩ := mirrored.present tid thread found
        rw [free] at foundHigh
        contradiction
  · calc last.shared.records.size + ∑ tid ∈ made, tally (reported removedBy) last'.threads tid
        ≤ last.shared.records.size + ∑ tid ∈ made, tally takenOut last.threads tid :=
          Nat.add_le_add_left (Finset.sum_le_sum took) _
      _ = ∑ tid ∈ made, tally broughtIn last.threads tid := sum
      _ ≤ _ := Finset.sum_le_sum brought

end Runs

end TariVault
