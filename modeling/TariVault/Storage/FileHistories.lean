import TariVault.Storage.Serialised

namespace TariVault

open Program TariVault.System

/-! # Where a file operation stands with its rename

Every change of the vault file is one rename. The lemmas say of any history of an
operation whether the rename is still ahead, is the next step, or is behind, and
which text it puts in place.
-/

abbrev FileEvent := Event (HostOp.Answer FileOp.Answer)

variable {α β : Type} {serde : Serde} {hasParent : Bool} {op : BackendOp} {now : DateTime}

/-- The file system answered so at some time. -/
def FileEvent.Answered (event : FileEvent) : Prop :=
  ∃ (tid : Nat) (state state' : FileState),
    state.respond tid event.op = some (event.answer, state')

def renamed : FileEvent := ⟨.storage .persist, .ok ()⟩

/-- Not a rename that succeeded. -/
def FileEvent.Quiet (event : FileEvent) : Prop := event ≠ renamed

def Keeping (op : HostOp FileOp) : Prop := op ≠ .storage .persist

theorem Keeping.quiet {event : FileEvent} (keeping : Keeping event.op) : event.Quiet := by
  intro same
  rw [same] at keeping
  exact keeping rfl

/-- Not a failure to restrict the permissions of the file. -/
def FileEvent.Tolerated (event : FileEvent) : Prop :=
  ∀ message, event ≠ ⟨.storage .setPermissions, .error message⟩

abbrev createdTemp : FileEvent := ⟨.storage .newTemp, .ok ()⟩

def filling (text : Bytes) : List FileEvent :=
  [⟨.storage (.writeAll text), .ok ()⟩, ⟨.storage .flush, .ok ()⟩]

/-- What a call with this history has in its temporary file. -/
def tempOf (past : List FileEvent) : Option Bytes :=
  past.foldl (fun written event =>
    match event.op with
    | .storage op => op.fill written
    | _ => written) none

theorem tempOf_filling {front : List FileEvent} (created : front.getLast? = some createdTemp)
    (text : Bytes) : tempOf (front ++ filling text) = some text := by
  obtain ⟨earlier, rfl⟩ := List.getLast?_eq_some_iff.mp created
  simp [tempOf, filling, List.foldl_append, FileOp.fill]

theorem respond_temps {tid : Nat} {state state' : FileState} {op : HostOp FileOp}
    {answer : HostOp.Answer FileOp.Answer op} {past : List FileEvent}
    (performed : state.respond tid op = some (answer, state'))
    (temp : state.disk.temps tid = tempOf past) :
    state'.disk.temps = Function.update state.disk.temps tid (tempOf (past ++ [⟨op, answer⟩])) := by
  simp only [tempOf, List.foldl_append, List.foldl_cons, List.foldl_nil]
  rcases FileState.respond_disk performed with ⟨same, untouched⟩ | ⟨fileOp, fileAnswer, same, applied⟩
  · rw [same]
    cases op with
    | storage fileOp =>
        simp only [untouched fileOp rfl]
        exact (Function.update_eq_self_iff.mpr temp.symm).symm
    | _ => exact (Function.update_eq_self_iff.mpr temp.symm).symm
  · cases same
    rw [Disk.apply_temps applied, temp]
    rfl

/-- Where a program that renames at most once stands. `skips` is what it can have
returned without a rename, `writes` what it renames after which history, `lands`
what it returns afterwards. -/
inductive RenameStage (skips : List FileEvent → α → Prop) (writes : List FileEvent → Bytes → Prop)
    (lands : α → Prop) : List FileEvent → Host FileOp.Answer α → Prop where
  | before {events rest} (quiet : ∀ event ∈ events, event.Quiet)
      (elsewhere : ∀ next, rest ≠ .step (.storage .persist) next)
      (skipped : ∀ value, rest = .done value → skips events value) :
      RenameStage skips writes lands events rest
  | about {front text next} (quiet : ∀ event ∈ front, event.Quiet) (written : writes front text) :
      RenameStage skips writes lands (front ++ filling text) (.step (.storage .persist) next)
  | after {front text tail rest} (quiet : ∀ event ∈ front, event.Quiet) (written : writes front text)
      (quietTail : ∀ event ∈ tail, event.Quiet) (keeping : rest.Within Keeping)
      (landed : ∀ value, rest = .done value → lands value) :
      RenameStage skips writes lands (front ++ filling text ++ renamed :: tail) rest

namespace RenameStage

variable {skips : List FileEvent → α → Prop} {writes : List FileEvent → Bytes → Prop}
  {lands : α → Prop} {events : List FileEvent} {rest : Host FileOp.Answer α}

theorem quiet_filling (text : Bytes) : ∀ event ∈ filling text, event.Quiet := by
  simp [filling, FileEvent.Quiet, renamed]

theorem mono {skips' : List FileEvent → α → Prop} {writes' : List FileEvent → Bytes → Prop}
    {lands' : α → Prop} (stage : RenameStage skips writes lands events rest)
    (skipsMore : ∀ value, skips events value → skips' events value)
    (writesMore : ∀ front text, writes front text → writes' front text)
    (landsMore : ∀ value, lands value → lands' value) :
    RenameStage skips' writes' lands' events rest := by
  cases stage with
  | before quiet elsewhere skipped =>
      exact .before quiet elsewhere fun value same => skipsMore value (skipped value same)
  | about quiet written => exact .about quiet (writesMore _ _ written)
  | after quiet written quietTail keeping landed =>
      exact .after quiet (writesMore _ _ written) quietTail keeping fun value same =>
        landsMore value (landed value same)

theorem map {f : α → β} (stage : RenameStage skips writes lands events rest) :
    RenameStage (fun events result => ∃ value, result = f value ∧ skips events value) writes
      (fun result => ∃ value, result = f value ∧ lands value) events (f <$> rest) := by
  cases stage with
  | before quiet elsewhere skipped =>
      refine .before quiet (fun next same => ?_) (fun result same => ?_)
      · cases rest with
        | done value => contradiction
        | step op next' =>
            injection same with sameOp
            subst sameOp
            exact elsewhere next' rfl
      · obtain ⟨value, finished, rfl⟩ := map_eq_done same
        exact ⟨value, rfl, skipped value finished⟩
  | about quiet written => exact .about quiet written
  | after quiet written quietTail keeping landed =>
      refine .after quiet written quietTail (keeping.map f) fun result same => ?_
      obtain ⟨value, finished, rfl⟩ := map_eq_done same
      exact ⟨value, rfl, landed value finished⟩

theorem prepend {skips' : List FileEvent → α → Prop} {writes' : List FileEvent → Bytes → Prop}
    (stage : RenameStage skips writes lands events rest) {earlier : List FileEvent}
    (quietEarlier : ∀ event ∈ earlier, event.Quiet)
    (skipsLater : ∀ value, skips events value → skips' (earlier ++ events) value)
    (writesLater : ∀ front text, writes front text → writes' (earlier ++ front) text) :
    RenameStage skips' writes' lands (earlier ++ events) rest := by
  have both {front : List FileEvent} (quiet : ∀ event ∈ front, event.Quiet) :
      ∀ event ∈ earlier ++ front, event.Quiet := by
    intro event member
    rcases List.mem_append.mp member with old | new
    · exact quietEarlier event old
    · exact quiet event new
  cases stage with
  | before quiet elsewhere skipped =>
      exact .before (both quiet) elsewhere fun value same => skipsLater value (skipped value same)
  | about quiet written =>
      rw [← List.append_assoc]
      exact .about (both quiet) (writesLater _ _ written)
  | after quiet written quietTail keeping landed =>
      rw [← List.append_assoc, ← List.append_assoc]
      exact .after (both quiet) (writesLater _ _ written) quietTail keeping landed

theorem of_quiet {first : Host FileOp.Answer β} {next : β → Host FileOp.Answer α}
    (keeping : first.Within Keeping) (leads : Leads (first >>= next) events rest)
    (continued : ∀ value front back, events = front ++ back → Leads first front (.done value) →
      (∀ event ∈ front, event.Quiet) → Leads (next value) back rest →
      RenameStage skips writes lands (front ++ back) rest) :
    RenameStage skips writes lands events rest := by
  rcases leads.bind_inv with ⟨op, rest', inside, rfl⟩ | ⟨value, front, back, rfl, finished, later⟩
  · obtain ⟨quiet, keepingRest⟩ := keeping.leads inside
    refine .before (fun event member => (quiet event member).quiet) (fun next' same => ?_)
      (fun value same => by contradiction)
    injection same with sameOp
    exact keepingRest.head sameOp
  · exact continued value front back rfl finished
      (fun event member => ((keeping.leads finished).1 event member).quiet) later

theorem bind {first : Host FileOp.Answer α} {next : α → Host FileOp.Answer β}
    {skips' : List FileEvent → β → Prop} {lands' : β → Prop} {final : Host FileOp.Answer β}
    (leads : Leads (first >>= next) events final) (keeping : ∀ value, (next value).Within Keeping)
    (stage : ∀ events' rest', events' <+: events → Leads first events' rest' →
      RenameStage skips writes lands events' rest')
    (skipsOn : ∀ events' value back result, skips events' value →
      Leads (next value) back (.done result) → events = events' ++ back → skips' events result)
    (landsOn : ∀ value back result, lands value → Leads (next value) back (.done result) →
      back <:+ events → lands' result) :
    RenameStage skips' writes lands' events final := by
  rcases leads.bind_inv with ⟨op, rest', inside, rfl⟩ | ⟨value, front, back, rfl, finished, later⟩
  · cases stage _ _ (List.prefix_refl _) inside with
    | before quiet elsewhere skipped =>
        refine .before quiet (fun next' same => ?_) (fun value same => by contradiction)
        injection same with sameOp
        subst sameOp
        exact elsewhere _ rfl
    | about quiet written => exact .about quiet written
    | after quiet written quietTail keepingRest landed =>
        exact .after quiet written quietTail (keepingRest.bind keeping) (fun value same => by contradiction)
  · obtain ⟨quietBack, keepingFinal⟩ := (keeping value).leads later
    have ending {front : List FileEvent} (quiet : ∀ event ∈ front, event.Quiet) :
        ∀ event ∈ front ++ back, event.Quiet := by
      intro event member
      rcases List.mem_append.mp member with old | new
      · exact quiet event old
      · exact (quietBack event new).quiet
    cases stage _ _ (List.prefix_append ..) finished with
    | before quiet elsewhere skipped =>
        refine .before (ending quiet) (fun next' same => ?_) (fun result same => ?_)
        · rw [same] at keepingFinal
          exact keepingFinal.head rfl
        · subst same
          exact skipsOn _ _ _ _ (skipped value rfl) later rfl
    | @after front text tail rest quiet written quietTail keepingRest landed =>
        rw [List.append_assoc, List.cons_append]
        refine .after quiet written (ending quietTail) keepingFinal fun result same => ?_
        subst same
        exact landsOn value back result (landed value rfl) later (List.suffix_append ..)

end RenameStage

/-- Where nothing fails, the permissions are restricted. -/
theorem FileEvent.Answered.tolerated {event : FileEvent} (answered : event.Answered) : event.Tolerated := by
  intro message same
  subst same
  obtain ⟨tid, state, state', performed⟩ := answered
  cases performed

/-- A write of `state` that has not renamed has failed; `lands` is what one that has
renamed returns. -/
abbrev WriteStage (serde : Serde) (state : DiskState) (opening : List FileEvent)
    (lands : Except StorageError Unit → Prop) :=
  RenameStage (α := Except StorageError Unit) (fun _ result => result ≠ .ok ())
    (fun front text => front = opening ∧ state.toVecPretty serde = .ok text) lands

variable {state : DiskState} {events : List FileEvent}
  {rest : Host FileOp.Answer (Except StorageError Unit)}

theorem fillAndPersist_stage (leads : Leads (fillAndPersist serde state).run events rest) :
    WriteStage serde state [] (· = .ok ()) events rest := by
  unfold fillAndPersist at leads
  cases serialized : state.toVecPretty serde with
  | error message =>
      rw [serialized] at leads
      obtain ⟨rfl, rfl⟩ := leads.done_inv
      exact .before (by simp) (by simp) (by simp)
  | ok text =>
      rw [serialized] at leads
      rcases leads.step_inv with ⟨rfl, rfl⟩ | ⟨wrote, tail, rfl, filled⟩
      · exact .before (by simp) (fun next => step_ne (by simp)) (by simp)
      cases wrote with
      | error message =>
          obtain ⟨rfl, rfl⟩ := filled.done_inv
          exact .before (by simp [FileEvent.Quiet, renamed]) (by simp) (by simp)
      | ok wrote =>
          rcases filled.step_inv with ⟨rfl, rfl⟩ | ⟨flushed, tail, rfl, synced⟩
          · exact .before (by simp [FileEvent.Quiet, renamed]) (fun next => step_ne (by simp)) (by simp)
          cases flushed with
          | error message =>
              obtain ⟨rfl, rfl⟩ := synced.done_inv
              exact .before (by simp [FileEvent.Quiet, renamed]) (by simp) (by simp)
          | ok flushed =>
              rcases synced.step_inv with ⟨rfl, rfl⟩ | ⟨persisted, tail, rfl, moved⟩
              · exact @RenameStage.about _ _ _ _ [] text _ (by simp) ⟨rfl, serialized⟩
              cases persisted with
              | error message =>
                  -- A rename that failed has left the vault file as it was.
                  obtain ⟨rfl, rfl⟩ := moved.done_inv
                  exact .before (by simp [FileEvent.Quiet, renamed]) (by simp) (by simp [Except.mapError])
              | ok persisted =>
                  obtain ⟨rfl, rfl⟩ := moved.done_inv
                  exact @RenameStage.after _ _ _ _ [] text [] _ (by simp)
                    ⟨rfl, serialized⟩ (by simp) (.done _) (by simp [Except.mapError])

theorem orDropTemp_stage (leads : Leads (FileM.orDropTemp (fillAndPersist serde state)).run events rest) :
    WriteStage serde state [] (· = .ok ()) events rest := by
  rw [FileM.orDropTemp, ExceptT.run_mk] at leads
  refine RenameStage.bind leads (fun result => ?_) (fun _ _ _ inside => fillAndPersist_stage inside) ?_ ?_
  · cases result with
    | ok value => exact .done _
    | error error => exact .step (by simp [Keeping]) fun _ => .done _
  · intro earlier outcome back result failed ended equal
    subst equal
    rcases outcome with error | value
    · rcases ended.step_inv with ⟨_, impossible⟩ | ⟨_, tail, _, last⟩
      · contradiction
      · rw [Program.done.inj last.done_inv.2]
        simp
    · exact absurd rfl failed
  · intro value back result equal ended _
    subst equal
    exact Program.done.inj ended.done_inv.2

/-- A write that has renamed returns what restricting the permissions returned. -/
theorem writeAtomic_stage {lands : Except StorageError Unit → Prop}
    (leads : Leads (writeAtomic serde hasParent state).run events rest)
    (restricts : ∀ restricted, (⟨.storage .setPermissions, restricted⟩ : FileEvent) ∈ events →
      lands (Except.mapError .io restricted)) : WriteStage serde state [createdTemp] lands events rest := by
  unfold writeAtomic at leads
  split at leads
  · rcases leads.step_inv with ⟨rfl, rfl⟩ | ⟨created, tail, rfl, opened⟩
    · exact .before (by simp) (fun next => step_ne (by simp)) (by simp)
    cases created with
    | error message =>
        obtain ⟨rfl, rfl⟩ := opened.done_inv
        exact .before (by simp [FileEvent.Quiet, renamed]) (by simp) (by simp)
    | ok created =>
        change Leads ((FileM.orDropTemp (fillAndPersist serde state) >>= fun _ =>
          FileM.io (Host.storage FileOp.setPermissions)).run) tail rest at opened
        rw [ExceptT.run_bind] at opened
        have stage : WriteStage serde state [] lands tail rest := by
          refine RenameStage.bind opened (fun result => ?_) (fun _ _ _ inside => orDropTemp_stage inside) ?_ ?_
          · cases result with
            | ok value => exact .step (by simp [Keeping]) fun _ => .done _
            | error error => exact .done _
          · intro earlier outcome back result failed ended equal
            subst equal
            rcases outcome with error | value
            · rw [Program.done.inj ended.done_inv.2]
              simp
            · exact absurd rfl failed
          · intro value back result equal ended suffix
            subst equal
            rcases ended.step_inv with ⟨_, impossible⟩ | ⟨restricted, last, rfl, finished⟩
            · contradiction
            · rw [Program.done.inj finished.done_inv.2]
              exact restricts restricted (List.mem_cons_of_mem _ (suffix.subset (by simp)))
        have quiet : ∀ event ∈ [createdTemp], FileEvent.Quiet event := by simp [FileEvent.Quiet, renamed]
        refine stage.prepend quiet (by simp) fun front text holds => ?_
        obtain ⟨rfl, serialized⟩ := holds
        exact ⟨rfl, serialized⟩
  · obtain ⟨rfl, rfl⟩ := leads.done_inv
    exact .before (by simp) (by simp) (by simp)

/-- An operation that has read a state from which it writes `text`. -/
def Rewrites (serde : Serde) (op : BackendOp) (now : DateTime) (events : List FileEvent)
    (text : Bytes) : Prop :=
  ∃ bytes state next, (⟨.storage .read, .ok bytes⟩ : FileEvent) ∈ events ∧
    DiskState.fromSlice serde bytes = .ok state ∧ op.rewrite now state = some next ∧
    next.toVecPretty serde = .ok text

/-- An operation that has read a state it leaves as it is. -/
def Leaves (serde : Serde) (op : BackendOp) (now : DateTime) (events : List FileEvent) : Prop :=
  ∃ bytes state, (⟨.storage .read, .ok bytes⟩ : FileEvent) ∈ events ∧
    DiskState.fromSlice serde bytes = .ok state ∧ op.rewrite now state = none

theorem Rewrites.mono {events later : List FileEvent} {text : Bytes} (included : events ⊆ later)
    (rewrites : Rewrites serde op now events text) : Rewrites serde op now later text := by
  obtain ⟨bytes, state, next, read, rest⟩ := rewrites
  exact ⟨bytes, state, next, included read, rest⟩

theorem Leaves.mono {events later : List FileEvent} (included : events ⊆ later)
    (leaves : Leaves serde op now events) : Leaves serde op now later := by
  obtain ⟨bytes, state, read, rest⟩ := leaves
  exact ⟨bytes, state, included read, rest⟩

abbrev TransactStage (serde : Serde) (op : BackendOp) (now : DateTime) :=
  RenameStage (fun events answer => op.Failed answer ∨ Leaves serde op now events)
    (fun front text => front.getLast? = some createdTemp ∧ Rewrites serde op now front text)
    (fun answer => ¬ op.Failed answer)

theorem transition_stage {state : DiskState} {bytes : Bytes} {events : List FileEvent}
    {rest : Host FileOp.Answer op.Answer} (parsed : DiskState.fromSlice serde bytes = .ok state)
    (leads : Leads (transition serde hasParent op now state) events rest)
    (tolerated : ∀ event ∈ events, FileEvent.Tolerated event) :
    TransactStage serde op now (⟨.storage .read, .ok bytes⟩ :: events) rest := by
  unfold transition at leads
  cases rewritten : op.rewrite now state with
  | none =>
      rw [rewritten] at leads
      obtain ⟨rfl, rfl⟩ := leads.done_inv
      exact .before (by simp [FileEvent.Quiet, renamed]) (by simp)
        fun _ _ => .inr ⟨bytes, state, by simp, parsed, rewritten⟩
  | some next =>
      rw [rewritten] at leads
      have wrote : ∀ earlier rest', earlier <+: events →
          Leads (writeAtomic serde hasParent next).run earlier rest' →
          WriteStage serde next [createdTemp] (· = .ok ()) earlier rest' := by
        intro earlier rest' before inside
        refine writeAtomic_stage inside fun restricted member => ?_
        cases restricted with
        | error message => exact absurd rfl (tolerated _ (before.subset member) message)
        | ok restricted => rfl
      have stage : RenameStage (fun _ answer => op.Failed answer)
          (fun front text => front = [createdTemp] ∧ next.toVecPretty serde = .ok text)
          (fun answer => ¬ op.Failed answer) events rest := by
        refine RenameStage.bind leads (fun result => ?_) wrote ?_ ?_
        · cases result <;> exact .done _
        · intro earlier outcome back result failed ended equal
          subst equal
          rcases outcome with error | value
          · exact ⟨error, Program.done.inj ended.done_inv.2⟩
          · exact absurd rfl failed
        · intro value back result equal ended _
          subst equal
          rw [Program.done.inj ended.done_inv.2]
          exact BackendOp.not_failed_of_rewrite rewritten
      have quiet : ∀ event ∈ ([⟨.storage .read, .ok bytes⟩] : List FileEvent), event.Quiet := by
        simp [FileEvent.Quiet, renamed]
      refine stage.prepend quiet (fun _ failed => .inl failed) ?_
      intro front text holds
      obtain ⟨rfl, serialized⟩ := holds
      exact ⟨rfl, bytes, state, next, by simp, parsed, rewritten, serialized⟩

theorem transact_stage {events : List FileEvent} {rest : Host FileOp.Answer op.Answer}
    (leads : Leads (transact serde hasParent op now) events rest)
    (tolerated : ∀ event ∈ events, FileEvent.Tolerated event) :
    TransactStage serde op now events rest := by
  rcases leads.step_inv with ⟨rfl, rfl⟩ | ⟨read, tail, rfl, continued⟩
  · exact .before (by simp) (fun next => step_ne (by simp)) (by simp)
  cases read with
  | error message =>
      obtain ⟨rfl, rfl⟩ := continued.done_inv
      refine .before (by simp [FileEvent.Quiet, renamed]) (by simp) ?_
      intro value equal
      cases equal
      exact .inl ⟨_, rfl⟩
  | ok bytes =>
      change Leads ((FileM.json (DiskState.fromSlice serde bytes)).run >>= _) tail rest at continued
      cases parsed : DiskState.fromSlice serde bytes with
      | error message =>
          rw [parsed] at continued
          obtain ⟨rfl, rfl⟩ := continued.done_inv
          refine .before (by simp [FileEvent.Quiet, renamed]) (by simp) ?_
          intro value equal
          cases equal
          exact .inl ⟨_, rfl⟩
      | ok state =>
          rw [parsed] at continued
          exact transition_stage parsed continued fun event member =>
            tolerated event (List.mem_cons_of_mem _ member)

/-- A sweep has read its clock value. -/
def Captures (op : BackendOp) (now : DateTime) (events : List FileEvent) : Prop :=
  op = .deleteExpired → (⟨.now, now⟩ : FileEvent) ∈ events

abbrev CallStage (serde : Serde) (op : BackendOp) :=
  RenameStage
    (fun events (result : BackendResult) => result.1 = op ∧
      (result.Failed ∨ ∃ now, Captures op now events ∧ Leaves serde op now events))
    (fun front text => front.getLast? = some createdTemp ∧
      ∃ now, Captures op now front ∧ Rewrites serde op now front text)
    (fun result => result.1 = op ∧ ¬ result.Failed)

theorem Outside.keeping {op : HostOp FileOp} (outside : Outside op) : Keeping op := by
  intro same
  subst same
  exact outside

/-- A call up to the sidecar lock, its closure, and what follows. -/
theorem call_stage {call : FileCall} {events : List FileEvent}
    {rest : Host FileOp.Answer BackendResult} (leads : Leads (call.code serde) events rest)
    (tolerated : ∀ event ∈ events, FileEvent.Tolerated event) : CallStage serde call.op events rest := by
  rw [FileCall.code_eq] at leads
  refine .of_quiet ((FileCall.before_within call).mono fun _ => Outside.keeping) leads ?_
  intro reached front back equal captures quiet entered
  subst equal
  rcases FileCall.before_leads captures with ⟨now, rfl, read⟩ | ⟨message, rfl, _⟩
  · rcases entered.step_inv with ⟨rfl, rfl⟩ | ⟨locked, tail, rfl, closed⟩
    · exact .before (by simpa using quiet) (fun next => step_ne (by simp)) (by simp)
    cases locked with
    | error message =>
        have finishing : (call.finish (call.refusal message)).Within Keeping :=
          .step (by simp [Keeping]) fun _ => .done _
        have quietAll : ∀ event ∈ front ++ ⟨.storage .lockExclusive, .error message⟩ :: tail,
            FileEvent.Quiet event := by
          intro event member
          rcases List.mem_append.mp member with old | new
          · exact quiet event old
          · rcases List.mem_cons.mp new with rfl | later
            · simp [FileEvent.Quiet, renamed]
            · exact Keeping.quiet ((finishing.leads closed).1 event later)
        rcases closed.step_inv with ⟨rfl, rfl⟩ | ⟨released, last, rfl, finished⟩
        · exact .before quietAll (fun next => step_ne (by simp)) (by simp)
        · obtain ⟨rfl, rfl⟩ := finished.done_inv
          refine .before quietAll (by simp) fun value same => ?_
          cases same
          exact ⟨rfl, .inl ⟨_, rfl⟩⟩
    | ok locked =>
        have toleratedTail : ∀ event ∈ tail, FileEvent.Tolerated event := fun event member =>
          tolerated event (by simp [member])
        have transacts : ∀ earlier rest', earlier <+: tail →
            Leads (transact serde call.store.hasParent call.op now) earlier rest' →
            TransactStage serde call.op now earlier rest' :=
          fun earlier rest' before inside => transact_stage inside fun event member =>
            toleratedTail event (before.subset member)
        have ends (answer : call.op.Answer) {back : List FileEvent} {result : BackendResult}
            (ended : Leads (Program.step (.storage .unlock) fun _ => call.finish ⟨call.op, answer⟩)
              back (.done result)) : result = ⟨call.op, answer⟩ := by
          rcases ended.step_inv with ⟨_, impossible⟩ | ⟨_, _, _, finishing⟩
          · contradiction
          rcases finishing.step_inv with ⟨_, impossible⟩ | ⟨_, _, _, finished⟩
          · contradiction
          exact Program.done.inj finished.done_inv.2
        change Leads (call.closure serde (FileCall.captureAt now call.op) >>= _) tail rest at closed
        rw [FileCall.closure_eq, map_eq_pure_bind, bind_assoc] at closed
        have stage : RenameStage
            (fun events (result : BackendResult) => result.1 = call.op ∧
              (result.Failed ∨ Leaves serde call.op now events))
            (fun front text => front.getLast? = some createdTemp ∧
              Rewrites serde call.op now front text)
            (fun result => result.1 = call.op ∧ ¬ result.Failed) tail rest := by
          refine RenameStage.bind closed (fun answer => ?_) transacts ?_ ?_
          · exact .step (by simp [Keeping]) fun _ => .step (by simp [Keeping]) fun _ => .done _
          · intro earlier answer back result skipped ended equal
            subst equal
            rw [ends answer ended]
            exact ⟨rfl, skipped.imp_right (Leaves.mono (List.subset_append_left ..))⟩
          · intro answer back result landed ended _
            rw [ends answer ended]
            exact ⟨rfl, landed⟩
        have quietFront : ∀ event ∈ front ++ [⟨.storage .lockExclusive, .ok locked⟩],
            FileEvent.Quiet event := by
          intro event member
          rcases List.mem_append.mp member with old | new
          · exact quiet event old
          · rw [List.mem_singleton.mp new]
            simp [FileEvent.Quiet, renamed]
        suffices prepended : CallStage serde call.op
            ((front ++ [⟨.storage .lockExclusive, .ok locked⟩]) ++ tail) rest by
          simpa using prepended
        refine stage.prepend quietFront ?_ ?_
        · intro result holds
          rcases holds with ⟨same, failed | leaves⟩
          · exact ⟨same, .inl failed⟩
          · exact ⟨same, .inr ⟨now, fun sweep => by simp [read sweep],
              leaves.mono (List.subset_append_right ..)⟩⟩
        · intro inner text holds
          obtain ⟨last, rewrites⟩ := holds
          refine ⟨?_, now, fun sweep => by simp [read sweep],
            rewrites.mono (List.subset_append_right ..)⟩
          rw [List.getLast?_append, last]
          rfl
  · obtain ⟨rfl, rfl⟩ := entered.done_inv
    refine .before (by simpa using quiet) (by simp) fun value same => ?_
    cases same
    exact ⟨rfl, .inl ⟨_, rfl⟩⟩

/-- Where an open stands: it writes the empty state, and only if it found no file. -/
abbrev OpenStage (serde : Serde) :=
  RenameStage (α := Except StorageError Unit) (fun _ _ => True)
    (fun front text => front.getLast? = some createdTemp ∧
      (⟨.storage .pathExists, false⟩ : FileEvent) ∈ front ∧
      (∅ : DiskState).toVecPretty serde = .ok text)
    (fun _ => True)

theorem create_stage {events : List FileEvent} {rest : Host FileOp.Answer (Except StorageError Unit)}
    (leads : Leads (do
      let found ← ExceptT.lift (Host.storage FileOp.pathExists)
      if found then pure () else writeAtomic serde hasParent ∅ : FileM Unit).run events rest) :
    OpenStage serde events rest := by
  rcases leads.step_inv with ⟨rfl, rfl⟩ | ⟨found, tail, rfl, continued⟩
  · exact .before (by simp) (fun next => step_ne (by simp)) (by simp)
  cases found with
  | true =>
      obtain ⟨rfl, rfl⟩ := continued.done_inv
      exact .before (by simp [FileEvent.Quiet, renamed]) (by simp) (by simp)
  | false =>
      have wrote : WriteStage serde ∅ [createdTemp] (fun _ => True) tail rest :=
        writeAtomic_stage continued fun _ _ => trivial
      have quiet : ∀ event ∈ ([⟨.storage .pathExists, false⟩] : List FileEvent), event.Quiet := by
        simp [FileEvent.Quiet, renamed]
      have begun : RenameStage (α := Except StorageError Unit) (fun _ _ => True)
          (fun front text => front = [createdTemp] ∧ (∅ : DiskState).toVecPretty serde = .ok text)
          (fun _ => True) tail rest :=
        wrote.mono (fun _ _ => trivial) (fun _ _ => id) fun _ _ => trivial
      refine begun.prepend quiet (by simp) ?_
      intro front text holds
      obtain ⟨rfl, serialized⟩ := holds
      exact ⟨rfl, by simp, serialized⟩

theorem new_stage {events : List FileEvent} {rest : Host FileOp.Answer (Except StorageError Unit)}
    (leads : Leads (LocalFileStore.new serde hasParent).run events rest) : OpenStage serde events rest := by
  unfold LocalFileStore.new at leads
  cases hasParent with
  | false => exact create_stage leads
  | true =>
      rcases leads.step_inv with ⟨rfl, rfl⟩ | ⟨created, tail, rfl, continued⟩
      · exact .before (by simp) (fun next => step_ne (by simp)) (by simp)
      cases created with
      | error message =>
          obtain ⟨rfl, rfl⟩ := continued.done_inv
          exact .before (by simp [FileEvent.Quiet, renamed]) (by simp) (by simp)
      | ok created =>
          have stage : OpenStage serde tail rest := create_stage continued
          have quiet : ∀ event ∈ ([⟨.storage .createDirAll, .ok created⟩] : List FileEvent),
              event.Quiet := by
            simp [FileEvent.Quiet, renamed]
          refine stage.prepend quiet (by simp) ?_
          intro front text holds
          obtain ⟨last, absent, serialized⟩ := holds
          refine ⟨?_, by simp [absent], serialized⟩
          rw [List.getLast?_append, last]
          rfl

end TariVault
