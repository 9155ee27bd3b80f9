import TariVault.Program.Interleaving

namespace TariVault

open Program TariVault.System

/-! # Programs under a lock

Every call runs some operations outside the lock, enters, runs its body, leaves, and
finishes outside again. At any time a call waits, is inside and holds the lock, or
has left.
-/

variable {Op : Type} {Answer : Op → Type} {sys : System Op Answer}

/-- Enter and go on, or end without having entered. -/
def entering {Captured Result : Type} (enter : Op)
    (onEnter : Captured → Answer enter → Program Op Answer Result) :
    Except Result Captured → Program Op Answer Result
  | .error result => .done result
  | .ok captured => .step enter (onEnter captured)

/-- How the calls of a system use a lock, and who holds it. `before` may end a call
without entering. -/
structure Locking (sys : System Op Answer) where
  Captured : Type
  Outcome : Type
  enter : Op
  granted : Answer enter
  leave : Op
  outer : Op → Prop
  inner : Op → Prop
  before : sys.Call → Program Op Answer (Except sys.Result Captured)
  body : sys.Call → Captured → Program Op Answer Outcome
  after : sys.Call → Outcome → Program Op Answer sys.Result
  onEnter : sys.Call → Captured → Answer enter → Program Op Answer sys.Result
  holder : sys.State → Option Nat
  code_eq : ∀ call, sys.code call = before call >>= entering enter (onEnter call)
  onEnter_granted : ∀ call captured, onEnter call captured granted =
    body call captured >>= fun outcome => .step leave fun _ => after call outcome
  before_within : ∀ call, (before call).Within outer
  body_within : ∀ call captured, (body call captured).Within inner
  after_within : ∀ call outcome, (after call outcome).Within outer
  enter_not_outer : ¬ outer enter
  enter_not_inner : ¬ inner enter
  enter_ne_leave : enter ≠ leave
  outer_holder : ∀ {tid state op answer state'}, outer op → sys.act tid state ⟨op, answer⟩ state' →
    holder state' = holder state
  enter_holder : ∀ {tid state answer state'}, sys.act tid state ⟨enter, answer⟩ state' →
    answer = granted ∧ holder state = none ∧ holder state' = some tid
  leave_holder : ∀ {tid state answer state'}, sys.act tid state ⟨leave, answer⟩ state' →
    holder state' = none
  inner_holder : ∀ {tid state op answer state'}, inner op → sys.act tid state ⟨op, answer⟩ state' →
    holder state' = holder state
  drift_holder : ∀ {state env state'}, sys.drift state env state' → holder state' = holder state

namespace Locking

variable (locking : Locking sys)

def Waiting (thread : sys.Thread) : Prop :=
  ∃ middle, Leads (locking.before thread.call) thread.past middle ∧
    thread.rest = middle >>= entering locking.enter (locking.onEnter thread.call)

/-- The call has entered with `captured`, has done `back` since, and has `middle` of
its body left. -/
structure Inside (thread : sys.Thread) (captured : locking.Captured)
    (middle : Program Op Answer locking.Outcome) : Prop where
  past : ∃ front back, thread.past = front ++ ⟨locking.enter, locking.granted⟩ :: back ∧
    Leads (locking.before thread.call) front (.done (.ok captured)) ∧
    Leads (locking.body thread.call captured) back middle
  rest : thread.rest = middle >>= fun outcome =>
    .step locking.leave fun _ => locking.after thread.call outcome

/-- The call has left with `outcome`. -/
def Left (thread : sys.Thread) (captured : locking.Captured) (outcome : locking.Outcome) : Prop :=
  ∃ front back answer tail,
    thread.past = front ++ ⟨locking.enter, locking.granted⟩ :: (back ++
      ⟨locking.leave, answer⟩ :: tail) ∧
    Leads (locking.before thread.call) front (.done (.ok captured)) ∧
    Leads (locking.body thread.call captured) back (.done outcome) ∧
    Leads (locking.after thread.call outcome) tail thread.rest

section Advance

variable {locking} {tid : Nat} {call : sys.Call} {past : List (Event Answer)} {op : Op}
  {next : Answer op → Program Op Answer sys.Result} {answer : Answer op}
  {shared shared' : sys.State}

theorem Waiting.of_code (call : sys.Call) : locking.Waiting ⟨call, [], sys.code call⟩ :=
  ⟨_, .refl _, locking.code_eq call⟩

theorem Waiting.advance (waiting : locking.Waiting ⟨call, past, .step op next⟩)
    (performed : sys.act tid shared ⟨op, answer⟩ shared') :
    (locking.outer op ∧ locking.Waiting ⟨call, past ++ [⟨op, answer⟩], next answer⟩) ∨
    (op = locking.enter ∧ locking.holder shared = none ∧ locking.holder shared' = some tid ∧
      ∃ captured, locking.Inside ⟨call, past ++ [⟨op, answer⟩], next answer⟩ captured
        (locking.body call captured)) := by
  obtain ⟨middle, leads, rest⟩ := waiting
  simp only at leads rest
  cases middle with
  | step op' next' =>
      injection rest with sameOp sameNext
      subst sameOp
      cases sameNext
      have outer := ((locking.before_within call).leads leads).2.head
      exact .inl ⟨outer, _, leads.snoc answer, rfl⟩
  | done captured =>
      cases captured with
      | error result => contradiction
      | ok captured =>
          injection rest with sameOp sameNext
          subst sameOp
          cases sameNext
          obtain ⟨rfl, free, held⟩ := locking.enter_holder performed
          refine .inr ⟨rfl, free, held, captured, ?_, ?_⟩
          · exact ⟨past, [], rfl, leads, .refl _⟩
          · exact locking.onEnter_granted call captured

theorem Inside.advance {captured : locking.Captured}
    {middle : Program Op Answer locking.Outcome}
    (inside : locking.Inside ⟨call, past, .step op next⟩ captured middle) (answer : Answer op) :
    (locking.inner op ∧ ∃ next', middle = .step op next' ∧
      locking.Inside ⟨call, past ++ [⟨op, answer⟩], next answer⟩ captured (next' answer)) ∨
    (op = locking.leave ∧ ∃ outcome, middle = .done outcome ∧
      locking.Left ⟨call, past ++ [⟨op, answer⟩], next answer⟩ captured outcome) := by
  obtain ⟨⟨front, back, order, entered, leads⟩, rest⟩ := inside
  simp only at order rest
  subst order
  cases middle with
  | step op' next' =>
      injection rest with sameOp sameNext
      subst sameOp
      cases sameNext
      have inner := ((locking.body_within call captured).leads leads).2.head
      refine .inl ⟨inner, next', rfl, ?_, rfl⟩
      exact ⟨front, back ++ [⟨op, answer⟩], by simp, entered, leads.snoc answer⟩
  | done outcome =>
      injection rest with sameOp sameNext
      subst sameOp
      cases sameNext
      refine .inr ⟨rfl, outcome, rfl, ?_⟩
      exact ⟨front, back, answer, [], by simp, entered, leads, .refl _⟩

theorem Left.advance {captured : locking.Captured} {outcome : locking.Outcome}
    (left : locking.Left ⟨call, past, .step op next⟩ captured outcome) (answer : Answer op) :
    locking.outer op ∧
      locking.Left ⟨call, past ++ [⟨op, answer⟩], next answer⟩ captured outcome := by
  obtain ⟨front, back, released, tail, order, entered, ran, leads⟩ := left
  simp only at order leads
  subst order
  refine ⟨((locking.after_within call outcome).leads leads).2.head, ?_⟩
  exact ⟨front, back, released, tail ++ [⟨op, answer⟩], by simp, entered, ran, leads.snoc answer⟩

end Advance

/-- The holder is inside, and nobody else is. -/
structure Exclusive (config : sys.Config) : Prop where
  held : ∀ tid, locking.holder config.shared = some tid →
    ∃ thread captured middle, config.threads tid = some thread ∧
      locking.Inside thread captured middle
  others : ∀ tid thread, config.threads tid = some thread →
    locking.holder config.shared ≠ some tid →
    locking.Waiting thread ∨ ∃ captured outcome, locking.Left thread captured outcome

variable {locking} {ok : sys.Config → sys.Label → Prop} {shared : sys.State}
  {labels : List sys.Label} {config last : sys.Config} {label : sys.Label}

theorem exclusive_start (free : locking.holder shared = none) :
    locking.Exclusive (Config.start shared) where
  held := by
    intro tid held
    rw [Config.start, free] at held
    contradiction
  others := by
    intro tid thread found
    cases found

/-- A step changes the standing of its own call; `unheld` says what becomes of the
lock. -/
theorem Exclusive.update (exclusive : locking.Exclusive config) {tid : Nat} {after : sys.Thread}
    (elsewhere : ∀ other, other ≠ tid →
      (locking.holder shared = some other ↔ locking.holder config.shared = some other))
    (inside : locking.holder shared = some tid → ∃ captured middle, locking.Inside after captured middle)
    (outside : locking.holder shared ≠ some tid →
      locking.Waiting after ∨ ∃ captured outcome, locking.Left after captured outcome) :
    locking.Exclusive ⟨shared, Function.update config.threads tid (some after)⟩ where
  held := by
    intro other held
    by_cases same : other = tid
    · subst same
      obtain ⟨captured, middle, inside⟩ := inside held
      exact ⟨after, captured, middle, Function.update_self .., inside⟩
    · obtain ⟨thread, captured, middle, found, inside⟩ :=
        exclusive.held other ((elsewhere other same).mp held)
      exact ⟨thread, captured, middle, (Function.update_of_ne same ..).trans found, inside⟩
  others := by
    intro other thread found unheld
    rcases find_update found with ⟨rfl, rfl⟩ | ⟨same, found⟩
    · exact outside unheld
    · exact exclusive.others other thread found fun held => unheld ((elsewhere other same).mpr held)

theorem Exclusive.step (exclusive : locking.Exclusive config) (step : Step config label last) :
    locking.Exclusive last := by
  cases step with
  | @invoke tid call fresh =>
      have unheld : locking.holder config.shared ≠ some tid := by
        intro held
        obtain ⟨thread, _, _, found, _⟩ := exclusive.held tid held
        rw [fresh] at found
        contradiction
      exact exclusive.update (fun _ _ => Iff.rfl) (fun held => absurd held unheld)
        fun _ => .inl (.of_code call)
  | @drift env shared changed =>
      have same := locking.drift_holder changed
      exact ⟨fun tid held => exclusive.held tid (same.symm.trans held),
        fun tid thread found unheld => exclusive.others tid thread found fun held =>
          unheld (same.trans held)⟩
  | @act tid call past op next answer shared running performed =>
      by_cases held : locking.holder config.shared = some tid
      · obtain ⟨thread, captured, middle, found, inside⟩ := exclusive.held tid held
        rw [running, Option.some.injEq] at found
        subst found
        rcases inside.advance answer with ⟨inner, next', _, insideNow⟩ | ⟨rfl, outcome, _, left⟩
        · have same := locking.inner_holder inner performed
          exact exclusive.update (fun _ _ => by rw [same]) (fun _ => ⟨_, _, insideNow⟩)
            fun unheld => absurd (same.trans held) unheld
        · have released := locking.leave_holder performed
          refine exclusive.update (fun other different => ?_) (fun held => ?_) fun _ => .inr ⟨_, _, left⟩
          · rw [released, held]
            exact iff_of_false nofun fun same => different (Option.some.inj same).symm
          · rw [released] at held
            contradiction
      · rcases exclusive.others tid _ running held with waiting | ⟨captured, outcome, left⟩
        · rcases waiting.advance performed with ⟨outer, waiting⟩ | ⟨rfl, free, heldNow, captured, inside⟩
          · have same := locking.outer_holder outer performed
            exact exclusive.update (fun _ _ => by rw [same]) (fun now => absurd (same.symm.trans now) held)
              fun _ => .inl waiting
          · refine exclusive.update (fun other different => ?_) (fun _ => ⟨_, _, inside⟩)
              fun unheld => absurd heldNow unheld
            rw [heldNow, free]
            exact iff_of_false (fun same => different (Option.some.inj same).symm) nofun
        · obtain ⟨outer, left⟩ := left.advance answer
          have same := locking.outer_holder outer performed
          exact exclusive.update (fun _ _ => by rw [same]) (fun now => absurd (same.symm.trans now) held)
            fun _ => .inr ⟨_, _, left⟩

/-- In every reachable configuration only the holder is inside. -/
theorem exclusive (run : RunWhere ok (Config.start shared) labels last)
    (free : locking.holder shared = none) : locking.Exclusive last := by
  induction run with
  | refl => exact exclusive_start free
  | snoc _ _ step ih => exact ih.step step

end Locking

end TariVault
