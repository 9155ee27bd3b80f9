import TariVault.Program.Interleaving
import TariVault.Program.Interpretation

namespace TariVault

open Program TariVault.System

/-! # Operations that take effect at one of their steps

The operations of one system are carried out by programs of smaller steps of
another, between which the other calls go on. An operation lands at the small step
that makes it happen: there, and only there, the abstract state follows. What the
others may do in the meantime is a relation between states, and a program is judged
by what it does whatever they do.
-/

variable {Op Op' : Type} {Answer : Op → Type} {Answer' : Op' → Type}

/-- Calls that carry out, by programs of smaller steps, the operations of the calls
of `high`. -/
structure Realisation (high : System Op Answer) (Op' : Type) (Answer' : Op' → Type) where
  Call : Type
  State : Type
  Env : Type
  abstract : Call → high.Call
  lower : Call → (op : Op) → Program Op' Answer' (Answer op)
  code : Call → Program Op' Answer' high.Result
  code_eq : ∀ call, code call = (high.code (abstract call)).interpret (lower call)
  act : Nat → State → Event Answer' → State → Prop
  drift : State → Env → State → Prop

/-- The system of the small steps. -/
abbrev Realisation.low {high : System Op Answer} (real : Realisation high Op' Answer') :
    System Op' Answer' where
  Call := real.Call
  Result := high.Result
  State := real.State
  Env := real.Env
  code := real.code
  act := real.act
  drift := real.drift

/-- How the states correspond, what a call has to expect of everything else, and
which runs are considered. -/
structure Correspondence {high : System Op Answer} (real : Realisation high Op' Answer') where
  agrees : real.State → high.State → Prop
  others : Nat → real.State → real.State → Prop
  /-- The call is between two of its operations. -/
  idle : Nat → real.State → Prop
  permits : Nat → Event Answer' → Prop
  permitsDrift : real.State → real.Env → Prop
  /-- What the operation of a call may be where it lands. -/
  landing : Nat → high.State → Event Answer → high.State → Prop
  landing_act : ∀ {tid abstract event abstract'}, landing tid abstract event abstract' →
    high.act tid abstract event abstract'
  others_refl : ∀ tid state, others tid state state
  others_trans : ∀ {tid first second third}, others tid first second → others tid second third →
    others tid first third
  idle_others : ∀ {tid state state'}, idle tid state → others tid state state' → idle tid state'

namespace Correspondence

variable {high : System Op Answer} {real : Realisation high Op' Answer'} (corr : Correspondence real)
  {α β : Type}

/-- Performed by call `tid` as a part of `op`, the program ends as `post` says. It
disturbs nobody, and changes the abstract state at most once, as `op` does. `landed`
is the answer of `op` if that has happened. -/
def Lands (tid : Nat) (op : Op) (post : α → Option (Answer op) → real.State → Prop) :
    Program Op' Answer' α → Option (Answer op) → real.State → Prop
  | .done value, landed, state => ∀ now, corr.others tid state now → post value landed now
  | .step small next, landed, state =>
      ∀ before, corr.others tid state before → ∀ abstract answer after,
        corr.agrees before abstract → corr.permits tid ⟨small, answer⟩ →
        real.act tid before ⟨small, answer⟩ after →
        (∀ other, other ≠ tid → corr.others other before after) ∧
          (corr.agrees after abstract ∧ Lands tid op post (next answer) landed after ∨
            landed = none ∧ ∃ result abstract', corr.landing tid abstract ⟨op, result⟩ abstract' ∧
              corr.agrees after abstract' ∧ Lands tid op post (next answer) (some result) after)

variable {corr} {tid : Nat} {op : Op} {post post' : α → Option (Answer op) → real.State → Prop}
  {program : Program Op' Answer' α} {landed : Option (Answer op)} {state state' : real.State}

/-- What is known of a program stays true while others act. -/
theorem Lands.stable (lands : corr.Lands tid op post program landed state)
    (moved : corr.others tid state state') : corr.Lands tid op post program landed state' := by
  cases program with
  | done value => exact fun now later => lands now (corr.others_trans moved later)
  | step small next => exact fun before later => lands before (corr.others_trans moved later)

theorem Lands.value {value : α} (lands : corr.Lands tid op post (.done value) landed state) :
    post value landed state :=
  lands state (corr.others_refl tid state)

/-- To perform the same operation, it is enough to go on as well after every answer. -/
theorem Lands.next {small : Op'} {next : Answer' small → Program Op' Answer' α}
    {next' : Answer' small → Program Op' Answer' β} {final : β → Option (Answer op) → real.State → Prop}
    (lands : corr.Lands tid op post (.step small next) landed state)
    (rest : ∀ answer landed state, corr.Lands tid op post (next answer) landed state →
      corr.Lands tid op final (next' answer) landed state) :
    corr.Lands tid op final (.step small next') landed state := by
  intro before moved abstract answer after agrees permitted performed
  obtain ⟨undisturbed, goesOn⟩ := lands before moved abstract answer after agrees permitted performed
  refine ⟨undisturbed, ?_⟩
  rcases goesOn with ⟨agrees', further⟩ | ⟨fresh, result, abstract', happens, agrees', further⟩
  · exact .inl ⟨agrees', rest answer _ _ further⟩
  · exact .inr ⟨fresh, result, abstract', happens, agrees', rest answer _ _ further⟩

theorem Lands.weaken (lands : corr.Lands tid op post program landed state)
    (weaker : ∀ value landed state, post value landed state → post' value landed state) :
    corr.Lands tid op post' program landed state := by
  induction program generalizing landed state with
  | done value => exact fun now later => weaker _ _ _ (lands now later)
  | step small next ih => exact lands.next fun answer _ _ further => ih answer further

theorem Lands.bind {rest : α → Program Op' Answer' β}
    {final : β → Option (Answer op) → real.State → Prop}
    (first : corr.Lands tid op post program landed state)
    (later : ∀ value landed state, post value landed state →
      corr.Lands tid op final (rest value) landed state) :
    corr.Lands tid op final (program >>= rest) landed state := by
  induction program generalizing landed state with
  | done value => exact later _ _ _ first.value
  | step small next ih => exact first.next fun answer _ _ further => ih answer further

theorem Lands.of_map {f : α → β} {final : β → Option (Answer op) → real.State → Prop}
    (lands : corr.Lands tid op final (f <$> program) landed state) :
    corr.Lands tid op (fun value => final (f value)) program landed state := by
  induction program generalizing landed state with
  | done value => exact lands
  | step small next ih => exact lands.next fun answer _ _ further => ih answer further

theorem Lands.map {f : α → β} {final : β → Option (Answer op) → real.State → Prop}
    (lands : corr.Lands tid op (fun value => final (f value)) program landed state)
    (stable : ∀ {value landed state state'}, final value landed state → corr.others tid state state' →
      final value landed state') :
    corr.Lands tid op final (f <$> program) landed state := by
  rw [map_eq_pure_bind]
  exact lands.bind fun value landed state ends now moved => stable ends moved

/-- A sequence that can fail goes on after a success only. -/
theorem Lands.bind_ok {ε : Type} {first : ExceptT ε (Program Op' Answer') α}
    {rest : α → ExceptT ε (Program Op' Answer') β} (good : α → Option (Answer op) → real.State → Prop)
    (bad : ε → Option (Answer op) → real.State → Prop)
    {final : Except ε β → Option (Answer op) → real.State → Prop}
    (lands : corr.Lands tid op (Either good bad) first.run landed state)
    (fails : ∀ error landed state now, bad error landed state → corr.others tid state now →
      final (.error error) landed now)
    (later : ∀ value landed state, good value landed state →
      corr.Lands tid op final (rest value).run landed state) :
    corr.Lands tid op final (first >>= rest).run landed state := by
  rw [ExceptT.run_bind]
  refine lands.bind fun result landed state ends => ?_
  cases result with
  | ok value => exact later value landed state ends
  | error error => exact fun now moved => fails error landed state now ends moved

end Correspondence

/-- A run whose steps, from one configuration to the next, are as `ok` says. -/
inductive System.RunThrough {sys : System Op Answer} (ok : sys.Config → sys.Label → sys.Config → Prop)
    (first : sys.Config) : List sys.Label → sys.Config → Prop where
  | refl : RunThrough ok first [] first
  | snoc {labels config label last} (run : RunThrough ok first labels config) (step : Step config label last)
      (allowed : ok config label last) : RunThrough ok first (labels ++ [label]) last

namespace System.RunThrough

variable {sys : System Op Answer} {ok : sys.Config → sys.Label → sys.Config → Prop}
  {first middle last : sys.Config} {labels labels' : List sys.Label}

theorem trans (front : RunThrough ok first labels middle) (back : RunThrough ok middle labels' last) :
    RunThrough ok first (labels ++ labels') last := by
  induction back with
  | refl => simpa using front
  | snoc _ step allowed ih =>
      rw [← List.append_assoc]
      exact .snoc ih step allowed

theorem runWhere {ok' : sys.Config → sys.Label → Prop} (run : RunThrough ok first labels last)
    (weaker : ∀ config label last, ok config label last → ok' config label) : RunWhere ok' first labels last := by
  induction run with
  | refl => exact .refl _
  | snoc _ step allowed ih => exact .snoc ih (weaker _ _ _ allowed) step

theorem weaken {ok' : sys.Config → sys.Label → sys.Config → Prop} (run : RunThrough ok first labels last)
    (weaker : ∀ config label last, ok config label last → ok' config label last) :
    RunThrough ok' first labels last := by
  induction run with
  | refl => exact .refl
  | snoc _ step allowed ih => exact .snoc ih step (weaker _ _ _ allowed)

end System.RunThrough

/-- A run as its steps, each with the configuration it leads to. -/
inductive System.Passage {sys : System Op Answer} (ok : sys.Config → sys.Label → Prop) (first : sys.Config) :
    List (sys.Label × sys.Config) → sys.Config → Prop where
  | refl : Passage ok first [] first
  | snoc {steps config label last} (run : Passage ok first steps config) (allowed : ok config label)
      (step : Step config label last) : Passage ok first (steps ++ [(label, last)]) last

namespace System.Passage

variable {sys : System Op Answer} {ok ok' : sys.Config → sys.Label → Prop} {first middle last : sys.Config}
  {steps steps' : List (sys.Label × sys.Config)}

theorem weaken (weaker : ∀ config label, ok config label → ok' config label) (run : Passage ok first steps last) :
    Passage ok' first steps last := by
  induction run with
  | refl => exact .refl
  | snoc _ allowed step ih => exact .snoc ih (weaker _ _ allowed) step

theorem trans (front : Passage ok first steps middle) (back : Passage ok middle steps' last) :
    Passage ok first (steps ++ steps') last := by
  induction back with
  | refl => simpa using front
  | snoc _ allowed step ih =>
      rw [← List.append_assoc]
      exact .snoc ih allowed step

theorem of_run {labels : List sys.Label} (run : RunWhere ok first labels last) :
    ∃ steps, Passage ok first steps last := by
  induction run with
  | refl => exact ⟨[], .refl⟩
  | snoc _ allowed step ih =>
      obtain ⟨steps, passage⟩ := ih
      exact ⟨_, passage.snoc allowed step⟩

end System.Passage

/-- Along with the steps of a run goes a run of another system: at each of them the other
takes some, which are as `ok` says, and then the two are as `rel` says. -/
inductive System.Alongside {low : System Op' Answer'} {high : System Op Answer}
    (ok : high.Config → high.Label → high.Config → Prop) (rel : low.Config → high.Config → Prop)
    (first : low.Config) (first' : high.Config) :
    List (low.Label × low.Config) → low.Config → List high.Label → high.Config → Prop where
  | refl (related : rel first first') : Alongside ok rel first first' [] first [] first'
  | snoc {steps config labels config' label last more last'}
      (along : Alongside ok rel first first' steps config labels config') (step : Step config label last)
      (answered : RunThrough ok config' more last') (related : rel last last') :
      Alongside ok rel first first' (steps ++ [(label, last)]) last (labels ++ more) last'

namespace System.Alongside

variable {low : System Op' Answer'} {high : System Op Answer}
  {ok ok' : high.Config → high.Label → high.Config → Prop} {rel rel' : low.Config → high.Config → Prop}
  {first last : low.Config} {first' last' : high.Config} {steps : List (low.Label × low.Config)}
  {labels : List high.Label}

theorem mono (along : Alongside ok rel first first' steps last labels last')
    (weaker : ∀ config label last, ok config label last → ok' config label last)
    (wider : ∀ config config', rel config config' → rel' config config') :
    Alongside ok' rel' first first' steps last labels last' := by
  induction along with
  | refl related => exact .refl (wider _ _ related)
  | snoc _ step answered related ih => exact .snoc ih step (answered.weaken weaker) (wider _ _ related)

theorem runThrough (along : Alongside ok rel first first' steps last labels last') :
    RunThrough ok first' labels last' := by
  induction along with
  | refl => exact .refl
  | snoc _ _ answered _ ih => exact ih.trans answered

theorem related (along : Alongside ok rel first first' steps last labels last') : rel last last' := by
  cases along with
  | refl related => exact related
  | snoc _ _ _ related => exact related

end System.Alongside

/-- Every operation lands exactly once, between a state in which its call is idle and
its answer, and the surroundings are those of `high`. -/
structure Refinement {high : System Op Answer} (real : Realisation high Op' Answer') extends
    Correspondence real where
  drifts : high.State → high.Env → Prop
  lands : ∀ call tid op state, idle tid state →
    toCorrespondence.Lands tid op (fun value landed state => landed = some value ∧ idle tid state)
      (real.lower call op) none state
  drift : ∀ {state env state' abstract}, permitsDrift state env → real.drift state env state' →
    agrees state abstract → (∀ tid, others tid state state') ∧
      (agrees state' abstract ∨ ∃ env' abstract', drifts abstract env' ∧
        high.drift abstract env' abstract' ∧ agrees state' abstract')

namespace Refinement

variable {high : System Op Answer} {real : Realisation high Op' Answer'} (refines : Refinement real)

/-- The runs considered. -/
def Meets : real.low.Config → real.low.Label → Prop
  | _, .invoke _ _ => True
  | _, .act tid event => refines.permits tid event
  | config, .drift env => refines.permitsDrift config.shared env

/-- The steps of `high` that explain them. -/
def Explains : high.Config → high.Label → high.Config → Prop
  | _, .invoke _ _, _ => True
  | config, .act tid event, last => refines.landing tid config.shared event last.shared
  | config, .drift env, _ => refines.drifts config.shared env

/-- How far a call of `high` is when its counterpart still has `rest` to do: the
counterpart has returned, is at an operation that has not happened yet, or is at
one that has. -/
inductive Follows (tid : Nat) (call : real.Call) (state : real.State) :
    Program Op' Answer' high.Result → Program Op Answer high.Result → Prop where
  | returned {result} (idle : refines.idle tid state) :
      Follows tid call state (.done result) (.done result)
  | pending {op small next} {continued : Answer op → Program Op Answer high.Result}
      (lands : refines.Lands tid op (fun value landed state => landed = some value ∧ refines.idle tid state)
        (.step small next) none state) :
      Follows tid call state
        (.step small next >>= fun answer => (continued answer).interpret (real.lower call))
        (.step op continued)
  | landed {op answer small next} {continued : Answer op → Program Op Answer high.Result}
      (lands : refines.Lands tid op (fun value landed state => landed = some value ∧ refines.idle tid state)
        (.step small next) (some answer) state) :
      Follows tid call state
        (.step small next >>= fun answer => (continued answer).interpret (real.lower call))
        (continued answer)

variable {refines} {tid : Nat} {call : real.Call} {state state' : real.State}
  {abstract : high.State}

/-- A call between two operations. -/
theorem Follows.between (idle : refines.idle tid state) (program : Program Op Answer high.Result) :
    refines.Follows tid call state (program.interpret (real.lower call)) program := by
  cases program with
  | done result => exact .returned idle
  | step op continued =>
      have lands := refines.lands call tid op state idle
      rw [interpret]
      cases lowered : real.lower call op with
      | done value =>
          rw [lowered] at lands
          have impossible := lands.value.1
          contradiction
      | step small next =>
          rw [lowered] at lands
          exact .pending lands

/-- A call at an operation that has happened. -/
theorem Follows.after {op : Op} {answer : Answer op} {program : Program Op' Answer' (Answer op)}
    {continued : Answer op → Program Op Answer high.Result}
    (lands : refines.Lands tid op (fun value landed state => landed = some value ∧ refines.idle tid state)
      program (some answer) state) :
    refines.Follows tid call state
      (program >>= fun answer => (continued answer).interpret (real.lower call)) (continued answer) := by
  cases program with
  | done value =>
      obtain ⟨same, idle⟩ := lands.value
      cases same
      exact .between idle _
  | step small next => exact .landed lands

/-- A call at an operation that has not. -/
theorem Follows.before {op : Op} {program : Program Op' Answer' (Answer op)}
    {continued : Answer op → Program Op Answer high.Result}
    (lands : refines.Lands tid op (fun value landed state => landed = some value ∧ refines.idle tid state)
      program none state) :
    refines.Follows tid call state
      (program >>= fun answer => (continued answer).interpret (real.lower call))
      (.step op continued) := by
  cases program with
  | done value =>
      have impossible := lands.value.1
      contradiction
  | step small next => exact .pending lands

theorem Follows.stable {rest : Program Op' Answer' high.Result} {program : Program Op Answer high.Result}
    (follows : refines.Follows tid call state rest program) (moved : refines.others tid state state') :
    refines.Follows tid call state' rest program := by
  cases follows with
  | returned idle => exact .returned (refines.idle_others idle moved)
  | pending lands => exact .pending (lands.stable moved)
  | landed lands => exact .landed (lands.stable moved)

/-- A small step of a call is no step of its counterpart, or its operation. -/
theorem Follows.step {small : Op'} {next : Answer' small → Program Op' Answer' high.Result}
    {program : Program Op Answer high.Result} {answer : Answer' small}
    (follows : refines.Follows tid call state (.step small next) program)
    (agrees : refines.agrees state abstract) (permitted : refines.permits tid ⟨small, answer⟩)
    (performed : real.act tid state ⟨small, answer⟩ state') :
    (∀ other, other ≠ tid → refines.others other state state') ∧
      (refines.agrees state' abstract ∧ refines.Follows tid call state' (next answer) program ∨
        ∃ op continued result abstract', program = .step op continued ∧
          refines.landing tid abstract ⟨op, result⟩ abstract' ∧ refines.agrees state' abstract' ∧
          refines.Follows tid call state' (next answer) (continued result)) := by
  generalize whole : Program.step small next = rest at follows
  cases follows with
  | returned idle => contradiction
  | @pending op small' next' continued lands =>
      cases whole
      obtain ⟨undisturbed, goesOn⟩ := lands state (refines.others_refl ..) abstract answer state' agrees
        permitted performed
      refine ⟨undisturbed, ?_⟩
      rcases goesOn with ⟨agrees', rest⟩ | ⟨_, result, abstract', happens, agrees', rest⟩
      · exact .inl ⟨agrees', .before rest⟩
      · exact .inr ⟨op, continued, result, abstract', rfl, happens, agrees', .after rest⟩
  | @landed op result small' next' continued lands =>
      cases whole
      obtain ⟨undisturbed, goesOn⟩ := lands state (refines.others_refl ..) abstract answer state' agrees
        permitted performed
      refine ⟨undisturbed, .inl ?_⟩
      rcases goesOn with ⟨agrees', rest⟩ | ⟨impossible, _⟩
      · exact ⟨agrees', .after rest⟩
      · contradiction

/-- A configuration of the small steps and one of `high` that explains it. -/
structure Related (refines : Refinement real) (config : real.low.Config) (config' : high.Config) : Prop where
  agrees : refines.agrees config.shared config'.shared
  absent : ∀ tid, config.threads tid = none →
    config'.threads tid = none ∧ refines.idle tid config.shared
  present : ∀ tid thread, config.threads tid = some thread →
    ∃ thread', config'.threads tid = some thread' ∧ thread'.call = real.abstract thread.call ∧
      refines.Follows tid thread.call config.shared thread.rest thread'.rest

theorem related_start (agrees : refines.agrees state abstract) (idle : ∀ tid, refines.idle tid state) :
    refines.Related (Config.start state) (Config.start abstract) where
  agrees := agrees
  absent tid _ := ⟨rfl, idle tid⟩
  present tid thread found := by cases found

/-- The same calls are there, and what has returned has returned the same. -/
structure Mirrored (config : real.low.Config) (config' : high.Config) : Prop where
  absent : ∀ tid, config.threads tid = none → config'.threads tid = none
  present : ∀ tid thread, config.threads tid = some thread →
    ∃ thread', config'.threads tid = some thread' ∧ thread'.call = real.abstract thread.call ∧
      ∀ result, thread.Returned result → thread'.Returned result

theorem Follows.result {rest : Program Op' Answer' high.Result} {program : Program Op Answer high.Result}
    (follows : refines.Follows tid call state rest program) {result : high.Result}
    (returned : rest = .done result) : program = .done result := by
  cases follows with
  | returned idle =>
      cases returned
      rfl
  | pending lands => contradiction
  | landed lands => contradiction

theorem Related.mirrored {config : real.low.Config} {config' : high.Config}
    (related : refines.Related config config') : Mirrored config config' where
  absent tid free := (related.absent tid free).1
  present tid thread found := by
    obtain ⟨thread', found', called, follows⟩ := related.present tid thread found
    exact ⟨thread', found', called, fun result returned => follows.result returned⟩

section Step

variable {config last : real.low.Config} {config' : high.Config} {label : real.low.Label}

/-- Everything but call `tid` stays as it is, apart from what others do to it. -/
theorem Related.advance (related : refines.Related config config') {shared : real.State}
    {shared' : high.State} {thread : real.low.Thread} {thread' : high.Thread}
    (undisturbed : ∀ other, other ≠ tid → refines.others other config.shared shared)
    (agrees : refines.agrees shared shared') (called : thread'.call = real.abstract thread.call)
    (follows : refines.Follows tid thread.call shared thread.rest thread'.rest) :
    refines.Related ⟨shared, Function.update config.threads tid (some thread)⟩
      ⟨shared', Function.update config'.threads tid (some thread')⟩ where
  agrees := agrees
  absent := by
    intro other free
    by_cases same : other = tid
    · subst same
      have busy := (Function.update_self other (some thread) config.threads).symm.trans free
      contradiction
    · have freeBefore : config.threads other = none := (Function.update_of_ne same ..).symm.trans free
      obtain ⟨free', idle⟩ := related.absent other freeBefore
      exact ⟨(Function.update_of_ne same ..).trans free', refines.idle_others idle (undisturbed other same)⟩
  present := by
    intro other found present
    rcases find_update present with ⟨rfl, rfl⟩ | ⟨same, present⟩
    · exact ⟨thread', Function.update_self .., called, follows⟩
    · obtain ⟨found', present', called', follows'⟩ := related.present other found present
      exact ⟨found', (Function.update_of_ne same ..).trans present', called',
        follows'.stable (undisturbed other same)⟩

theorem Related.step (related : refines.Related config config') (allowed : refines.Meets config label)
    (step : Step config label last) :
    ∃ labels last', RunThrough refines.Explains config' labels last' ∧ refines.Related last last' := by
  cases step with
  | @invoke tid call free =>
      obtain ⟨free', idle⟩ := related.absent tid free
      refine ⟨[.invoke tid (real.abstract call)], _, .snoc .refl (.invoke free') trivial, ?_⟩
      refine related.advance (fun other _ => refines.others_refl ..) related.agrees rfl ?_
      simp only [real.code_eq]
      exact .between idle _
  | @act tid call past small next answer shared running performed =>
      obtain ⟨thread', found', called, follows⟩ := related.present tid _ running
      obtain ⟨undisturbed, goesOn⟩ := follows.step related.agrees allowed performed
      rcases goesOn with ⟨agrees, follows'⟩ |
        ⟨op, continued, result, abstract', head, happens, agrees, follows'⟩
      · refine ⟨[], config', .refl, ?_⟩
        have same : config'.threads = Function.update config'.threads tid (some thread') :=
          (Function.update_eq_self_iff.mpr found'.symm).symm
        obtain ⟨shared', threads'⟩ := config'
        simp only at same
        rw [same]
        exact related.advance undisturbed agrees called follows'
      · obtain ⟨call', past', rest'⟩ := thread'
        cases head
        refine ⟨[.act tid ⟨op, result⟩], _, .snoc .refl (.act found' (refines.landing_act happens)) happens, ?_⟩
        exact related.advance undisturbed agrees called follows'
  | @drift env shared changed =>
      obtain ⟨undisturbed, goesOn⟩ := refines.drift allowed changed related.agrees
      have carried {shared' : high.State} (agrees : refines.agrees shared shared') :
          refines.Related { config with shared } { config' with shared := shared' } := by
        refine ⟨agrees, fun tid free => ?_, fun tid thread found => ?_⟩
        · obtain ⟨free', idle⟩ := related.absent tid free
          exact ⟨free', refines.idle_others idle (undisturbed tid)⟩
        · obtain ⟨thread', found', called, follows⟩ := related.present tid thread found
          exact ⟨thread', found', called, follows.stable (undisturbed tid)⟩
      rcases goesOn with agrees | ⟨env', shared', moves, changed', agrees⟩
      · exact ⟨[], config', .refl, carried agrees⟩
      · exact ⟨[.drift env'], _, .snoc .refl (.drift changed') moves, carried agrees⟩

end Step

/-- Along with every run of the small steps goes a run of `high`, from any pair of
configurations that explain each other. -/
theorem Related.alongside {first last : real.low.Config} {steps : List (real.low.Label × real.low.Config)}
    {first' : high.Config} (related : refines.Related first first') (run : Passage refines.Meets first steps last) :
    ∃ labels last', Alongside refines.Explains refines.Related first first' steps last labels last' := by
  induction run with
  | refl => exact ⟨[], first', .refl related⟩
  | snoc run allowed step ih =>
      obtain ⟨labels, middle', along⟩ := ih
      obtain ⟨more, last', answered, last⟩ := along.related.step allowed step
      exact ⟨labels ++ more, last', along.snoc step answered last⟩

theorem Related.run {first last : real.low.Config} {labels : List real.low.Label} {first' : high.Config}
    (related : refines.Related first first') (run : RunWhere refines.Meets first labels last) :
    ∃ labels' last', RunThrough refines.Explains first' labels' last' ∧ refines.Related last last' := by
  obtain ⟨_, passage⟩ := Passage.of_run run
  obtain ⟨labels', last', along⟩ := related.alongside passage
  exact ⟨labels', last', along.runThrough, along.related⟩

/-- A call whose counterpart can give one answer only gives no other, however the run
goes on. -/
theorem Related.willReturn {ok : real.low.Config → real.low.Label → Prop} {config : real.low.Config}
    {config' : high.Config} {thread' : high.Thread} {result : high.Result}
    (related : refines.Related config config') (weaker : ∀ config label, ok config label → refines.Meets config label)
    (found' : config'.threads tid = some thread') (will : thread'.WillReturn result) :
    config.WillReturn ok tid result := by
  intro labels last thread answer run found returned
  obtain ⟨_, last', ran, related'⟩ := related.run (run.weaken weaker)
  obtain ⟨later', events, foundLater', _, _, leads⟩ :=
    (ran.runWhere fun _ _ _ _ => trivial : Run _ _ _).thread_stable found'
  obtain ⟨counterpart, foundCounterpart, _, returns⟩ := related'.mirrored.present tid thread found
  rw [foundLater'] at foundCounterpart
  cases foundCounterpart
  rw [returns answer returned] at leads
  exact will events answer leads

end Refinement

end TariVault
