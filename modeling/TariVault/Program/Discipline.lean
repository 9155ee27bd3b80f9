import TariVault.Program.Basic

namespace TariVault.Program

/-! # Programs that keep to a discipline

As long as the answers it receives are as they should be, such a program performs
only operations, and returns only results, that are as they should be.
-/

variable {Op : Type} {Answer : Op → Type} {α β : Type}

inductive Keeps (sends : Op → Prop) (receives : Event Answer → Prop) (returns : α → Prop) :
    Program Op Answer α → Prop where
  | done {value} (good : returns value) : Keeps sends receives returns (.done value)
  | step {op next} (here : sends op)
      (after : ∀ answer, receives ⟨op, answer⟩ → Keeps sends receives returns (next answer)) :
      Keeps sends receives returns (.step op next)

namespace Keeps

variable {sends : Op → Prop} {receives : Event Answer → Prop} {returns returns' : α → Prop}
  {program : Program Op Answer α}

theorem head {op : Op} {next : Answer op → Program Op Answer α}
    (keeps : (Program.step op next).Keeps sends receives returns) : sends op := by
  cases keeps with
  | step here _ => exact here

theorem tail {op : Op} {next : Answer op → Program Op Answer α}
    (keeps : (Program.step op next).Keeps sends receives returns) {answer : Answer op}
    (received : receives ⟨op, answer⟩) : (next answer).Keeps sends receives returns := by
  cases keeps with
  | step _ after => exact after answer received

theorem result {value : α} (keeps : (Program.done value).Keeps sends receives returns) : returns value := by
  cases keeps with
  | done good => exact good

theorem perform {op : Op} {returns : Answer op → Prop} (here : sends op)
    (answered : ∀ answer, receives ⟨op, answer⟩ → returns answer) :
    (Program.perform op).Keeps sends receives returns :=
  .step here fun answer received => .done (answered answer received)

theorem weaken (keeps : program.Keeps sends receives returns) (weaker : ∀ value, returns value → returns' value) :
    program.Keeps sends receives returns' := by
  induction keeps with
  | done good => exact .done (weaker _ good)
  | step here _ ih => exact .step here fun answer received => ih answer received

theorem bind {rest : α → Program Op Answer β} {returns' : β → Prop}
    (first : program.Keeps sends receives returns)
    (later : ∀ value, returns value → (rest value).Keeps sends receives returns') :
    (program >>= rest).Keeps sends receives returns' := by
  induction first with
  | done good => exact later _ good
  | step here _ ih => exact .step here fun answer received => ih answer received

theorem map {f : α → β} {returns' : β → Prop} (keeps : program.Keeps sends receives returns)
    (mapped : ∀ value, returns value → returns' (f value)) : (f <$> program).Keeps sends receives returns' :=
  keeps.bind fun value good => .done (mapped value good)

end Keeps

end TariVault.Program
