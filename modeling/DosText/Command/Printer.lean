import DosText.Command

/-! Writes a command as a line, and says which commands have a line that reads back. -/

namespace DosText.Command

/-- The line of a command: keyword, space, name and tail; a second name stands behind a comma,
and arguments alone follow their keyword at once. -/
def render : Command → Bytes
  | empty => []
  | monitor tail => Keyword.monitor.text ++ tail
  | noMonitor tail => Keyword.noMonitor.text ++ tail
  | named verb name tail => (Keyword.named verb).text ++ code ' ' :: name ++ tail
  | close name tail => Keyword.close.text ++ code ' ' :: name ++ tail
  | rename source target tail =>
    Keyword.rename.text ++ code ' ' :: source ++ code ',' :: target ++ tail

/-- A name that can stand on a line behind blanks: name bytes, the first of them no space. -/
def IsPlainName (name : Name) : Prop :=
  name.all isNameByte = true ∧ name.head? ≠ some (code ' ')

instance (name : Name) : Decidable (IsPlainName name) := by
  unfold IsPlainName; infer_instance

/-- A name where one is required: a plain one that is not empty, or a single space. -/
def IsRequiredName (name : Name) : Prop := name = [code ' '] ∨ (name ≠ [] ∧ IsPlainName name)

instance (name : Name) : Decidable (IsRequiredName name) := by
  unfold IsRequiredName; infer_instance

/-- A tail behind a name: nothing, or a comma and printable bytes. -/
def IsTail (tail : Bytes) : Prop :=
  tail.all isPrintable = true ∧ (tail = [] ∨ tail.head? = some (code ','))

instance (tail : Bytes) : Decidable (IsTail tail) := by
  unfold IsTail; infer_instance

/-- The commands that a line can be read as. -/
def WellFormed : Command → Prop
  | empty => True
  | monitor tail => tail.all isPrintable = true
  | noMonitor tail => tail.all isPrintable = true
  | named _ name tail => IsRequiredName name ∧ IsTail tail
  | close name tail => IsPlainName name ∧ IsTail tail
  | rename source target tail => IsRequiredName source ∧ IsRequiredName target ∧ IsTail tail

instance (command : Command) : Decidable command.WellFormed := by
  cases command <;> unfold WellFormed <;> infer_instance

end DosText.Command
