import CMinusAnalysis.Journal.Run

namespace CMinusAnalysis

@[simp] theorem ok_bind (value : α) (next : α → Except ε β) :
    ((.ok value : Except ε α) >>= next) = next value := rfl

@[simp] theorem error_bind (error : ε) (next : α → Except ε β) :
    ((.error error : Except ε α) >>= next) = .error error := rfl

@[simp] theorem pure_eq_ok (value : α) :
    (pure value : Except ε α) = .ok value := rfl

@[simp] theorem map_ok (transform : α → β) (value : α) :
    transform <$> (.ok value : Except ε α) = .ok (transform value) := rfl

theorem bind_eq_ok_iff {start : Except ε α} {next : α → Except ε β}
    {value : β} :
    start >>= next = .ok value ↔
      ∃ middle, start = .ok middle ∧ next middle = .ok value := by
  cases start <;> simp

end CMinusAnalysis
