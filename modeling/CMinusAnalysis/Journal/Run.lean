import CMinusAnalysis.Arena
import CMinusAnalysis.Journal.Entry

namespace CMinusAnalysis

/-! A run does its work while keeping a journal, and stops at the first fault.
What it noted down before the fault stays in the journal. A run is handed the
entries of all work before it, latest first, and puts its own in front of them
without reading them. So its result never depends on the journal, and reasoning
about results can leave the journal out of sight: `result` takes sequencing of
runs to sequencing of results. -/

structure Run (α : Type u) where
  perform : List Entry → Except Fault α × List Entry
  onlyAdds : ∀ earlier,
    perform earlier = ((perform []).1, (perform []).2 ++ earlier)

namespace Run

def result (run : Run α) : Except Fault α :=
  (run.perform []).1

/-- What a run notes down when nothing came before it, in order. -/
def journal (run : Run α) : List Entry :=
  (run.perform []).2.reverse

theorem perform_eq (run : Run α) (earlier : List Entry) :
    run.perform earlier = (run.result, run.journal.reverse ++ earlier) := by
  rw [run.onlyAdds earlier, result, journal, List.reverse_reverse]

@[ext] theorem ext {left right : Run α}
    (journals : left.journal = right.journal)
    (results : left.result = right.result) : left = right := by
  have performs : left.perform = right.perform := by
    funext earlier
    rw [perform_eq, perform_eq, journals, results]
  cases left
  cases right
  cases performs
  rfl

@[inline] protected def pure (value : α) : Run α where
  perform earlier := (.ok value, earlier)
  onlyAdds _ := rfl

@[inline] protected def bind (start : Run α) (next : α → Run β) : Run β where
  perform earlier :=
    match start.perform earlier with
    | (.error fault, entries) => (.error fault, entries)
    | (.ok value, entries) => (next value).perform entries
  onlyAdds earlier := by
    rw [start.perform_eq earlier, start.perform_eq []]
    cases start.result with
    | error fault => simp
    | ok value => simp [(next value).perform_eq]

instance : Monad Run where
  pure := Run.pure
  bind := Run.bind

@[inline] def ofExcept (result : Except Fault α) : Run α where
  perform earlier := (result, earlier)
  onlyAdds _ := rfl

instance : MonadLift (Except Fault) Run where
  monadLift := ofExcept

@[inline] def fail (fault : Fault) : Run α :=
  ofExcept (.error fault)

@[inline] def record (entry : Entry) : Run PUnit where
  perform earlier := (.ok ⟨⟩, entry :: earlier)
  onlyAdds _ := rfl

@[simp] theorem journal_pure (value : α) :
    (pure value : Run α).journal = [] := rfl

@[simp] theorem result_pure (value : α) :
    (pure value : Run α).result = .ok value := rfl

theorem perform_bind (start : Run α) (next : α → Run β)
    (earlier : List Entry) :
    (start >>= next).perform earlier =
      match start.result with
      | .error fault => (.error fault, start.journal.reverse ++ earlier)
      | .ok value =>
          (next value).perform (start.journal.reverse ++ earlier) := by
  change (Run.bind start next).perform earlier = _
  simp only [Run.bind, start.perform_eq earlier]
  cases start.result <;> rfl

@[simp] theorem result_bind (start : Run α) (next : α → Run β) :
    (start >>= next).result =
      start.result >>= fun value => (next value).result := by
  rw [result, perform_bind]
  cases start.result with
  | error fault => rfl
  | ok value =>
      change ((next value).perform _).1 = (next value).result
      rw [perform_eq]

@[simp] theorem result_map (transform : α → β) (run : Run α) :
    (transform <$> run).result = transform <$> run.result := by
  change (run >>= fun value => pure (transform value)).result = _
  rw [result_bind]
  cases run.result <;> rfl

@[simp] theorem result_ofExcept (result : Except Fault α) :
    (ofExcept result).result = result := rfl

@[simp] theorem result_monadLift (result : Except Fault α) :
    (monadLift result : Run α).result = result := rfl

@[simp] theorem result_fail (fault : Fault) :
    (fail fault : Run α).result = .error fault := rfl

@[simp] theorem result_record (entry : Entry) :
    (record entry).result = .ok ⟨⟩ := rfl

@[simp] theorem journal_record (entry : Entry) :
    (record entry).journal = [entry] := rfl

theorem result_bind_eq_ok_iff {start : Run α} {next : α → Run β}
    {value : β} :
    (start >>= next).result = .ok value ↔
      ∃ middle, start.result = .ok middle ∧ (next middle).result = .ok value := by
  rw [result_bind]
  cases start.result with
  | error fault => simp [Bind.bind, Except.bind]
  | ok middle => simp [Bind.bind, Except.bind]

theorem journal_bind_of_ok {start : Run α} {value : α}
    (ok : start.result = .ok value) (next : α → Run β) :
    (start >>= next).journal = start.journal ++ (next value).journal := by
  rw [journal, perform_bind, ok]
  simp [(next value).perform_eq]

theorem journal_bind_of_error {start : Run α} {fault : Fault}
    (error : start.result = .error fault) (next : α → Run β) :
    (start >>= next).journal = start.journal := by
  rw [journal, perform_bind, error]
  simp

instance : LawfulMonad Run := LawfulMonad.mk' Run
  (by
    intro α run
    apply Run.ext
    · cases equation : run.result with
      | error fault => exact journal_bind_of_error equation _
      | ok value =>
          exact (journal_bind_of_ok equation _).trans (List.append_nil _)
    · rw [result_map]
      cases run.result <;> rfl)
  (by
    intro α β value next
    rfl)
  (by
    intro α β γ run first second
    apply Run.ext
    · cases equation : run.result with
      | error fault =>
          have stopped : (run >>= first).result = .error fault := by
            rw [result_bind, equation]
            rfl
          rw [journal_bind_of_error stopped, journal_bind_of_error equation,
            journal_bind_of_error equation]
      | ok value =>
          have continued :
              (run >>= first).result = (first value).result := by
            rw [result_bind, equation]
            rfl
          rw [journal_bind_of_ok equation]
          cases middle : (first value).result with
          | error fault =>
              rw [journal_bind_of_error (continued.trans middle),
                journal_bind_of_ok equation, journal_bind_of_error middle]
          | ok result =>
              rw [journal_bind_of_ok (continued.trans middle),
                journal_bind_of_ok equation, journal_bind_of_ok middle,
                List.append_assoc]
    · simp only [result_bind]
      cases run.result <;> rfl)

end Run

end CMinusAnalysis
