import Restyle.Proofs.Workspace.Task
/-!
Tasks that go on where others fail. What a failed task has written comes first in what such a task
writes.
-/

namespace Restyle.Task

variable {σ ε ε' α β : Type}

/-- A task that takes nothing back of what was written. -/
def Grows (t : Task σ ε α) : Prop := ∀ w : Workspace σ, w.writes <+: (t w).2.writes

theorem Grows.apply {t : Task σ ε α} (h : t.Grows) {w w' : Workspace σ} {r : Except ε α}
    (result : t w = (r, w')) : w.writes <+: w'.writes := by
  have more := h w
  rwa [result] at more

theorem Quiet.grows {t : Task σ ε α} (h : t.Quiet) : t.Grows := by
  intro w
  exact (h w).writes ▸ List.prefix_rfl

theorem writeText_grows (p : Path) (s : String) : (writeText p s : Task σ FileError Unit).Grows := by
  intro w
  unfold writeText
  split
  · exact List.prefix_append _ _
  · exact List.prefix_rfl

/-- `t'` does what `t` does where `t` succeeds, and may go on where `t` fails. -/
structure Continues (t t' : Task σ ε α) : Prop where
  ok : ∀ {w w' : Workspace σ} {a : α}, t w = (.ok a, w') → t' w = (.ok a, w')
  error : ∀ {w w' : Workspace σ} {e : ε}, t w = (.error e, w') → w'.writes <+: (t' w).2.writes
  grows : t'.Grows

namespace Continues

theorem refl {t : Task σ ε α} (h : t.Grows) : t.Continues t where
  ok := id
  error := by
    intro w w' e failed
    exact failed ▸ List.prefix_rfl
  grows := h

theorem of_quiet {t t' : Task σ ε α} (quiet : t.Quiet) (quiet' : t'.Quiet)
    (ok : ∀ {w w' : Workspace σ} {a : α}, t w = (.ok a, w') → t' w = (.ok a, w')) :
    t.Continues t' where
  ok := ok
  error := by
    intro w w' e failed
    rw [(quiet.apply failed).writes]
    exact quiet'.grows w
  grows := quiet'.grows

theorem bind {t t' : Task σ ε α} {f f' : α → Task σ ε β} (h : t.Continues t')
    (h' : ∀ a, (f a).Continues (f' a)) : (t >>= f).Continues (t' >>= f') where
  ok := by
    intro w w' b done
    obtain ⟨a, w₁, first, later⟩ := bind_eq_ok_iff.mp done
    exact bind_eq_ok_iff.mpr ⟨a, w₁, h.ok first, (h' a).ok later⟩
  error := by
    intro w w' e failed
    rcases bind_eq_error_iff.mp failed with failed | ⟨a, w₁, first, failed⟩
    · -- Where `t` fails, `t'` may go on to `f'`, which only adds to what was written.
      have written := h.error failed
      rcases result : t' w with ⟨e' | a, w₁⟩
      · rw [result] at written
        rw [bind_of_error result]
        exact written
      · rw [result] at written
        rw [bind_of_ok result]
        exact written.trans ((h' a).grows w₁)
    · rw [bind_of_ok (h.ok first)]
      exact (h' a).error failed
  grows := by
    intro w
    rcases result : t' w with ⟨e | a, w₁⟩
    · rw [bind_of_error result]
      exact h.grows.apply result
    · rw [bind_of_ok result]
      exact (h.grows.apply result).trans ((h' a).grows w₁)

theorem mapError {t t' : Task σ ε α} (h : t.Continues t') (f : ε → ε') :
    (t.mapError f).Continues (t'.mapError f) := by
  have same : ∀ w, ((t'.mapError f) w).2 = (t' w).2 := by
    intro w
    unfold Task.mapError
    rcases t' w with ⟨e | a, w₁⟩ <;> rfl
  constructor
  · intro w w' a done
    exact mapError_of_ok (h.ok (mapError_eq_ok_iff.mp done)) f
  · intro w w' e failed
    obtain ⟨cause, failed, -⟩ := mapError_eq_error_iff.mp failed
    rw [same]
    exact h.error failed
  · intro w
    rw [same]
    exact h.grows w

theorem mapM {f f' : α → Task σ ε β} (h : ∀ a, (f a).Continues (f' a)) (as : List α) :
    (as.mapM f).Continues (as.mapM f') := by
  induction as with
  | nil =>
      rw [List.mapM_nil, List.mapM_nil]
      exact refl (Quiet.pure []).grows
  | cons a as ih =>
      rw [List.mapM_cons, List.mapM_cons]
      exact (h a).bind fun b => ih.bind fun bs => refl (Quiet.pure (b :: bs)).grows

end Continues

end Restyle.Task
