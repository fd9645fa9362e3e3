import Restyle.Tool
/-!
Tasks step by step: what a sequence of tasks did when it ends, and which tasks leave the files alone.
-/

namespace Restyle

namespace Task

variable {σ ε ε' α β : Type} {w w' : Workspace σ}

theorem pure_apply (a : α) (w : Workspace σ) : (pure a : Task σ ε α) w = (.ok a, w) := rfl

theorem throw_apply (e : ε) (w : Workspace σ) : (throw e : Task σ ε α) w = (.error e, w) := rfl

theorem bind_apply (t : Task σ ε α) (f : α → Task σ ε β) (w : Workspace σ) :
    (t >>= f) w = match t w with
      | (.ok a, w') => f a w'
      | (.error e, w') => (.error e, w') := by
  change (ExceptT.bindCont f (t w).1) (t w).2 = _
  rcases t w with ⟨(e | a), w'⟩
  · rfl
  · rfl

theorem bind_of_ok {t : Task σ ε α} {a : α} (h : t w = (.ok a, w')) (f : α → Task σ ε β) :
    (t >>= f) w = f a w' := by
  rw [bind_apply, h]

theorem bind_of_error {t : Task σ ε α} {e : ε} (h : t w = (.error e, w')) (f : α → Task σ ε β) :
    (t >>= f) w = (.error e, w') := by
  rw [bind_apply, h]

theorem throw_bind (e : ε) (f : α → Task σ ε β) :
    ((throw e : Task σ ε α) >>= f) = throw e := rfl

theorem bind_eq_ok_iff {t : Task σ ε α} {f : α → Task σ ε β} {b : β} :
    (t >>= f) w = (.ok b, w') ↔ ∃ a w₁, t w = (.ok a, w₁) ∧ f a w₁ = (.ok b, w') := by
  rcases h : t w with ⟨e | a, w₁⟩
  · rw [bind_of_error h]
    constructor
    · intro failed; cases failed
    · rintro ⟨a, w₂, ok, -⟩; cases ok
  · rw [bind_of_ok h]
    constructor
    · intro ok; exact ⟨a, w₁, rfl, ok⟩
    · rintro ⟨a', w₂, ok, later⟩; cases ok; exact later

theorem bind_eq_error_iff {t : Task σ ε α} {f : α → Task σ ε β} {e : ε} :
    (t >>= f) w = (.error e, w') ↔
      t w = (.error e, w') ∨ ∃ a w₁, t w = (.ok a, w₁) ∧ f a w₁ = (.error e, w') := by
  rcases h : t w with ⟨e' | a, w₁⟩
  · rw [bind_of_error h]
    constructor
    · intro failed; cases failed; exact .inl rfl
    · rintro (failed | ⟨a, w₂, ok, -⟩)
      · cases failed; rfl
      · cases ok
  · rw [bind_of_ok h]
    constructor
    · intro failed; exact .inr ⟨a, w₁, rfl, failed⟩
    · rintro (failed | ⟨a', w₂, ok, later⟩)
      · cases failed
      · cases ok; exact later

theorem pure_eq_ok_iff {a b : α} :
    (pure a : Task σ ε α) w = (.ok b, w') ↔ b = a ∧ w' = w := by
  rw [pure_apply]
  constructor
  · intro h
    obtain ⟨same, rfl⟩ := Prod.mk.inj h
    exact ⟨(Except.ok.inj same).symm, rfl⟩
  · rintro ⟨rfl, rfl⟩
    rfl

theorem mapError_eq_ok_iff {f : ε → ε'} {t : Task σ ε α} {a : α} :
    t.mapError f w = (.ok a, w') ↔ t w = (.ok a, w') := by
  unfold mapError
  rcases t w with ⟨e | b, w₁⟩
  · constructor
    · intro h; cases h
    · intro h; cases h
  · constructor
    · intro h; cases h; rfl
    · intro h; cases h; rfl

theorem mapError_eq_error_iff {f : ε → ε'} {t : Task σ ε α} {e : ε'} :
    t.mapError f w = (.error e, w') ↔ ∃ cause, t w = (.error cause, w') ∧ e = f cause := by
  unfold mapError
  rcases t w with ⟨c | b, w₁⟩
  · constructor
    · intro h; cases h; exact ⟨c, rfl, rfl⟩
    · rintro ⟨cause, h, rfl⟩; cases h; rfl
  · constructor
    · intro h; cases h
    · rintro ⟨cause, h, -⟩; cases h

theorem look_eq_iff {f : Workspace σ → Except ε α} {r : Except ε α} :
    look f w = (r, w') ↔ f w = r ∧ w' = w := by
  constructor
  · intro h; cases h; exact ⟨rfl, rfl⟩
  · rintro ⟨rfl, rfl⟩; rfl

theorem readText_apply (p : Path) (w : Workspace σ) :
    readText p w = (w.tree.readText w.here p, w) := rfl

theorem mapError_of_ok {t : Task σ ε α} {a : α} (h : t w = (.ok a, w')) (f : ε → ε') :
    t.mapError f w = (.ok a, w') := mapError_eq_ok_iff.mpr h

theorem mapError_of_error {t : Task σ ε α} {e : ε} (h : t w = (.error e, w')) (f : ε → ε') :
    t.mapError f w = (.error (f e), w') := mapError_eq_error_iff.mpr ⟨e, h, rfl⟩

end Task

/-- A property that a sequence of tasks has if each of them has it. -/
structure Task.Composes {σ ε : Type} (Q : (α : Type) → Task σ ε α → Prop) : Prop where
  pure {α : Type} (a : α) : Q α (Pure.pure a)
  bind {α β : Type} {t : Task σ ε α} {f : α → Task σ ε β} (first : Q α t)
    (later : ∀ a, Q β (f a)) : Q β (t >>= f)

theorem Task.Composes.mapM {σ ε α β : Type} {Q : (α : Type) → Task σ ε α → Prop} (h : Composes Q)
    {f : α → Task σ ε β} (each : ∀ a, Q β (f a)) (as : List α) : Q (List β) (as.mapM f) := by
  induction as with
  | nil =>
      rw [List.mapM_nil]
      exact h.pure []
  | cons a as ih =>
      rw [List.mapM_cons]
      exact h.bind (each a) fun b => h.bind ih fun bs => h.pure (b :: bs)

/-- A task that takes each workspace to one in a relation with it, whether it fails or not. -/
def Task.Keeps {σ ε α : Type} (t : Task σ ε α) (R : Workspace σ → Workspace σ → Prop) : Prop :=
  ∀ w, R w (t w).2

namespace Task.Keeps

variable {σ ε ε' α β : Type} {R : Workspace σ → Workspace σ → Prop}

theorem apply {t : Task σ ε α} (h : t.Keeps R) {w w' : Workspace σ} {r : Except ε α}
    (result : t w = (r, w')) : R w w' := by
  have kept := h w
  rwa [result] at kept

theorem pure (refl : ∀ w, R w w) (a : α) : (Pure.pure a : Task σ ε α).Keeps R := refl

theorem throw (refl : ∀ w, R w w) (e : ε) : (MonadExcept.throw e : Task σ ε α).Keeps R := refl

theorem look (refl : ∀ w, R w w) (f : Workspace σ → Except ε α) : (Task.look f).Keeps R := refl

theorem mapError {t : Task σ ε α} (h : t.Keeps R) (f : ε → ε') : (t.mapError f).Keeps R := by
  intro w
  unfold Task.mapError
  rcases result : t w with ⟨e | a, w₁⟩
  · exact h.apply result
  · exact h.apply result

theorem composes (ε : Type) (refl : ∀ w, R w w)
    (trans : ∀ w w' w'', R w w' → R w' w'' → R w w'') :
    Task.Composes fun α (t : Task σ ε α) => t.Keeps R where
  pure := pure refl
  bind := by
    intro α β t f first later w
    rcases result : t w with ⟨e | a, w₁⟩
    · rw [Task.bind_of_error result]
      exact first.apply result
    · rw [Task.bind_of_ok result]
      exact trans w w₁ _ (first.apply result) (later a w₁)

end Task.Keeps

/-- The same files, seen from the same directory, and no more written. -/
structure Workspace.SameFiles {σ : Type} (w w' : Workspace σ) : Prop where
  tree : w'.tree = w.tree
  here : w'.here = w.here
  writes : w'.writes = w.writes

namespace Workspace.SameFiles

variable {σ : Type} {w w' w'' : Workspace σ}

theorem refl (w : Workspace σ) : w.SameFiles w := ⟨rfl, rfl, rfl⟩

theorem trans (h : w.SameFiles w') (h' : w'.SameFiles w'') : w.SameFiles w'' :=
  ⟨h'.tree.trans h.tree, h'.here.trans h.here, h'.writes.trans h.writes⟩

end Workspace.SameFiles

/-- A task that leaves the files alone, whether it fails or not. -/
def Task.Quiet {σ ε α : Type} (t : Task σ ε α) : Prop :=
  ∀ w : Workspace σ, w.SameFiles (t w).2

namespace Task.Quiet

open Workspace (SameFiles)

variable {σ ε ε' α β : Type}

theorem pure (a : α) : Quiet (Pure.pure a : Task σ ε α) := SameFiles.refl

theorem throw (e : ε) : Quiet (MonadExcept.throw e : Task σ ε α) := SameFiles.refl

theorem look (f : Workspace σ → Except ε α) : Quiet (Task.look f) := SameFiles.refl

theorem keeps {t : Task σ ε α} (h : t.Quiet) : t.Keeps SameFiles := h

theorem apply {t : Task σ ε α} (h : t.Quiet) {w w' : Workspace σ} {r : Except ε α}
    (result : t w = (r, w')) : w.SameFiles w' := h.keeps.apply result

theorem composes (σ ε : Type) : Task.Composes fun α (t : Task σ ε α) => t.Quiet :=
  Keeps.composes ε SameFiles.refl fun _ _ _ => SameFiles.trans

theorem bind {t : Task σ ε α} {f : α → Task σ ε β} (h : t.Quiet) (h' : ∀ a, (f a).Quiet) :
    (t >>= f).Quiet := (composes σ ε).bind h h'

theorem mapError {t : Task σ ε α} (h : t.Quiet) (f : ε → ε') : (t.mapError f).Quiet :=
  h.keeps.mapError f

theorem mapM {f : α → Task σ ε β} (h : ∀ a, (f a).Quiet) (as : List α) : (as.mapM f).Quiet :=
  (composes σ ε).mapM h as

end Task.Quiet

def StyleCompiler.Quiet {σ : Type} (c : StyleCompiler σ) : Prop :=
  ∀ source root, (c.compile source root).Quiet

def Formatter.Quiet {σ : Type} (f : Formatter σ) : Prop :=
  ∀ source file root, (f.format source file root).Quiet

/-- A task whose errors all satisfy a condition. -/
def Task.FailsOnly {σ ε α : Type} (t : Task σ ε α) (P : ε → Prop) : Prop :=
  ∀ ⦃w w' : Workspace σ⦄ ⦃e : ε⦄, t w = (.error e, w') → P e

namespace Task.FailsOnly

variable {σ ε ε' α β : Type} {P : ε → Prop}

theorem throw {e : ε} (h : P e) : (MonadExcept.throw e : Task σ ε α).FailsOnly P := by
  intro w w' e' failed
  cases failed
  exact h

theorem mapError {f : ε' → ε} (h : ∀ cause, P (f cause)) (t : Task σ ε' α) :
    (t.mapError f).FailsOnly P := by
  intro w w' e failed
  obtain ⟨cause, -, rfl⟩ := mapError_eq_error_iff.mp failed
  exact h cause

theorem composes (σ : Type) (P : ε → Prop) :
    Task.Composes fun α (t : Task σ ε α) => t.FailsOnly P where
  pure a := by
    intro w w' e failed
    cases failed
  bind := by
    intro α β t f first later w w' e failed
    rcases bind_eq_error_iff.mp failed with early | ⟨a, w₁, -, late⟩
    · exact first early
    · exact later a late

end Task.FailsOnly

end Restyle
