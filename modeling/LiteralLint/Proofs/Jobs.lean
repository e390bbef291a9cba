import LiteralLint.Job

/-!
# What jobs do

A job comes to an outcome and leaves a file system, and neither depends on what was told before. So
a job is described by three things, the file system before, the outcome and the file system
after, and descriptions of parts are put together along the steps of a job.

## Main definitions

* `Job.Does`: the description of a job on a file system.
* `Job.Looks`: a job that leaves the file system as it is.

## Main results

* `Job.Does.bind`, `Job.Does.bind_error`: one step after the other.
* `Job.Does.mapM`: the same kind of job on every item of a list.
-/

namespace LiteralLint.Job

variable {α β : Type} {fs fs₁ fs₂ : FileSystem}

/-- A job on a file system comes to an outcome and leaves a file system, whatever was told before. -/
def Does (j : Job α) (fs : FileSystem) (out : Except Failure α) (fs' : FileSystem) : Prop :=
  ∀ events, ∃ events', j.runOn ⟨fs, events⟩ = (out, ⟨fs', events'⟩)

namespace Does

theorem outcome_eq {j : Job α} {out : Except Failure α} (h : Does j fs out fs₁) :
    (j.runOn ⟨fs, []⟩).1 = out := by
  obtain ⟨events, hrun⟩ := h []
  rw [hrun]

theorem files_eq {j : Job α} {out : Except Failure α} (h : Does j fs out fs₁) :
    (j.runOn ⟨fs, []⟩).2.files = fs₁ := by
  obtain ⟨events, hrun⟩ := h []
  rw [hrun]

/-- The run of two steps. -/
theorem runOn_bind (j : Job α) (k : α → Job β) (d : Desk) :
    (j >>= k).runOn d =
      match j.runOn d with
      | (.ok a, d') => (k a).runOn d'
      | (.error e, d') => (.error e, d') := by
  show (ExceptT.bindCont k (j.runOn d).1).run (j.runOn d).2 = _
  rcases j.runOn d with ⟨_ | _, _⟩ <;> rfl

theorem bind {j : Job α} {k : α → Job β} {a : α} {out : Except Failure β}
    (hj : Does j fs (.ok a) fs₁) (hk : Does (k a) fs₁ out fs₂) : Does (j >>= k) fs out fs₂ := by
  intro events
  obtain ⟨events₁, hrun₁⟩ := hj events
  obtain ⟨events₂, hrun₂⟩ := hk events₁
  refine ⟨events₂, ?_⟩
  rw [runOn_bind, hrun₁]
  exact hrun₂

theorem bind_error {j : Job α} (k : α → Job β) {e : Failure} (hj : Does j fs (.error e) fs₁) :
    Does (j >>= k) fs (.error e) fs₁ := by
  intro events
  obtain ⟨events₁, hrun₁⟩ := hj events
  refine ⟨events₁, ?_⟩
  rw [runOn_bind, hrun₁]

theorem pure (a : α) : Does (Pure.pure a) fs (.ok a) fs := fun events => ⟨events, rfl⟩

theorem throw (e : Failure) : Does (MonadExcept.throw e : Job α) fs (.error e) fs :=
  fun events => ⟨events, rfl⟩

theorem tell (e : Log.Event) : Does (Job.tell e) fs (.ok ()) fs := fun _ => ⟨_, rfl⟩

theorem tellAll (es : List Log.Event) : Does (Job.tellAll es) fs (.ok ()) fs := fun _ => ⟨_, rfl⟩

theorem files : Does Job.files fs (.ok fs) fs := fun events => ⟨events, rfl⟩

theorem setFiles (fs' : FileSystem) : Does (Job.setFiles fs') fs (.ok ()) fs' :=
  fun _ => ⟨_, rfl⟩

theorem lift (x : Except Failure α) : Does (liftExcept x) fs x fs := by
  cases x with
  | ok a => exact pure a
  | error e => exact throw e

/-- The run of a job with its failures handled. -/
theorem runOn_tryCatch (j : Job α) (handle : Failure → Job α) (d : Desk) :
    (tryCatch j handle).runOn d =
      match j.runOn d with
      | (.ok a, d') => (.ok a, d')
      | (.error e, d') => (handle e).runOn d' := by
  show StateT.run (m := Id) (ExceptT.tryCatch j handle) d = _
  have hj : StateT.run j d = j.runOn d := rfl
  unfold ExceptT.tryCatch
  rw [ExceptT.mk, StateT.run_bind, hj]
  rcases j.runOn d with ⟨_ | _, _⟩ <;> rfl

/-- A job that fails is followed by what handles its failure. -/
theorem tryCatch_error {j : Job α} {handle : Failure → Job α} {e : Failure}
    {out : Except Failure α} (hj : Does j fs (.error e) fs₁) (hh : Does (handle e) fs₁ out fs₂) :
    Does (tryCatch j handle) fs out fs₂ := by
  intro events
  obtain ⟨events₁, hrun₁⟩ := hj events
  obtain ⟨events₂, hrun₂⟩ := hh events₁
  refine ⟨events₂, ?_⟩
  rw [runOn_tryCatch, hrun₁]
  exact hrun₂

/-- An event that is told before the rest. -/
theorem after_tell (e : Log.Event) {k : Unit → Job β} {out : Except Failure β}
    (hk : Does (k ()) fs out fs₁) : Does (Job.tell e >>= k) fs out fs₁ :=
  bind (tell e) hk

/-- The file system is looked at before the rest. -/
theorem after_files {k : FileSystem → Job β} {out : Except Failure β}
    (hk : Does (k fs) fs out fs₁) : Does (Job.files >>= k) fs out fs₁ :=
  bind files hk

/-- A step whose value the rest makes something of, without changing the file system. -/
theorem map {j : Job α} {k : α → Job β} {f : α → β} {out : Except Failure α}
    (hj : Does j fs out fs₁) (hk : ∀ a, out = .ok a → Does (k a) fs₁ (.ok (f a)) fs₁) :
    Does (j >>= k) fs (out.map f) fs₁ := by
  cases out with
  | error e => exact bind_error k hj
  | ok a => exact bind hj (hk a rfl)

/-- Jobs that leave the file system alone, on every item of a list. -/
theorem mapM {job : α → Job β} {f : α → Except Failure β} {items : List α}
    (h : ∀ a ∈ items, Does (job a) fs (f a) fs) : Does (items.mapM job) fs (items.mapM f) fs := by
  induction items with
  | nil => exact pure []
  | cons a items ih =>
      rw [List.mapM_cons, List.mapM_cons]
      have hfirst := h a (by simp)
      have hrest := ih fun b hb => h b (by simp [hb])
      cases hf : f a with
      | error e =>
          rw [hf] at hfirst
          exact bind_error _ hfirst
      | ok b =>
          rw [hf] at hfirst
          refine bind hfirst ?_
          cases hfs : items.mapM f with
          | error e =>
              rw [hfs] at hrest
              exact bind_error _ hrest
          | ok bs =>
              rw [hfs] at hrest
              exact bind hrest (pure (b :: bs))

end Does

/-! ## Jobs that look -/

/-- A job that leaves the file system as it is. -/
def Looks (j : Job α) (fs : FileSystem) : Prop := ∃ out, Does j fs out fs

namespace Looks

theorem pure (a : α) : Looks (Pure.pure a) fs := ⟨_, Does.pure a⟩

theorem throw (e : Failure) : Looks (MonadExcept.throw e : Job α) fs := ⟨_, Does.throw e⟩

theorem bind {j : Job α} {k : α → Job β} (hj : Looks j fs) (hk : ∀ a, Looks (k a) fs) :
    Looks (j >>= k) fs := by
  obtain ⟨out, hout⟩ := hj
  cases out with
  | error e => exact ⟨_, Does.bind_error k hout⟩
  | ok a =>
      obtain ⟨out', hout'⟩ := hk a
      exact ⟨out', Does.bind hout hout'⟩

theorem after_tell (e : Log.Event) {k : Unit → Job β} (hk : Looks (k ()) fs) :
    Looks (Job.tell e >>= k) fs :=
  bind ⟨_, Does.tell e⟩ fun _ => hk

theorem after_files {k : FileSystem → Job β} (hk : Looks (k fs) fs) :
    Looks (Job.files >>= k) fs := by
  obtain ⟨out, hout⟩ := hk
  exact ⟨out, Does.after_files hout⟩

end Looks

end LiteralLint.Job
