import CrossShader.Proofs.Request

/-!
# Errors of computations

With which errors a computation can fail, read off its parts: one rule for each way to put computations
together.

* `Raises` — computations that fail only with errors of a set.
* `Request.Raises` — the same for requests, wherever they start.
-/

set_option autoImplicit false

namespace CrossShader

section Computations

variable {α β : Type} {P Q : GenerationError → Prop}

/-- A computation that fails only with errors of a set. -/
def Raises (P : GenerationError → Prop) (x : Except GenerationError α) : Prop :=
  ∀ e, x = .error e → P e

namespace Raises

theorem mono {x : Except GenerationError α} (h : Raises P x) (hPQ : ∀ e, P e → Q e) : Raises Q x :=
  fun e he => hPQ e (h e he)

theorem ok (a : α) : Raises P (.ok a : Except GenerationError α) := fun _ he => nomatch he

theorem error {e : GenerationError} (h : P e) : Raises P (.error e : Except GenerationError α) :=
  fun _ he => Except.error.inj he ▸ h

theorem of_ok {x : Except GenerationError α} (h : ∃ a, x = .ok a) : Raises P x := by
  obtain ⟨a, rfl⟩ := h
  exact ok a

theorem bind {x : Except GenerationError α} {f : α → Except GenerationError β} (hx : Raises P x)
    (hf : ∀ a, x = .ok a → Raises P (f a)) : Raises P (x >>= f) := by
  cases x with
  | error e => exact .error (hx e rfl)
  | ok a => exact hf a rfl

theorem mapM {f : α → Except GenerationError β} {l : List α} (hf : ∀ a ∈ l, Raises P (f a)) :
    Raises P (l.mapM f) := by
  induction l with
  | nil => exact ok []
  | cons a l ih =>
    obtain ⟨ha, hl⟩ := List.forall_mem_cons.1 hf
    rw [List.mapM_cons]
    exact ha.bind fun _ _ => (ih hl).bind fun _ _ => ok _

end Raises

end Computations

namespace Request

variable {α β : Type} {m : Meanings} {P : GenerationError → Prop}

/-- A request that fails only with errors of a set, wherever it starts. -/
def Raises (m : Meanings) (P : GenerationError → Prop) (r : Request α) : Prop :=
  ∀ σ, CrossShader.Raises P (r.eval m σ).1

namespace Raises

theorem mono {Q : GenerationError → Prop} {r : Request α} (h : r.Raises m P)
    (hPQ : ∀ e, P e → Q e) : r.Raises m Q :=
  fun σ => (h σ).mono hPQ

theorem pure (a : α) : (Pure.pure a : Request α).Raises m P := fun _ => .ok a

theorem throw {e : GenerationError} (h : P e) : (MonadExcept.throw e : Request α).Raises m P :=
  fun _ => .error h

theorem ofExcept {x : Except GenerationError α} (h : CrossShader.Raises P x) :
    (Request.ofExcept x).Raises m P := by
  intro σ
  rw [eval_ofExcept]
  exact h

/-- A sequence that starts at one place: its second part starts where the first ends. -/
theorem bindAt {r : Request α} {f : α → Request β} {σ : Resolution}
    (hr : CrossShader.Raises P (r.eval m σ).1)
    (hf : ∀ a τ, r.eval m σ = (.ok a, τ) → CrossShader.Raises P ((f a).eval m τ).1) :
    CrossShader.Raises P ((r >>= f).eval m σ).1 := by
  rw [eval_bind]
  rcases hfirst : r.eval m σ with ⟨e | a, τ⟩
  · rw [hfirst] at hr
    exact .error (hr e rfl)
  · exact hf a τ hfirst

theorem bind {r : Request α} {f : α → Request β} (hr : r.Raises m P)
    (hf : ∀ a, (f a).Raises m P) : (r >>= f).Raises m P :=
  fun σ => bindAt (hr σ) fun a τ _ => hf a τ

/-- Nothing is run after an error. -/
theorem throwBind {e : GenerationError} (h : P e) (f : α → Request β) :
    ((MonadExcept.throw e : Request α) >>= f).Raises m P := fun _ => .error h

theorem forM {ι : Type} {f : ι → Request PUnit} {l : List ι}
    (hf : ∀ i ∈ l, (f i).Raises m P) : (l.forM f).Raises m P := by
  induction l with
  | nil => exact pure _
  | cons i l ih =>
    obtain ⟨hi, hl⟩ := List.forall_mem_cons.1 hf
    exact hi.bind fun _ => ih hl

end Raises

end Request

end CrossShader
