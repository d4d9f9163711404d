import CrossShader.Proofs.Discovery
import CrossShader.Resolution

/-!
# Evaluation of requests

A request under fixed meanings of all names: a function from the resolution before it to its result
and the resolution after it.  What a request does is read off here, one lemma for each operation, and
the questions it asks are gone.

* `Request.eval` — a request as such a function; `Request.eval_toQuery` ties it to queries.
* `Request.eval_bind_ok` — a sequence succeeds exactly if both of its parts do.
* `Request.asked` — the names that a request asks about.
* `Request.Agree` — requests that cannot be told apart under given meanings.
-/

set_option autoImplicit false

namespace CrossShader

/-- The meanings of all names. -/
abbrev Meanings := String → Except DiscoveryFailure Structure

namespace Request

variable {α β : Type}

/-- The result of a request and the resolution after it. -/
def eval (m : Meanings) (r : Request α) (σ : Resolution) : Except GenerationError α × Resolution :=
  ((ExceptT.run r).run σ).eval m

theorem eval_toQuery (m : Meanings) (r : Request α) : r.toQuery.eval m = r.eval m {} := rfl

@[simp] theorem eval_pure (m : Meanings) (a : α) (σ : Resolution) :
    (pure a : Request α).eval m σ = (.ok a, σ) := rfl

@[simp] theorem eval_throw (m : Meanings) (e : GenerationError) (σ : Resolution) :
    (throw e : Request α).eval m σ = (.error e, σ) := rfl

theorem eval_bind (m : Meanings) (r : Request α) (f : α → Request β) (σ : Resolution) :
    (r >>= f).eval m σ =
      match r.eval m σ with
      | (.ok a, σ') => (f a).eval m σ'
      | (.error e, σ') => (.error e, σ') := by
  show (Query.bind (r σ) _).eval m = _
  rw [Query.eval_bind]
  show _ = match Query.eval m (r σ) with
    | (.ok a, σ') => (f a).eval m σ'
    | (.error e, σ') => (.error e, σ')
  rcases Query.eval m (r σ) with ⟨_ | a, σ'⟩ <;> rfl

@[simp] theorem eval_get (m : Meanings) (σ : Resolution) :
    (get : Request Resolution).eval m σ = (.ok σ, σ) := rfl

@[simp] theorem eval_modify (m : Meanings) (f : Resolution → Resolution) (σ : Resolution) :
    (modify f : Request Unit).eval m σ = (.ok (), f σ) := rfl

@[simp] theorem eval_note (m : Meanings) (record : LogRecord) (σ : Resolution) :
    (note record).eval m σ = (.ok (), σ) := rfl

@[simp] theorem eval_discover (m : Meanings) (name : String) (σ : Resolution) :
    (discover name).eval m σ = (.ok (m name), σ) := rfl

@[simp] theorem eval_ofExcept (m : Meanings) (x : Except GenerationError α) (σ : Resolution) :
    (ofExcept x).eval m σ = (x, σ) := by
  cases x <;> rfl

/-- A sequence succeeds exactly if its two parts succeed one after the other. -/
theorem eval_bind_ok {m : Meanings} {r : Request α} {f : α → Request β} {σ σ' : Resolution}
    {b : β} : (r >>= f).eval m σ = (.ok b, σ') ↔
      ∃ a τ, r.eval m σ = (.ok a, τ) ∧ (f a).eval m τ = (.ok b, σ') := by
  rw [eval_bind]
  rcases r.eval m σ with ⟨e | a, τ⟩
  · simp
  · constructor
    · intro h
      exact ⟨a, τ, rfl, h⟩
    · rintro ⟨a', τ', heq, h⟩
      cases heq
      exact h

/-- The names that a request asks about, in order. -/
def asked (m : Meanings) (r : Request α) (σ : Resolution) : List String :=
  ((ExceptT.run r).run σ).asked m

theorem asked_toQuery (m : Meanings) (r : Request α) : r.toQuery.asked m = r.asked m {} := rfl

theorem asked_bind (m : Meanings) (r : Request α) (f : α → Request β) (σ : Resolution) :
    (r >>= f).asked m σ =
      r.asked m σ ++
        match r.eval m σ with
        | (.ok a, σ') => (f a).asked m σ'
        | (.error _, _) => [] := by
  show (Query.bind (r σ) _).asked m = _
  rw [Query.asked_bind]
  show _ = (r σ).asked m ++ match Query.eval m (r σ) with
    | (.ok a, σ') => (f a).asked m σ'
    | (.error _, _) => []
  rcases Query.eval m (r σ) with ⟨_ | a, σ'⟩ <;> rfl

/-- Two requests that cannot be told apart under given meanings: they have the same results and ask the
same questions. -/
def Agree (m : Meanings) (r r' : Request α) : Prop :=
  ∀ σ, r.eval m σ = r'.eval m σ ∧ r.asked m σ = r'.asked m σ

namespace Agree

variable {m : Meanings}

theorem refl (r : Request α) : Agree m r r := fun _ => ⟨rfl, rfl⟩

/-- Two sequences, whose second parts only have to agree on what the first part can yield. -/
theorem bindOn {r r' : Request α} {f f' : α → Request β} (hr : Agree m r r')
    (hf : ∀ σ a τ, r.eval m σ = (.ok a, τ) → Agree m (f a) (f' a)) :
    Agree m (r >>= f) (r' >>= f') := by
  intro σ
  obtain ⟨heval, hasked⟩ := hr σ
  rw [eval_bind, eval_bind, asked_bind, asked_bind, ← heval, ← hasked]
  rcases hfirst : r.eval m σ with ⟨e | a, τ⟩
  · exact ⟨rfl, rfl⟩
  · obtain ⟨heval', hasked'⟩ := hf σ a τ hfirst τ
    exact ⟨heval', congrArg (r.asked m σ ++ ·) hasked'⟩

theorem bind {r r' : Request α} {f f' : α → Request β} (hr : Agree m r r')
    (hf : ∀ a, Agree m (f a) (f' a)) : Agree m (r >>= f) (r' >>= f') :=
  hr.bindOn fun _ a _ _ => hf a

/-- Nothing is run after an error. -/
theorem throw (e : GenerationError) (f f' : α → Request β) :
    Agree m (MonadExcept.throw e >>= f) (MonadExcept.throw e >>= f') :=
  (refl _).bindOn fun _ _ _ h => nomatch h

theorem forM {ι : Type} {f f' : ι → Request PUnit} (hf : ∀ i, Agree m (f i) (f' i)) :
    ∀ l : List ι, Agree m (l.forM f) (l.forM f')
  | [] => refl _
  | i :: l => (hf i).bind fun _ => forM hf l

end Agree

end Request

end CrossShader
