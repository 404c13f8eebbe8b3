import Mathlib.Logic.Function.Basic

/-!
Programs that call operations and may fail.

A `Program` is the syntax of an asynchronous computation: it returns, it throws, or it calls one
operation and goes on with the answer. What an operation does is not part of the syntax. The same
program can therefore be run alone (`Program.run`) or one operation at a time among others (see
`Interleaving`), and every statement about it is about the one text that was written down.
-/

namespace VcalmStatus.Effects

/-- A computation that may fail has succeeded when every part of it has. -/
theorem bind_eq_ok {ε α β : Type} {x : Except ε α} {f : α → Except ε β} {b : β} :
    (x >>= f) = .ok b ↔ ∃ a, x = .ok a ∧ f a = .ok b := by
  cases x with
  | ok a => exact ⟨fun h => ⟨a, rfl, h⟩, fun ⟨_, h, hf⟩ => by cases h; exact hf⟩
  | error e => exact ⟨nofun, fun ⟨_, h, _⟩ => nomatch h⟩

/-- It has failed when one part has, the ones before it succeeding. -/
theorem bind_eq_error {ε α β : Type} {x : Except ε α} {f : α → Except ε β} {e : ε} :
    (x >>= f) = .error e ↔ x = .error e ∨ ∃ a, x = .ok a ∧ f a = .error e := by
  cases x with
  | ok a =>
      change f a = .error e ↔ _
      simp
  | error e' =>
      change Except.error e' = .error e ↔ _
      simp

theorem map_eq_ok {ε α β : Type} {x : Except ε α} {f : α → β} {b : β} :
    x.map f = .ok b ↔ ∃ a, x = .ok a ∧ f a = b := by
  cases x <;> simp [Except.map]

theorem map_eq_error {ε α β : Type} {x : Except ε α} {f : α → β} {e : ε} :
    x.map f = .error e ↔ x = .error e := by
  cases x <;> simp [Except.map]

/-- A computation over the operations `Op`, where `o : Op` is answered by a `Ret o`. It is a
finite tree along every sequence of answers, so a program that is never blocked terminates. -/
inductive Program (Op : Type) (Ret : Op → Type) (ε α : Type)
  | ret (a : α)
  | fail (e : ε)
  | call (o : Op) (k : Ret o → Program Op Ret ε α)

namespace Program

variable {Op : Type} {Ret : Op → Type} {ε α β γ : Type}

/-- Sequencing: a failure skips the rest. -/
protected def bind : Program Op Ret ε α → (α → Program Op Ret ε β) → Program Op Ret ε β
  | .ret a, f => f a
  | .fail e, _ => .fail e
  | .call o k, f => .call o fun r => (k r).bind f

/-- Runs the handler on a failure, wherever in the program it was thrown. -/
protected def tryCatch : Program Op Ret ε α → (ε → Program Op Ret ε α) → Program Op Ret ε α
  | .ret a, _ => .ret a
  | .fail e, h => h e
  | .call o k, h => .call o fun r => (k r).tryCatch h

instance : Monad (Program Op Ret ε) where
  pure := .ret
  bind := Program.bind

instance : MonadExceptOf ε (Program Op Ret ε) where
  throw := .fail
  tryCatch := Program.tryCatch

/-- Calls one operation and returns its answer. -/
def perform (o : Op) : Program Op Ret ε (Ret o) := .call o .ret

/-- Lifts a computation that calls nothing. -/
def ofExcept : Except ε α → Program Op Ret ε α
  | .ok a => .ret a
  | .error e => .fail e

@[simp] theorem pure_eq (a : α) : (pure a : Program Op Ret ε α) = .ret a := rfl

@[simp] theorem throw_eq (e : ε) : (throw e : Program Op Ret ε α) = .fail e := rfl

@[simp] theorem ret_bind (a : α) (f : α → Program Op Ret ε β) : (.ret a >>= f) = f a := rfl

@[simp] theorem fail_bind (e : ε) (f : α → Program Op Ret ε β) : (.fail e >>= f) = .fail e := rfl

@[simp] theorem call_bind (o : Op) (k : Ret o → Program Op Ret ε α)
    (f : α → Program Op Ret ε β) : (.call o k >>= f) = .call o fun r => k r >>= f := rfl

@[simp] theorem ofExcept_ok (a : α) : (ofExcept (.ok a) : Program Op Ret ε α) = .ret a := rfl

@[simp] theorem ofExcept_error (e : ε) :
    (ofExcept (.error e) : Program Op Ret ε α) = .fail e := rfl

protected theorem bind_ret (p : Program Op Ret ε α) : (p >>= .ret) = p := by
  induction p with
  | ret a => rfl
  | fail e => rfl
  | call o k ih => exact congrArg (Program.call o) (funext ih)

protected theorem bind_assoc (p : Program Op Ret ε α) (f : α → Program Op Ret ε β)
    (g : β → Program Op Ret ε γ) : (p >>= f) >>= g = p >>= fun a => f a >>= g := by
  induction p with
  | ret a => rfl
  | fail e => rfl
  | call o k ih => exact congrArg (Program.call o) (funext ih)

instance : LawfulMonad (Program Op Ret ε) :=
  LawfulMonad.mk' _ Program.bind_ret (fun _ _ => rfl) Program.bind_assoc

/-- What a finished program came to; `none` while it still has an operation to call. -/
def outcome? : Program Op Ret ε α → Option (Except ε α)
  | .ret a => some (.ok a)
  | .fail e => some (.error e)
  | .call _ _ => none

/-! ### Running a program alone -/

section Run

variable {σ : Type} (step : σ → (o : Op) → Option (Ret o × σ))

/-- Runs a program to its end with no one else acting; `none` when an operation is blocked. -/
def run : Program Op Ret ε α → σ → Option (Except ε α × σ)
  | .ret a, s => some (.ok a, s)
  | .fail e, s => some (.error e, s)
  | .call o k, s => (step s o).bind fun rs => (k rs.1).run rs.2

@[simp] theorem run_ret (a : α) (s : σ) :
    (.ret a : Program Op Ret ε α).run step s = some (.ok a, s) := rfl

@[simp] theorem run_fail (e : ε) (s : σ) :
    (.fail e : Program Op Ret ε α).run step s = some (.error e, s) := rfl

@[simp] theorem run_call (o : Op) (k : Ret o → Program Op Ret ε α) (s : σ) :
    (.call o k : Program Op Ret ε α).run step s =
      (step s o).bind fun rs => (k rs.1).run step rs.2 := rfl

theorem run_bind (p : Program Op Ret ε α) (f : α → Program Op Ret ε β) (s : σ) :
    (p >>= f).run step s = (p.run step s).bind fun rs =>
      match rs.1 with
      | .ok a => (f a).run step rs.2
      | .error e => some (.error e, rs.2) := by
  induction p generalizing s with
  | ret a => rfl
  | fail e => rfl
  | call o k ih =>
      rw [call_bind, run_call, run_call, Option.bind_assoc]
      exact congrArg _ (funext fun rs => ih rs.1 rs.2)

/-- A sequence that has ended was refused by its first part, or ended in its second. -/
theorem run_bind_cases {p : Program Op Ret ε α} {f : α → Program Op Ret ε β} {s s' : σ}
    {r : Except ε β} (h : (p >>= f).run step s = some (r, s')) :
    (∃ e, r = .error e ∧ p.run step s = some (.error e, s')) ∨
      ∃ a t, p.run step s = some (.ok a, t) ∧ (f a).run step t = some (r, s') := by
  rw [run_bind] at h
  obtain ⟨⟨x, t⟩, hp, hrest⟩ := Option.bind_eq_some_iff.mp h
  cases x with
  | ok a => exact .inr ⟨a, t, hp, hrest⟩
  | error e =>
      cases hrest
      exact .inl ⟨e, rfl, hp⟩

/-- A sequence that has come to a value came to one in both parts. -/
theorem run_bind_ok {p : Program Op Ret ε α} {f : α → Program Op Ret ε β} {s s' : σ} {b : β}
    (h : (p >>= f).run step s = some (.ok b, s')) :
    ∃ a t, p.run step s = some (.ok a, t) ∧ (f a).run step t = some (.ok b, s') := by
  obtain ⟨e, he, -⟩ | hok := run_bind_cases step h
  · cases he
  · exact hok

theorem run_tryCatch (p : Program Op Ret ε α) (h : ε → Program Op Ret ε α) (s : σ) :
    (tryCatch p h).run step s = (p.run step s).bind fun rs =>
      match rs.1 with
      | .ok a => some (.ok a, rs.2)
      | .error e => (h e).run step rs.2 := by
  induction p generalizing s with
  | ret a => rfl
  | fail e => rfl
  | call o k ih =>
      change ((step s o).bind fun rs => (tryCatch (k rs.1) h).run step rs.2) = _
      rw [run_call, Option.bind_assoc]
      exact congrArg _ (funext fun rs => ih rs.1 rs.2)

/-- Where no operation is ever blocked from `s` on, the run has an end. -/
theorem run_isSome {I : σ → Prop} (hstep : ∀ s o, I s → ∃ r s', step s o = some (r, s') ∧ I s')
    (p : Program Op Ret ε α) {s : σ} (hs : I s) : ∃ r s', p.run step s = some (r, s') ∧ I s' := by
  induction p generalizing s with
  | ret a => exact ⟨_, _, rfl, hs⟩
  | fail e => exact ⟨_, _, rfl, hs⟩
  | call o k ih =>
      obtain ⟨r, s', hr, hs'⟩ := hstep s o hs
      obtain ⟨r', s'', hrun, hs''⟩ := ih r hs'
      exact ⟨r', s'', by rw [run_call, hr]; exact hrun, hs''⟩

end Run

end Program

end VcalmStatus.Effects
