import Mathlib.Logic.Hydra
import Mathlib.Data.Finset.Insert
import Mathlib.Data.Set.Finite.Basic
import Mathlib.Order.WellFounded
import VcalmStatus.Effects.Traces

/-!
Phases, progress and termination.

Threads that take turns on something shared go through phases: before they have it, while they have
it, after. A `Protocol` says which operations each phase allows and which phase they lead to, and
`KeepsTo` that a program keeps to it; like `Safe` it is proved program by program. `KeepsTo.traced`
keeps an invariant between the phases of all threads and the shared state, `progress` finds a
thread that need not wait if whoever waits does so for a thread that is in a higher phase, and
`acc_step` says that threads are used up: a pool of finitely many programs has no infinite run.
-/

namespace VcalmStatus.Effects

variable {Op : Type} {Ret : Op → Type} {ε α β σ ι S : Type}

/-- What each phase allows a thread to call, and the phase it is in after a call. -/
structure Protocol (Op S : Type) where
  Allows : S → Op → Prop
  next : S → Op → S

/-- The phase after these operations. -/
def Protocol.after (P : Protocol Op S) (s : S) (l : List (Observation Op Ret)) : S :=
  l.foldl (fun s x => P.next s x.1) s

theorem Protocol.after_snoc (P : Protocol Op S) (s : S) (l : List (Observation Op Ret))
    (x : Observation Op Ret) : P.after s (l ++ [x]) = P.next (P.after s l) x.1 :=
  List.foldl_concat _ _ _ _

/-- From phase `s` on, the program calls what its phase allows, and its outcome satisfies `Q` in the
phase it ends in. -/
def KeepsTo (P : Protocol Op S) :
    Program Op Ret ε α → (Except ε α → S → Prop) → S → Prop
  | .ret a, Q, s => Q (.ok a) s
  | .fail e, Q, s => Q (.error e) s
  | .call o k, Q, s => P.Allows s o ∧ ∀ r, KeepsTo P (k r) Q (P.next s o)

/-- A program that ends in the phase it began in. -/
abbrev Steady (P : Protocol Op S) (s : S) (p : Program Op Ret ε α) : Prop :=
  KeepsTo P p (fun _ t => t = s) s

namespace KeepsTo

variable {P : Protocol Op S} {Q Q' : Except ε α → S → Prop} {s : S}

theorem imp {p : Program Op Ret ε α} (h : KeepsTo P p Q s) (hQ : ∀ r t, Q r t → Q' r t) :
    KeepsTo P p Q' s := by
  induction p generalizing s with
  | ret a => exact hQ _ _ h
  | fail e => exact hQ _ _ h
  | call o k ih => exact ⟨h.1, fun r => ih r (h.2 r)⟩

/-- The rule of sequencing. -/
theorem bind {p : Program Op Ret ε α} {f : α → Program Op Ret ε β}
    {Q : Except ε β → S → Prop}
    (h : KeepsTo P p (fun r t => match r with
      | .ok a => KeepsTo P (f a) Q t
      | .error e => Q (.error e) t) s) : KeepsTo P (p >>= f) Q s := by
  induction p generalizing s with
  | ret a => exact h
  | fail e => exact h
  | call o k ih => exact ⟨h.1, fun r => ih r (h.2 r)⟩

theorem tryCatch {p : Program Op Ret ε α} {handler : ε → Program Op Ret ε α}
    (h : KeepsTo P p (fun r t => match r with
      | .ok a => Q (.ok a) t
      | .error e => KeepsTo P (handler e) Q t) s) : KeepsTo P (tryCatch p handler) Q s := by
  induction p generalizing s with
  | ret a => exact h
  | fail e => exact h
  | call o k ih => exact ⟨h.1, fun r => ih r (h.2 r)⟩

end KeepsTo

namespace Steady

variable {P : Protocol Op S} {s : S}

theorem ofExcept (x : Except ε α) :
    Steady P s (Program.ofExcept x : Program Op Ret ε α) := by
  cases x <;> rfl

theorem call {o : Op} {k : Ret o → Program Op Ret ε α} (ho : P.Allows s o) (hs : P.next s o = s)
    (hk : ∀ r, Steady P s (k r)) : Steady P s (.call o k) :=
  ⟨ho, fun r => by rw [hs]; exact hk r⟩

theorem bind {p : Program Op Ret ε α} {f : α → Program Op Ret ε β} (h : Steady P s p)
    (hf : ∀ a, Steady P s (f a)) : Steady P s (p >>= f) := by
  refine KeepsTo.bind (h.imp fun r t ht => ?_)
  subst ht
  cases r with
  | ok a => exact hf a
  | error e => rfl

theorem tryCatch {p : Program Op Ret ε α} {handler : ε → Program Op Ret ε α} (h : Steady P s p)
    (hhandler : ∀ e, Steady P s (handler e)) : Steady P s (tryCatch p handler) := by
  refine KeepsTo.tryCatch (h.imp fun r t ht => ?_)
  subst ht
  cases r with
  | ok a => rfl
  | error e => exact hhandler e

end Steady

/-! ### Runs -/

variable [DecidableEq ι] {P : Protocol Op S} {Q : ι → Except ε α → S → Prop}
  {step : ι → σ → (o : Op) → Option (Ret o × σ)} {p q : Pool Op Ret ε α σ ι} {phase : ι → S}

/-- Threads that keep to a protocol go on doing so, and what relates their phases to the state
stays so. -/
theorem KeepsTo.traced {I : σ → (ι → S) → Prop}
    (hI : ∀ {i s o r s' phase}, I s phase → P.Allows (phase i) o → step i s o = some (r, s') →
      I s' (Function.update phase i (P.next (phase i) o)))
    (hstart : I p.state phase) (hp : ∀ i, KeepsTo P (p.thread i) (Q i) (phase i))
    {τ : List (Moment Op Ret σ ι)} (h : Pool.Traced step p τ q) :
    I q.state (fun i => P.after (phase i) (own i τ)) ∧
      ∀ i, KeepsTo P (q.thread i) (Q i) (P.after (phase i) (own i τ)) := by
  induction h with
  | nil => exact ⟨hstart, hp⟩
  | @snoc τ q i o k r s' _ hthread hs ih =>
      obtain ⟨hstate, hq⟩ := ih
      have hi := hq i
      rw [hthread] at hi
      have hafter : ∀ j, P.after (phase j) (own j (τ ++ [⟨i, q.state, ⟨o, r⟩⟩])) =
          Function.update (fun j => P.after (phase j) (own j τ)) i
            (P.next (P.after (phase i) (own i τ)) o) j := by
        intro j
        by_cases hj : j = i
        · subst hj
          rw [own_append, own_self, P.after_snoc, Function.update_self]
        · rw [own_append, own_of_ne (Ne.symm hj), List.append_nil, Function.update_of_ne hj]
      refine ⟨?_, fun j => ?_⟩
      · rw [funext hafter]
        exact hI hstate hi.1 hs
      · rw [hafter]
        by_cases hj : j = i
        · subst hj
          simpa using hi.2 r
        · simpa [Function.update_of_ne hj] using hq j

omit [DecidableEq ι] in
/-- Where whoever waits does so for a thread of a higher rank, and threads end at rank zero, a pool
with work left has a thread that need not wait. -/
theorem KeepsTo.progress {ready : ι → Op → Prop} (rank : S → Nat) (bound : Nat)
    (hq : ∀ i, KeepsTo P (q.thread i) (Q i) (phase i)) (hbound : ∀ s, rank s ≤ bound)
    (hend : ∀ {i r s}, Q i r s → rank s = 0)
    (hwait : ∀ {i o}, P.Allows (phase i) o → ¬ready i o → ∃ j, rank (phase i) < rank (phase j))
    {i : ι} {o : Op} {k : Ret o → Program Op Ret ε α} (hthread : q.thread i = .call o k) :
    ∃ j o' k', q.thread j = .call o' k' ∧ ready j o' := by
  -- From one who waits to the one who is waited for, which cannot go on beyond the bound.
  induction hheight : bound - rank (phase i) using Nat.strongRecOn generalizing i o with
  | _ height ih =>
      by_cases hready : ready i o
      · exact ⟨i, o, k, hthread, hready⟩
      · have hi := hq i
        rw [hthread] at hi
        obtain ⟨j, hlt⟩ := hwait hi.1 hready
        have hj := hq j
        cases hjthread : q.thread j with
        | ret a =>
            rw [hjthread] at hj
            exact absurd (hend hj) (by omega)
        | fail e =>
            rw [hjthread] at hj
            exact absurd (hend hj) (by omega)
        | call o' k' =>
            have hle := hbound (phase j)
            exact ih (bound - rank (phase j)) (by omega) hjthread rfl

/-! ### Termination -/

/-- What is left of a program after one more answer. -/
inductive Program.Rest : Program Op Ret ε α → Program Op Ret ε α → Prop
  | answer (o : Op) (k : Ret o → Program Op Ret ε α) (r : Ret o) : Rest (k r) (.call o k)

theorem Program.wellFounded_rest :
    WellFounded (Program.Rest : Program Op Ret ε α → Program Op Ret ε α → Prop) := by
  refine ⟨fun p => ?_⟩
  induction p with
  | ret a => exact ⟨_, fun p h => by cases h⟩
  | fail e => exact ⟨_, fun p h => by cases h⟩
  | call o k ih =>
      refine ⟨_, fun p h => ?_⟩
      cases h with
      | answer _ _ r => exact ih r

namespace Pool

/-- The programs of a set of threads are the heads of a hydra: a step cuts one of them and grows
back a smaller one. -/
theorem cutExpand_of_step {work : Finset ι}
    (hwork : ∀ {i o k}, p.thread i = .call o k → i ∈ work) (h : Pool.Step step p q) :
    Relation.CutExpand Program.Rest (work.val.map q.thread) (work.val.map p.thread) := by
  cases h with
  | @call i o k r s' hthread hs =>
      have hi : i ∈ work := hwork hthread
      obtain ⟨others, hothers⟩ := Multiset.exists_cons_of_mem (Finset.mem_val.mpr hi)
      have hnot : i ∉ others := by
        have hnodup := work.nodup
        rw [hothers] at hnodup
        exact (Multiset.nodup_cons.mp hnodup).1
      have hsame : others.map (Function.update p.thread i (k r)) = others.map p.thread := by
        refine Multiset.map_congr rfl fun j hj => Function.update_of_ne ?_ _ _
        rintro rfl
        exact hnot hj
      simp only [hothers, Multiset.map_cons, Function.update_self, hsame, hthread]
      rw [← Multiset.singleton_add, ← Multiset.singleton_add]
      exact Relation.cutExpand_single_add (.answer o k r) _

/-- A thread that has finished stays so. -/
theorem work_of_step {work : Finset ι} (hwork : ∀ {i o k}, p.thread i = .call o k → i ∈ work)
    (h : Pool.Step step p q) {i : ι} {o : Op} {k : Ret o → Program Op Ret ε α}
    (hi : q.thread i = .call o k) : i ∈ work := by
  cases h with
  | @call j o' k' r s' hthread hs =>
      by_cases hij : i = j
      · subst hij
        exact hwork hthread
      · dsimp only at hi
        rw [Function.update_of_ne hij] at hi
        exact hwork hi

/-- Finitely many threads come to an end, whatever they are answered and in whatever order. -/
theorem acc_step (work : Finset ι) (hwork : ∀ {i o k}, p.thread i = .call o k → i ∈ work) :
    Acc (fun q p => Pool.Step step p q) p := by
  generalize hheads : work.val.map p.thread = heads
  induction Program.wellFounded_rest.cutExpand.apply heads generalizing p with
  | intro heads _ ih =>
      subst hheads
      exact ⟨_, fun q hstep =>
        ih _ (cutExpand_of_step hwork hstep) (work_of_step hwork hstep) rfl⟩

end Pool

end VcalmStatus.Effects
