import VcalmStatus.Effects.Traces

/-!
Runs that can be computed.

A schedule says whose turn it is, turn by turn. A thread whose turn comes calls its next operation,
unless it has finished or has to wait; so every schedule is a run of the pool, and one that shows
how threads come between each other is written down by listing them.
-/

namespace VcalmStatus.Effects.Pool

variable {Op : Type} {Ret : Op → Type} {ε α σ ι : Type} [DecidableEq ι]
  (step : ι → σ → (o : Op) → Option (Ret o × σ))

/-- One turn of thread `i`, after the moments so far. -/
def turn (i : ι) (run : List (Moment Op Ret σ ι) × Pool Op Ret ε α σ ι) :
    List (Moment Op Ret σ ι) × Pool Op Ret ε α σ ι :=
  match run.2.thread i with
  | .call o k =>
      (step i run.2.state o).elim run fun rs =>
        (run.1 ++ [⟨i, run.2.state, ⟨o, rs.1⟩⟩],
          ⟨rs.2, Function.update run.2.thread i (k rs.1)⟩)
  | .ret _ => run
  | .fail _ => run

/-- The run in which the threads take these turns, and its moments. -/
def scheduled (turns : List ι) (p : Pool Op Ret ε α σ ι) :
    List (Moment Op Ret σ ι) × Pool Op Ret ε α σ ι :=
  turns.foldl (fun run i => turn step i run) ([], p)

variable {step} {p : Pool Op Ret ε α σ ι}

theorem Traced.turn {run : List (Moment Op Ret σ ι) × Pool Op Ret ε α σ ι}
    (h : Traced step p run.1 run.2) (i : ι) :
    Traced step p (turn step i run).1 (turn step i run).2 := by
  unfold Pool.turn
  split
  · rename_i o k hthread
    cases hstep : step i run.2.state o with
    | none => exact h
    | some rs => exact h.snoc hthread hstep
  · exact h
  · exact h

/-- Every schedule is a run. -/
theorem traced_scheduled (turns : List ι) (p : Pool Op Ret ε α σ ι) :
    Traced step p (scheduled step turns p).1 (scheduled step turns p).2 := by
  have hfold : ∀ (turns : List ι) (run : List (Moment Op Ret σ ι) × Pool Op Ret ε α σ ι),
      Traced step p run.1 run.2 →
      Traced step p (turns.foldl (fun run i => Pool.turn step i run) run).1
        (turns.foldl (fun run i => Pool.turn step i run) run).2 := by
    intro turns
    induction turns with
    | nil => exact fun _ h => h
    | cons i turns ih => exact fun run h => ih _ (h.turn i)
  exact hfold turns _ .nil

end VcalmStatus.Effects.Pool

namespace VcalmStatus.Effects.Program

variable {Op : Type} {Ret : Op → Type} {ε α : Type}

/-- What a program calls next, unless it has finished. -/
def next? : Program Op Ret ε α → Option Op
  | .call o _ => some o
  | .ret _ => none
  | .fail _ => none

theorem exists_of_next? {p : Program Op Ret ε α} {o : Op} (h : p.next? = some o) :
    ∃ k, p = .call o k := by
  cases p with
  | call o' k =>
      rw [next?, Option.some.injEq] at h
      subst h
      exact ⟨k, rfl⟩
  | ret a => cases h
  | fail e => cases h

/-- Whether a program has come to its end, and not by throwing. -/
def returned : Program Op Ret ε α → Bool
  | .ret _ => true
  | .fail _ => false
  | .call _ _ => false

theorem outcome?_of_returned {p : Program Op Ret ε α} (h : p.returned = true) :
    ∃ a, p.outcome? = some (.ok a) := by
  cases p with
  | ret a => exact ⟨a, rfl⟩
  | fail e => cases h
  | call o k => cases h

def threw : Program Op Ret ε α → Bool
  | .fail _ => true
  | .ret _ => false
  | .call _ _ => false

theorem outcome?_of_threw {p : Program Op Ret ε α} (h : p.threw = true) :
    ∃ e, p.outcome? = some (.error e) := by
  cases p with
  | fail e => exact ⟨e, rfl⟩
  | ret a => cases h
  | call o k => cases h

end VcalmStatus.Effects.Program
