import VcalmStatus.Effects.Interleaving

/-!
What a run shows of its threads.

A `Moment` is one operation of a run: who called it, in which state, and what it answered. A traced
run lists its moments, so a statement can speak about what a thread saw on the way and not only
about where it ended.

What a program asks next depends on nothing but the answers it was given. `Watched` is the logic of
that: from a history of answers on, every operation is one that `G` allows after the answers so far,
and the program ends as `R` or `E` says of all of them. It is proved by recursion over the program
text with no state and no pool in sight, and holds of the thread in every run
(`Pool.Traced.watched`).
-/

namespace VcalmStatus.Effects

variable {Op : Type} {Ret : Op → Type} {ε α β σ ι : Type}

/-- An operation and its answer. -/
abbrev Observation (Op : Type) (Ret : Op → Type) := (o : Op) × Ret o

/-- After the history `l`, and whatever it is answered, the program calls only what `G` allows,
returns as `R` says and fails as `E` says. -/
def Watched (G : List (Observation Op Ret) → Op → Prop) (R : List (Observation Op Ret) → α → Prop)
    (E : List (Observation Op Ret) → ε → Prop) :
    Program Op Ret ε α → List (Observation Op Ret) → Prop
  | .ret a, l => R l a
  | .fail e, l => E l e
  | .call o k, l => G l o ∧ ∀ r, Watched G R E (k r) (l ++ [⟨o, r⟩])

namespace Watched

variable {G : List (Observation Op Ret) → Op → Prop} {R R' : List (Observation Op Ret) → α → Prop}
  {E E' : List (Observation Op Ret) → ε → Prop} {S : List (Observation Op Ret) → β → Prop}
  {l : List (Observation Op Ret)} {p : Program Op Ret ε α}

theorem imp (h : Watched G R E p l) (hR : ∀ l a, R l a → R' l a) (hE : ∀ l e, E l e → E' l e) :
    Watched G R' E' p l := by
  induction p generalizing l with
  | ret a => exact hR _ _ h
  | fail e => exact hE _ _ h
  | call o k ih => exact ⟨h.1, fun r => ih r (h.2 r)⟩

theorem mono {G' : List (Observation Op Ret) → Op → Prop} (h : Watched G R E p l)
    (hG : ∀ l o, G l o → G' l o) : Watched G' R E p l := by
  induction p generalizing l with
  | ret a => exact h
  | fail e => exact h
  | call o k ih => exact ⟨hG _ _ h.1, fun r => ih r (h.2 r)⟩

/-- The rule of one operation. -/
theorem perform {o : Op} {f : Ret o → Program Op Ret ε β} (hG : G l o)
    (h : ∀ r, Watched G S E (f r) (l ++ [⟨o, r⟩])) :
    Watched G S E (Program.perform o >>= f) l := ⟨hG, h⟩

/-- The rule of sequencing. -/
theorem bind {f : α → Program Op Ret ε β} (hp : Watched G R E p l)
    (hR : ∀ l a, R l a → Watched G S E' (f a) l) (hE : ∀ l e, E l e → E' l e) :
    Watched G S E' (p >>= f) l := by
  induction p generalizing l with
  | ret a => exact hR _ _ hp
  | fail e => exact hE _ _ hp
  | call o k ih => exact ⟨hp.1, fun r => ih r (hp.2 r)⟩

theorem tryCatch {f : ε → Program Op Ret ε α} (hp : Watched G R E p l)
    (hR : ∀ l a, R l a → R' l a) (hE : ∀ l e, E l e → Watched G R' E' (f e) l) :
    Watched G R' E' (tryCatch p f) l := by
  induction p generalizing l with
  | ret a => exact hR _ _ hp
  | fail e => exact hE _ _ hp
  | call o k ih => exact ⟨hp.1, fun r => ih r (hp.2 r)⟩

theorem ofExcept {x : Except ε α} {f : α → Program Op Ret ε β}
    (hok : ∀ a, x = .ok a → Watched G S E (f a) l) (herr : ∀ e, x = .error e → E l e) :
    Watched G S E (Program.ofExcept x >>= f) l := by
  cases x with
  | ok a => exact hok a rfl
  | error e => exact herr e rfl

end Watched

/-- What these observations do not put an end to. -/
def Kept (X : Observation Op Ret → Prop) (H : List (Observation Op Ret) → Prop) : Prop :=
  ∀ l x, X x → H l → H (l ++ [x])

namespace Kept

variable {X X' : Observation Op Ret → Prop} {H H' : List (Observation Op Ret) → Prop}

theorem const (p : Prop) : Kept X fun _ => p := fun _ _ _ h => h

theorem and (h : Kept X H) (h' : Kept X H') : Kept X fun l => H l ∧ H' l :=
  fun l x hx hl => ⟨h l x hx hl.1, h' l x hx hl.2⟩

theorem imp (h : Kept X H) (hX : ∀ x, X' x → X x) : Kept X' H :=
  fun l x hx => h l x (hX x hx)

theorem of_mono (h : ∀ {l l'}, l ⊆ l' → H l → H l') : Kept X H :=
  fun _ _ _ hl => h (List.subset_append_left _ _) hl

end Kept

/-! ### Traced runs -/

/-- One operation of a run. -/
structure Moment (Op : Type) (Ret : Op → Type) (σ ι : Type) where
  thread : ι
  state : σ
  seen : Observation Op Ret

section Own

variable [DecidableEq ι] {i : ι} {τ τ' : List (Moment Op Ret σ ι)}

/-- What one thread saw, in order. -/
def own (i : ι) (τ : List (Moment Op Ret σ ι)) : List (Observation Op Ret) :=
  (τ.filter fun m => m.thread = i).map (·.seen)

theorem mem_own {x : Observation Op Ret} : x ∈ own i τ ↔ ∃ m ∈ τ, m.thread = i ∧ m.seen = x := by
  simp [own, and_assoc]

theorem own_append : own i (τ ++ τ') = own i τ ++ own i τ' := by
  simp [own]

theorem own_self {s : σ} {x : Observation Op Ret} : own i [⟨i, s, x⟩] = [x] := by
  simp [own]

theorem own_of_ne {j : ι} {s : σ} {x : Observation Op Ret} (h : j ≠ i) :
    own i [⟨j, s, x⟩] = [] := by
  simp [own, h]

theorem own_eq_map (h : ∀ m ∈ τ, m.thread = i) : own i τ = τ.map (·.seen) := by
  rw [own, List.filter_eq_self.mpr fun m hm => by simpa using h m hm]

end Own

namespace Pool

variable {step : ι → σ → (o : Op) → Option (Ret o × σ)} [DecidableEq ι]

/-- A run and the moments it consists of. -/
inductive Traced (step : ι → σ → (o : Op) → Option (Ret o × σ)) (p : Pool Op Ret ε α σ ι) :
    List (Moment Op Ret σ ι) → Pool Op Ret ε α σ ι → Prop
  | nil : Traced step p [] p
  | snoc {τ : List (Moment Op Ret σ ι)} {q : Pool Op Ret ε α σ ι} {i : ι} {o : Op}
      {k : Ret o → Program Op Ret ε α} {r : Ret o} {s' : σ} (h : Traced step p τ q)
      (hthread : q.thread i = .call o k) (hstep : step i q.state o = some (r, s')) :
      Traced step p (τ ++ [⟨i, q.state, ⟨o, r⟩⟩]) ⟨s', Function.update q.thread i (k r)⟩

variable {p q : Pool Op Ret ε α σ ι} {τ : List (Moment Op Ret σ ι)}

theorem Run.traced (h : Run step p q) : ∃ τ, Traced step p τ q := by
  induction h with
  | refl => exact ⟨[], .nil⟩
  | tail _ hstep ih =>
      obtain ⟨τ, hτ⟩ := ih
      cases hstep with
      | call hthread hs => exact ⟨_, hτ.snoc hthread hs⟩

namespace Traced

theorem run (h : Traced step p τ q) : Run step p q := by
  induction h with
  | nil => exact .refl
  | snoc _ hthread hstep ih => exact ih.tail (.call hthread hstep)

theorem trans {q' : Pool Op Ret ε α σ ι} {τ' : List (Moment Op Ret σ ι)} (h : Traced step p τ q)
    (h' : Traced step q τ' q') : Traced step p (τ ++ τ') q' := by
  induction h' with
  | nil => simpa using h
  | snoc _ hthread hstep ih =>
      rw [← List.append_assoc]
      exact ih.snoc hthread hstep

/-- A program that runs alone is a run in which no other thread has a moment. -/
theorem of_program {x : Program Op Ret ε α} {s s' : σ} {T : ι → Program Op Ret ε α} {i : ι}
    {r : Except ε α} (hi : T i = x) (hrun : x.run (step i) s = some (r, s')) :
    ∃ (τ : List (Moment Op Ret σ ι)) (y : Program Op Ret ε α), y.outcome? = some r ∧
      Traced step ⟨s, T⟩ τ ⟨s', Function.update T i y⟩ ∧ ∀ m ∈ τ, m.thread = i := by
  induction x generalizing s T with
  | ret a =>
      cases hrun
      refine ⟨[], .ret a, rfl, ?_, by simp⟩
      rw [← hi, Function.update_eq_self]
      exact .nil
  | fail e =>
      cases hrun
      refine ⟨[], .fail e, rfl, ?_, by simp⟩
      rw [← hi, Function.update_eq_self]
      exact .nil
  | call o k ih =>
      obtain ⟨⟨a, t⟩, hstep, hrest⟩ := Option.bind_eq_some_iff.mp hrun
      obtain ⟨τ, y, hy, hτ, hown⟩ := ih a (T := Function.update T i (k a)) (by simp) hrest
      rw [Function.update_idem] at hτ
      exact ⟨_, y, hy, (Traced.nil.snoc hi hstep).trans hτ, List.forall_mem_cons.mpr ⟨rfl, hown⟩⟩

/-- The first moments of a run are a run. -/
theorem upto (h : Traced step p τ q) {τ₁ : List (Moment Op Ret σ ι)} (hpre : τ₁ <+: τ) :
    ∃ q₁, Traced step p τ₁ q₁ ∧ Run step q₁ q := by
  induction h with
  | nil =>
      rw [List.prefix_nil.mp hpre]
      exact ⟨p, .nil, .refl⟩
  | @snoc τ q i o k r s' h hthread hstep ih =>
      obtain rfl | hpre := List.prefix_concat_iff.mp hpre
      · exact ⟨_, h.snoc hthread hstep, .refl⟩
      · obtain ⟨q₁, h₁, hrun⟩ := ih hpre
        exact ⟨q₁, h₁, hrun.tail (.call hthread hstep)⟩

/-- Every moment of a run ends a run of its own, which goes on to the end of the whole. -/
theorem moment (h : Traced step p τ q) {m : Moment Op Ret σ ι} (hm : m ∈ τ) :
    ∃ (τ₁ : List (Moment Op Ret σ ι)) (q₁ : Pool Op Ret ε α σ ι), τ₁ ++ [m] <+: τ ∧
      Traced step p τ₁ q₁ ∧ q₁.state = m.state ∧ Run step q₁ q ∧
      ∃ s', step m.thread m.state m.seen.1 = some (m.seen.2, s') := by
  induction h with
  | nil => cases hm
  | @snoc τ q i o k r s' h hthread hstep ih =>
      rcases List.mem_append.mp hm with hm | hm
      · obtain ⟨τ₁, q₁, hpre, h₁, hstate, hrun, hs⟩ := ih hm
        exact ⟨τ₁, q₁, hpre.trans (List.prefix_append _ _), h₁, hstate,
          hrun.tail (.call hthread hstep), hs⟩
      · rw [List.mem_singleton.mp hm]
        exact ⟨τ, q, List.prefix_rfl, h, rfl, .single (.call hthread hstep), s', hstep⟩

variable {G : List (Observation Op Ret) → Op → Prop} {R : List (Observation Op Ret) → α → Prop}
  {E : List (Observation Op Ret) → ε → Prop} {i : ι}

/-- A thread that is watched from its start is watched from its own moments on. -/
theorem watched (h : Traced step p τ q) (hp : Watched G R E (p.thread i) []) :
    Watched G R E (q.thread i) (own i τ) := by
  induction h with
  | nil => exact hp
  | @snoc τ q j o k r s' h hthread hstep ih =>
      by_cases hj : j = i
      · subst hj
        rw [hthread] at ih
        simpa [own_append, own_self] using ih.2 r
      · simpa [own_append, own_of_ne hj, Function.update_of_ne (Ne.symm hj)] using ih

/-- What the thread came to is as the logic says of its own moments. -/
theorem returned (h : Traced step p τ q) (hp : Watched G R E (p.thread i) []) {a : α}
    (ha : (q.thread i).outcome? = some (.ok a)) : R (own i τ) a := by
  have hq := h.watched hp
  cases hthread : q.thread i with
  | ret b =>
      rw [hthread] at hq ha
      cases ha
      exact hq
  | fail e =>
      rw [hthread] at ha
      cases ha
  | call o k =>
      rw [hthread] at ha
      cases ha

theorem failed (h : Traced step p τ q) (hp : Watched G R E (p.thread i) []) {e : ε}
    (he : (q.thread i).outcome? = some (.error e)) : E (own i τ) e := by
  have hq := h.watched hp
  cases hthread : q.thread i with
  | ret b =>
      rw [hthread] at he
      cases he
  | fail e' =>
      rw [hthread] at hq he
      cases he
      exact hq
  | call o k =>
      rw [hthread] at he
      cases he

/-- Every operation was allowed by what its thread had seen before. -/
theorem allowed {τ₁ : List (Moment Op Ret σ ι)} {m : Moment Op Ret σ ι}
    (h : Traced step p τ q) (hp : Watched G R E (p.thread m.thread) []) (hm : τ₁ ++ [m] <+: τ) :
    G (own m.thread τ₁) m.seen.1 := by
  induction h with
  | nil => exact absurd (List.prefix_nil.mp hm) (List.append_ne_nil_of_right_ne_nil _ (by simp))
  | @snoc τ q j o k r s' h hthread hstep ih =>
      obtain heq | hpre := List.prefix_concat_iff.mp hm
      · obtain ⟨rfl, hm'⟩ := List.append_inj' heq rfl
        cases hm'
        have hq := h.watched hp
        rw [hthread] at hq
        exact hq.1
      · exact ih hpre

/-- The thread that has no moment yet is the one that was there at the start. -/
theorem thread_of_unstarted (h : Traced step p τ q) (hown : own i τ = []) :
    q.thread i = p.thread i := by
  induction h with
  | nil => rfl
  | @snoc τ q j o k r s' h hthread hstep ih =>
      rw [own_append, List.append_eq_nil_iff] at hown
      have hj : j ≠ i := by
        rintro rfl
        rw [own_self] at hown
        cases hown.2
      exact (Function.update_of_ne hj.symm _ _).trans (ih hown.1)

/-- A watched program that runs alone, and its moments. -/
theorem of_watched {x : Program Op Ret ε α} {s s' : σ} {r : Except ε α}
    (hp : Watched G R E x []) (hrun : x.run (step i) s = some (r, s')) :
    ∃ (τ : List (Moment Op Ret σ ι)) (q : Pool Op Ret ε α σ ι),
      Traced step ⟨s, fun _ => x⟩ τ q ∧ q.state = s' ∧ own i τ = τ.map (·.seen) ∧
      (∀ m ∈ τ, ∃ l, G l m.seen.1) ∧ (∀ a, r = .ok a → R (τ.map (·.seen)) a) ∧
      ∀ e, r = .error e → E (τ.map (·.seen)) e := by
  obtain ⟨τ, y, hy, hτ, hown⟩ := of_program (T := fun _ => x) rfl hrun
  have hend : (Function.update (fun _ => x) i y i).outcome? = some r := by
    rw [Function.update_self]
    exact hy
  have hmap := own_eq_map hown
  refine ⟨τ, _, hτ, rfl, hmap, fun m hm => ?_, ?_, ?_⟩
  · obtain ⟨τ₁, _, hpre, _⟩ := hτ.moment hm
    have hm' := hown m hm
    subst hm'
    exact ⟨_, hτ.allowed hp hpre⟩
  · rintro a rfl
    rw [← hmap]
    exact hτ.returned hp hend
  · rintro e rfl
    rw [← hmap]
    exact hτ.failed hp hend

end Traced

end Pool

end VcalmStatus.Effects
