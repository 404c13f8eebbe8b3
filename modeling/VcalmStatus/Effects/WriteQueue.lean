import Mathlib.Data.List.Basic
import Mathlib.Logic.Function.Basic
import Mathlib.Logic.Relation

/-!
Serializing asynchronous work by a chain of promises.

For every key the queue remembers the promise of the last call. A new call takes that promise as
the one to wait for and leaves its own in its place; when it is over it takes its own away again,
unless a later call has replaced it. The calls are numbered in the order in which they were made.
-/

namespace VcalmStatus.Effects

/-- What a call has come to. Its promise is settled before the call itself returns. -/
inductive CallPhase
  | waiting
  | running
  | settled
  | returned
  deriving DecidableEq, Repr

/-- The promise of the call is settled. -/
def CallPhase.over : CallPhase → Bool
  | .waiting | .running => false
  | .settled | .returned => true

structure QueuedCall (K : Type) where
  key : K
  previous : Option Nat
  phase : CallPhase

structure WriteQueue (K : Type) where
  calls : List (QueuedCall K)
  last : K → Option Nat

namespace WriteQueue

variable {K : Type}

def empty : WriteQueue K := ⟨[], fun _ => none⟩

/-- Nothing is left to wait for. -/
def Clear (q : WriteQueue K) (previous : Option Nat) : Prop :=
  ∀ m c, previous = some m → q.calls[m]? = some c → c.phase.over = true

def enter (q : WriteQueue K) (n : Nat) (phase : CallPhase) : WriteQueue K :=
  { q with calls := q.calls.modify n fun c => { c with phase := phase } }

/-- `chained` and `first` are what a call knew of the calls before it when it was made; `order` is
what follows for the calls that got their turn. -/
structure Inv (q : WriteQueue K) : Prop where
  last : ∀ {key : K} {n : Nat}, q.last key = some n →
    ∃ c, q.calls[n]? = some c ∧ c.key = key ∧ c.phase ≠ .returned ∧
      ∀ (m : Nat) (d : QueuedCall K), q.calls[m]? = some d → d.key = key → m ≤ n
  free : ∀ {key : K} {n : Nat} {c : QueuedCall K}, q.last key = none → q.calls[n]? = some c →
    c.key = key → c.phase.over = true
  chained : ∀ {n m : Nat} {c : QueuedCall K}, q.calls[n]? = some c → c.previous = some m →
    m < n ∧ (∃ d, q.calls[m]? = some d ∧ d.key = c.key) ∧
      ∀ (k : Nat) (d : QueuedCall K), q.calls[k]? = some d → d.key = c.key → k < n → k ≤ m
  first : ∀ {n m : Nat} {c d : QueuedCall K}, q.calls[n]? = some c → c.previous = none →
    q.calls[m]? = some d → d.key = c.key → m < n → d.phase.over = true
  order : ∀ {n m : Nat} {c d : QueuedCall K}, q.calls[n]? = some c → c.phase ≠ .waiting →
    q.calls[m]? = some d → d.key = c.key → m < n → d.phase.over = true

theorem inv_empty : (empty : WriteQueue K).Inv where
  last := nofun
  free := nofun
  chained := nofun
  first := nofun
  order := nofun

theorem getElem?_enter {q : WriteQueue K} {n m : Nat} {phase : CallPhase} {d : QueuedCall K}
    (h : (q.enter n phase).calls[m]? = some d) :
    ∃ c, q.calls[m]? = some c ∧ d.key = c.key ∧ d.previous = c.previous ∧
      d.phase = if n = m then phase else c.phase := by
  rw [enter, List.getElem?_modify] at h
  obtain ⟨c, hc, hd⟩ := Option.map_eq_some_iff.mp h
  refine ⟨c, hc, ?_⟩
  subst hd
  split <;> exact ⟨rfl, rfl, rfl⟩

theorem exists_getElem?_enter {q : WriteQueue K} {m : Nat} {c : QueuedCall K}
    (h : q.calls[m]? = some c) (n : Nat) (phase : CallPhase) :
    ∃ d, (q.enter n phase).calls[m]? = some d ∧ d.key = c.key ∧
      d.phase = if n = m then phase else c.phase := by
  refine ⟨if n = m then { c with phase := phase } else c, ?_, ?_⟩
  · rw [enter, List.getElem?_modify, h]
    split <;> rfl
  · split <;> exact ⟨rfl, rfl⟩

/-- Entering the phase it is in changes nothing. -/
theorem enter_self {q : WriteQueue K} {n : Nat} {c : QueuedCall K} (h : q.calls[n]? = some c) :
    q.enter n c.phase = q := by
  have hcalls : q.calls.modify n (fun d => { d with phase := c.phase }) = q.calls := by
    apply List.ext_getElem?
    intro m
    rw [List.getElem?_modify]
    by_cases hnm : n = m
    · subst hnm
      simp [h]
    · simp [hnm]
  rw [enter, hcalls]

/-- Of two phases entered at once the second one stays. -/
theorem enter_enter (q : WriteQueue K) (n : Nat) (phase phase' : CallPhase) :
    (q.enter n phase).enter n phase' = q.enter n phase' := by
  have hcalls : ((q.enter n phase).enter n phase').calls = (q.enter n phase').calls := by
    apply List.ext_getElem?
    intro m
    simp only [enter, List.getElem?_modify]
    by_cases hnm : n = m <;> simp [hnm, Function.comp_def]
  exact congrArg (fun calls => (⟨calls, q.last⟩ : WriteQueue K)) hcalls

namespace Inv

variable {q : WriteQueue K}

/-- A call enters a phase, and a promise may be taken away. A phase that is over stays over, and
only the call whose turn it is leaves the waiting. -/
theorem enterWith (h : q.Inv) {n : Nat} {c : QueuedCall K} {phase : CallPhase}
    {last : K → Option Nat} (hcall : q.calls[n]? = some c)
    (hover : c.phase.over = true → phase.over = true)
    (hturn : ∀ (m : Nat) (d : QueuedCall K), q.calls[m]? = some d → d.key = c.key → m < n →
      d.phase.over = true)
    (hlast : ∀ {key : K} {m : Nat}, last key = some m →
      q.last key = some m ∧ (n = m → phase ≠ .returned))
    (hfree : ∀ {key : K} {m : Nat} {d : QueuedCall K}, last key = none → q.calls[m]? = some d →
      d.key = key → d.phase.over = true) :
    Inv ⟨(q.enter n phase).calls, last⟩ := by
  have hkeeps : ∀ {m : Nat} {d d' : QueuedCall K}, q.calls[m]? = some d →
      d'.phase = (if n = m then phase else d.phase) → d.phase.over = true →
      d'.phase.over = true := by
    intro m d d' hd hphase hdover
    rw [hphase]
    split <;> rename_i hnm
    · subst hnm
      rw [hcall] at hd
      cases hd
      exact hover hdover
    · exact hdover
  refine ⟨?_, ?_, ?_, ?_, ?_⟩
  · intro key l hl
    obtain ⟨hl, hreturned⟩ := hlast hl
    obtain ⟨d, hd, hkey, hphase, hmax⟩ := h.last hl
    obtain ⟨d', hd', hkey', hphase'⟩ := exists_getElem?_enter hd n phase
    refine ⟨d', hd', hkey'.trans hkey, ?_, fun m e he hek => ?_⟩
    · rw [hphase']
      split <;> rename_i hnl
      · exact hreturned hnl
      · exact hphase
    · obtain ⟨e', he', hek', -, -⟩ := getElem?_enter he
      exact hmax m e' he' (hek'.symm.trans hek)
  · intro key m d hnone hd hkey
    obtain ⟨e, he, hek, -, hphase⟩ := getElem?_enter hd
    exact hkeeps he hphase (hfree hnone he (hek.symm.trans hkey))
  · intro m l d hd hprev
    obtain ⟨e, he, hek, hep, -⟩ := getElem?_enter hd
    obtain ⟨hlt, ⟨f, hf, hfk⟩, hmax⟩ := h.chained he (hep.symm.trans hprev)
    obtain ⟨f', hf', hfk', -⟩ := exists_getElem?_enter hf n phase
    refine ⟨hlt, ⟨f', hf', by rw [hfk', hfk, hek]⟩, fun k g hg hgk hk => ?_⟩
    obtain ⟨g', hg', hgk', -, -⟩ := getElem?_enter hg
    exact hmax k g' hg' (by rw [← hgk', hgk, hek]) hk
  · intro m l d e hd hprev he hek hlt
    obtain ⟨d', hd', hdk, hdp, -⟩ := getElem?_enter hd
    obtain ⟨e', he', hek', -, hphase⟩ := getElem?_enter he
    exact hkeeps he' hphase
      (h.first hd' (hdp.symm.trans hprev) he' (by rw [← hek', hek, hdk]) hlt)
  · intro m l d e hd hphase he hek hlt
    obtain ⟨d', hd', hdk, -, hdphase⟩ := getElem?_enter hd
    obtain ⟨e', he', hek', -, hephase⟩ := getElem?_enter he
    have hkey : e'.key = d'.key := by rw [← hek', hek, hdk]
    refine hkeeps he' hephase ?_
    by_cases hnm : n = m
    · subst hnm
      rw [hcall] at hd'
      cases hd'
      exact hturn l e' he' hkey hlt
    · rw [hdphase, if_neg hnm] at hphase
      exact h.order hd' hphase he' hkey hlt

theorem enter (h : q.Inv) {n : Nat} {c : QueuedCall K} {phase : CallPhase}
    (hcall : q.calls[n]? = some c) (hover : c.phase.over = true → phase.over = true)
    (hreturned : phase ≠ .returned)
    (hturn : ∀ (m : Nat) (d : QueuedCall K), q.calls[m]? = some d → d.key = c.key → m < n →
      d.phase.over = true) : (q.enter n phase).Inv :=
  h.enterWith hcall hover hturn (fun hl => ⟨hl, fun _ => hreturned⟩)
    fun hnone hd hkey => h.free hnone hd hkey

/-- With the promise it waits for settled, everything before a call is over. -/
theorem over_of_clear (h : q.Inv) {n m : Nat} {c d : QueuedCall K}
    (hcall : q.calls[n]? = some c) (hclear : q.Clear c.previous) (hd : q.calls[m]? = some d)
    (hkey : d.key = c.key) (hlt : m < n) : d.phase.over = true := by
  cases hprev : c.previous with
  | none => exact h.first hcall hprev hd hkey hlt
  | some l =>
      obtain ⟨hln, ⟨e, he, hek⟩, hmax⟩ := h.chained hcall hprev
      have heover : e.phase.over = true := hclear l e hprev he
      have hml : m ≤ l := hmax m d hd hkey hlt
      by_cases hm : m = l
      · subst hm
        rw [he] at hd
        cases hd
        exact heover
      · have hstarted : e.phase ≠ .waiting := by
          intro hwaiting
          rw [hwaiting] at heover
          cases heover
        exact h.order he hstarted hd (hkey.trans hek.symm) (by omega)

end Inv

theorem lt_of_getElem? {q : WriteQueue K} {n : Nat} {c : QueuedCall K}
    (h : q.calls[n]? = some c) : n < q.calls.length := (List.getElem?_eq_some_iff.mp h).1

variable [DecidableEq K]

def enqueue (q : WriteQueue K) (key : K) : WriteQueue K where
  calls := q.calls ++ [⟨key, q.last key, .waiting⟩]
  last := Function.update q.last key (some q.calls.length)

def leave (q : WriteQueue K) (n : Nat) (key : K) : WriteQueue K where
  calls := (q.enter n .returned).calls
  last := if q.last key = some n then Function.update q.last key none else q.last

inductive Step (q : WriteQueue K) : WriteQueue K → Prop
  | call (key : K) : Step q (q.enqueue key)
  | start {n : Nat} {c : QueuedCall K} (hcall : q.calls[n]? = some c) (hphase : c.phase = .waiting)
      (hclear : q.Clear c.previous) : Step q (q.enter n .running)
  | settle {n : Nat} {c : QueuedCall K} (hcall : q.calls[n]? = some c)
      (hphase : c.phase = .running) : Step q (q.enter n .settled)
  | leave {n : Nat} {c : QueuedCall K} (hcall : q.calls[n]? = some c)
      (hphase : c.phase = .settled) : Step q (q.leave n c.key)

theorem last_enqueue (q : WriteQueue K) (key key' : K) :
    (q.enqueue key).last key' = if key' = key then some q.calls.length else q.last key' :=
  Function.update_apply ..

theorem getElem?_enqueue {q : WriteQueue K} {key : K} {n : Nat} {c : QueuedCall K} :
    (q.enqueue key).calls[n]? = some c ↔ q.calls[n]? = some c ∨
      n = q.calls.length ∧ c = ⟨key, q.last key, .waiting⟩ := by
  rw [enqueue, List.getElem?_append]
  split <;> rename_i hn
  · simp [Nat.ne_of_lt hn]
  · rw [List.getElem?_singleton, List.getElem?_eq_none (Nat.le_of_not_lt hn)]
    split <;> rename_i hz
    · have hlength : n = q.calls.length := by omega
      simp [hlength, eq_comm]
    · have hlength : n ≠ q.calls.length := by omega
      simp [hlength]

/-- A new call is behind every call of its key, and waits for the last of them. -/
theorem Inv.enqueue {q : WriteQueue K} (h : q.Inv) (key : K) : (q.enqueue key).Inv where
  last := by
    intro key' n hlast
    by_cases hkey : key' = key
    · subst hkey
      rw [last_enqueue, if_pos rfl] at hlast
      cases hlast
      refine ⟨_, getElem?_enqueue.mpr (.inr ⟨rfl, rfl⟩), rfl, nofun, fun m d hd _ => ?_⟩
      obtain hd | ⟨rfl, -⟩ := getElem?_enqueue.mp hd
      · exact Nat.le_of_lt (lt_of_getElem? hd)
      · exact Nat.le_refl _
    · rw [last_enqueue, if_neg hkey] at hlast
      obtain ⟨c, hc, hck, hphase, hmax⟩ := h.last hlast
      refine ⟨c, getElem?_enqueue.mpr (.inl hc), hck, hphase, fun m d hd hdk => ?_⟩
      obtain hd | ⟨-, rfl⟩ := getElem?_enqueue.mp hd
      · exact hmax m d hd hdk
      · exact absurd hdk.symm hkey
  free := by
    intro key' n c hlast hc hck
    by_cases hkey : key' = key
    · subst hkey
      rw [last_enqueue, if_pos rfl] at hlast
      cases hlast
    · rw [last_enqueue, if_neg hkey] at hlast
      obtain hc | ⟨-, rfl⟩ := getElem?_enqueue.mp hc
      · exact h.free hlast hc hck
      · exact absurd hck.symm hkey
  chained := by
    intro n m c hc hprev
    obtain hc | ⟨rfl, rfl⟩ := getElem?_enqueue.mp hc
    · obtain ⟨hlt, ⟨d, hd, hdk⟩, hmax⟩ := h.chained hc hprev
      refine ⟨hlt, ⟨d, getElem?_enqueue.mpr (.inl hd), hdk⟩, fun k e he hek hk => ?_⟩
      obtain he | ⟨rfl, -⟩ := getElem?_enqueue.mp he
      · exact hmax k e he hek hk
      · have hn := lt_of_getElem? hc
        omega
    · obtain ⟨d, hd, hdk, -, hmax⟩ := h.last hprev
      refine ⟨lt_of_getElem? hd, ⟨d, getElem?_enqueue.mpr (.inl hd), hdk⟩,
        fun k e he hek hk => ?_⟩
      obtain he | ⟨rfl, -⟩ := getElem?_enqueue.mp he
      · exact hmax k e he hek
      · exact absurd hk (Nat.lt_irrefl _)
  first := by
    intro n m c d hc hprev hd hdk hlt
    obtain hc | ⟨rfl, rfl⟩ := getElem?_enqueue.mp hc
    · have hn := lt_of_getElem? hc
      obtain hd | ⟨rfl, -⟩ := getElem?_enqueue.mp hd
      · exact h.first hc hprev hd hdk hlt
      · omega
    · obtain hd | ⟨rfl, -⟩ := getElem?_enqueue.mp hd
      · exact h.free hprev hd hdk
      · exact absurd hlt (Nat.lt_irrefl _)
  order := by
    intro n m c d hc hphase hd hdk hlt
    obtain hc | ⟨rfl, rfl⟩ := getElem?_enqueue.mp hc
    · have hn := lt_of_getElem? hc
      obtain hd | ⟨rfl, -⟩ := getElem?_enqueue.mp hd
      · exact h.order hc hphase hd hdk hlt
      · omega
    · exact absurd rfl hphase

theorem Inv.leave {q : WriteQueue K} (h : q.Inv) {n : Nat} {c : QueuedCall K}
    (hcall : q.calls[n]? = some c) (hphase : c.phase = .settled) : (q.leave n c.key).Inv := by
  have hstarted : c.phase ≠ .waiting := by
    rw [hphase]
    nofun
  have hover : c.phase.over = true := by
    rw [hphase]
    rfl
  have hlast : ∀ {key : K} {m : Nat}, (q.leave n c.key).last key = some m →
      q.last key = some m ∧ n ≠ m := by
    intro key m hl
    simp only [WriteQueue.leave] at hl
    split at hl <;> rename_i hown
    · by_cases hkey : key = c.key
      · rw [hkey, Function.update_self] at hl
        cases hl
      · rw [Function.update_of_ne hkey] at hl
        refine ⟨hl, fun hnm => hkey ?_⟩
        obtain ⟨d, hd, hdk, -⟩ := h.last hl
        rw [← hnm, hcall] at hd
        cases hd
        exact hdk.symm
    · refine ⟨hl, fun hnm => hown ?_⟩
      obtain ⟨d, hd, hdk, -⟩ := h.last hl
      rw [← hnm, hcall] at hd
      cases hd
      rw [hdk, hl, hnm]
  have hfree : ∀ {key : K} {m : Nat} {d : QueuedCall K}, (q.leave n c.key).last key = none →
      q.calls[m]? = some d → d.key = key → d.phase.over = true := by
    intro key m d hnone hd hkey
    cases hl : q.last key with
    | none => exact h.free hl hd hkey
    | some l =>
        -- the promise that was taken away was the last one, so every call of the key is before it
        have hown : key = c.key ∧ l = n := by
          simp only [WriteQueue.leave] at hnone
          split at hnone <;> rename_i hown
          · by_cases hkc : key = c.key
            · rw [hkc, hown] at hl
              exact ⟨hkc, (Option.some.inj hl).symm⟩
            · rw [Function.update_of_ne hkc, hl] at hnone
              cases hnone
          · rw [hl] at hnone
            cases hnone
        obtain ⟨hkc, rfl⟩ := hown
        obtain ⟨-, -, -, -, hmax⟩ := h.last hl
        by_cases hm : m = l
        · subst hm
          rw [hcall] at hd
          cases hd
          exact hover
        · have hle := hmax m d hd hkey
          exact h.order hcall hstarted hd (hkey.trans hkc) (by omega)
  exact h.enterWith hcall (fun _ => rfl)
    (fun m d hd hkey hlt => h.order hcall hstarted hd hkey hlt)
    (fun hl => ⟨(hlast hl).1, fun hnm => absurd hnm (hlast hl).2⟩) hfree

theorem Inv.step {q q' : WriteQueue K} (h : q.Inv) (hstep : q.Step q') : q'.Inv := by
  cases hstep with
  | call key => exact h.enqueue key
  | @start n c hcall hphase hclear =>
      refine h.enter hcall (fun hover => ?_) nofun fun m d hd hkey hlt =>
        h.over_of_clear hcall hclear hd hkey hlt
      rw [hphase] at hover
      cases hover
  | @settle n c hcall hphase =>
      exact h.enter hcall (fun _ => rfl) nofun fun m d hd hkey hlt =>
        h.order hcall (by rw [hphase]; nofun) hd hkey hlt
  | leave hcall hphase => exact h.leave hcall hphase

end WriteQueue

namespace WriteQueue.Inv

variable {K : Type} {q : WriteQueue K}

/-- Calls of a key get their turn in the order in which they were made, one at a time. -/
theorem in_order (h : q.Inv) {n m : Nat} {c d : QueuedCall K} (hc : q.calls[n]? = some c)
    (hphase : c.phase ≠ .waiting) (hd : q.calls[m]? = some d) (hover : d.phase.over = false)
    (hkey : d.key = c.key) : n ≤ m := by
  apply Nat.le_of_not_lt
  intro hlt
  rw [h.order hc hphase hd hkey hlt] at hover
  cases hover

theorem exclusive (h : q.Inv) {n m : Nat} {c d : QueuedCall K} (hc : q.calls[n]? = some c)
    (hcrun : c.phase = .running) (hd : q.calls[m]? = some d) (hdrun : d.phase = .running)
    (hkey : d.key = c.key) : n = m := by
  have hnm := h.in_order hc (by rw [hcrun]; nofun) hd (by rw [hdrun]; rfl) hkey
  have hmn := h.in_order hd (by rw [hdrun]; nofun) hc (by rw [hcrun]; rfl) hkey.symm
  omega

/-- Nobody waits in vain: a call of the key is running, or may start at once. -/
theorem progress (h : q.Inv) {n : Nat} {c : QueuedCall K} (hc : q.calls[n]? = some c)
    (hphase : c.phase = .waiting) :
    ∃ m d, m ≤ n ∧ q.calls[m]? = some d ∧ d.key = c.key ∧
      (d.phase = .running ∨ d.phase = .waiting ∧ q.Clear d.previous) := by
  -- back along the promises the calls wait for
  induction n using Nat.strongRecOn generalizing c with
  | _ n ih =>
      by_cases hclear : q.Clear c.previous
      · exact ⟨n, c, Nat.le_refl n, hc, rfl, .inr ⟨hphase, hclear⟩⟩
      · simp only [WriteQueue.Clear, not_forall] at hclear
        obtain ⟨m, d, hprev, hd, hbusy⟩ := hclear
        obtain ⟨hlt, ⟨e, he, hek⟩, -⟩ := h.chained hc hprev
        rw [hd] at he
        cases he
        cases hd' : d.phase with
        | waiting =>
            obtain ⟨l, f, hl, hf, hfk, hfphase⟩ := ih m hlt hd hd'
            exact ⟨l, f, by omega, hf, hfk.trans hek, hfphase⟩
        | running => exact ⟨m, d, Nat.le_of_lt hlt, hd, hek, .inl hd'⟩
        | settled =>
            rw [hd'] at hbusy
            exact absurd rfl hbusy
        | returned =>
            rw [hd'] at hbusy
            exact absurd rfl hbusy

end WriteQueue.Inv

end VcalmStatus.Effects
