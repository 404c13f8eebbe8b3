import Mathlib.Data.List.Basic
import Mathlib.Logic.Function.Basic
import Mathlib.Logic.Relation

/-!
A cache of promises.

A caller asks for a value by a request. If the cache has a promise under the request's key, the
caller waits for that one; otherwise a derivation is started and its promise is cached before
anybody else runs. A derivation settles some time later, and only then does its handler run: on a
failure it takes the entry of its key out again, whatever is there, and the waiting callers are
answered after it. Nothing is said about the order in which calls, settlements, handlers and
answers happen.

The one invariant is `PromiseCache.Inv`: an entry is exactly a derivation whose failure was not
reported, so a handler only ever removes its own entry.
-/

namespace VcalmStatus.Effects

namespace PromiseCache

/-- What has become of a derivation: it runs, it has come to an end, its handler has run. -/
inductive Phase (ε α : Type)
  | pending
  | settled (r : Except ε α)
  | reported (r : Except ε α)

structure Derivation (κ χ ε α : Type) where
  key : κ
  config : χ
  phase : Phase ε α

/-- A call waits for the promise of one derivation until it is answered. -/
structure Call (ρ ε α : Type) where
  request : ρ
  promise : Nat
  answer : Option (Except ε α)

end PromiseCache

open PromiseCache

/-- The entries of the cache, every derivation that was started and every call, in order. -/
structure PromiseCache (ρ κ χ ε α : Type) where
  entries : κ → Option Nat
  derivations : List (Derivation κ χ ε α)
  calls : List (Call ρ ε α)

/-- What the requests of a cache stand for: a key, a configuration the key determines, and what a
derivation from a configuration may come to. -/
structure Keying (ρ κ χ ε α : Type) where
  keyOf : ρ → κ
  configOf : ρ → χ
  Derives : χ → Except ε α → Prop
  config_of_key : ∀ {a b}, keyOf a = keyOf b → configOf a = configOf b

namespace PromiseCache

variable {ρ κ χ ε α : Type}

/-- The failure of a derivation was reported. -/
def Phase.Failed (phase : Phase ε α) : Prop := ∃ e, phase = .reported (.error e)

/-- What a derivation came to, reported or not. -/
def Phase.outcome? : Phase ε α → Option (Except ε α)
  | .pending => none
  | .settled r => some r
  | .reported r => some r

@[simp] theorem not_failed_pending : ¬(Phase.pending : Phase ε α).Failed := nofun

@[simp] theorem not_failed_settled (r : Except ε α) : ¬(Phase.settled r).Failed := nofun

@[simp] theorem failed_reported (r : Except ε α) :
    (Phase.reported r).Failed ↔ ∃ e, r = .error e := by
  simp [Phase.Failed]

def empty : PromiseCache ρ κ χ ε α := ⟨fun _ => none, [], []⟩

/-- A call that joins a cached derivation. -/
def join (s : PromiseCache ρ κ χ ε α) (request : ρ) (promise : Nat) : PromiseCache ρ κ χ ε α :=
  { s with calls := s.calls ++ [⟨request, promise, none⟩] }

/-- A call that starts a derivation and caches its promise. -/
def start [DecidableEq κ] (K : Keying ρ κ χ ε α) (s : PromiseCache ρ κ χ ε α) (request : ρ) :
    PromiseCache ρ κ χ ε α where
  entries := Function.update s.entries (K.keyOf request) (some s.derivations.length)
  derivations := s.derivations ++ [⟨K.keyOf request, K.configOf request, .pending⟩]
  calls := s.calls ++ [⟨request, s.derivations.length, none⟩]

def setPhase (s : PromiseCache ρ κ χ ε α) (p : Nat) (d : Derivation κ χ ε α)
    (phase : Phase ε α) : PromiseCache ρ κ χ ε α :=
  { s with derivations := s.derivations.set p { d with phase := phase } }

/-- `entries.delete(key)`. -/
def delete [DecidableEq κ] (s : PromiseCache ρ κ χ ε α) (key : κ) : PromiseCache ρ κ χ ε α :=
  { s with entries := Function.update s.entries key none }

/-- The handler of a derivation that came to `r`. -/
def report [DecidableEq κ] (s : PromiseCache ρ κ χ ε α) (p : Nat) (d : Derivation κ χ ε α) :
    Except ε α → PromiseCache ρ κ χ ε α
  | .ok a => s.setPhase p d (.reported (.ok a))
  | .error e => (s.delete d.key).setPhase p d (.reported (.error e))

def answer (s : PromiseCache ρ κ χ ε α) (i : Nat) (c : Call ρ ε α) (r : Except ε α) :
    PromiseCache ρ κ χ ε α :=
  { s with calls := s.calls.set i { c with answer := some r } }

/-- Everything that can happen next. -/
inductive Step [DecidableEq κ] (K : Keying ρ κ χ ε α) (s : PromiseCache ρ κ χ ε α) :
    PromiseCache ρ κ χ ε α → Prop
  | join {request : ρ} {p : Nat} (h : s.entries (K.keyOf request) = some p) :
      Step K s (s.join request p)
  | start {request : ρ} (h : s.entries (K.keyOf request) = none) : Step K s (s.start K request)
  | settle {p : Nat} {d : Derivation κ χ ε α} {r : Except ε α}
      (hd : s.derivations[p]? = some d) (hphase : d.phase = .pending)
      (hr : K.Derives d.config r) : Step K s (s.setPhase p d (.settled r))
  | report {p : Nat} {d : Derivation κ χ ε α} {r : Except ε α}
      (hd : s.derivations[p]? = some d) (hphase : d.phase = .settled r) :
      Step K s (s.report p d r)
  | answer {i : Nat} {c : Call ρ ε α} {d : Derivation κ χ ε α} {r : Except ε α}
      (hc : s.calls[i]? = some c) (hnone : c.answer = none)
      (hd : s.derivations[c.promise]? = some d) (hphase : d.phase = .reported r) :
      Step K s (s.answer i c r)

/-- Any number of steps. -/
abbrev Run [DecidableEq κ] (K : Keying ρ κ χ ε α) :
    PromiseCache ρ κ χ ε α → PromiseCache ρ κ χ ε α → Prop :=
  Relation.ReflTransGen (Step K)

/-! ### The invariant -/

/-- Entries are the derivations whose failure was not reported, derivations are made of what they
are filed under, and calls wait for a derivation under their own key. -/
structure Inv (K : Keying ρ κ χ ε α) (s : PromiseCache ρ κ χ ε α) : Prop where
  entry : ∀ k p, s.entries k = some p ↔
    ∃ d : Derivation κ χ ε α, s.derivations[p]? = some d ∧ d.key = k ∧ ¬d.phase.Failed
  made : ∀ (p : Nat) (d : Derivation κ χ ε α), s.derivations[p]? = some d →
    ∃ request, d.key = K.keyOf request ∧ d.config = K.configOf request
  derived : ∀ (p : Nat) (d : Derivation κ χ ε α) r, s.derivations[p]? = some d →
    d.phase.outcome? = some r → K.Derives d.config r
  asked : ∀ (i : Nat) (c : Call ρ ε α), s.calls[i]? = some c →
    ∃ d : Derivation κ χ ε α, s.derivations[c.promise]? = some d ∧
      d.key = K.keyOf c.request ∧ ∀ r, c.answer = some r → d.phase = .reported r

variable {K : Keying ρ κ χ ε α} {s s' : PromiseCache ρ κ χ ε α}

theorem inv_empty : Inv K (empty : PromiseCache ρ κ χ ε α) where
  entry k p := by simp [empty]
  made p d h := by simp [empty] at h
  derived p d r h := by simp [empty] at h
  asked i c h := by simp [empty] at h

/-- A call under the key of a derivation that was just started joins it. -/
theorem entries_start [DecidableEq κ] (request : ρ) :
    (s.start K request).entries (K.keyOf request) = some s.derivations.length :=
  Function.update_self _ _ _

/-- A snoc list finds what was there before, and the new element at its end. -/
theorem getElem?_snoc {β : Type} {l : List β} {x y : β} {n : Nat} :
    (l ++ [x])[n]? = some y ↔ l[n]? = some y ∨ n = l.length ∧ x = y := by
  rcases Nat.lt_trichotomy n l.length with hn | hn | hn
  · rw [List.getElem?_append_left hn]
    exact ⟨.inl, fun h => h.resolve_right fun h => absurd h.1 (Nat.ne_of_lt hn)⟩
  · subst hn
    simp
  · have hnone : l[n]? = none := List.getElem?_eq_none (Nat.le_of_lt hn)
    have hnone' : (l ++ [x])[n]? = none :=
      List.getElem?_eq_none (by simpa using Nat.succ_le_of_lt hn)
    rw [hnone, hnone']
    simp [Nat.ne_of_gt hn]

theorem Inv.join {request : ρ} {p : Nat} (hI : Inv K s)
    (h : s.entries (K.keyOf request) = some p) : Inv K (s.join request p) where
  entry := hI.entry
  made := hI.made
  derived := hI.derived
  asked i c hc := by
    obtain hc | ⟨_, rfl⟩ := getElem?_snoc.mp hc
    · exact hI.asked i c hc
    · obtain ⟨d, hd, hkey, _⟩ := (hI.entry _ _).mp h
      exact ⟨d, hd, hkey, nofun⟩

theorem Inv.start [DecidableEq κ] {request : ρ} (hI : Inv K s)
    (h : s.entries (K.keyOf request) = none) : Inv K (s.start K request) where
  entry k p := by
    simp only [PromiseCache.start, getElem?_snoc]
    by_cases hk : k = K.keyOf request
    · subst hk
      rw [Function.update_self, Option.some.injEq]
      constructor
      · rintro rfl
        exact ⟨_, .inr ⟨rfl, rfl⟩, rfl, not_failed_pending⟩
      · rintro ⟨d, hd | ⟨hp, _⟩, hkey, hlive⟩
        · rw [(hI.entry _ p).mpr ⟨d, hd, hkey, hlive⟩] at h
          cases h
        · exact hp.symm
    · rw [Function.update_of_ne hk, hI.entry]
      constructor
      · rintro ⟨d, hd, hkey, hlive⟩
        exact ⟨d, .inl hd, hkey, hlive⟩
      · rintro ⟨d, hd | ⟨_, rfl⟩, hkey, hlive⟩
        · exact ⟨d, hd, hkey, hlive⟩
        · exact absurd hkey.symm hk
  made p d hd := by
    obtain hd | ⟨_, rfl⟩ := getElem?_snoc.mp hd
    · exact hI.made p d hd
    · exact ⟨request, rfl, rfl⟩
  derived p d r hd hr := by
    obtain hd | ⟨_, rfl⟩ := getElem?_snoc.mp hd
    · exact hI.derived p d r hd hr
    · cases hr
  asked i c hc := by
    obtain hc | ⟨_, rfl⟩ := getElem?_snoc.mp hc
    · obtain ⟨d, hd, h⟩ := hI.asked i c hc
      exact ⟨d, getElem?_snoc.mpr (.inl hd), h⟩
    · exact ⟨_, getElem?_snoc.mpr (.inr ⟨rfl, rfl⟩), rfl, nofun⟩

theorem getElem?_setPhase {p q : Nat} {d d' : Derivation κ χ ε α} {phase : Phase ε α}
    (hd : s.derivations[p]? = some d) :
    (s.setPhase p d phase).derivations[q]? = some d' ↔
      (q = p ∧ d' = { d with phase := phase }) ∨ (q ≠ p ∧ s.derivations[q]? = some d') := by
  obtain ⟨hlt, _⟩ := List.getElem?_eq_some_iff.mp hd
  rw [PromiseCache.setPhase, List.getElem?_set]
  by_cases hq : q = p
  · subst hq
    simp [hlt, eq_comm]
  · simp [hq, Ne.symm hq]

/-- A derivation that was not reported has answered nobody yet. -/
theorem asked_setPhase (hI : Inv K s) {p : Nat} {d : Derivation κ χ ε α} {phase : Phase ε α}
    (hd : s.derivations[p]? = some d) (hnext : ∀ r, d.phase ≠ .reported r) {i : Nat}
    {c : Call ρ ε α} (hc : s.calls[i]? = some c) :
    ∃ d', (s.setPhase p d phase).derivations[c.promise]? = some d' ∧
      d'.key = K.keyOf c.request ∧ ∀ r, c.answer = some r → d'.phase = .reported r := by
  obtain ⟨d', hd', hkey, hanswer⟩ := hI.asked i c hc
  by_cases hp : c.promise = p
  · rw [hp, hd, Option.some.injEq] at hd'
    subst hd'
    exact ⟨_, (getElem?_setPhase hd).mpr (.inl ⟨hp, rfl⟩), hkey,
      fun r hr => absurd (hanswer r hr) (hnext r)⟩
  · exact ⟨d', (getElem?_setPhase hd).mpr (.inr ⟨hp, hd'⟩), hkey, hanswer⟩

theorem made_setPhase (hI : Inv K s) {p : Nat} {d : Derivation κ χ ε α} {phase : Phase ε α}
    (hd : s.derivations[p]? = some d) (q : Nat) (d' : Derivation κ χ ε α)
    (hd' : (s.setPhase p d phase).derivations[q]? = some d') :
    ∃ request, d'.key = K.keyOf request ∧ d'.config = K.configOf request := by
  obtain ⟨rfl, rfl⟩ | ⟨_, hd'⟩ := (getElem?_setPhase hd).mp hd'
  · exact hI.made q d hd
  · exact hI.made q d' hd'

theorem derived_setPhase (hI : Inv K s) {p : Nat} {d : Derivation κ χ ε α} {phase : Phase ε α}
    (hd : s.derivations[p]? = some d) (hr : ∀ r, phase.outcome? = some r → K.Derives d.config r)
    (q : Nat) (d' : Derivation κ χ ε α) (r : Except ε α)
    (hd' : (s.setPhase p d phase).derivations[q]? = some d') (hr' : d'.phase.outcome? = some r) :
    K.Derives d'.config r := by
  obtain ⟨rfl, rfl⟩ | ⟨_, hd'⟩ := (getElem?_setPhase hd).mp hd'
  · exact hr r hr'
  · exact hI.derived q d' r hd' hr'

/-- A derivation that does not fail keeps its entry. -/
theorem Inv.setPhase (hI : Inv K s) {p : Nat} {d : Derivation κ χ ε α} {phase : Phase ε α}
    (hd : s.derivations[p]? = some d) (hnext : ∀ r, d.phase ≠ .reported r)
    (hlive : ¬phase.Failed) (hr : ∀ r, phase.outcome? = some r → K.Derives d.config r) :
    Inv K (s.setPhase p d phase) where
  entry k q := by
    have hdlive : ¬d.phase.Failed := fun ⟨e, he⟩ => hnext _ he
    rw [show (s.setPhase p d phase).entries k = s.entries k from rfl, hI.entry]
    by_cases hq : q = p
    · subst hq
      constructor
      · rintro ⟨d', hd', hkey, _⟩
        rw [hd, Option.some.injEq] at hd'
        exact ⟨_, (getElem?_setPhase hd).mpr (.inl ⟨rfl, rfl⟩), hd' ▸ hkey, hlive⟩
      · rintro ⟨d', hd', hkey, _⟩
        obtain ⟨_, rfl⟩ | ⟨hne, _⟩ := (getElem?_setPhase hd).mp hd'
        · exact ⟨d, hd, hkey, hdlive⟩
        · exact absurd rfl hne
    · constructor
      · rintro ⟨d', hd', h⟩
        exact ⟨d', (getElem?_setPhase hd).mpr (.inr ⟨hq, hd'⟩), h⟩
      · rintro ⟨d', hd', h⟩
        obtain ⟨hp, _⟩ | ⟨_, hd'⟩ := (getElem?_setPhase hd).mp hd'
        · exact absurd hp hq
        · exact ⟨d', hd', h⟩
  made := made_setPhase hI hd
  derived := derived_setPhase hI hd hr
  asked _ _ hc := asked_setPhase hI hd hnext hc

/-- The handler of a failed derivation removes the entry of that derivation and no other. -/
theorem Inv.fail [DecidableEq κ] (hI : Inv K s) {p : Nat} {d : Derivation κ χ ε α} {e : ε}
    (hd : s.derivations[p]? = some d) (hphase : d.phase = .settled (.error e)) :
    Inv K ((s.delete d.key).setPhase p d (.reported (.error e))) where
  entry k q := by
    have hdlive : ¬d.phase.Failed := by simp [hphase]
    have hown : s.entries d.key = some p := (hI.entry _ _).mpr ⟨d, hd, rfl, hdlive⟩
    have hd' : (s.delete d.key).derivations[p]? = some d := hd
    change Function.update s.entries d.key none k = some q ↔ _
    constructor
    · intro hentry
      by_cases hk : k = d.key
      · rw [hk, Function.update_self] at hentry
        cases hentry
      · rw [Function.update_of_ne hk] at hentry
        obtain ⟨d', hq, hkey, hlive⟩ := (hI.entry k q).mp hentry
        refine ⟨d', (getElem?_setPhase hd').mpr (.inr ⟨?_, hq⟩), hkey, hlive⟩
        rintro rfl
        rw [hd, Option.some.injEq] at hq
        exact hk (hq ▸ hkey.symm)
    · rintro ⟨d', hq, hkey, hlive⟩
      obtain ⟨rfl, rfl⟩ | ⟨hne, hq⟩ := (getElem?_setPhase hd').mp hq
      · exact absurd ⟨e, rfl⟩ hlive
      · have hentry := (hI.entry k q).mpr ⟨d', hq, hkey, hlive⟩
        have hk : k ≠ d.key := by
          rintro rfl
          rw [hown, Option.some.injEq] at hentry
          exact hne hentry.symm
        rw [Function.update_of_ne hk, hentry]
  made q d' hq := made_setPhase hI hd q d' hq
  derived q d' r hq hr := derived_setPhase hI hd
    (fun r hr => hI.derived p d r hd (by rw [hphase]; exact hr)) q d' r hq hr
  asked _ _ hc := asked_setPhase hI hd (by simp [hphase]) hc

theorem Inv.answer (hI : Inv K s) {i : Nat} {c : Call ρ ε α} {d : Derivation κ χ ε α}
    {r : Except ε α} (hc : s.calls[i]? = some c) (hd : s.derivations[c.promise]? = some d)
    (hphase : d.phase = .reported r) : Inv K (s.answer i c r) where
  entry := hI.entry
  made := hI.made
  derived := hI.derived
  asked j c' hc' := by
    obtain ⟨hlt, _⟩ := List.getElem?_eq_some_iff.mp hc
    rw [PromiseCache.answer, List.getElem?_set] at hc'
    by_cases hj : i = j
    · rw [if_pos hj, if_pos (hj ▸ hlt), Option.some.injEq] at hc'
      subst hc'
      obtain ⟨d', hd', hkey, _⟩ := hI.asked i c hc
      rw [hd, Option.some.injEq] at hd'
      refine ⟨d, hd, hd' ▸ hkey, fun r' hr' => ?_⟩
      cases hr'
      exact hphase
    · rw [if_neg hj] at hc'
      exact hI.asked j c' hc'

/-- The step lemma. -/
theorem Inv.step [DecidableEq κ] (hI : Inv K s) (h : Step K s s') : Inv K s' := by
  cases h with
  | join h => exact hI.join h
  | start h => exact hI.start h
  | @settle p d r hd hphase hr =>
      refine hI.setPhase hd (by simp [hphase]) (not_failed_settled r) fun r' hr' => ?_
      cases hr'
      exact hr
  | @report p d r hd hphase =>
      cases r with
      | ok a =>
          refine hI.setPhase hd (by simp [hphase]) (by simp) fun r' hr' => ?_
          exact hI.derived p d r' hd (by rw [hphase]; exact hr')
      | error e => exact hI.fail hd hphase
  | answer hc hnone hd hphase => exact hI.answer hc hd hphase

/-- The run lemma. -/
theorem Inv.run [DecidableEq κ] (hI : Inv K s) (h : Run K s s') : Inv K s' := by
  induction h with
  | refl => exact hI
  | tail _ hstep ih => exact ih.step hstep

/-! ### What a call is answered with -/

/-- Whoever waits for a derivation waits for one of its own configuration. -/
theorem Inv.config (hI : Inv K s) {i : Nat} {c : Call ρ ε α} (hc : s.calls[i]? = some c) :
    ∃ d, s.derivations[c.promise]? = some d ∧ d.config = K.configOf c.request ∧
      ∀ r, c.answer = some r → d.phase = .reported r ∧ K.Derives (K.configOf c.request) r := by
  obtain ⟨d, hd, hkey, hanswer⟩ := hI.asked i c hc
  obtain ⟨request, hkey', hconfig⟩ := hI.made _ d hd
  have hsame : d.config = K.configOf c.request :=
    hconfig.trans (K.config_of_key (hkey'.symm.trans hkey))
  refine ⟨d, hd, hsame, fun r hr => ⟨hanswer r hr, ?_⟩⟩
  rw [← hsame]
  exact hI.derived _ d r hd (by rw [hanswer r hr]; rfl)

/-- Calls under one key share a derivation, as long as neither of theirs was reported to fail. -/
theorem Inv.shared (hI : Inv K s) {i j : Nat} {c c' : Call ρ ε α} {d d' : Derivation κ χ ε α}
    (hc : s.calls[i]? = some c) (hc' : s.calls[j]? = some c')
    (hkey : K.keyOf c.request = K.keyOf c'.request)
    (hd : s.derivations[c.promise]? = some d) (hlive : ¬d.phase.Failed)
    (hd' : s.derivations[c'.promise]? = some d') (hlive' : ¬d'.phase.Failed) :
    c.promise = c'.promise := by
  obtain ⟨x, hx, hxkey, _⟩ := hI.asked i c hc
  obtain ⟨y, hy, hykey, _⟩ := hI.asked j c' hc'
  rw [hd, Option.some.injEq] at hx
  rw [hd', Option.some.injEq] at hy
  subst hx hy
  have hentry := (hI.entry _ c.promise).mpr ⟨d, hd, rfl, hlive⟩
  have hentry' := (hI.entry _ c'.promise).mpr ⟨d', hd', rfl, hlive'⟩
  rw [hxkey, hkey, ← hykey, hentry', Option.some.injEq] at hentry
  exact hentry.symm

/-! ### What a run leaves of a derivation -/

/-- A derivation goes on, it never goes back and is never made over. -/
structure Later (d d' : Derivation κ χ ε α) : Prop where
  key : d'.key = d.key
  config : d'.config = d.config
  outcome : ∀ r, d.phase.outcome? = some r → d'.phase.outcome? = some r
  reported : ∀ r, d.phase = .reported r → d'.phase = .reported r

theorem Later.refl (d : Derivation κ χ ε α) : Later d d :=
  ⟨rfl, rfl, fun _ h => h, fun _ h => h⟩

theorem Later.trans {d₁ d₂ d₃ : Derivation κ χ ε α} (h : Later d₁ d₂) (h' : Later d₂ d₃) :
    Later d₁ d₃ :=
  ⟨h'.key.trans h.key, h'.config.trans h.config, fun r hr => h'.outcome r (h.outcome r hr),
    fun r hr => h'.reported r (h.reported r hr)⟩

theorem Step.later [DecidableEq κ] (h : Step K s s') {q : Nat} {d : Derivation κ χ ε α}
    (hq : s.derivations[q]? = some d) : ∃ d', s'.derivations[q]? = some d' ∧ Later d d' := by
  have advance : ∀ {p : Nat} {d₀ : Derivation κ χ ε α} {phase : Phase ε α},
      s.derivations[p]? = some d₀ → Later d₀ { d₀ with phase := phase } →
      ∃ d', (s.setPhase p d₀ phase).derivations[q]? = some d' ∧ Later d d' := by
    intro p d₀ phase hp hlater
    by_cases hsame : q = p
    · subst hsame
      rw [hq, Option.some.injEq] at hp
      subst hp
      exact ⟨_, (getElem?_setPhase hq).mpr (.inl ⟨rfl, rfl⟩), hlater⟩
    · exact ⟨d, (getElem?_setPhase hp).mpr (.inr ⟨hsame, hq⟩), Later.refl d⟩
  cases h with
  | join h => exact ⟨d, hq, Later.refl d⟩
  | start h => exact ⟨d, getElem?_snoc.mpr (.inl hq), Later.refl d⟩
  | settle hd hphase hr =>
      exact advance hd ⟨rfl, rfl, by simp [hphase, Phase.outcome?], by simp [hphase]⟩
  | @report p d₀ r hd hphase =>
      have hlater : Later d₀ { d₀ with phase := .reported r } :=
        ⟨rfl, rfl, by simp [hphase, Phase.outcome?], by simp [hphase]⟩
      cases r with
      | ok a => exact advance hd hlater
      | error e => exact advance hd hlater
  | answer hc hnone hd hphase => exact ⟨d, hq, Later.refl d⟩

theorem Run.later [DecidableEq κ] (h : Run K s s') {q : Nat} {d : Derivation κ χ ε α}
    (hq : s.derivations[q]? = some d) : ∃ d', s'.derivations[q]? = some d' ∧ Later d d' := by
  induction h with
  | refl => exact ⟨d, hq, Later.refl d⟩
  | tail _ hstep ih =>
      obtain ⟨d₁, hd₁, hlater₁⟩ := ih
      obtain ⟨d₂, hd₂, hlater₂⟩ := hstep.later hd₁
      exact ⟨d₂, hd₂, hlater₁.trans hlater₂⟩

/-- A derivation that has come to a value is cached for good. -/
theorem Inv.kept [DecidableEq κ] (hI : Inv K s) (h : Run K s s') {p : Nat}
    {d : Derivation κ χ ε α} {a : α} (hd : s.derivations[p]? = some d)
    (ha : d.phase.outcome? = some (.ok a)) : s'.entries d.key = some p := by
  obtain ⟨d', hd', hlater⟩ := h.later hd
  refine ((hI.run h).entry _ _).mpr ⟨d', hd', hlater.key, ?_⟩
  rintro ⟨e, he⟩
  have hsame := hlater.outcome _ ha
  rw [he] at hsame
  cases hsame

/-- A call that comes after a failure was reported does not wait for the failed derivation. -/
theorem Inv.retried [DecidableEq κ] (hI : Inv K s) (h : Run K s s') {p : Nat}
    {d : Derivation κ χ ε α} (hd : s.derivations[p]? = some d) (hfailed : d.phase.Failed) {i : Nat}
    {c : Call ρ ε α} (hnew : s.calls.length ≤ i) (hc : s'.calls[i]? = some c) : c.promise ≠ p := by
  have hcalled : ∀ {t : PromiseCache ρ κ χ ε α}, Run K s t → ∀ {c : Call ρ ε α},
      t.calls[i]? = some c → c.promise ≠ p := by
    intro t ht
    induction ht with
    | refl =>
        intro c hc
        rw [List.getElem?_eq_none hnew] at hc
        cases hc
    | @tail t u ht hstep ih =>
        intro c hc
        obtain ⟨d', hd', hlater⟩ := Run.later ht hd
        obtain ⟨e, he⟩ := hfailed
        have hfailed' : d'.phase.Failed := ⟨e, hlater.reported _ he⟩
        cases hstep with
        | @join request q hentry =>
            obtain hc | ⟨_, rfl⟩ := getElem?_snoc.mp hc
            · exact ih hc
            · rintro rfl
              obtain ⟨d'', hd'', _, hlive⟩ := ((hI.run ht).entry _ _).mp hentry
              rw [hd', Option.some.injEq] at hd''
              exact hlive (hd'' ▸ hfailed')
        | start hentry =>
            obtain hc | ⟨_, rfl⟩ := getElem?_snoc.mp hc
            · exact ih hc
            · rintro rfl
              rw [List.getElem?_eq_none (Nat.le_refl _)] at hd'
              cases hd'
        | settle _ _ _ => exact ih hc
        | @report q d₀ r _ _ => cases r <;> exact ih hc
        | @answer j c₀ d₀ r hc₀ _ _ _ =>
            obtain ⟨hlt, _⟩ := List.getElem?_eq_some_iff.mp hc₀
            rw [PromiseCache.answer, List.getElem?_set] at hc
            by_cases hj : j = i
            · rw [if_pos hj, if_pos (hj ▸ hlt), Option.some.injEq] at hc
              cases hc
              exact ih (c := c₀) (hj ▸ hc₀)
            · rw [if_neg hj] at hc
              exact ih hc
  exact hcalled h hc

/-- Where every derivation under a key was reported to fail, nothing is cached under it. -/
theorem Inv.entry_none (hI : Inv K s) {k : κ}
    (hfailed : ∀ (p : Nat) (d : Derivation κ χ ε α), s.derivations[p]? = some d → d.key = k →
      d.phase.Failed) : s.entries k = none := by
  cases hentry : s.entries k with
  | none => rfl
  | some p =>
      obtain ⟨d, hd, hkey, hlive⟩ := (hI.entry k p).mp hentry
      exact absurd (hfailed p d hd hkey) hlive

/-- So the next call under the key starts a derivation of its own. -/
theorem Inv.restarted [DecidableEq κ] (hI : Inv K s) (h : Step K s s') {request : ρ} {p : Nat}
    (hcall : s'.calls = s.calls ++ [⟨request, p, none⟩])
    (hfailed : ∀ (p : Nat) (d : Derivation κ χ ε α), s.derivations[p]? = some d →
      d.key = K.keyOf request → d.phase.Failed) : s' = s.start K request := by
  have hnone := hI.entry_none hfailed
  have hlength : s'.calls.length ≠ s.calls.length := by
    rw [hcall]
    simp
  cases h with
  | @join request' q hentry =>
      simp only [PromiseCache.join, List.append_cancel_left_eq, List.cons.injEq,
        Call.mk.injEq] at hcall
      rw [hcall.1.1, hnone] at hentry
      cases hentry
  | start hentry =>
      simp only [PromiseCache.start, List.append_cancel_left_eq, List.cons.injEq,
        Call.mk.injEq] at hcall
      rw [hcall.1.1]
  | settle hd hphase hr => exact absurd rfl hlength
  | @report q d r hd hphase => cases r <;> exact absurd rfl hlength
  | answer hc hnone hd hphase => exact absurd List.length_set hlength

end PromiseCache

end VcalmStatus.Effects
