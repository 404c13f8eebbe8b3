import VcalmStatus.Effects.Solo
import VcalmStatus.Safety.Moments
import VcalmStatus.Safety.Served

/-!
The signing service as one run asks it.

A run that nobody interrupts depends on the answers to its own questions only. A signer that
answers these as the real one and signs everything else as it is given (`asAsked`) therefore leads
to the same run, so what is known of runs under every signer needs to be assumed of the questions
that were asked.
-/

namespace VcalmStatus

open Js Effects

/-- In one of these moments the signing service refused something it was asked for the instance. -/
def SignerRefused (τ : List ServiceMoment) (issuerInstance : IssuerInstance) (e : JsError) : Prop :=
  ∃ m ∈ τ, m.seen = ⟨.issuerDid issuerInstance, .error e⟩ ∨
    ∃ unsigned, m.seen = ⟨.sign issuerInstance unsigned, .error e⟩

/-- What a signing service signs has the id it was given. -/
def SigningService.KeepsId (signing : SigningService) : Prop :=
  ∀ {tick issuerInstance unsigned signed},
    signing.sign tick issuerInstance unsigned = .ok signed →
    signed.get? "id" = unsigned.get? "id"

theorem SigningService.Agrees.keepsId {signing : SigningService} (h : signing.Agrees) :
    signing.KeepsId := fun hsign => h hsign "id" (by decide)

/-- The operation was called at this tick. -/
def AskedAt (τ : List ServiceMoment) (tick : Nat) (o : Operation) : Prop :=
  ∃ m ∈ τ, m.state.tick = tick ∧ m.seen.1 = o

open Classical in
/-- A signing service that answers as this one where it was asked, and elsewhere signs what it is
given. -/
noncomputable def SigningService.asAsked (signing : SigningService) (τ : List ServiceMoment) :
    SigningService where
  issuerDid tick issuerInstance :=
    if AskedAt τ tick (.issuerDid issuerInstance) then signing.issuerDid tick issuerInstance
    else .ok ""
  sign tick issuerInstance unsigned :=
    if AskedAt τ tick (.sign issuerInstance unsigned) then
      signing.sign tick issuerInstance unsigned
    else .ok unsigned
  issuerDid_error := by
    intro tick issuerInstance e h
    split at h
    · exact signing.issuerDid_error h
    · cases h
  sign_error := by
    intro tick issuerInstance unsigned e h
    split at h
    · exact signing.sign_error h
    · cases h

namespace SigningService

variable {signing : SigningService} {τ : List ServiceMoment} {tick : Nat}
  {issuerInstance : IssuerInstance} {unsigned : UnsignedCredential} {e : JsError}

theorem asAsked_issuerDid (h : AskedAt τ tick (.issuerDid issuerInstance)) :
    (signing.asAsked τ).issuerDid tick issuerInstance = signing.issuerDid tick issuerInstance :=
  if_pos h

theorem asAsked_sign (h : AskedAt τ tick (.sign issuerInstance unsigned)) :
    (signing.asAsked τ).sign tick issuerInstance unsigned =
      signing.sign tick issuerInstance unsigned :=
  if_pos h

theorem asAsked_issuerDid_error
    (h : (signing.asAsked τ).issuerDid tick issuerInstance = .error e) :
    AskedAt τ tick (.issuerDid issuerInstance) ∧
      signing.issuerDid tick issuerInstance = .error e := by
  by_cases hasked : AskedAt τ tick (.issuerDid issuerInstance)
  · exact ⟨hasked, asAsked_issuerDid hasked ▸ h⟩
  · simp [asAsked, hasked] at h

theorem asAsked_sign_error (h : (signing.asAsked τ).sign tick issuerInstance unsigned = .error e) :
    AskedAt τ tick (.sign issuerInstance unsigned) ∧
      signing.sign tick issuerInstance unsigned = .error e := by
  by_cases hasked : AskedAt τ tick (.sign issuerInstance unsigned)
  · exact ⟨hasked, asAsked_sign hasked ▸ h⟩
  · simp [asAsked, hasked] at h

/-- It signs as the real one, or signs what it is given. -/
theorem asAsked_sign_ok {signed : VerifiableCredential}
    (h : (signing.asAsked τ).sign tick issuerInstance unsigned = .ok signed) :
    AskedAt τ tick (.sign issuerInstance unsigned) ∧
        signing.sign tick issuerInstance unsigned = .ok signed ∨
      signed = unsigned := by
  by_cases hasked : AskedAt τ tick (.sign issuerInstance unsigned)
  · exact .inl ⟨hasked, asAsked_sign hasked ▸ h⟩
  · simp only [asAsked, hasked, if_false, Except.ok.injEq] at h
    exact .inr h.symm

theorem Agrees.asAsked (h : signing.Agrees) : (signing.asAsked τ).Agrees := by
  intro tick issuerInstance unsigned signed hsign
  obtain ⟨_, hsign⟩ | rfl := asAsked_sign_ok hsign
  · exact h hsign
  · exact fun _ _ => rfl

end SigningService

namespace Environment

variable {env : Environment} {i : Nat} {w w' : World}

/-- The same surroundings with the signing service as it was asked. -/
noncomputable def asAsked (env : Environment) (τ : List ServiceMoment) : Environment :=
  { env with signing := env.signing.asAsked τ }

theorem step_asAsked {τ : List ServiceMoment} {m : ServiceMoment} (hm : m ∈ τ) :
    m.state.step (env.asAsked τ) i m.seen.1 = m.state.step env i m.seen.1 := by
  have hasked : AskedAt τ m.state.tick m.seen.1 := ⟨m, hm, rfl, rfl⟩
  obtain ⟨thread, state, o, r⟩ := m
  cases o with
  | issuerDid issuerInstance =>
      simp only [World.step, World.respond, asAsked, SigningService.asAsked_issuerDid hasked]
      rfl
  | sign issuerInstance unsigned =>
      simp only [World.step, World.respond, asAsked, SigningService.asAsked_sign hasked]
      rfl
  | _ => rfl

/-- The answers the signing service gave at a moment. -/
theorem seen_issuerDid {m : ServiceMoment} {t : World} {issuerInstance : IssuerInstance}
    (h : m.state.step env i m.seen.1 = some (m.seen.2, t))
    (ho : m.seen.1 = .issuerDid issuerInstance) :
    m.seen = ⟨.issuerDid issuerInstance, env.signing.issuerDid m.state.tick issuerInstance⟩ := by
  obtain ⟨thread, state, o, r⟩ := m
  cases ho
  have hr : env.signing.issuerDid state.tick issuerInstance = r :=
    congrArg Prod.fst (World.step_eq_some.mp h).2
  exact hr ▸ rfl

theorem seen_sign {m : ServiceMoment} {t : World} {issuerInstance : IssuerInstance}
    {unsigned : UnsignedCredential} (h : m.state.step env i m.seen.1 = some (m.seen.2, t))
    (ho : m.seen.1 = .sign issuerInstance unsigned) :
    m.seen = ⟨.sign issuerInstance unsigned,
      env.signing.sign m.state.tick issuerInstance unsigned⟩ := by
  obtain ⟨thread, state, o, r⟩ := m
  cases ho
  have hr : env.signing.sign state.tick issuerInstance unsigned = r :=
    congrArg Prod.fst (World.step_eq_some.mp h).2
  exact hr ▸ rfl

section Run

variable {α : Type} {p : Async α} {r : Except JsError α}

/-- The run is the same. -/
theorem run_asAsked (h : p.run (World.step env i) w = some (r, w')) :
    p.run (World.step (env.asAsked (p.moments (World.step env) i w)) i) w = some (r, w') :=
  (Program.run_congr h fun _ hm => step_asAsked hm).1

/-- The signing service as it was asked fails only where the run was refused something. -/
theorem SignerFails.refused {issuerInstance : IssuerInstance} {e : JsError}
    (h : (env.asAsked (p.moments (World.step env) i w)).SignerFails issuerInstance e) :
    SignerRefused (p.moments (World.step env) i w) issuerInstance e := by
  cases h with
  | issuerDid h =>
      obtain ⟨⟨m, hm, rfl, ho⟩, herror⟩ := SigningService.asAsked_issuerDid_error h
      obtain ⟨_, t, hstep⟩ := Program.step_of_mem_moments hm
      exact ⟨m, hm, .inl (by rw [seen_issuerDid hstep ho, herror])⟩
  | sign hdid hissuer h =>
      obtain ⟨⟨m, hm, rfl, ho⟩, herror⟩ := SigningService.asAsked_sign_error h
      obtain ⟨_, t, hstep⟩ := Program.step_of_mem_moments hm
      exact ⟨m, hm, .inr ⟨_, by rw [seen_sign hstep ho, herror]⟩⟩

end Run

end Environment

end VcalmStatus
