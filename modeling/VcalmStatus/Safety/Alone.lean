import VcalmStatus.Safety.History
import VcalmStatus.Safety.Rules

/-!
A request that runs while no other one is under way. It is never blocked, so it ends; and what it
adds to the log is the whole difference between the tables before and after.
-/

namespace VcalmStatus

open Effects

namespace World

/-- Nobody but request `i` has a transaction open or holds a lock. -/
def OnlyBy (i : Nat) (w : World) : Prop := ∀ j, j ≠ i → w.Idle j

variable {env : Environment} {i : Nat} {w w' : World}

theorem OnlyBy.not_blocked (h : w.OnlyBy i) (o : Operation) : w.blocked env i o = false := by
  rw [Bool.eq_false_iff]
  intro hblocked
  obtain ⟨j, hne, hbusy⟩ := exists_of_blocked hblocked
  exact hbusy (h j hne)

theorem OnlyBy.step_eq (h : w.OnlyBy i) (o : Operation) :
    w.step env i o = some (w.respond env i o) :=
  if_neg (by simp [h.not_blocked o])

/-- An operation is answered at once. -/
theorem OnlyBy.run_await {α : Type} (h : w.OnlyBy i) (o : Operation) (f : o.Answer → Async α) :
    (await o >>= f).run (World.step env i) w =
      (f (w.respond env i o).1).run (World.step env i) (w.respond env i o).2 := by
  change ((w.step env i o).bind fun rs => (f rs.1).run (World.step env i) rs.2) = _
  rw [h.step_eq o]
  rfl

/-- The own steps leave everybody else as idle as they were. -/
theorem OnlyBy.effect {o : Operation} (h : w.OnlyBy i) (he : w.Effect env i o w') :
    w'.OnlyBy i := by
  intro j hj
  obtain ⟨htransaction, hconnection, hholder⟩ := h j hj
  have hij : i ≠ j := Ne.symm hj
  cases he with
  | quiet tick => exact ⟨htransaction, hconnection, hholder⟩
  | inserted hfresh => exact ⟨htransaction, hconnection, hholder⟩
  | allocated hadmits => exact ⟨htransaction, hconnection, hholder⟩
  | connected hsqlite hfree => exact ⟨htransaction, by simpa [connect] using hij, hholder⟩
  | @locked id row hrow hfree =>
      refine ⟨by simpa [lock, Function.update_of_ne hj] using htransaction, hconnection,
        fun id => ?_⟩
      by_cases hid : id = row.id
      · subst hid
        simpa [lock] using hij
      · simpa [lock, Function.update_of_ne hid] using hholder id
  | staged =>
      exact ⟨by simpa [stage, Function.update_of_ne hj] using htransaction, hconnection, hholder⟩
  | committed =>
      exact ⟨by simpa [commit, release, apply, Function.update_of_ne hj] using htransaction,
        fun hc => hconnection ((Policy.freed_eq_some hj _).mp hc),
        fun id hh => hholder id ((Policy.freed_eq_some hj _).mp hh)⟩
  | released =>
      exact ⟨by simpa [release, Function.update_of_ne hj] using htransaction,
        fun hc => hconnection ((Policy.freed_eq_some hj _).mp hc),
        fun id hh => hholder id ((Policy.freed_eq_some hj _).mp hh)⟩

/-- Alone, every program ends. -/
theorem OnlyBy.run_isSome {α : Type} (h : w.OnlyBy i) (p : Async α) :
    ∃ r w', p.run (World.step env i) w = some (r, w') ∧ w'.OnlyBy i := by
  refine Program.run_isSome (World.step env i) (I := OnlyBy i) (fun s o hs => ?_) p h
  have hstep : s.step env i o = some (s.respond env i o) := hs.step_eq o
  exact ⟨_, _, hstep, hs.effect (effect_of_step hstep)⟩

end World

namespace Policy

variable {P : Policy} {env : Environment} {i : Nat} {w w' : World}

/-- The events a request added on its own, and that they are all that happened. -/
structure Alone (P : Policy) (i : Nat) (w w' : World) (events : List Event) : Prop where
  log : w'.log = w.log ++ events
  owner : ∀ e ∈ events, e.owner = i
  once : (events.filterMap Event.committer?).Nodup
  history : History P w.db events w'.db

theorem Alone.start : P.Alone i w w [] := ⟨by simp, nofun, List.nodup_nil, .start⟩

/-- No event follows a commit of its own request. -/
theorem once_append {events : List Event} {e : Event} (howner : ∀ x ∈ events, x.owner = i)
    (hnot : ∀ row write, Event.committed i row write ∉ events) :
    ((events ++ [e]).filterMap Event.committer?).Nodup := by
  have hnil : events.filterMap Event.committer? = [] := by
    refine List.filterMap_eq_nil_iff.mpr fun x hx => ?_
    cases x with
    | created j row => rfl
    | allocated j a => rfl
    | committed j row write =>
        have hj : j = i := howner _ hx
        exact absurd (hj ▸ hx) (hnot row write)
  rw [List.filterMap_append, hnil, List.nil_append]
  cases e with
  | created j row => exact List.nodup_nil
  | allocated j a => exact List.nodup_nil
  | committed j row write => exact List.nodup_singleton j

/-- A program that keeps to the discipline, run alone. -/
theorem Serves.run_alone {α : Type} {p : Async α} {Q : Except JsError α → World → Prop}
    {r : Except JsError α} (hp : P.Serves env i p Q w) (hI : P.Inv env w)
    (hrun : p.run (World.step env i) w = some (r, w')) :
    P.Inv env w' ∧ Q r w' ∧ ∃ events, P.Alone i w w' events := by
  obtain ⟨hI', hQ⟩ := hp.run_sound hI hrun
  refine ⟨hI', hQ, hp.run_induct (J := fun t => ∃ events, P.Alone i w t events) ?_ hI hrun
    ⟨[], Alone.start⟩⟩
  rintro s o r' t hIs hG hstep ⟨events, hlog, howner, honce, hhistory⟩
  obtain ⟨hlog', hdb⟩ | ⟨e, he, hallowed, hlog', hdb⟩ :=
    event_effect hIs hG (World.effect_of_step hstep)
  · exact ⟨events, hlog'.trans hlog, howner, honce, hdb ▸ hhistory⟩
  · refine ⟨events ++ [e], by rw [hlog', hlog, List.append_assoc], fun x hx => ?_,
      once_append howner fun row write hx => ?_, hdb ▸ hhistory.snoc hallowed⟩
    · rcases List.mem_append.mp hx with hx | hx
      · exact howner x hx
      · rw [List.mem_singleton.mp hx]
        exact he
    · exact hG.1 row write (hlog ▸ List.mem_append_right _ hx)

/-- A policy under which lists are re-signed and nothing else is written. -/
structure OnlyUpdates (P : Policy) : Prop where
  mayCreate : ∀ i row, ¬P.mayCreate i row
  mayAllocate : ∀ i a, ¬P.mayAllocate i a

/-- Such a request commits once or changes nothing. -/
theorem Alone.commits {events : List Event} (hP : P.OnlyUpdates) (h : P.Alone i w w' events) :
    events = [] ∨ ∃ row write, events = [.committed i row write] := by
  have hcommitted : ∀ e ∈ events, ∃ row write, e = .committed i row write := by
    intro e he
    obtain ⟨db, hallowed⟩ := h.history.allowed e he
    have howner := h.owner e he
    cases e with
    | created j row => exact absurd hallowed.2.2 (hP.mayCreate j row)
    | allocated j a => exact absurd hallowed.2.1 (hP.mayAllocate j a)
    | committed j row write =>
        cases howner
        exact ⟨row, write, rfl⟩
  match events, hcommitted, h.once with
  | [], _, _ => exact .inl rfl
  | [e], hcommitted, _ =>
      obtain ⟨row, write, rfl⟩ := hcommitted e (List.mem_singleton_self e)
      exact .inr ⟨row, write, rfl⟩
  | e :: e' :: rest, hcommitted, honce =>
      obtain ⟨_, _, rfl⟩ := hcommitted e (by simp)
      obtain ⟨_, _, rfl⟩ := hcommitted e' (by simp)
      simp [Event.committer?] at honce

theorem Alone.unchanged {events : List Event} (hP : P.OnlyUpdates) (h : P.Alone i w w' events)
    (hn : w'.NotCommitted i) : w'.db = w.db := by
  obtain rfl | ⟨row, write, rfl⟩ := h.commits hP
  · exact h.history.eq_of_nil
  · exact absurd (h.log ▸ List.mem_append_right _ (List.mem_singleton_self _)) (hn row write)

/-- The one commit is the whole difference between the tables. -/
theorem Alone.updated {events : List Event} {row : StatusListRecord} {write : Option RowUpdate}
    (hP : P.OnlyUpdates) (h : P.Alone i w w' events) (hn : w.NotCommitted i)
    (hmem : Event.committed i row write ∈ w'.log) :
    row ∈ w.db.statusLists ∧ w'.db = (Event.committed i row write).apply w.db := by
  rw [h.log] at hmem
  have hnew := (List.mem_append.mp hmem).resolve_left (hn row write)
  obtain rfl | ⟨row', write', rfl⟩ := h.commits hP
  · cases hnew
  · rw [← List.mem_singleton.mp hnew] at h
    obtain ⟨hallowed, hdb⟩ := h.history.of_singleton
    exact ⟨hallowed.1, hdb⟩

/-- Between requests the locks say nothing, so the invariant may be taken up under another
policy, and in another environment. -/
theorem Inv.restart {P' : Policy} {env' : Environment} (hI : P.Inv env w)
    (hidle : ∀ j, w.Idle j) (hwf : ∀ row ∈ w.db.statusLists, P.wf row → P'.wf row)
    (hfits : ∀ row a, P.fits row a → P'.fits row a) : P'.Inv env' w where
  ids_nodup := hI.ids_nodup
  indexes_nodup := hI.indexes_nodup
  credentials_nodup := hI.credentials_nodup
  wf row hrow := hwf row hrow (hI.wf row hrow)
  fits a ha := by
    obtain ⟨row, hrow, hid, h⟩ := hI.fits a ha
    exact ⟨row, hrow, hid, hfits row a h⟩
  held j row hj := by
    rw [(hidle j).transaction] at hj
    cases hj
  staged j u hj := by
    rw [(hidle j).transaction] at hj
    cases hj
  exclusive _ id j hj := absurd hj ((hidle j).holder id)

end Policy

end VcalmStatus
