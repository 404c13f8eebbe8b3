import VcalmStatus.Safety.Policy

/-!
The log explains the tables.

`History P db₀ log db` says that the tables `db` are what the events of `log` make of `db₀`, one
after the other, and that each event was allowed by the policy in the tables it met. Every run
that keeps to the discipline has such a history, so a property of the tables over whole runs is
an induction over its events.
-/

namespace VcalmStatus

open Effects

/-- What an event makes of the tables. -/
def Event.apply (db : Database) : Event → Database
  | .created _ row => { db with statusLists := db.statusLists ++ [row] }
  | .allocated _ a => { db with indexAllocations := db.indexAllocations ++ [a] }
  | .committed _ _ (some u) => db.update u
  | .committed _ _ none => db

/-- The events the policy allows on these tables. -/
def Event.Allowed (P : Policy) (db : Database) : Event → Prop
  | .created i row => db.getStatusList row.id = none ∧ P.wf row ∧ P.mayCreate i row
  | .allocated i a => db.admits a = true ∧ P.mayAllocate i a ∧
      ∃ row ∈ db.statusLists, row.id = a.listId ∧ P.fits row a
  | .committed i row write => row ∈ db.statusLists ∧ P.mayUpdate i row ∧
      ∀ u, write = some u → P.Resigned row u

/-- The request an event commits a transaction of. -/
def Event.committer? : Event → Option Nat
  | .committed i _ _ => some i
  | _ => none

/-- Whether an event moves a bit of this list. -/
def Event.flips (id : String) : Event → Bool
  | .committed _ before (some _) => before.id = id
  | _ => false

/-- The allocation an event makes. -/
def Event.allocation? : Event → Option IndexAllocation
  | .allocated _ a => some a
  | _ => none

inductive History (P : Policy) (db₀ : Database) : List Event → Database → Prop
  | start : History P db₀ [] db₀
  | snoc {log : List Event} {db : Database} {e : Event} (h : History P db₀ log db)
      (he : e.Allowed P db) : History P db₀ (log ++ [e]) (e.apply db)

/-- A service started on tables that are there already. -/
def World.of (db : Database) : World := { World.initial with db := db }

theorem Database.keyed_empty : Database.empty.Keyed :=
  ⟨List.nodup_nil, List.nodup_nil, List.nodup_nil, nofun⟩

/-- Tables that keep their keys and that the policy accepts. -/
structure Policy.Accepts (P : Policy) (db : Database) : Prop where
  keyed : db.Keyed
  wf : ∀ row ∈ db.statusLists, P.wf row
  fits : ∀ a ∈ db.indexAllocations, ∃ row ∈ db.statusLists, row.id = a.listId ∧ P.fits row a

theorem Policy.accepts_empty (P : Policy) : P.Accepts Database.empty :=
  ⟨Database.keyed_empty, nofun, nofun⟩

namespace Policy

variable {P : Policy} {env : Environment} {w w' : World} {i : Nat} {db₀ : Database}

theorem inv_of (h : P.Accepts db₀) : P.Inv env (World.of db₀) :=
  ⟨h.keyed.ids_nodup, h.keyed.indexes_nodup, h.keyed.credentials_nodup, h.wf, h.fits, nofun,
    nofun, nofun⟩

theorem idle_of (i : Nat) : (World.of db₀).Idle i :=
  ⟨rfl, nofun, nofun⟩

theorem notCommitted_of (i : Nat) : (World.of db₀).NotCommitted i := nofun

/-- What one operation adds to the log is what it did to the tables. -/
theorem event_effect {o : Operation} (hI : P.Inv env w) (hG : P.Guard env i w o)
    (h : w.Effect env i o w') : (w'.log = w.log ∧ w'.db = w.db) ∨
      ∃ e, e.owner = i ∧ e.Allowed P w.db ∧ w'.log = w.log ++ [e] ∧ w'.db = e.apply w.db := by
  cases h with
  | @inserted row hfresh =>
      exact .inr ⟨.created i row, rfl, ⟨hfresh, hG.2⟩, rfl, rfl⟩
  | @allocated a hadmits => exact .inr ⟨.allocated i a, rfl, ⟨hadmits, hG.2⟩, rfl, rfl⟩
  | committed =>
      cases hrow : (w.transaction i).row with
      | none =>
          have hwrite : (w.transaction i).write = none := by
            by_contra hne
            obtain ⟨u, hu⟩ := Option.ne_none_iff_exists'.mp hne
            obtain ⟨row, hrow', _⟩ := hI.staged i u hu
            rw [hrow] at hrow'
            cases hrow'
          exact .inl (by simp [World.commit, World.release, World.apply, hrow, hwrite])
      | some row =>
          obtain ⟨hmem, _, hmay⟩ := hI.held i row hrow
          refine .inr ⟨.committed i row (w.transaction i).write, rfl, ⟨hmem, hmay, fun u hu => ?_⟩,
            by simp [World.commit, World.release, World.apply, hrow], ?_⟩
          · obtain ⟨row', hrow', hres⟩ := hI.staged i u hu
            rw [hrow, Option.some.injEq] at hrow'
            exact hrow' ▸ hres
          · cases hwrite : (w.transaction i).write <;>
              simp [World.commit, World.release, World.apply, hwrite, Event.apply]
  | quiet tick => exact .inl ⟨rfl, rfl⟩
  | connected hsqlite hfree => exact .inl ⟨rfl, rfl⟩
  | locked hmem hfree => exact .inl ⟨rfl, rfl⟩
  | staged => exact .inl ⟨rfl, rfl⟩
  | released => exact .inl ⟨rfl, rfl⟩

/-- The step lemma of histories. -/
theorem history_effect {o : Operation} (hI : P.Inv env w) (hG : P.Guard env i w o)
    (h : w.Effect env i o w') (hw : History P db₀ w.log w.db) :
    History P db₀ w'.log w'.db := by
  obtain ⟨hlog, hdb⟩ | ⟨e, _, hallowed, hlog, hdb⟩ := event_effect hI hG h
  · rw [hlog, hdb]
    exact hw
  · rw [hlog, hdb]
    exact hw.snoc hallowed

theorem eq_of_nodup_filterMap {α β : Type} {f : α → Option β} {l : List α} {a a' : α} {b : β}
    (hn : (l.filterMap f).Nodup) (ha : a ∈ l) (ha' : a' ∈ l) (hb : f a = some b)
    (hb' : f a' = some b) : a = a' := by
  induction l with
  | nil => cases ha
  | cons x l ih =>
      have hmem : ∀ y ∈ l, f y = some b → b ∈ l.filterMap f := fun y hy hf =>
        List.mem_filterMap.mpr ⟨y, hy, hf⟩
      cases hx : f x with
      | none =>
          rw [List.filterMap_cons_none hx] at hn
          rcases List.mem_cons.mp ha with rfl | ha
          · rw [hx] at hb
            cases hb
          · rcases List.mem_cons.mp ha' with rfl | ha'
            · rw [hx] at hb'
              cases hb'
            · exact ih hn ha ha'
      | some c =>
          rw [List.filterMap_cons_some hx, List.nodup_cons] at hn
          rcases List.mem_cons.mp ha with rfl | hl <;> rcases List.mem_cons.mp ha' with rfl | hl'
          · rfl
          · rw [hb, Option.some.injEq] at hx
            exact absurd (hx ▸ hmem a' hl' hb') hn.1
          · rw [hb', Option.some.injEq] at hx
            exact absurd (hx ▸ hmem a hl hb) hn.1
          · exact ih hn.2 hl hl'

/-- No request commits twice. -/
theorem once_effect {o : Operation} (hG : P.Guard env i w o) (h : w.Effect env i o w')
    (hw : (w.log.filterMap Event.committer?).Nodup) :
    (w'.log.filterMap Event.committer?).Nodup := by
  obtain hlog | ⟨e, howner, hlog⟩ := h.log
  · rwa [hlog]
  · rw [hlog, List.filterMap_append]
    refine List.nodup_append.mpr ⟨hw, ?_, ?_⟩
    · cases e with
      | created k row => exact List.nodup_nil
      | allocated k a => exact List.nodup_nil
      | committed k row write => exact List.nodup_singleton k
    · rintro j hj k hk rfl
      obtain ⟨e', he', hj⟩ := List.mem_filterMap.mp hj
      cases e' with
      | committed j' row write =>
          cases e with
          | committed k' row' write' =>
              have hk : j = k' := by simpa [Event.committer?] using hk
              have hj : j' = j := by simpa [Event.committer?] using hj
              have howner : k' = i := howner
              subst hj hk howner
              exact hG.1 row write he'
          | created k' row' => simp [Event.committer?] at hk
          | allocated k' a => simp [Event.committer?] at hk
      | created j' row => cases hj
      | allocated j' a => cases hj

/-- The tables are what the log made of `db₀`, and nobody committed twice. -/
structure Recorded (P : Policy) (db₀ : Database) (w : World) : Prop where
  history : History P db₀ w.log w.db
  once : (w.log.filterMap Event.committer?).Nodup

/-- The commit of a request is one event. -/
theorem Recorded.committed_unique {row row' : StatusListRecord} {write write' : Option RowUpdate}
    (hw : P.Recorded db₀ w) (h : Event.committed i row write ∈ w.log)
    (h' : Event.committed i row' write' ∈ w.log) :
    Event.committed i row write = Event.committed i row' write' :=
  eq_of_nodup_filterMap hw.once h h' rfl rfl

theorem recorded_of (P : Policy) (db₀ : Database) : P.Recorded db₀ (World.of db₀) :=
  ⟨.start, List.nodup_nil⟩

theorem recorded_step {o : Operation} {r : o.Answer} (hI : P.Inv env w) (hG : P.Guard env i w o)
    (h : w.step env i o = some (r, w')) (hw : P.Recorded db₀ w) : P.Recorded db₀ w' :=
  ⟨history_effect hI hG (World.effect_of_step h) hw.history,
    once_effect hG (World.effect_of_step h) hw.once⟩

section Runs

variable {α : Type} {Q : Nat → Except JsError α → World → Prop}

/-- A service started on accepted tables, with programs that keep to the discipline. -/
theorem good_of {program : Nat → Async α} (h : P.Accepts db₀)
    (hsafe : ∀ i, Safe (P.discipline env) i (program i) (Q i) (World.of db₀)) :
    Pool.Good (P.discipline env) Q ⟨World.of db₀, program⟩ :=
  ⟨inv_of h, hsafe⟩

theorem run_good {p q : Pool Operation Operation.Answer JsError α World Nat}
    (hp : Pool.Good (P.discipline env) Q p) (h : Pool.Run (World.step env) p q) :
    Pool.Good (P.discipline env) Q q :=
  Pool.Run.good concurrent hp h

theorem run_recorded {p q : Pool Operation Operation.Answer JsError α World Nat}
    (hp : Pool.Good (P.discipline env) Q p) (h : Pool.Run (World.step env) p q)
    (hr : P.Recorded db₀ p.state) : P.Recorded db₀ q.state :=
  Pool.Run.induct concurrent recorded_step hp h hr

theorem run_extends {p q : Pool Operation Operation.Answer JsError α World Nat}
    (hp : Pool.Good (P.discipline env) Q p) (h : Pool.Run (World.step env) p q) :
    P.Extends p.state q.state :=
  Pool.Run.induct concurrent (fun hI _ hstep hext =>
    hext.trans (extends_effect hI (World.effect_of_step hstep))) hp h (Extends.refl _)

/-- A request that still has an operation to call has not committed. -/
theorem notCommitted_of_running {p : Pool Operation Operation.Answer JsError α World Nat}
    (hp : Pool.Good (P.discipline env) Q p) {i : Nat} (hi : (p.thread i).outcome? = none) :
    p.state.NotCommitted i := by
  have hsafe := hp.safe i
  cases hthread : p.thread i with
  | ret a => simp [hthread, Program.outcome?] at hi
  | fail e => simp [hthread, Program.outcome?] at hi
  | call o k =>
      rw [hthread] at hsafe
      exact (hsafe p.state (Interference.refl i _) hp.inv).1.1

end Runs

end Policy

/-! ### What an event leaves of the lists -/

namespace Event

variable {P : Policy} {db : Database} {e : Event}

theorem apply_ids (e : Event) {row : StatusListRecord} (hrow : row ∈ db.statusLists) :
    ∃ row' ∈ (e.apply db).statusLists, row'.id = row.id := by
  cases e with
  | created i new => exact ⟨row, List.mem_append_left _ hrow, rfl⟩
  | allocated i a => exact ⟨row, hrow, rfl⟩
  | committed i before write =>
      cases write with
      | none => exact ⟨row, hrow, rfl⟩
      | some u => exact ⟨u.apply row, List.mem_map_of_mem hrow, u.apply_id row⟩

/-- The lists after an event are the ones before it, one of them re-signed at most, and a new one
at most. -/
theorem Allowed.origin (hn : (db.statusLists.map (·.id)).Nodup) (he : e.Allowed P db)
    {row : StatusListRecord} (hrow : row ∈ (e.apply db).statusLists) :
    (∃ old ∈ db.statusLists, P.Same old row ∧
      row.version = old.version + if e.flips row.id then 1 else 0) ∨
      ∃ i, e = .created i row := by
  cases e with
  | created i new =>
      rcases List.mem_append.mp hrow with hrow | hrow
      · exact .inl ⟨row, hrow, Policy.Same.refl row, rfl⟩
      · rw [List.mem_singleton.mp hrow]
        exact .inr ⟨i, rfl⟩
  | allocated i a => exact .inl ⟨row, hrow, Policy.Same.refl row, rfl⟩
  | committed i before write =>
      cases write with
      | none => exact .inl ⟨row, hrow, Policy.Same.refl row, rfl⟩
      | some u =>
          obtain ⟨hbefore, _, hresigned⟩ := he
          have hresigned := hresigned u rfl
          obtain ⟨old, hold, rfl⟩ := Database.mem_update.mp hrow
          by_cases hid : old.id = u.id
          · have hsame : old = before :=
              List.inj_on_of_nodup_map hn hold hbefore (hid.trans hresigned.id)
            subst hsame
            refine .inl ⟨old, hold, ⟨SameBinding.apply u old, hresigned.keeps⟩, ?_⟩
            simp [flips, RowUpdate.apply_of_eq hid, hresigned.version]
          · have hother : before.id ≠ old.id := fun h => hid (h.symm.trans hresigned.id.symm)
            rw [RowUpdate.apply_of_ne hid]
            exact .inl ⟨old, hold, Policy.Same.refl old, by simp [flips, hother]⟩

end Event

/-! ### What a history keeps -/

namespace History

variable {P : Policy} {db₀ db : Database} {log : List Event}

theorem eq_of_nil (h : History P db₀ [] db) : db = db₀ := by
  generalize hlog : ([] : List Event) = log at h
  cases h with
  | start => rfl
  | snoc h he => simp at hlog

theorem of_singleton {e : Event} (h : History P db₀ [e] db) :
    e.Allowed P db₀ ∧ db = e.apply db₀ := by
  generalize hlog : [e] = log at h
  cases h with
  | start => simp at hlog
  | @snoc log db e' h he =>
      obtain ⟨rfl, hlast⟩ := List.append_inj' (show [] ++ [e] = log ++ [e'] from hlog) rfl
      cases hlast
      rw [h.eq_of_nil] at he ⊢
      exact ⟨he, rfl⟩

/-- Every event was allowed in the tables it met. -/
theorem allowed (h : History P db₀ log db) : ∀ e ∈ log, ∃ db', e.Allowed P db' := by
  induction h with
  | start => exact nofun
  | snoc h he ih =>
      intro e' he'
      rcases List.mem_append.mp he' with he' | he'
      · exact ih e' he'
      · rw [List.mem_singleton.mp he']
        exact ⟨_, he⟩

/-- Whatever list is there stays under its id. -/
theorem ids (h : History P db₀ log db) {row : StatusListRecord} (hrow : row ∈ db₀.statusLists) :
    ∃ row' ∈ db.statusLists, row'.id = row.id := by
  induction h with
  | start => exact ⟨row, hrow, rfl⟩
  | @snoc log db e h he ih =>
      obtain ⟨row', hrow', hid⟩ := ih
      obtain ⟨row'', hrow'', hid'⟩ := e.apply_ids hrow'
      exact ⟨row'', hrow'', hid'.trans hid⟩

/-- A list is created under an id that no list had. -/
theorem fresh (h : History P db₀ log db) {i : Nat} {row : StatusListRecord}
    (hmem : .created i row ∈ log) : db₀.getStatusList row.id = none := by
  induction h with
  | start => cases hmem
  | @snoc log db e h he ih =>
      rcases List.mem_append.mp hmem with hmem | hmem
      · exact ih hmem
      · rw [← List.mem_singleton.mp hmem] at he
        refine Database.getStatusList_eq_none.mpr fun old hold hid => ?_
        obtain ⟨old', hold', hid'⟩ := h.ids hold
        exact Database.getStatusList_eq_none.mp he.1 old' hold' (hid'.trans hid)

theorem ids_nodup (h₀ : (db₀.statusLists.map (·.id)).Nodup) (h : History P db₀ log db) :
    (db.statusLists.map (·.id)).Nodup := by
  induction h with
  | start => exact h₀
  | @snoc log db e h he ih =>
      cases e with
      | created i row => exact Database.ids_nodup_append ih he.1
      | allocated i a => exact ih
      | committed i row write =>
          cases write with
          | none => exact ih
          | some u => simpa [Event.apply, Database.update_ids] using ih

/-- Every list was created at some point of the log, and is what it was then. -/
theorem origin (hnone : db₀.statusLists = []) (h : History P db₀ log db) {row : StatusListRecord}
    (hrow : row ∈ db.statusLists) :
    ∃ i new, Event.created i new ∈ log ∧ P.mayCreate i new ∧ P.Same new row := by
  induction h generalizing row with
  | start =>
      rw [hnone] at hrow
      cases hrow
  | @snoc log db e h he ih =>
      have hn : (db.statusLists.map (·.id)).Nodup := h.ids_nodup (by simp [hnone])
      obtain ⟨old, hold, hsame, _⟩ | ⟨i, rfl⟩ := he.origin hn hrow
      · obtain ⟨i, new, hmem, hmay, hnew⟩ := ih hold
        exact ⟨i, new, List.mem_append_left _ hmem, hmay, hnew.trans hsame⟩
      · exact ⟨i, row, List.mem_append_right _ (List.mem_singleton_self _), he.2.2,
          Policy.Same.refl row⟩

/-- What is committed is a list that is still there. -/
theorem committed_mem (h : History P db₀ log db) {i : Nat} {before : StatusListRecord}
    {write : Option RowUpdate} (hmem : .committed i before write ∈ log) :
    ∃ row ∈ db.statusLists, row.id = before.id := by
  induction h with
  | start => cases hmem
  | @snoc log db e h he ih =>
      rcases List.mem_append.mp hmem with hmem | hmem
      · obtain ⟨row, hrow, hid⟩ := ih hmem
        obtain ⟨row', hrow', hid'⟩ := e.apply_ids hrow
        exact ⟨row', hrow', hid'.trans hid⟩
      · rw [← List.mem_singleton.mp hmem] at he ⊢
        exact Event.apply_ids _ he.1

/-- The version of a list counts the flips of its bits that were committed. -/
theorem version (hnone : db₀.statusLists = [])
    (hfirst : ∀ i row, P.mayCreate i row → row.version = 1) (h : History P db₀ log db)
    {row : StatusListRecord} (hrow : row ∈ db.statusLists) :
    row.version = 1 + log.countP (Event.flips row.id) := by
  induction h generalizing row with
  | start =>
      rw [hnone] at hrow
      cases hrow
  | @snoc log db e h he ih =>
      have hn : (db.statusLists.map (·.id)).Nodup := h.ids_nodup (by simp [hnone])
      rw [List.countP_append, List.countP_singleton]
      obtain ⟨old, hold, hsame, hversion⟩ | ⟨i, rfl⟩ := he.origin hn hrow
      · rw [hversion, ih hold, hsame.binding.id, Nat.add_assoc]
      · -- Nothing was committed under the id before.
        have hzero : log.countP (Event.flips row.id) = 0 := by
          refine List.countP_eq_zero.mpr fun x hx hflips => ?_
          cases x with
          | created j old => cases hflips
          | allocated j a => cases hflips
          | committed j before write =>
              cases write with
              | none => cases hflips
              | some u =>
                  obtain ⟨old, hold, hid⟩ := h.committed_mem hx
                  have hbefore : before.id = row.id := by simpa [Event.flips] using hflips
                  exact Database.getStatusList_eq_none.mp he.1 old hold (hid.trans hbefore)
        rw [hfirst i row he.2.2, hzero]
        rfl

/-- The allocations are the ones there were and the ones the log made, in order. -/
theorem indexAllocations (h : History P db₀ log db) :
    db.indexAllocations = db₀.indexAllocations ++ log.filterMap Event.allocation? := by
  induction h with
  | start => simp
  | @snoc log db e h he ih =>
      cases e with
      | created i row => simp [Event.apply, ih, Event.allocation?]
      | allocated i a => simp [Event.apply, ih, Event.allocation?]
      | committed i row write =>
          cases write with
          | none => simp [Event.apply, ih, Event.allocation?]
          | some u => simp [Event.apply, Database.update, ih, Event.allocation?]

end History

end VcalmStatus
