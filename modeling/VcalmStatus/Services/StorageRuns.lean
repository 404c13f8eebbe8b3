import VcalmStatus.Services.StorageQueue
import VcalmStatus.TestFixtures

/-!
What holds in every run of `MemoryStorage` under concurrent callers.

The maps are at every moment the tables that the events so far leave when they happen one after the
other. The step that needs the queue is the write: between reading a list and writing it, an update
waits for others, and the record it was handed is still the stored one because no other update of
that list has its turn.
-/

namespace VcalmStatus

open Js Effects

/-- The place in the queue that goes with the work. -/
def Work.Fits {T : Type} : Work T → CallPhase → Prop
  | .queued _, phase => phase = .waiting
  | .mutating _ _ _, phase => phase = .running
  | .done _, phase => phase.over = true

/-- What is still to be run of an update stays outside the storage. -/
def Work.Outside {T : Type} : Work T → Prop
  | .queued mutate => ∀ current, VcalmStatus.Outside (mutate current)
  | .mutating _ _ rest => VcalmStatus.Outside rest
  | .done _ => True

namespace MemoryProcess

variable {T : Type} {s s' : MemoryProcess T} {db db' : Database}

/-- `current` is the heart of it: what an update was handed is stored until it writes. -/
structure Inv (s : MemoryProcess T) (db : Database) : Prop where
  queue : s.queue.Inv
  represents : s.storage.Represents db
  serial : Serial s.log db
  paired : ∀ {n : Nat} {c : QueuedCall String}, s.queue.calls[n]? = some c →
    ∃ work, s.work n = some work ∧ work.Fits c.phase
  called : ∀ {n : Nat} {work : Work T}, s.work n = some work → ∃ c, s.queue.calls[n]? = some c
  current : ∀ {n : Nat} {c : QueuedCall String} {mutate : Mutate T} {current : StatusListRecord}
    {rest : Async (StatusListMutationResult T)}, s.queue.calls[n]? = some c →
    s.work n = some (.mutating mutate current rest) →
    db.getStatusList c.key = some current ∧ Becomes (mutate current) rest
  outside : ∀ {n : Nat} {work : Work T}, s.work n = some work → work.Outside

theorem inv_initial : (initial : MemoryProcess T).Inv Database.empty where
  queue := WriteQueue.inv_empty
  represents := MemoryStorage.represents_empty
  serial := .start
  paired := nofun
  called := nofun
  current := nofun
  outside := nofun

theorem set_self (s : MemoryProcess T) (n : Nat) (work : Work T) : s.set n work n = some work :=
  Function.update_self ..

theorem set_of_ne (s : MemoryProcess T) {n m : Nat} (h : m ≠ n) (work : Work T) :
    s.set n work m = s.work m := Function.update_of_ne h ..

/-- A step of one update. The lists of the other updates that have their turn keep the records
these were handed. -/
theorem Inv.move (h : s.Inv db) {n : Nat} {c : QueuedCall String} {phase : CallPhase}
    {work : Work T} {queue : WriteQueue String} {storage : MemoryStorage}
    {log : List (StorageEvent T)} (hc : s.queue.calls[n]? = some c) (hqueue : queue.Inv)
    (hcalls : queue.calls = (s.queue.enter n phase).calls) (hfits : work.Fits phase)
    (hrepresents : storage.Represents db') (hserial : Serial log db')
    (hothers : ∀ (m : Nat) (d : QueuedCall String) (current : StatusListRecord), m ≠ n →
      s.queue.calls[m]? = some d → d.phase = .running → db.getStatusList d.key = some current →
      db'.getStatusList d.key = some current)
    (hown : ∀ mutate current rest, work = .mutating mutate current rest →
      db'.getStatusList c.key = some current ∧ Becomes (mutate current) rest)
    (houtside : work.Outside) : Inv ⟨storage, queue, s.set n work, log⟩ db' where
  queue := hqueue
  represents := hrepresents
  serial := hserial
  paired := by
    intro m d hd
    rw [hcalls] at hd
    obtain ⟨e, he, -, -, hphase⟩ := WriteQueue.getElem?_enter hd
    by_cases hnm : n = m
    · subst hnm
      rw [if_pos rfl] at hphase
      exact ⟨work, s.set_self n work, hphase ▸ hfits⟩
    · rw [if_neg hnm] at hphase
      obtain ⟨w, hw, hwfits⟩ := h.paired he
      exact ⟨w, (s.set_of_ne (Ne.symm hnm) work).trans hw, hphase ▸ hwfits⟩
  called := by
    intro m w hw
    have hold : ∃ e, s.queue.calls[m]? = some e := by
      by_cases hnm : m = n
      · exact ⟨c, hnm ▸ hc⟩
      · exact h.called ((s.set_of_ne hnm work).symm.trans hw)
    obtain ⟨e, he⟩ := hold
    obtain ⟨d, hd, -⟩ := WriteQueue.exists_getElem?_enter he n phase
    exact ⟨d, hcalls ▸ hd⟩
  current := by
    intro m d mutate current rest hd hw
    rw [hcalls] at hd
    obtain ⟨e, he, hkey, -, -⟩ := WriteQueue.getElem?_enter hd
    by_cases hnm : m = n
    · subst hnm
      rw [hc] at he
      cases he
      rw [hkey]
      exact hown mutate current rest (Option.some.inj ((s.set_self m work).symm.trans hw))
    · have hold : s.work m = some (.mutating mutate current rest) :=
        (s.set_of_ne hnm work).symm.trans hw
      obtain ⟨hstored, hbecomes⟩ := h.current he hold
      obtain ⟨w, hw', hfits'⟩ := h.paired he
      rw [hold] at hw'
      cases hw'
      rw [hkey]
      exact ⟨hothers m e current hnm he hfits' hstored, hbecomes⟩
  outside := by
    intro m w hw
    by_cases hnm : m = n
    · subst hnm
      have hwork : work = w := Option.some.inj ((s.set_self m work).symm.trans hw)
      rw [← hwork]
      exact houtside
    · exact h.outside ((s.set_of_ne hnm work).symm.trans hw)

/-- A call that is over in a moment leaves the stored lists as they are. -/
theorem getStatusList_answer (now : Date) {call : StorageCall T} (hmoment : call.isUpdate = false)
    {id : String} {row : StatusListRecord} (h : db.getStatusList id = some row) :
    (StorageContract.answer MemoryStorage.refusalOrder now db call).2.getStatusList id =
      some row := by
  cases call with
  | createStatusList record =>
      simp only [StorageContract.answer]
      split
      · exact h
      · simp only [Database.getStatusList, List.find?_append] at h ⊢
        rw [h]
        rfl
  | allocateIndex allocation =>
      simp only [StorageContract.answer]
      split <;> exact h
  | updateStatusList id mutate => cases hmoment
  | getStatusList id => exact h
  | findStatusLists t p n => exact h
  | getAllocation t c p => exact h
  | isIndexAllocated listId n => exact h
  | countAllocations listId => exact h

theorem Inv.call (h : s.Inv db) (now : Date) {call : StorageCall T}
    (hmoment : call.isUpdate = false) (hcall : call.NulFree) :
    ∃ db', Inv
      { s with
        storage := (s.storage.answer now call).2
        log := s.log ++ [.called now call (s.storage.answer now call).1] } db' := by
  obtain ⟨hanswer, hrepresents⟩ := h.represents.answer now hcall
  refine ⟨_, h.queue, hrepresents, .snoc h.serial ?_, h.paired, h.called, fun hc hw => ?_,
    h.outside⟩
  · exact ⟨hmoment, Prod.ext hanswer.symm rfl⟩
  · obtain ⟨hstored, hbecomes⟩ := h.current hc hw
    exact ⟨getStatusList_answer now hmoment hstored, hbecomes⟩

/-- A new update queues up behind the others. -/
theorem Inv.update (h : s.Inv db) (id : String) {mutate : Mutate T}
    (houtside : ∀ current, Outside (mutate current)) :
    Inv { s with
      queue := s.queue.enqueue id
      work := s.set s.queue.calls.length (.queued mutate) } db where
  queue := h.queue.enqueue id
  represents := h.represents
  serial := h.serial
  paired := by
    intro n c hc
    obtain hc | ⟨rfl, rfl⟩ := WriteQueue.getElem?_enqueue.mp hc
    · obtain ⟨work, hwork, hfits⟩ := h.paired hc
      have hne := Nat.ne_of_lt (WriteQueue.lt_of_getElem? hc)
      exact ⟨work, (s.set_of_ne hne _).trans hwork, hfits⟩
    · exact ⟨_, s.set_self _ _, rfl⟩
  called := by
    intro n work hwork
    by_cases hn : n = s.queue.calls.length
    · exact ⟨_, WriteQueue.getElem?_enqueue.mpr (.inr ⟨hn, rfl⟩)⟩
    · obtain ⟨c, hc⟩ := h.called ((s.set_of_ne hn _).symm.trans hwork)
      exact ⟨c, WriteQueue.getElem?_enqueue.mpr (.inl hc)⟩
  current := by
    intro n c mutate' current rest hc hwork
    obtain hc | ⟨rfl, rfl⟩ := WriteQueue.getElem?_enqueue.mp hc
    · have hne := Nat.ne_of_lt (WriteQueue.lt_of_getElem? hc)
      exact h.current hc ((s.set_of_ne hne _).symm.trans hwork)
    · have hwork' := (s.set_self s.queue.calls.length (.queued mutate)).symm.trans hwork
      cases hwork'
  outside := by
    intro n work hwork
    by_cases hn : n = s.queue.calls.length
    · subst hn
      have hwork' := (s.set_self s.queue.calls.length (.queued mutate)).symm.trans hwork
      cases hwork'
      exact houtside
    · exact h.outside ((s.set_of_ne hn _).symm.trans hwork)

theorem Inv.read (h : s.Inv db) {n : Nat} {c : QueuedCall String} {mutate : Mutate T}
    {current : StatusListRecord} (hqueued : s.queue.calls[n]? = some c)
    (hphase : c.phase = .waiting) (hclear : s.queue.Clear c.previous)
    (hwork : s.work n = some (.queued mutate))
    (hfound : s.storage.lists.get? c.key = some current) :
    Inv { s with
      queue := s.queue.enter n .running
      work := s.set n (.mutating mutate current (mutate current)) } db := by
  have houtside : Outside (mutate current) := h.outside hwork current
  have hstored : db.getStatusList c.key = some current :=
    (h.represents.get?_lists c.key).symm.trans hfound
  refine h.move hqueued (h.queue.step (.start hqueued hphase hclear)) rfl ?_ h.represents h.serial
    (fun m d row hne hd hrun hrow => hrow) (fun mutate' current' rest hm => ?_) houtside
  · rfl
  · cases hm
    exact ⟨hstored, .start⟩

theorem Inv.miss (h : s.Inv db) {n : Nat} {c : QueuedCall String}
    (hqueued : s.queue.calls[n]? = some c) (hphase : c.phase = .waiting)
    (hclear : s.queue.Clear c.previous) (hmissing : s.storage.lists.get? c.key = none) :
    Inv { s with
      queue := (s.queue.enter n .running).enter n .settled
      work := s.set n (.done (.error (unknownList c.key)))
      log := s.log ++ [.missed n c.key] } db := by
  have hstarted := h.queue.step (.start hqueued hphase hclear)
  obtain ⟨d, hd, hkey, hdphase⟩ := WriteQueue.exists_getElem?_enter hqueued n .running
  have hnone : db.getStatusList c.key = none := (h.represents.get?_lists c.key).symm.trans hmissing
  have hsettled := hstarted.step (.settle hd (by rw [hdphase, if_pos rfl]))
  have hserial : Serial (s.log ++ [.missed n c.key]) db := .snoc h.serial ⟨hnone, rfl⟩
  refine h.move hqueued hsettled (congrArg WriteQueue.calls (WriteQueue.enter_enter ..)) ?_
    h.represents hserial (fun m d row hne hd hrun hrow => hrow) (fun _ _ _ hm => ?_) trivial
  · rfl
  · cases hm

theorem Inv.mutate (h : s.Inv db) {n : Nat} {mutate : Mutate T} {current : StatusListRecord}
    {o : Operation} {k : o.Answer → Async (StatusListMutationResult T)}
    (hwork : s.work n = some (.mutating mutate current (.call o k))) (ho : o.usesDatabase = false)
    (r : o.Answer) : Inv { s with work := s.set n (.mutating mutate current (k r)) } db := by
  obtain ⟨c, hc⟩ := h.called hwork
  obtain ⟨w, hw, hfits⟩ := h.paired hc
  rw [hwork] at hw
  cases hw
  obtain ⟨hstored, hbecomes⟩ := h.current hc hwork
  have houtside : Outside (k r) := (h.outside hwork).2 r
  refine h.move hc h.queue (congrArg WriteQueue.calls (WriteQueue.enter_self hc).symm) ?_
    h.represents h.serial (fun m d row hne hd hrun hrow => hrow)
    (fun mutate' current' rest hm => ?_) houtside
  · exact hfits
  · cases hm
    exact ⟨hstored, .call hbecomes ho r⟩

theorem Inv.throw (h : s.Inv db) {n : Nat} {c : QueuedCall String} {mutate : Mutate T}
    {current : StatusListRecord} {e : JsError} (hqueued : s.queue.calls[n]? = some c)
    (hphase : c.phase = .running)
    (hwork : s.work n = some (.mutating mutate current (.fail e))) :
    Inv { s with
      queue := s.queue.enter n .settled
      work := s.set n (.done (.error e))
      log := s.log ++ [.threw n c.key mutate current e] } db := by
  obtain ⟨hstored, hbecomes⟩ := h.current hqueued hwork
  have hserial : Serial (s.log ++ [.threw n c.key mutate current e]) db :=
    .snoc h.serial ⟨hstored, hbecomes, rfl⟩
  refine h.move hqueued (h.queue.step (.settle hqueued hphase)) rfl ?_ h.represents hserial
    (fun m d row hne hd hrun hrow => hrow) (fun _ _ _ hm => ?_) trivial
  · rfl
  · cases hm

/-- The write of an update is the contract's, on the record the update was handed. -/
theorem answer_written (h : s.storage.Represents db) {id : String} {current : StatusListRecord}
    (hstored : db.getStatusList id = some current) (now : Date)
    (outcome : StatusListMutationResult T) :
    ∃ db', StorageContract.answer MemoryStorage.refusalOrder now db
        (.updateStatusList id fun _ => .ok outcome) = (.ok outcome.result, db') ∧
      (s.written now id current outcome).Represents db' ∧
      ∀ other row, other ≠ id → db.getStatusList other = some row →
        db'.getStatusList other = some row := by
  have hid : current.id = id := (Database.mem_of_getStatusList hstored).2
  simp only [StorageContract.answer, hstored, written]
  cases hm : outcome.materialization with
  | none => exact ⟨db, rfl, h, fun other row hne hrow => hrow⟩
  | some materialization =>
      refine ⟨_, rfl, h.materialize hstored materialization now, fun other row hne hrow => ?_⟩
      rw [Database.getStatusList_update_of_ne]
      · exact hrow
      · exact fun he => hne (he.trans hid)

theorem Inv.write (h : s.Inv db) (now : Date) {n : Nat} {c : QueuedCall String}
    {mutate : Mutate T} {current : StatusListRecord} {outcome : StatusListMutationResult T}
    (hqueued : s.queue.calls[n]? = some c) (hphase : c.phase = .running)
    (hwork : s.work n = some (.mutating mutate current (.ret outcome))) :
    ∃ db', Inv
      { storage := s.written now c.key current outcome
        queue := s.queue.enter n .settled
        work := s.set n (.done (.ok outcome.result))
        log := s.log ++ [.updated n c.key mutate now current outcome] } db' := by
  obtain ⟨hstored, hbecomes⟩ := h.current hqueued hwork
  obtain ⟨db', hanswer, hrepresents, hframe⟩ := answer_written h.represents hstored now outcome
  have hserial : Serial (s.log ++ [.updated n c.key mutate now current outcome]) db' :=
    .snoc h.serial ⟨hstored, hbecomes, hanswer⟩
  refine ⟨db', h.move hqueued (h.queue.step (.settle hqueued hphase)) rfl ?_ hrepresents hserial
    (fun m d row hne hd hrun hrow => ?_) (fun _ _ _ hm => ?_) trivial⟩
  · rfl
  · -- two updates that both have their turn are of different lists
    refine hframe d.key row (fun hkey => hne ?_) hrow
    exact (h.queue.exclusive hqueued hphase hd hrun hkey).symm
  · cases hm

theorem Inv.leave (h : s.Inv db) {n : Nat} {c : QueuedCall String}
    (hqueued : s.queue.calls[n]? = some c) (hphase : c.phase = .settled) :
    Inv { s with queue := s.queue.leave n c.key } db := by
  obtain ⟨work, hwork, hfits⟩ := h.paired hqueued
  have hset : s.set n work = s.work := Function.update_eq_self_iff.mpr hwork.symm
  have hdone : work.Fits .returned := by
    cases work with
    | queued mutate =>
        rw [hphase] at hfits
        cases hfits
    | mutating mutate current rest =>
        rw [hphase] at hfits
        cases hfits
    | done result => rfl
  have hmoved := h.move hqueued (h.queue.step (.leave hqueued hphase)) rfl hdone h.represents
    h.serial (fun m d row hne hd hrun hrow => hrow)
    (fun mutate current rest hm => h.current hqueued (hm ▸ hwork)) (h.outside hwork)
  rw [hset] at hmoved
  exact hmoved

theorem Inv.move_step (h : s.Inv db) {n : Nat} (hmove : s.Move n s') : ∃ db', s'.Inv db' := by
  cases hmove with
  | read hqueued hphase hclear hwork hfound =>
      exact ⟨db, h.read hqueued hphase hclear hwork hfound⟩
  | miss hqueued hphase hclear hwork hmissing =>
      exact ⟨db, h.miss hqueued hphase hclear hmissing⟩
  | mutate hwork ho r => exact ⟨db, h.mutate hwork ho r⟩
  | write now hqueued hphase hwork => exact h.write now hqueued hphase hwork
  | throw hqueued hphase hwork => exact ⟨db, h.throw hqueued hphase hwork⟩
  | leave hqueued hphase => exact ⟨db, h.leave hqueued hphase⟩

theorem Inv.step (h : s.Inv db) (hstep : s.Step s') : ∃ db', s'.Inv db' := by
  cases hstep with
  | call now hmoment hcall => exact h.call now hmoment hcall
  | update id houtside => exact ⟨db, h.update id houtside⟩
  | move hmove => exact h.move_step hmove

theorem Reachable.inv (h : s.Reachable) : ∃ db, s.Inv db := by
  induction h with
  | refl => exact ⟨Database.empty, inv_initial⟩
  | tail _ hstep ih =>
      obtain ⟨db, hinv⟩ := ih
      exact hinv.step hstep

/-! ### What is in the log -/

/-- The updates that are over are those in the log, each with what it came to, and those of one
list in the order in which they were called. -/
structure Logged (s : MemoryProcess T) : Prop where
  ended : ∀ (n : Nat) (r : Except JsError T),
    s.work n = some (.done r) ↔ ∃ e ∈ s.log, e.ended? = some (n, r)
  ordered : ∀ id, (s.log.filterMap (StorageEvent.updateOf? id)).Pairwise (· < ·)
  placed : ∀ {e : StorageEvent T} {n : Nat} {id : String}, e ∈ s.log → e.updateOf? id = some n →
    ∃ c, s.queue.calls[n]? = some c ∧ c.key = id ∧ c.phase.over = true

theorem logged_initial : (initial : MemoryProcess T).Logged where
  ended := fun _ _ => ⟨nofun, fun ⟨_, he, _⟩ => nomatch he⟩
  ordered := fun _ => .nil
  placed := nofun

/-- A step that ends no update. -/
theorem Logged.keep (h : s.Logged) {queue : WriteQueue String} {storage : MemoryStorage}
    {work : Nat → Option (Work T)} {events : List (StorageEvent T)}
    (hevents : ∀ e ∈ events, e.ended? = none ∧ ∀ id, e.updateOf? id = none)
    (hwork : ∀ n r, work n = some (.done r) ↔ s.work n = some (.done r))
    (hcalls : ∀ (n : Nat) (c : QueuedCall String), s.queue.calls[n]? = some c →
      c.phase.over = true → ∃ d, queue.calls[n]? = some d ∧ d.key = c.key ∧ d.phase.over = true) :
    Logged ⟨storage, queue, work, s.log ++ events⟩ where
  ended := by
    intro n r
    rw [hwork, h.ended]
    constructor
    · rintro ⟨e, he, hr⟩
      exact ⟨e, List.mem_append_left _ he, hr⟩
    · rintro ⟨e, he, hr⟩
      rcases List.mem_append.mp he with he | he
      · exact ⟨e, he, hr⟩
      · rw [(hevents e he).1] at hr
        cases hr
  ordered := by
    intro id
    have hnil : events.filterMap (StorageEvent.updateOf? id) = [] :=
      List.filterMap_eq_nil_iff.mpr fun e he => (hevents e he).2 id
    rw [List.filterMap_append, hnil, List.append_nil]
    exact h.ordered id
  placed := by
    intro e n id he hupdate
    rcases List.mem_append.mp he with he | he
    · obtain ⟨c, hc, hkey, hover⟩ := h.placed he hupdate
      obtain ⟨d, hd, hdkey, hdover⟩ := hcalls n c hc hover
      exact ⟨d, hd, hdkey.trans hkey, hdover⟩
    · rw [(hevents e he).2 id] at hupdate
      cases hupdate

theorem Logged.keep_log (h : s.Logged) {queue : WriteQueue String} {storage : MemoryStorage}
    {work : Nat → Option (Work T)}
    (hwork : ∀ n r, work n = some (.done r) ↔ s.work n = some (.done r))
    (hcalls : ∀ (n : Nat) (c : QueuedCall String), s.queue.calls[n]? = some c →
      c.phase.over = true → ∃ d, queue.calls[n]? = some d ∧ d.key = c.key ∧ d.phase.over = true) :
    Logged ⟨storage, queue, work, s.log⟩ := by
  have hkeep : Logged ⟨storage, queue, work, s.log ++ []⟩ :=
    h.keep (fun e he => absurd he List.not_mem_nil) hwork hcalls
  rwa [List.append_nil] at hkeep

/-- The step that ends an update: no later update of its list is over. -/
theorem Logged.finish (h : s.Logged) (hinv : s.Inv db) {n : Nat} {c : QueuedCall String}
    {r : Except JsError T} {e : StorageEvent T} {queue : WriteQueue String}
    {storage : MemoryStorage} (hc : s.queue.calls[n]? = some c) (hphase : c.phase.over = false)
    (hended : e.ended? = some (n, r))
    (hupdate : ∀ id, e.updateOf? id = if c.key = id then some n else none)
    (hcalls : queue.calls = (s.queue.enter n .settled).calls) :
    Logged ⟨storage, queue, s.set n (.done r), s.log ++ [e]⟩ where
  ended := by
    have hbusy : ∀ r', s.work n ≠ some (.done r') := by
      intro r' hdone
      obtain ⟨w, hw, hfits⟩ := hinv.paired hc
      rw [hdone] at hw
      cases hw
      rw [show c.phase.over = true from hfits] at hphase
      cases hphase
    intro m r'
    by_cases hm : m = n
    · subst hm
      have hself : s.set m (.done r) m = some (.done r') ↔ r = r' := by
        rw [set_self, Option.some.injEq, Work.done.injEq]
      refine hself.trans ⟨?_, ?_⟩
      · rintro rfl
        exact ⟨e, List.mem_append_right _ (List.mem_singleton_self e), hended⟩
      · rintro ⟨e', he', hr'⟩
        rcases List.mem_append.mp he' with he' | he'
        · exact absurd ((h.ended m r').mpr ⟨e', he', hr'⟩) (hbusy r')
        · rw [List.mem_singleton.mp he', hended] at hr'
          cases hr'
          rfl
    · have hother : s.set n (.done r) m = some (.done r') ↔ s.work m = some (.done r') := by
        rw [set_of_ne s hm]
      refine (hother.trans (h.ended m r')).trans ⟨?_, ?_⟩
      · rintro ⟨e', he', hr'⟩
        exact ⟨e', List.mem_append_left _ he', hr'⟩
      · rintro ⟨e', he', hr'⟩
        rcases List.mem_append.mp he' with he' | he'
        · exact ⟨e', he', hr'⟩
        · rw [List.mem_singleton.mp he', hended] at hr'
          cases hr'
          exact absurd rfl hm
  ordered := by
    intro id
    rw [List.filterMap_append]
    refine List.pairwise_append.mpr ⟨h.ordered id, ?_, ?_⟩
    · rw [List.filterMap_cons, hupdate]
      split <;> simp
    · intro m hm l hl
      obtain ⟨e', he', hl'⟩ := List.mem_filterMap.mp hl
      rw [List.mem_singleton.mp he', hupdate] at hl'
      split at hl' <;> rename_i hkey
      · cases hl'
        obtain ⟨e'', he'', hm'⟩ := List.mem_filterMap.mp hm
        obtain ⟨d, hd, hdkey, hdover⟩ := h.placed he'' hm'
        -- were it later, it could only have got its turn after this one
        have hstarted : d.phase ≠ .waiting := by
          intro hwaiting
          rw [hwaiting] at hdover
          cases hdover
        have hle := hinv.queue.in_order hd hstarted hc hphase (hkey.trans hdkey.symm)
        refine Nat.lt_of_le_of_ne hle fun hml => ?_
        rw [← hml, hd] at hc
        cases hc
        rw [hdover] at hphase
        cases hphase
      · cases hl'
  placed := by
    intro e' m id he' hm
    rcases List.mem_append.mp he' with he' | he'
    · obtain ⟨d, hd, hdkey, hdover⟩ := h.placed he' hm
      obtain ⟨d', hd', hdkey', hdphase'⟩ := WriteQueue.exists_getElem?_enter hd n .settled
      refine ⟨d', by rw [hcalls]; exact hd', hdkey'.trans hdkey, ?_⟩
      rw [hdphase']
      split
      · rfl
      · exact hdover
    · rw [List.mem_singleton.mp he', hupdate] at hm
      split at hm <;> rename_i hkey
      · cases hm
        obtain ⟨d', hd', hdkey', hdphase'⟩ := WriteQueue.exists_getElem?_enter hc n .settled
        exact ⟨d', by rw [hcalls]; exact hd', hdkey'.trans hkey, by rw [hdphase', if_pos rfl]; rfl⟩
      · cases hm

/-- A call that enters a phase keeps everything over that was. -/
theorem over_enter {queue : WriteQueue String} {n : Nat} {phase : CallPhase}
    (hover : ∀ c, queue.calls[n]? = some c → c.phase.over = true → phase.over = true) (m : Nat)
    (c : QueuedCall String) (hc : queue.calls[m]? = some c) (hc' : c.phase.over = true) :
    ∃ d, (queue.enter n phase).calls[m]? = some d ∧ d.key = c.key ∧ d.phase.over = true := by
  obtain ⟨d, hd, hkey, hphase⟩ := WriteQueue.exists_getElem?_enter hc n phase
  refine ⟨d, hd, hkey, ?_⟩
  rw [hphase]
  split <;> rename_i hnm
  · subst hnm
    exact hover c hc hc'
  · exact hc'

/-- Work that is not done, before and after, is no result. -/
theorem set_done_iff {n : Nat} {work work' : Work T} (hwork : s.work n = some work)
    (hold : ∀ r, work ≠ .done r) (hnew : ∀ r, work' ≠ .done r) (m : Nat) (r : Except JsError T) :
    s.set n work' m = some (.done r) ↔ s.work m = some (.done r) := by
  by_cases hm : m = n
  · subst hm
    rw [set_self, hwork]
    exact ⟨fun h => absurd (Option.some.inj h) (hnew r), fun h => absurd (Option.some.inj h) (hold r)⟩
  · rw [set_of_ne s hm]

theorem Logged.move (h : s.Logged) (hinv : s.Inv db) {n : Nat} (hmove : s.Move n s') :
    s'.Logged := by
  cases hmove with
  | read hqueued hphase hclear hwork hfound =>
      refine h.keep_log (set_done_iff hwork nofun nofun) (over_enter fun c hc hover => ?_)
      rw [hqueued] at hc
      cases hc
      rw [hphase] at hover
      cases hover
  | miss hqueued hphase hclear hwork hmissing =>
      exact h.finish hinv hqueued (by rw [hphase]; rfl) rfl (fun id => rfl)
        (congrArg WriteQueue.calls (WriteQueue.enter_enter ..))
  | mutate hwork ho r =>
      exact h.keep_log (set_done_iff hwork nofun nofun) fun m c hc hover => ⟨c, hc, rfl, hover⟩
  | write now hqueued hphase hwork =>
      exact h.finish hinv hqueued (by rw [hphase]; rfl) rfl (fun id => rfl) rfl
  | throw hqueued hphase hwork =>
      exact h.finish hinv hqueued (by rw [hphase]; rfl) rfl (fun id => rfl) rfl
  | leave hqueued hphase =>
      exact h.keep_log (fun n r => Iff.rfl) (over_enter fun c hc hover => rfl)

theorem Logged.step (h : s.Logged) (hinv : s.Inv db) (hstep : s.Step s') : s'.Logged := by
  cases hstep with
  | call now hmoment hcall =>
      refine h.keep (fun e he => ?_) (fun n r => Iff.rfl) fun m c hc hover => ⟨c, hc, rfl, hover⟩
      rw [List.mem_singleton.mp he]
      exact ⟨rfl, fun _ => rfl⟩
  | update id houtside =>
      refine h.keep_log (fun n r => ?_) fun m c hc hover =>
        ⟨c, WriteQueue.getElem?_enqueue.mpr (.inl hc), rfl, hover⟩
      by_cases hn : n = s.queue.calls.length
      · have hunborn : s.work n ≠ some (.done r) := by
          intro hwork
          obtain ⟨c, hc⟩ := hinv.called hwork
          exact absurd hn (Nat.ne_of_lt (WriteQueue.lt_of_getElem? hc))
        rw [hn, set_self]
        exact ⟨nofun, fun hdone => absurd (hn ▸ hdone) hunborn⟩
      · rw [set_of_ne s hn]
  | move hmove => exact h.move hinv hmove

theorem Reachable.logged (h : s.Reachable) : s.Logged := by
  induction h with
  | refl => exact logged_initial
  | tail hreach hstep ih =>
      obtain ⟨db, hinv⟩ := Reachable.inv hreach
      exact ih.step hinv hstep

/-! ### Versions -/

/-- The version of a list, the first one when it is not there yet. -/
def versionOf (db : Database) (id : String) : Nat :=
  ((db.getStatusList id).map (·.version)).getD 1

theorem versionOf_answer (db : Database) (now : Date) {call : StorageCall T} (hmoment : call.isUpdate = false)
    (id : String) :
    versionOf (StorageContract.answer MemoryStorage.refusalOrder now db call).2 id =
      versionOf db id := by
  cases hrow : db.getStatusList id with
  | some row =>
      have hkept := getStatusList_answer now hmoment hrow
      rw [versionOf, versionOf, hkept, hrow]
  | none =>
      cases call with
      | createStatusList record =>
          simp only [StorageContract.answer]
          split
          · rfl
          · -- a list is created at its first version
            simp only [Database.getStatusList] at hrow
            simp only [versionOf, Database.getStatusList, List.find?_append, hrow, Option.none_or,
              List.find?_singleton]
            split <;> rfl
      | allocateIndex allocation =>
          simp only [StorageContract.answer]
          split <;> rfl
      | updateStatusList id mutate => cases hmoment
      | getStatusList id => rfl
      | findStatusLists t p n => rfl
      | getAllocation t c p => rfl
      | isIndexAllocated listId n => rfl
      | countAllocations listId => rfl

theorem versionOf_update {current : StatusListRecord} {id id' : String}
    (hstored : db.getStatusList id' = some current) (materialization : StatusListMaterialization)
    (now : Date) :
    versionOf (db.update (StorageContract.nextVersion current materialization now)) id =
      versionOf db id + if id' = id then 1 else 0 := by
  have hid : current.id = id' := (Database.mem_of_getStatusList hstored).2
  rw [versionOf, versionOf, Database.getStatusList_update]
  split <;> rename_i heq
  · subst heq
    rw [hstored, Option.map_some, RowUpdate.apply_of_eq rfl]
    rfl
  · have hne : id ≠ current.id := fun he => heq (hid.symm.trans he.symm)
    rw [← Database.getStatusList_update,
      Database.getStatusList_update_of_ne db
        (StorageContract.nextVersion current materialization now) hne]
    rfl

/-- Every write takes its list one version further, and nothing else does. -/
theorem versionOf_serial {log : List (StorageEvent T)} (h : Serial log db) (id : String) :
    versionOf db id = 1 + log.countP (StorageEvent.writes id) := by
  induction h with
  | start => rfl
  | @snoc log db db' e h he ih =>
      rw [List.countP_append, List.countP_singleton, ← Nat.add_assoc, ← ih]
      cases e with
      | called now call answer =>
          obtain ⟨hmoment, hanswer⟩ := he
          have hversion := versionOf_answer db now hmoment id
          rw [hanswer] at hversion
          exact hversion
      | updated n id' mutate now current outcome =>
          obtain ⟨hstored, -, hanswer⟩ := he
          simp only [StorageContract.answer, hstored, Prod.mk.injEq, true_and] at hanswer
          subst hanswer
          cases hm : outcome.materialization with
          | none => simp [StorageEvent.writes, hm]
          | some materialization =>
              dsimp only
              rw [versionOf_update hstored]
              simp [StorageEvent.writes, hm]
      | threw n id' mutate current e =>
          rw [he.2.2]
          rfl
      | missed n id' =>
          rw [he.2]
          rfl

/-! ### Every reachable state -/

/-- An update that takes time and then publishes new bits. -/
def slowMutate : Mutate Unit := fun _ =>
  .call .newDate fun _ => .ret ⟨some ⟨"uNEW", []⟩, ()⟩

/-- A list beside the test list. -/
def secondStatusList : StatusListRecord := { testStatusList with id := "list-2" }

/-- What the first of two updates of the test list writes at its second moment. -/
def writtenStatusList : StatusListRecord :=
  { testStatusList with encodedList := "uNEW", signedCredential := [], version := 2, updatedAt := 1 }

/-- Two updates of one list, the first of which has read it, and one of another list, which has
too; and a later state, in which the first has written and the second has read what it wrote. -/
theorem contended_reachable : ∃ s t : MemoryProcess Unit,
    (s.Reachable ∧ s.queue.calls = [⟨"list-1", none, .running⟩, ⟨"list-1", some 0, .waiting⟩,
        ⟨"list-2", none, .running⟩] ∧
      s.work 0 = some (.mutating slowMutate testStatusList (slowMutate testStatusList)) ∧
      s.work 2 = some (.mutating slowMutate secondStatusList (slowMutate secondStatusList)) ∧
      s.queue.last "list-1" = some 1) ∧
    t.Reachable ∧ t.storage.getStatusList "list-1" = some writtenStatusList ∧
      t.work 0 = some (.done (.ok ())) ∧
      t.work 1 = some (.mutating slowMutate writtenStatusList (slowMutate writtenStatusList)) := by
  have houtside : ∀ current, Outside (slowMutate current) := fun _ => ⟨rfl, fun _ => trivial⟩
  have hmoment : ∀ record, (.createStatusList record : StorageCall Unit).isUpdate = false :=
    fun _ => rfl
  have hstart : (initial : MemoryProcess Unit).Reachable := .refl
  have hlists := (hstart.tail (.call 1786147200000
    (hmoment testStatusList.toNewStatusListRecord) trivial)).tail (.call 1786147200000
    (hmoment secondStatusList.toNewStatusListRecord) trivial)
  have hqueued := ((hlists.tail (.update "list-1" houtside)).tail (.update "list-1" houtside)).tail
    (.update "list-2" houtside)
  have hread := (hqueued.tail
    (.move (.read (n := 0) (c := ⟨"list-1", none, .waiting⟩) rfl rfl nofun rfl rfl))).tail
    (.move (.read (n := 2) (c := ⟨"list-2", none, .waiting⟩) rfl rfl nofun rfl rfl))
  have hwritten := (hread.tail (.move (.mutate (n := 0) (o := .newDate) rfl rfl (0 : Date)))).tail
    (.move (.write 1 (n := 0) (c := ⟨"list-1", none, .running⟩) rfl rfl rfl))
  refine ⟨_, _, ⟨hread, rfl, rfl, rfl, rfl⟩, hwritten.tail
    (.move (.read (n := 1) (c := ⟨"list-1", some 0, .waiting⟩) rfl rfl ?_ rfl rfl)), rfl, rfl, rfl⟩
  rintro m d hm hd
  cases hm
  cases hd
  rfl

/-- Whatever the callers do at once, the outcome is that of the same calls one after the other: the
maps are the tables of the log, each update was handed what was stored when it took effect, every
update that is over is in the log with its result, and those of one list took effect in the order
in which they were called. -/
theorem linearizable (h : s.Reachable) :
    ∃ db, s.storage.Represents db ∧ Serial s.log db ∧
      (∀ n r, s.work n = some (.done r) ↔ ∃ e ∈ s.log, e.ended? = some (n, r)) ∧
      ∀ id, (s.log.filterMap (StorageEvent.updateOf? id)).Pairwise (· < ·) := by
  obtain ⟨db, hinv⟩ := h.inv
  exact ⟨db, hinv.represents, hinv.serial, h.logged.ended, h.logged.ordered⟩

theorem contended_linearizable : ∃ (s : MemoryProcess Unit) (db : Database),
    s.storage.getStatusList "list-1" = some writtenStatusList ∧
      s.work 0 = some (.done (.ok ())) ∧ s.storage.Represents db ∧ Serial s.log db ∧
      (∀ n r, s.work n = some (.done r) ↔ ∃ e ∈ s.log, e.ended? = some (n, r)) ∧
      ∀ id, (s.log.filterMap (StorageEvent.updateOf? id)).Pairwise (· < ·) := by
  obtain ⟨-, s, -, hs, hrow, hdone, -⟩ := contended_reachable
  obtain ⟨db, h⟩ := linearizable hs
  exact ⟨s, db, hrow, hdone, h⟩

/-- Between its read and its write an update is alone with its list, and what it was handed is what
is stored. -/
theorem alone_with_its_list (h : s.Reachable) {n m : Nat} {c d : QueuedCall String}
    {mutate mutate' : Mutate T} {current current' : StatusListRecord}
    {rest rest' : Async (StatusListMutationResult T)} (hc : s.queue.calls[n]? = some c)
    (hwork : s.work n = some (.mutating mutate current rest)) (hd : s.queue.calls[m]? = some d)
    (hwork' : s.work m = some (.mutating mutate' current' rest')) :
    s.storage.getStatusList c.key = some current ∧ (d.key = c.key → m = n) := by
  obtain ⟨db, hinv⟩ := h.inv
  have hrunning : ∀ {k : Nat} {e : QueuedCall String} {f : Mutate T} {row : StatusListRecord}
      {p : Async (StatusListMutationResult T)}, s.queue.calls[k]? = some e →
      s.work k = some (.mutating f row p) → e.phase = .running := by
    intro k e f row p he hw
    obtain ⟨w, hw', hfits⟩ := hinv.paired he
    rw [hw] at hw'
    cases hw'
    exact hfits
  refine ⟨?_, fun hkey => ?_⟩
  · exact (hinv.represents.get?_lists c.key).trans (hinv.current hc hwork).1
  · exact (hinv.queue.exclusive hc (hrunning hc hwork) hd (hrunning hd hwork') hkey).symm

theorem contended_alone : ∃ s : MemoryProcess Unit,
    s.work 0 = some (.mutating slowMutate testStatusList (slowMutate testStatusList)) ∧
      s.work 2 = some (.mutating slowMutate secondStatusList (slowMutate secondStatusList)) ∧
      s.storage.getStatusList "list-1" = some testStatusList ∧
      s.storage.getStatusList "list-2" = some secondStatusList ∧ ("list-2" = "list-1" → 2 = 0) := by
  obtain ⟨s, -, ⟨hs, hcalls, hwork, hwork', -⟩, -⟩ := contended_reachable
  have hc : s.queue.calls[0]? = some ⟨"list-1", none, .running⟩ := by rw [hcalls]; rfl
  have hd : s.queue.calls[2]? = some ⟨"list-2", none, .running⟩ := by rw [hcalls]; rfl
  obtain ⟨hrow, halone⟩ := alone_with_its_list hs hc hwork hd hwork'
  exact ⟨s, hwork, hwork', hrow, (alone_with_its_list hs hd hwork' hc hwork).1, halone⟩

/-- No update is lost: the version of a stored list counts its writes. -/
theorem version_eq (h : s.Reachable) {id : String} {row : StatusListRecord}
    (hrow : s.storage.getStatusList id = some row) :
    row.version = 1 + s.log.countP (StorageEvent.writes id) := by
  obtain ⟨db, hinv⟩ := h.inv
  have hstored : db.getStatusList id = some row :=
    (hinv.represents.get?_lists id).symm.trans hrow
  have hversion := versionOf_serial hinv.serial id
  rw [versionOf, hstored] at hversion
  exact hversion

theorem contended_version : ∃ s : MemoryProcess Unit,
    s.storage.getStatusList "list-1" = some writtenStatusList ∧
      2 = 1 + s.log.countP (StorageEvent.writes "list-1") := by
  obtain ⟨-, s, -, hs, hrow, -⟩ := contended_reachable
  exact ⟨s, hrow, version_eq hs hrow⟩

theorem nonempty_answer (o : Operation) : Nonempty o.Answer := by
  cases o <;> exact ⟨default⟩

/-- An update whose turn it is, or could be, has a next moment. -/
theorem Inv.exists_move (h : s.Inv db) {n : Nat} {c : QueuedCall String}
    (hc : s.queue.calls[n]? = some c)
    (hturn : c.phase = .running ∨ c.phase = .waiting ∧ s.queue.Clear c.previous) :
    ∃ s', s.Move n s' := by
  obtain ⟨work, hwork, hfits⟩ := h.paired hc
  obtain hphase | ⟨hphase, hclear⟩ := hturn
  · cases work with
    | queued mutate =>
        rw [hphase] at hfits
        cases hfits
    | mutating mutate current rest =>
        cases rest with
        | ret outcome => exact ⟨_, .write 0 hc hphase hwork⟩
        | fail e => exact ⟨_, .throw hc hphase hwork⟩
        | call o k =>
            obtain ⟨r⟩ := nonempty_answer o
            exact ⟨_, .mutate hwork (h.outside hwork).1 r⟩
    | done result =>
        rw [hphase] at hfits
        cases hfits
  · cases work with
    | queued mutate =>
        cases hfound : s.storage.lists.get? c.key with
        | none => exact ⟨_, .miss hc hphase hclear hwork hfound⟩
        | some current => exact ⟨_, .read hc hphase hclear hwork hfound⟩
    | mutating mutate current rest =>
        rw [hphase] at hfits
        cases hfits
    | done result =>
        rw [hphase] at hfits
        cases hfits

/-- No queue gets stuck and none is left behind: as long as a list has a promise in the map, one of
its updates has a next moment. -/
theorem never_stuck (h : s.Reachable) (id : String) :
    s.queue.last id = none ∨
      ∃ n c s', s.queue.calls[n]? = some c ∧ c.key = id ∧ s.Move n s' := by
  obtain ⟨db, hinv⟩ := h.inv
  cases hlast : s.queue.last id with
  | none => exact .inl rfl
  | some n =>
      right
      obtain ⟨c, hc, hkey, hphase, -⟩ := hinv.queue.last hlast
      cases hp : c.phase with
      | waiting =>
          obtain ⟨m, d, -, hd, hdkey, hturn⟩ := hinv.queue.progress hc hp
          obtain ⟨s', hmove⟩ := hinv.exists_move hd hturn
          exact ⟨m, d, s', hd, hdkey.trans hkey, hmove⟩
      | running =>
          obtain ⟨s', hmove⟩ := hinv.exists_move hc (.inl hp)
          exact ⟨n, c, s', hc, hkey, hmove⟩
      | settled => exact ⟨n, c, _, hc, hkey, .leave hc hp⟩
      | returned => exact absurd hp hphase

theorem contended_never_stuck : ∃ s : MemoryProcess Unit, s.queue.last "list-1" = some 1 ∧
    ∃ n c s', s.queue.calls[n]? = some c ∧ c.key = "list-1" ∧ s.Move n s' := by
  obtain ⟨s, -, ⟨hs, -, -, -, hlast⟩, -⟩ := contended_reachable
  have hsome : s.queue.last "list-1" ≠ none := by
    rw [hlast]
    simp
  exact ⟨s, hlast, (never_stuck hs "list-1").resolve_left hsome⟩

end MemoryProcess

end VcalmStatus
