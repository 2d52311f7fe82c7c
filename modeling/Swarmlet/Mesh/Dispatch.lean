import Mathlib.Algebra.BigOperators.Group.Finset.Basic
import Mathlib.Data.Fintype.Basic
import Mathlib.Tactic.Abel
import Swarmlet.Mesh.Ledger

/-!
# What becomes of a work item

Every item of the queue is somewhere: executed, given up, in the hands of a worker, or still to be
read. `Ledger.tracked` is the multiset of the items in one of these places, and one step keeps it
(`step_tracked`) with one exception. A worker that finds the queue empty leaves the shared index
behind the end of the array. When another worker then puts an item back, it lands on a position the
index has passed, and nobody reads it: the step loses exactly that item.

So no work is dropped in a run exactly when every item that is put back is put back *in time*, while
the index is in range (`accounted_iff`).
-/

namespace Swarmlet.Mesh

open EventMachine

variable {A : Type}

/-! ## The first queue -/

theorem map_key_itemsOf (i : ℕ) (inst : EvalInstance) (key : ℕ) :
    (itemsOf i inst key).map (·.key) = List.range' key (itemsOf i inst key).length := by
  rw [itemsOf]
  split_ifs <;> rfl

theorem map_key_queueFrom (l : List EvalInstance) (i key : ℕ) :
    (queueFrom i key l).map (·.key) = List.range' key (queueFrom i key l).length := by
  induction l generalizing i key with
  | nil => rfl
  | cons inst l ih =>
    rw [queueFrom, List.map_append, ih, map_key_itemsOf, List.length_append, List.range'_append_1]

theorem Certification.nodup_queue (c : Certification) : c.queue.Nodup := by
  refine List.Nodup.of_map (·.key) ?_
  rw [Certification.queue, map_key_queueFrom]
  exact List.nodup_range'

theorem attempts_of_mem_queueFrom {l : List EvalInstance} {i key : ℕ} {item : WorkItem}
    (h : item ∈ queueFrom i key l) : item.attempts = 0 := by
  induction l generalizing i key with
  | nil => simp [queueFrom] at h
  | cons inst l ih =>
    rw [queueFrom, List.mem_append] at h
    rcases h with h | h
    · rw [itemsOf] at h
      split_ifs at h with hred
      · rcases List.mem_cons.mp h with rfl | h
        · rfl
        · obtain ⟨n, -, rfl⟩ := List.mem_map.mp h
          rfl
      · rw [List.mem_singleton.mp h]
    · exact ih h

theorem Certification.map_origin_queue (c : Certification) :
    c.queue.map WorkItem.origin = c.queue := by
  refine (List.map_congr_left fun item h ↦ ?_).trans (List.map_id _)
  rw [WorkItem.origin, ← attempts_of_mem_queueFrom h]
  rfl

/-! ## Where an item is -/

def Worker.held : Worker → Multiset WorkItem
  | .looping => 0
  | .executing p => {p.item.origin}
  | .returned p outcome => if outcome = .ok then 0 else {p.item.origin}
  | .finished => 0

namespace Ledger

def settled (l : Ledger A) : Multiset WorkItem :=
  ↑(l.executions.map (·.request.item.origin)) + ↑(l.failed.map WorkItem.origin)

def held (l : Ledger A) : Multiset WorkItem := ∑ w, (l.workers w).held

def tracked (l : Ledger A) : Multiset WorkItem :=
  l.settled + l.held + ↑(l.work.pending.map WorkItem.origin)

theorem held_setWorker (l : Ledger A) (w : Fin 4) (x : Worker) :
    (l.setWorker w x).held + (l.workers w).held = l.held + x.held := by
  have hrest : ∑ v ∈ Finset.univ.erase w, ((l.setWorker w x).workers v).held =
      ∑ v ∈ Finset.univ.erase w, (l.workers v).held := by
    refine Finset.sum_congr rfl fun v hv ↦ ?_
    rw [l.workers_setWorker_of_ne (Finset.ne_of_mem_erase hv)]
  rw [held, held, ← Finset.add_sum_erase _ _ (Finset.mem_univ w),
    ← Finset.add_sum_erase Finset.univ (fun v ↦ (l.workers v).held) (Finset.mem_univ w), hrest,
    l.workers_setWorker_self]
  abel

theorem tracked_setWorker (l : Ledger A) (w : Fin 4) (x : Worker) :
    (l.setWorker w x).tracked + (l.workers w).held = l.tracked + x.held := by
  have h := l.held_setWorker w x
  calc (l.setWorker w x).tracked + (l.workers w).held
      = l.settled + ((l.setWorker w x).held + (l.workers w).held) +
          ↑(l.work.pending.map WorkItem.origin) := by
        simp only [tracked, settled, setWorker]
        abel
    _ = l.tracked + x.held := by
        rw [h, tracked]
        abel

variable {l : Ledger A} {item : WorkItem}

theorem tracked_take_some (h : l.work.take.1 = some item) :
    l.tracked = item.origin ::ₘ l.read.tracked := by
  rw [tracked, Cursor.pending_of_take_some h, List.map_cons, ← Multiset.cons_coe,
    Multiset.add_cons]
  rfl

theorem tracked_take_none (h : l.work.take.1 = none) :
    l.read.tracked = l.tracked := by
  obtain ⟨hbefore, hafter⟩ := Cursor.pending_of_take_none h
  rw [tracked, tracked, hbefore, read, hafter]
  rfl

theorem tracked_execute (l : Ledger A) (x : Execution) :
    (l.execute x).tracked = x.request.item.origin ::ₘ l.tracked := by
  simp only [execute, tracked, settled, held, List.map_append, List.map_singleton,
    ← Multiset.coe_add, Multiset.coe_singleton, ← Multiset.singleton_add]
  abel

theorem tracked_again {c : Certification}
    (h : item.attempts + 1 ≤ c.MAX_ATTEMPTS → l.work.InRange) :
    (l.again c item).tracked = item.origin ::ₘ l.tracked := by
  rw [again]
  split_ifs with hmax
  · simp only [tracked, settled, held, List.map_append, List.map_singleton, ← Multiset.coe_add,
      Multiset.coe_singleton, ← Multiset.singleton_add]
    abel
  · simp only [tracked, settled, held, Cursor.push_pending (h (Nat.le_of_not_lt hmax)),
      List.map_append, List.map_singleton, ← Multiset.coe_add, Multiset.coe_singleton,
      ← Multiset.singleton_add, WorkItem.origin]
    abel

theorem tracked_again_late {c : Certification} (hmax : item.attempts + 1 ≤ c.MAX_ATTEMPTS)
    (h : ¬ l.work.InRange) :
    (l.again c item).tracked = l.tracked := by
  rw [again, if_neg (Nat.not_lt.mpr hmax), tracked, tracked, Cursor.push_pending_late h]
  rfl

end Ledger

namespace State

/-! ## One step -/

def PutsBack (c : Certification) (s : State A) : Event → Prop
  | .resume w => ∃ p outcome, s.workers w = .returned p outcome ∧ outcome ≠ .ok ∧
      p.item.attempts + 1 ≤ c.MAX_ATTEMPTS
  | _ => False

instance (c : Certification) (s : State A) : ∀ e, Decidable (PutsBack c s e)
  | .resume w =>
    match hw : s.workers w with
    | .returned p outcome =>
      decidable_of_iff (outcome ≠ .ok ∧ p.item.attempts + 1 ≤ c.MAX_ATTEMPTS) <| by
        constructor
        · exact fun hputs ↦ ⟨p, outcome, hw, hputs⟩
        · rintro ⟨p', outcome', hw', hputs⟩
          rw [hw] at hw'
          cases hw'
          exact hputs
    | .looping | .executing _ | .finished => isFalse fun hputs ↦ by
        obtain ⟨p, outcome, hw', -⟩ := hputs
        rw [hw] at hw'
        cases hw'
  | .turn _ | .answer _ _ | .joined | .compare | .reply _ | .sign _ _ => isFalse id

/-- An item that is put back can still be read. -/
def InTime (c : Certification) (s : State A) (e : Event) : Prop := PutsBack c s e → s.work.InRange

instance (c : Certification) (s : State A) (e : Event) : Decidable (InTime c s e) :=
  inferInstanceAs (Decidable (_ → _))

variable {c : Certification} {s : State A} {w : Fin 4} {h : Host A} {p : Pending}

theorem turn_tracked (hw : s.workers w = .looping) :
    (s.turn c w).ledger.tracked = s.ledger.tracked := by
  have hheld : (s.ledger.read.workers w).held = 0 := congrArg Worker.held hw
  rcases ledger_turn c s w with ⟨htake, hturn⟩ | ⟨item, htake, hturn | ⟨nodeId, hturn⟩⟩
  · have h := s.ledger.read.tracked_setWorker w .finished
    rw [hheld, add_zero, Worker.held, add_zero, Ledger.tracked_take_none htake] at h
    rw [hturn, h]
  · rw [hturn, Ledger.tracked_take_some (l := s.ledger) htake]
    exact Ledger.tracked_again fun _ ↦ (List.getElem?_eq_some_iff.mp htake).1
  · have h := (s.ledger.read.dispatch nodeId item).tracked_setWorker w
      (.executing (s.ledger.request nodeId item))
    rw [show ((s.ledger.read.dispatch nodeId item).workers w).held = 0 from hheld, add_zero,
      Worker.held, add_comm, Multiset.singleton_add] at h
    rw [hturn, Ledger.tracked_take_some (l := s.ledger) htake, h]
    rfl

theorem answer_tracked (hw : s.workers w = .executing p) (a : Answer) :
    ((executeOn h c s p a).1.setWorker w (.returned p (executeOn h c s p a).2)).ledger.tracked =
      s.ledger.tracked := by
  have hheld : (s.ledger.workers w).held = {p.item.origin} := congrArg Worker.held hw
  rw [ledger_setWorker]
  rcases ledger_executeOn h c s p a with ⟨hne, hs⟩ | ⟨hok, r, result, -, hs⟩
  · have hset := s.ledger.tracked_setWorker w (.returned p (executeOn h c s p a).2)
    rw [hheld, Worker.held, if_neg hne] at hset
    rw [hs]
    exact add_right_cancel hset
  · have hset := (s.ledger.execute ⟨p, r, result⟩).tracked_setWorker w (.returned p .ok)
    rw [show ((s.ledger.execute ⟨p, r, result⟩).workers w).held = _ from hheld, Worker.held,
      if_pos rfl, add_zero, Ledger.tracked_execute, ← Multiset.singleton_add, add_comm {_}] at hset
    rw [hs, hok]
    exact add_right_cancel hset

theorem resume_tracked {outcome : Outcome} (hw : s.workers w = .returned p outcome) :
    (InTime c s (.resume w) →
      ((s.resume c p outcome).setWorker w .looping).ledger.tracked = s.ledger.tracked) ∧
    (¬ InTime c s (.resume w) → s.ledger.tracked =
      p.item.origin ::ₘ ((s.resume c p outcome).setWorker w .looping).ledger.tracked) := by
  rw [ledger_setWorker]
  by_cases hok : outcome = .ok
  · subst hok
    have hset := s.ledger.tracked_setWorker w .looping
    have hheld : (s.ledger.workers w).held = 0 := congrArg Worker.held hw
    rw [hheld, add_zero, Worker.held, add_zero] at hset
    rw [ledger_resume_ok]
    refine ⟨fun _ ↦ hset, fun hlate ↦ absurd ?_ hlate⟩
    rintro ⟨p', outcome', hw', hne, -⟩
    rw [hw] at hw'
    cases hw'
    exact absurd rfl hne
  · have hheld : (s.ledger.workers w).held = {p.item.origin} := by
      rw [show s.ledger.workers w = .returned p outcome from hw, Worker.held, if_neg hok]
    obtain ⟨_, _, _, hagain⟩ := s.ledger.again_eq c p.item
    have hset := (s.ledger.again c p.item).tracked_setWorker w .looping
    rw [show (s.ledger.again c p.item).workers = s.ledger.workers by rw [hagain], hheld,
      Worker.held, add_zero, add_comm, Multiset.singleton_add] at hset
    rw [ledger_resume hok]
    by_cases hmax : p.item.attempts + 1 ≤ c.MAX_ATTEMPTS
    · have hputs : PutsBack c s (.resume w) := ⟨p, outcome, hw, hok, hmax⟩
      refine ⟨fun hin ↦ ?_, fun hlate ↦ ?_⟩
      · rw [Ledger.tracked_again fun _ ↦ hin hputs] at hset
        exact (Multiset.cons_inj_right _).mp hset
      · have hrange : ¬ s.ledger.work.InRange := fun hrange ↦ hlate fun _ ↦ hrange
        rw [Ledger.tracked_again_late hmax hrange] at hset
        exact hset.symm
    · refine ⟨fun _ ↦ ?_, fun hlate ↦ absurd ?_ hlate⟩
      · rw [Ledger.tracked_again fun h ↦ absurd h hmax] at hset
        exact (Multiset.cons_inj_right _).mp hset
      · rintro ⟨p', outcome', hw', -, hmax'⟩
        rw [hw] at hw'
        cases hw'
        exact absurd hmax' hmax

def PoolDone (t : State A) : Prop := t.stage = .dispatching ∧ ∀ w, t.workers w = .finished

instance (t : State A) : Decidable t.PoolDone :=
  match hstage : t.stage with
  | .dispatching => decidable_of_iff (∀ w, t.workers w = .finished) (and_iff_right hstage).symm
  | .reconciling _ _ | .certified _ => isFalse fun hdone ↦ by
      cases hstage.symm.trans hdone.1

/-- A step of a worker, or a signature. -/
inductive PoolStep (h : Host A) (c : Certification) (s : State A) : Event → State A → Prop
  | turn {w : Fin 4} (hw : s.workers w = .looping) : PoolStep h c s (.turn w) (s.turn c w)
  | answer {w : Fin 4} {p : Pending} (a : Answer) (hw : s.workers w = .executing p) :
      PoolStep h c s (.answer w a)
        ((executeOn h c s p a).1.setWorker w (.returned p (executeOn h c s p a).2))
  | resume {w : Fin 4} {p : Pending} {outcome : Outcome} (hw : s.workers w = .returned p outcome) :
      PoolStep h c s (.resume w) ((s.resume c p outcome).setWorker w .looping)
  | sign {salt : ℕ} {results : List EvalResult} {s' : State A}
      (hsign : s.sign h salt results = some s') : PoolStep h c s (.sign salt results) s'

variable {s' : State A} {e : Event}

theorem looping_of_running {w : Fin 4} (hrunning : s.running = some w) :
    s.workers w = .looping := by
  simpa using List.find?_some hrunning

theorem step_cases (hstep : step h c s e = some s') :
    (s'.stage = s.stage ∧ PoolStep h c s e s') ∨ (s.PoolDone ∧ s' = s.snapshot) ∨
      s.stage ≠ .dispatching ∧ s'.stage ≠ .dispatching := by
  cases e with
  | turn w =>
    rw [step] at hstep
    split_ifs at hstep with hw
    cases hstep
    exact .inl ⟨stage_turn c s w, .turn (looping_of_running hw)⟩
  | answer w a =>
    rw [step] at hstep
    split at hstep
    next p _ hw =>
      cases hstep
      exact .inl ⟨stage_executeOn h c s p a, .answer a hw⟩
    next => cases hstep
  | resume w =>
    rw [step] at hstep
    split at hstep
    next p outcome _ hw =>
      cases hstep
      exact .inl ⟨stage_resume c s p outcome, .resume hw⟩
    next => cases hstep
  | joined =>
    rw [step] at hstep
    split at hstep
    next hstage =>
      split_ifs at hstep with hdone
      exact .inr (.inl ⟨⟨hstage, hdone⟩, (Option.some.inj hstep).symm⟩)
    next => cases hstep
  | compare =>
    refine .inr (.inr ⟨fun hstage ↦ ?_, fun hs' ↦ ?_⟩)
    · rw [step, compare, hstage] at hstep
      cases hstep
    · rcases ledger_compare hstep with ⟨stage, hledger, hne, -⟩ | ⟨todo, round, copies,
        nodeId, inst, hledger⟩
      · exact absurd ((congrArg Ledger.stage hledger).symm.trans hs') hne
      · exact absurd ((congrArg Ledger.stage hledger).symm.trans hs') Stage.noConfusion
  | reply a =>
    rw [step] at hstep
    split at hstep
    next hstage =>
      cases hstep
      exact .inr (.inr ⟨by simp [hstage], Stage.noConfusion⟩)
    next => cases hstep
  | sign salt results =>
    obtain ⟨id, p, -, hledger⟩ := ledger_sign hstep
    exact .inl ⟨congrArg Ledger.stage hledger, .sign hstep⟩

theorem step_dispatching (hstep : step h c s e = some s') (hs' : s'.stage = .dispatching) :
    s.stage = .dispatching ∧ PoolStep h c s e s' := by
  rcases step_cases hstep with ⟨hstage, hpool⟩ | ⟨-, rfl⟩ | ⟨-, hne⟩
  · exact ⟨hstage ▸ hs', hpool⟩
  · cases hs'
  · exact absurd hs' hne

/-- **A step loses an item exactly when it puts one back too late.** -/
theorem step_tracked (hstep : step h c s e = some s') (hs' : s'.stage = .dispatching) :
    (InTime c s e → s'.ledger.tracked = s.ledger.tracked) ∧
      (¬ InTime c s e → ∃ item, s.ledger.tracked = item ::ₘ s'.ledger.tracked) := by
  obtain ⟨-, hw | ⟨a, hw⟩ | hw | hsign⟩ := step_dispatching hstep hs'
  · exact ⟨fun _ ↦ turn_tracked hw, fun hlate ↦ absurd False.elim hlate⟩
  · exact ⟨fun _ ↦ answer_tracked hw a, fun hlate ↦ absurd False.elim hlate⟩
  · exact ⟨(resume_tracked hw).1, fun hlate ↦ ⟨_, (resume_tracked hw).2 hlate⟩⟩
  · obtain ⟨id, p, -, hledger⟩ := ledger_sign hsign
    exact ⟨fun _ ↦ by rw [hledger]; rfl, fun hlate ↦ absurd False.elim hlate⟩

/-! ## Runs -/

theorem run_tracked {t : State A} {es : List Event} (hrun : run (step h c) s es = some t)
    (ht : t.stage = .dispatching) :
    s.stage = .dispatching ∧
      (Always (step h c) (InTime c) s es → t.ledger.tracked = s.ledger.tracked) ∧
      (¬ Always (step h c) (InTime c) s es →
        ∃ item, item ::ₘ t.ledger.tracked ≤ s.ledger.tracked) := by
  induction es generalizing s with
  | nil =>
    cases hrun
    exact ⟨ht, fun _ ↦ rfl, fun hnot ↦ absurd trivial hnot⟩
  | cons e es ih =>
    obtain ⟨s', hstep, hrest⟩ := run_cons.mp hrun
    obtain ⟨hs', hkept, hlost⟩ := ih hrest
    obtain ⟨hkept₁, hlost₁⟩ := step_tracked hstep hs'
    rw [always_cons hstep]
    refine ⟨(step_dispatching hstep hs').1, fun hall ↦ (hkept hall.2).trans (hkept₁ hall.1),
      fun hnot ↦ ?_⟩
    by_cases hrestok : Always (step h c) (InTime c) s' es
    · obtain ⟨item, hitem⟩ := hlost₁ fun hin ↦ hnot ⟨hin, hrestok⟩
      exact ⟨item, by rw [hitem, hkept hrestok]⟩
    · obtain ⟨item, hitem⟩ := hlost hrestok
      refine ⟨item, hitem.trans ?_⟩
      by_cases hin : InTime c s e
      · exact (hkept₁ hin).le
      · obtain ⟨item', hitem'⟩ := hlost₁ hin
        exact hitem' ▸ Multiset.le_cons_self _ _

end State

/-- The counter agrees with the items that were given up, and while an item waits some worker is
there to read it. -/
structure Ledger.Tended (l : Ledger A) : Prop where
  counted : l.failed.length = l.failedInstances
  attended : l.work.pending ≠ [] → ∃ w, l.workers w ≠ .finished

theorem Ledger.Tended.setWorker {l : Ledger A} (h : l.failed.length = l.failedInstances) (w : Fin 4)
    {x : Worker} (hx : x ≠ .finished) : (l.setWorker w x).Tended where
  counted := h
  attended _ := ⟨w, by rwa [l.workers_setWorker_self]⟩

theorem Ledger.counted_again {l : Ledger A} (h : l.failed.length = l.failedInstances)
    (c : Certification) (item : WorkItem) :
    (l.again c item).failed.length = (l.again c item).failedInstances := by
  rw [again]
  split_ifs
  · rw [List.length_append, h, List.length_singleton]
  · exact h

namespace State

theorem step_tended {h : Host A} {c : Certification} {s s' : State A} {e : Event}
    (hs : s.ledger.Tended) (hstep : step h c s e = some s') (hs' : s'.stage = .dispatching) :
    s'.ledger.Tended := by
  obtain ⟨-, @⟨w, hw⟩ | @⟨w, p, a, hw⟩ | @⟨w, p, outcome, hw⟩ | hsign⟩ := step_dispatching hstep hs'
  · rcases ledger_turn c s w with ⟨htake, hturn⟩ | ⟨item, -, hturn | ⟨nodeId, hturn⟩⟩
    · rw [hturn]
      exact ⟨hs.counted, fun hne ↦ absurd (Cursor.pending_of_take_none htake).2 hne⟩
    · rw [hturn]
      refine ⟨Ledger.counted_again (l := s.ledger.read) hs.counted c item, fun _ ↦ ⟨w, ?_⟩⟩
      obtain ⟨failed, failedInstances, work, hagain⟩ := s.ledger.read.again_eq c item
      rw [hagain, show s.ledger.read.workers w = .looping from hw]
      exact Worker.noConfusion
    · rw [hturn]
      exact .setWorker (l := s.ledger.read.dispatch nodeId item) hs.counted w Worker.noConfusion
  · rw [ledger_setWorker]
    refine .setWorker ?_ w Worker.noConfusion
    rcases ledger_executeOn h c s p a with ⟨-, heq⟩ | ⟨-, r, result, -, hledger⟩
    · rw [heq]
      exact hs.counted
    · rw [hledger]
      exact hs.counted
  · rw [ledger_setWorker]
    refine .setWorker ?_ w Worker.noConfusion
    by_cases hok : outcome = .ok
    · rw [hok, ledger_resume_ok]
      exact hs.counted
    · rw [ledger_resume hok]
      exact Ledger.counted_again hs.counted c p.item
  · obtain ⟨id, p, -, hledger⟩ := ledger_sign hsign
    rw [hledger]
    exact ⟨hs.counted, hs.attended⟩

theorem tracked_init (c : Certification) : (init c : State A).ledger.tracked = ↑c.queue := by
  rw [ledger_init]
  simp only [Ledger.tracked, Ledger.settled, Ledger.held, Worker.held, Finset.sum_const_zero,
    Cursor.pending, List.drop_zero, c.map_origin_queue]
  simp

theorem tended_init (c : Certification) : (init c : State A).ledger.Tended := by
  rw [ledger_init]
  exact ⟨rfl, fun _ ↦ ⟨0, Worker.noConfusion⟩⟩

/-- Each item of the queue was executed, or counted as failed. -/
def Accounted (c : Certification) (t : State A) : Prop :=
  t.failed.length = t.failedInstances ∧
    ∀ item ∈ c.queue, item ∈ t.executions.map (·.request.item.origin) ∨
      item ∈ t.failed.map WorkItem.origin

theorem tracked_of_poolDone {t : State A} (htended : t.ledger.Tended) (hdone : t.PoolDone) :
    t.ledger.tracked = t.ledger.settled := by
  have hheld : t.ledger.held = 0 :=
    Finset.sum_eq_zero fun w _ ↦ congrArg Worker.held (hdone.2 w)
  have hpending : t.ledger.work.pending = [] := by
    by_contra hne
    obtain ⟨w, hw⟩ := htended.attended hne
    exact hw (hdone.2 w)
  rw [Ledger.tracked, hheld, hpending]
  simp

/-- **No work is dropped exactly when every item that is put back is put back in time.** -/
theorem accounted_iff {h : Host A} {c : Certification} {t : State A} {es : List Event}
    (hrun : run (step h c) (init c) es = some t) (hdone : t.PoolDone) :
    Accounted c t ↔ Always (step h c) (InTime c) (init c) es := by
  have htended : t.ledger.Tended :=
    run_invariant (I := fun s ↦ s.stage = .dispatching → s.ledger.Tended) hrun
      (fun _ ↦ tended_init c)
      (fun _ _ _ hs hstep hs' ↦ step_tended (hs (step_dispatching hstep hs').1) hstep hs') hdone.1
  have htracked := tracked_of_poolDone htended hdone
  obtain ⟨-, hkept, hlost⟩ := run_tracked hrun hdone.1
  rw [htracked, tracked_init] at hkept hlost
  have hmem : ∀ item, item ∈ t.ledger.settled ↔
      item ∈ t.executions.map (·.request.item.origin) ∨ item ∈ t.failed.map WorkItem.origin :=
    fun item ↦ Multiset.mem_add
  constructor
  · intro haccounted
    by_contra hnot
    obtain ⟨item, hitem⟩ := hlost hnot
    have hqueue : item ∈ c.queue := Multiset.mem_of_le hitem (Multiset.mem_cons_self _ _)
    have hnodup : (item ::ₘ t.ledger.settled).Nodup :=
      Multiset.nodup_of_le hitem (Multiset.coe_nodup.mpr c.nodup_queue)
    exact (Multiset.nodup_cons.mp hnodup).1 ((hmem item).mpr (haccounted.2 item hqueue))
  · intro hall
    refine ⟨htended.counted, fun item hitem ↦ (hmem item).mp ?_⟩
    rw [hkept hall]
    exact hitem

/-- **No work is done twice.** At every point of the dispatch, whatever fails and however the
workers interleave, the items that were executed, were given up, are in the hands of a worker or
wait are items of the queue, and none of them is in two places. -/
theorem work_in_one_place {h : Host A} {c : Certification} {t : State A} {es : List Event}
    (hrun : run (step h c) (init c) es = some t) (ht : t.stage = .dispatching) :
    t.ledger.tracked ≤ ↑c.queue ∧ t.ledger.tracked.Nodup := by
  obtain ⟨-, hkept, hlost⟩ := run_tracked hrun ht
  rw [tracked_init] at hkept hlost
  have hle : t.ledger.tracked ≤ ↑c.queue := by
    by_cases hall : Always (step h c) (InTime c) (init c) es
    · exact (hkept hall).le
    · obtain ⟨item, hitem⟩ := hlost hall
      exact (Multiset.le_cons_self _ item).trans hitem
  exact ⟨hle, Multiset.nodup_of_le hle (Multiset.coe_nodup.mpr c.nodup_queue)⟩

/-! ## A dropped item, and one that is put back in time -/

end State

def oneInstance : Certification where
  instances := [⟨"a"⟩]
  distinct := by decide
  nodeCount := 1

def answerOf (nodeId : String) : Answer := .response ⟨nodeId, "", [⟨"a", "", true, 1⟩], ""⟩

/-- The workers take their first turns. -/
def started : List Event := (List.finRange 4).map .turn

/-- The request of a worker is answered, and the worker takes its next turn. -/
def served (i : ℕ) (a : Answer) : List Event :=
  let w := Fin.ofNat 4 i
  [.answer w a, .resume w, .turn w]

/-- The fourth worker finds the queue empty; then the first one puts its item back. -/
def droppingRun : List Event :=
  started ++ served 0 (.threw "timeout") ++ served 1 (answerOf "n1") ++ served 2 (answerOf "n1")

def twoInstances : Certification where
  instances := [⟨"a"⟩, ⟨"b"⟩]
  distinct := by decide
  nodeCount := 1

/-- The first request times out, and its item is put back before a worker finds the queue empty. -/
def retriedRun : List Event :=
  started ++ served 0 (.threw "timeout") ++ [0, 1, 2, 3].flatMap (served · (answerOf "n1"))

/-- An item is put back, and all four are accounted for. -/
theorem accounted_retriedRun :
    ∃ t, run (State.step plainHost twoInstances) (State.init twoInstances) retriedRun = some t ∧
      t.requeues = 1 ∧ t.Accounted twoInstances := by
  obtain ⟨t, hrun, hdone, hrequeues⟩ := exists_run (State.step plainHost twoInstances)
    (State.init twoInstances) retriedRun (fun t ↦ t.PoolDone ∧ t.requeues = 1) (by decide +kernel)
  exact ⟨t, hrun, hrequeues, (State.accounted_iff hrun hdone).mpr (by decide +kernel)⟩

/-- The primary copy of the instance is neither executed nor counted as failed. -/
theorem primary_copy_dropped :
    ∃ t, run (State.step plainHost oneInstance) (State.init oneInstance) droppingRun = some t ∧
      t.PoolDone ∧ t.failedInstances = 0 ∧
      ⟨⟨"a"⟩, false, 0, 0⟩ ∈ oneInstance.queue ∧
      ⟨⟨"a"⟩, false, 0, 0⟩ ∉ t.executions.map (·.request.item.origin) ∧ t.requeues = 1 := by
  refine ⟨_, rfl, ⟨rfl, by decide⟩, rfl, by decide, by decide, rfl⟩

theorem work_in_one_place_dropping : ∃ t, run (State.step plainHost oneInstance)
    (State.init oneInstance) droppingRun = some t ∧ t.ledger.tracked.Nodup := by
  obtain ⟨t, hrun, ht⟩ : ∃ t, run (State.step plainHost oneInstance) (State.init oneInstance)
    droppingRun = some t ∧ t.stage = .dispatching := ⟨_, rfl, rfl⟩
  exact ⟨t, hrun, (State.work_in_one_place hrun ht).2⟩

end Swarmlet.Mesh
