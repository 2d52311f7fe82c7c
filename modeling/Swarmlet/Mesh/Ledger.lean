import Swarmlet.Mesh.Coordinator

/-!
# What a step of the coordinator does to the work

Nodes, statistics and results aside, a state is a `Ledger`: which requests were sent, what was
signed and recorded, and where the work items are. The functions of the coordinator change it by a
handful of operations, and for each function one lemma says by which. Everything that is proved
about runs of the coordinator is proved about these operations.
-/

namespace Swarmlet.Mesh

variable {A : Type}

structure Ledger (A : Type) where
  executions : List Execution
  failed : List WorkItem
  failedInstances : ℕ
  workers : Fin 4 → Worker
  work : Cursor WorkItem
  stage : Stage
  attemptsSalt : ℕ
  dispatched : List (String × Pending)
  signed : List (Signed A)

namespace Ledger

section

variable (l : Ledger A)

def setWorker (w : Fin 4) (x : Worker) : Ledger A :=
  { l with workers := Function.update l.workers w x }

def setStage (stage : Stage) : Ledger A := { l with stage }

def read : Ledger A := { l with work := l.work.take.2 }

def execute (x : Execution) : Ledger A := { l with executions := l.executions ++ [x] }

def sign (g : Signed A) : Ledger A := { l with signed := l.signed ++ [g] }

def request (nodeId : String) (item : WorkItem) : Pending :=
  { nodeId, item, salt := l.attemptsSalt }

def dispatch (nodeId : String) (item : WorkItem) : Ledger A :=
  { l with
    attemptsSalt := l.attemptsSalt + 1
    dispatched := l.dispatched ++ [(State.requestId item l.attemptsSalt, l.request nodeId item)] }

def again (c : Certification) (l : Ledger A) (item : WorkItem) : Ledger A :=
  if c.MAX_ATTEMPTS < item.attempts + 1 then
    { l with failed := l.failed ++ [item], failedInstances := l.failedInstances + 1 }
  else { l with work := l.work.push { item with attempts := item.attempts + 1 } }

theorem workers_setWorker_self (w : Fin 4) (x : Worker) :
    (l.setWorker w x).workers w = x := Function.update_self ..

theorem workers_setWorker_of_ne {v w : Fin 4} (h : v ≠ w) (x : Worker) :
    (l.setWorker w x).workers v = l.workers v := Function.update_of_ne h ..

end

theorem again_eq (c : Certification) (l : Ledger A) (item : WorkItem) :
    ∃ failed failedInstances work, l.again c item = { l with failed, failedInstances, work } := by
  rw [again]
  split_ifs <;> exact ⟨_, _, _, rfl⟩

end Ledger

namespace State

def ledger (s : State A) : Ledger A where
  executions := s.executions
  failed := s.failed
  failedInstances := s.failedInstances
  workers := s.workers
  work := s.work
  stage := s.stage
  attemptsSalt := s.attemptsSalt
  dispatched := s.dispatched
  signed := s.signed

/-! ## Functions -/

theorem pickNode_some {s s' : State A} {exclude : List String} {nodeId : String}
    (h : s.pickNode exclude = some (nodeId, s')) : s' = { s with rr := s.rr + 1 } := by
  obtain ⟨n, -, heq⟩ := Option.map_eq_some_iff.mp h
  exact (congrArg Prod.snd heq).symm

theorem ledger_setWorker (s : State A) (w : Fin 4) (x : Worker) :
    (s.setWorker w x).ledger = s.ledger.setWorker w x := rfl

variable (c : Certification)

section

variable (s : State A) (p : Pending) (h : Host A)

theorem ledger_again (item : WorkItem) : (s.again c item).ledger = s.ledger.again c item := by
  rw [again, Ledger.again]
  split_ifs <;> rfl

theorem killChaosTarget_eq (c : Certification) :
    ∃ killed fired,
      s.killChaosTarget c = { s with killedNodes := killed, chaosFired := fired } := by
  rw [killChaosTarget]
  split
  · split_ifs <;> exact ⟨_, _, rfl⟩
  · exact ⟨_, _, rfl⟩

theorem ledger_killChaosTarget (c : Certification) : (s.killChaosTarget c).ledger = s.ledger := by
  obtain ⟨killed, fired, heq⟩ := s.killChaosTarget_eq c
  rw [heq]
  rfl

theorem ledger_eject (nodeId : String) : (s.eject nodeId).ledger = s.ledger := by
  rw [eject]
  split_ifs <;> rfl

theorem record_eq (c : Certification) (s : State A) (p : Pending) (r : EvalResult) :
    ∃ perNode singleResults, record h c s p r = { s with
      perNode, singleResults
      multiResults := if p.item.inst.id ∈ c.redundantIds then s.multiResults.set p.item.inst.id
        (s.copiesOf p.item.inst.id ++ [⟨p.nodeId, comparableOf h r⟩]) else s.multiResults } := by
  unfold record
  by_cases hid : p.item.inst.id ∈ c.redundantIds
  · rw [if_pos hid, if_pos hid]
    exact ⟨_, _, rfl⟩
  · rw [if_neg hid, if_neg hid]
    exact ⟨_, _, rfl⟩

theorem ledger_turn (w : Fin 4) :
    (s.work.take.1 = none ∧ (s.turn c w).ledger = s.ledger.read.setWorker w .finished) ∨
      ∃ item, s.work.take.1 = some item ∧ ((s.turn c w).ledger = s.ledger.read.again c item ∨
        ∃ nodeId, (s.turn c w).ledger = (s.ledger.read.dispatch nodeId item).setWorker w
          (.executing (s.ledger.request nodeId item))) := by
  rw [turn]
  cases htake : s.work.take.1 with
  | none => exact .inl ⟨rfl, rfl⟩
  | some item =>
    refine .inr ⟨item, rfl, ?_⟩
    dsimp only
    cases hpick : ({ s with work := s.work.take.2 } : State A).pickNode
        (if item.extraCopy then (copiesOf { s with work := s.work.take.2 } item.inst.id).map
          (·.nodeId) else []) with
    | none => exact .inl (ledger_again c _ item)
    | some picked =>
      obtain ⟨nodeId, s'⟩ := picked
      obtain rfl := pickNode_some hpick
      exact .inr ⟨nodeId, rfl⟩

theorem check_ne_ok {h : Host A} {p : Pending} {a : Answer} {outcome : Outcome}
    (hcheck : check h p a = .error outcome) : outcome ≠ .ok := by
  have hthrown : ∀ message, thrown message ≠ .ok := by
    intro message
    rw [thrown]
    split_ifs <;> decide
  cases a with
  | threw message =>
    rw [check, Except.error.injEq] at hcheck
    exact hcheck ▸ hthrown message
  | response =>
    rw [check] at hcheck
    split_ifs at hcheck
    · exact Except.error.inj hcheck ▸ by decide
    · split at hcheck
      · exact Except.error.inj hcheck ▸ by decide
      · split at hcheck
        · exact Except.error.inj hcheck ▸ hthrown _
        · exact Except.error.inj hcheck ▸ by decide
        · cases hcheck

theorem check_ok {h : Host A} {p : Pending} {a : Answer} {r : ExecuteResponse} {result : EvalResult}
    (hcheck : check h p a = .ok (r, result)) :
    a = .response r ∧ r.nodeId = p.nodeId ∧ r.results.head? = some result ∧
      verifyExecuteResponse h p.nodeId r = .ok true := by
  cases a with
  | threw => cases hcheck
  | response =>
    rw [check] at hcheck
    split_ifs at hcheck with hnode
    split at hcheck
    · cases hcheck
    next first rest hresults =>
      split at hcheck
      iterate 2 cases hcheck
      next hverify =>
        cases hcheck
        exact ⟨rfl, not_not.mp hnode, by rw [hresults]; rfl, hverify⟩

theorem ledger_executeOn (c : Certification) (s : State A) (p : Pending) (a : Answer) :
    ((executeOn h c s p a).2 ≠ .ok ∧ (executeOn h c s p a).1 = s) ∨
      ((executeOn h c s p a).2 = .ok ∧ ∃ r result, check h p a = .ok (r, result) ∧
        (executeOn h c s p a).1.ledger = s.ledger.execute ⟨p, r, result⟩) := by
  rw [executeOn]
  cases hcheck : check h p a with
  | error => exact .inl ⟨check_ne_ok hcheck, rfl⟩
  | ok pair =>
    obtain ⟨r, result⟩ := pair
    obtain ⟨perNode, single, heq⟩ := record_eq h c s p result
    exact .inr ⟨rfl, r, result, rfl, by dsimp only; rw [heq]; rfl⟩

theorem ledger_resume_ok : (s.resume c p .ok).ledger = s.ledger := by
  rw [resume]
  split_ifs
  · rfl
  · exact ledger_killChaosTarget s c

theorem ledger_resume {outcome : Outcome} (h : outcome ≠ .ok) (c : Certification) (s : State A)
    (p : Pending) : (s.resume c p outcome).ledger = s.ledger.again c p.item := by
  cases outcome with
  | ok => exact absurd rfl h
  | dead =>
    rw [resume, ledger_again, ← ledger_eject s p.nodeId]
    rfl
  | bad =>
    rw [resume, ledger_again]
    rfl

/-! The workers leave the stage alone. -/

theorem stage_turn (w : Fin 4) : (s.turn c w).stage = s.stage := by
  rcases ledger_turn c s w with ⟨-, hturn⟩ | ⟨item, -, hturn | ⟨nodeId, hturn⟩⟩
  · exact congrArg Ledger.stage hturn
  · obtain ⟨failed, failedInstances, work, hagain⟩ := s.ledger.read.again_eq c item
    exact congrArg Ledger.stage (hturn.trans hagain)
  · exact congrArg Ledger.stage hturn

theorem stage_executeOn (c : Certification) (s : State A) (p : Pending) (a : Answer) :
    (executeOn h c s p a).1.stage = s.stage := by
  rcases ledger_executeOn h c s p a with ⟨-, heq⟩ | ⟨-, r, result, -, hledger⟩
  · rw [heq]
  · exact congrArg Ledger.stage hledger

theorem stage_resume (outcome : Outcome) : (s.resume c p outcome).stage = s.stage := by
  by_cases hok : outcome = .ok
  · rw [hok]
    exact congrArg Ledger.stage (ledger_resume_ok c s p)
  · obtain ⟨failed, failedInstances, work, hagain⟩ := s.ledger.again_eq c p.item
    exact congrArg Ledger.stage ((ledger_resume hok c s p).trans hagain)

end

theorem ledger_compare {h : Host A} {c : Certification} {s s' : State A}
    (hcompare : s.compare h c = some s') :
    (∃ stage, s'.ledger = s.ledger.setStage stage ∧ stage ≠ .dispatching ∧
      ∀ todo round copies p, stage ≠ .reconciling todo (.waiting round copies p)) ∨
    (∃ todo round copies nodeId inst,
      s'.ledger = (s.ledger.dispatch nodeId ⟨inst, true, 0, c.queue.length⟩).setStage
        (.reconciling todo (.waiting round copies
          (s.ledger.request nodeId ⟨inst, true, 0, c.queue.length⟩)))) := by
  unfold compare at hcompare
  split at hcompare
  · cases hcompare
    exact .inl ⟨_, rfl, Stage.noConfusion, fun _ _ _ _ ↦ Stage.noConfusion⟩
  · refine .inl ?_
    dsimp only at hcompare
    split_ifs at hcompare
    · cases hcompare
      rw [verdict]
      split_ifs <;> exact ⟨_, rfl, Stage.noConfusion, fun _ _ _ _ h ↦ by cases h⟩
    · cases hcompare
      exact ⟨_, rfl, Stage.noConfusion, fun _ _ _ _ h ↦ by cases h⟩
  next id rest round copies hstage =>
    dsimp only at hcompare
    split_ifs at hcompare
    · cases hcompare
      exact .inl ⟨_, rfl, Stage.noConfusion, fun _ _ _ _ h ↦ by cases h⟩
    · split at hcompare
      next nodeId s₁ inst hpick hinst =>
        obtain rfl := pickNode_some hpick
        cases hcompare
        exact .inr ⟨id :: rest, round, copies, nodeId, inst, rfl⟩
      · cases hcompare
        exact .inl ⟨_, rfl, Stage.noConfusion, fun _ _ _ _ h ↦ by cases h⟩
  · cases hcompare

theorem ledger_sign {h : Host A} {s s' : State A} {salt : ℕ} {results : List EvalResult}
    (hsign : s.sign h salt results = some s') :
    ∃ id p, s.dispatched[salt]? = some (id, p) ∧ s'.ledger =
      s.ledger.sign ⟨salt, p.nodeId, ⟨p.nodeId, id, results.map (comparableOf h)⟩⟩ := by
  obtain ⟨⟨id, p⟩, hget, rfl⟩ := Option.map_eq_some_iff.mp hsign
  exact ⟨id, p, hget, rfl⟩

theorem ledger_init : (init c : State A).ledger =
    ⟨[], [], 0, fun _ ↦ .looping, ⟨c.queue, 0⟩, .dispatching, 0, [], []⟩ := by
  rw [init]
  split_ifs
  · exact ledger_killChaosTarget _ c
  · rfl

end State

end Swarmlet.Mesh
