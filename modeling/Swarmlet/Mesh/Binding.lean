import Swarmlet.Mesh.Dispatch

/-!
# Whose results are recorded

A node signs results under the id of the request it was sent. The coordinator checks the name of the
node and the signature, but neither the request id nor the instance a result is for. So a response
that was signed for another request of the same node passes, and its result is recorded for the
instance at hand.

The ids of the requests of one run are pairwise different (`requestId_inj`), which is why a check of
the two fields would be enough: an execution is bound to its work exactly when the response names
the request and its first result names the instance (`bound_iff`).
-/

namespace Swarmlet.Mesh

open EventMachine

variable {A : Type}

/-! ## Signatures -/

def Ledger.HasSigned (earlier : List (String × Projection A)) (l : Ledger A) (nodeId : String)
    (payload : Projection A) : Prop :=
  (nodeId, payload) ∈ earlier ∨ ∃ g ∈ l.signed, g.nodeId = nodeId ∧ g.payload = payload

/-- Signatures cannot be forged: what verifies under the key of a node was signed by it. -/
def Authentic (h : Host A) (earlier : List (String × Projection A)) (s : State A) : Event → Prop
  | .answer _ (.response r) | .reply (.response r) => ∀ nodeId,
      verifyExecuteResponse h nodeId r = .ok true →
        s.ledger.HasSigned earlier nodeId (executeComparable h r)
  | _ => True

/-- The result was signed by the node in answer to the request it is recorded for, and is for the
instance of that request. -/
def State.Bound (h : Host A) (s : State A) (x : Execution) : Prop :=
  (∃ g ∈ s.signed, g.salt = x.request.salt ∧ g.nodeId = x.request.nodeId ∧
    g.payload = executeComparable h x.response) ∧
  x.result.instanceId = x.request.item.inst.id

/-! ## The invariant -/

namespace Ledger

def Asked (l : Ledger A) (p : Pending) : Prop :=
  l.dispatched[p.salt]? = some (State.requestId p.item p.salt, p)

/-- Requests are numbered in order, and everything that refers to a request refers to one that was
sent. -/
structure Traced (h : Host A) (earlier : List (String × Projection A)) (l : Ledger A) : Prop where
  length : l.dispatched.length = l.attemptsSalt
  numbered : ∀ k id p, l.dispatched[k]? = some (id, p) → p.salt = k ∧ l.Asked p
  workers : ∀ w p, l.workers w = .executing p → l.Asked p
  waiting : ∀ todo round copies p, l.stage = .reconciling todo (.waiting round copies p) → l.Asked p
  signed : ∀ g ∈ l.signed, ∃ p, l.Asked p ∧ p.salt = g.salt ∧ p.nodeId = g.nodeId ∧
    g.payload.requestId = State.requestId p.item p.salt
  executions : ∀ x ∈ l.executions, l.Asked x.request ∧
    x.response.results.head? = some x.result ∧
    l.HasSigned earlier x.request.nodeId (executeComparable h x.response)

variable {h : Host A} {earlier : List (String × Projection A)} {l : Ledger A}

theorem Asked.dispatch {p : Pending} (hp : l.Asked p) (nodeId : String) (item : WorkItem) :
    (l.dispatch nodeId item).Asked p :=
  (List.getElem?_append_left (List.getElem?_eq_some_iff.mp hp).1).trans hp

section

variable (hl : l.Traced h earlier)

include hl

theorem Traced.asked_request (nodeId : String) (item : WorkItem) :
    (l.dispatch nodeId item).Asked (l.request nodeId item) := by
  show (l.dispatched ++ [_])[l.attemptsSalt]? = _
  rw [← hl.length, List.getElem?_concat_length]
  rw [hl.length]
  rfl

theorem Traced.dispatch (nodeId : String) (item : WorkItem) :
    (l.dispatch nodeId item).Traced h earlier where
  length := by
    show (l.dispatched ++ [_]).length = l.attemptsSalt + 1
    rw [List.length_append, hl.length, List.length_singleton]
  numbered k id p hget := by
    rcases Nat.lt_or_ge k l.dispatched.length with hlt | hge
    · rw [Ledger.dispatch, List.getElem?_append_left hlt] at hget
      obtain ⟨hsalt, hasked⟩ := hl.numbered k id p hget
      exact ⟨hsalt, hasked.dispatch nodeId item⟩
    · rw [Ledger.dispatch, List.getElem?_append_right hge, List.getElem?_singleton] at hget
      split_ifs at hget with hk
      cases hget
      have hk' : k = l.attemptsSalt := by
        rw [← hl.length]
        omega
      exact ⟨hk'.symm, hl.asked_request nodeId item⟩
  workers w p hw := (hl.workers w p hw).dispatch nodeId item
  waiting todo round copies p hp := (hl.waiting todo round copies p hp).dispatch nodeId item
  signed g hg := by
    obtain ⟨p, hasked, hrest⟩ := hl.signed g hg
    exact ⟨p, hasked.dispatch nodeId item, hrest⟩
  executions x hx := by
    obtain ⟨hasked, hrest⟩ := hl.executions x hx
    exact ⟨hasked.dispatch nodeId item, hrest⟩

theorem Traced.setWorker (w : Fin 4) {x : Worker}
    (hx : ∀ p, x = .executing p → l.Asked p) : (l.setWorker w x).Traced h earlier where
  __ := hl
  workers v p hv := by
    by_cases hvw : v = w
    · rw [hvw, l.workers_setWorker_self] at hv
      exact hx p hv
    · rw [l.workers_setWorker_of_ne hvw] at hv
      exact hl.workers v p hv

theorem Traced.setStage {stage : Stage}
    (hstage : ∀ todo round copies p, stage = .reconciling todo (.waiting round copies p) →
      l.Asked p) : (l.setStage stage).Traced h earlier where
  __ := hl
  waiting := hstage

theorem Traced.again (c : Certification) (item : WorkItem) :
    (l.again c item).Traced h earlier := by
  obtain ⟨failed, failedInstances, work, hagain⟩ := l.again_eq c item
  rw [hagain]
  exact { hl with }

theorem Traced.read : l.read.Traced h earlier :=
  { hl with }

theorem Traced.sign {salt : ℕ} {id : String} {p : Pending}
    (hget : l.dispatched[salt]? = some (id, p)) (results : List (ComparableResult A)) :
    (l.sign ⟨salt, p.nodeId, ⟨p.nodeId, id, results⟩⟩).Traced h earlier where
  __ := hl
  signed g hg := by
    rcases List.mem_append.mp hg with hg | hg
    · exact hl.signed g hg
    · rw [List.mem_singleton.mp hg]
      obtain ⟨hsalt, hasked⟩ := hl.numbered salt id p hget
      have hid : id = State.requestId p.item p.salt := by
        rw [Asked, hsalt, hget] at hasked
        rw [hsalt]
        exact congrArg Prod.fst (Option.some.inj hasked)
      exact ⟨p, hasked, hsalt, rfl, hid⟩
  executions x hx := by
    obtain ⟨hasked, hresult, hsigned⟩ := hl.executions x hx
    refine ⟨hasked, hresult, hsigned.imp_right ?_⟩
    rintro ⟨g, hg, hrest⟩
    exact ⟨g, List.mem_append_left _ hg, hrest⟩

end

end Ledger

/-! ## Runs -/

namespace State

variable {h : Host A} {c : Certification} {earlier : List (String × Projection A)}

theorem executeOn_traced {s : State A} {p : Pending} {a : Answer}
    (hs : s.ledger.Traced h earlier) (hasked : s.ledger.Asked p)
    (hauthentic : Authentic h earlier s (.reply a)) :
    (executeOn h c s p a).1.ledger.Traced h earlier ∧
      (executeOn h c s p a).1.ledger.dispatched = s.ledger.dispatched := by
  rcases ledger_executeOn h c s p a with ⟨-, heq⟩ | ⟨-, r, result, hcheck, hledger⟩
  · rw [heq]
    exact ⟨hs, rfl⟩
  · obtain ⟨rfl, -, hresult, hverify⟩ := check_ok hcheck
    rw [hledger]
    refine ⟨{ hs with executions := fun y hy ↦ ?_ }, rfl⟩
    rcases List.mem_append.mp hy with hy | hy
    · exact hs.executions y hy
    · rw [List.mem_singleton.mp hy]
      exact ⟨hasked, hresult, hauthentic p.nodeId hverify⟩

theorem step_traced {s s' : State A} {e : Event} (hs : s.ledger.Traced h earlier)
    (hauthentic : Authentic h earlier s e) (hstep : step h c s e = some s') :
    s'.ledger.Traced h earlier := by
  cases e with
  | turn w =>
    rw [step] at hstep
    split_ifs at hstep with hw
    cases hstep
    rcases ledger_turn c s w with ⟨-, hturn⟩ | ⟨item, -, hturn | ⟨nodeId, hturn⟩⟩
    · rw [hturn]
      exact hs.read.setWorker w fun p hp ↦ by cases hp
    · rw [hturn]
      exact hs.read.again c item
    · rw [hturn]
      refine (hs.read.dispatch nodeId item).setWorker w ?_
      rintro p ⟨⟩
      exact hs.read.asked_request nodeId item
  | answer w a =>
    rw [step] at hstep
    split at hstep
    next p _ hw =>
      cases hstep
      have hsent : Authentic h earlier s (.reply a) := by cases a <;> exact hauthentic
      exact (executeOn_traced hs (hs.workers w p hw) hsent).1.setWorker w fun q hq ↦ by cases hq
    next => cases hstep
  | resume w =>
    rw [step] at hstep
    split at hstep
    next p outcome _ hw =>
      cases hstep
      rw [ledger_setWorker]
      refine Ledger.Traced.setWorker ?_ w fun q hq ↦ by cases hq
      by_cases hok : outcome = .ok
      · rw [hok, ledger_resume_ok]
        exact hs
      · rw [ledger_resume hok]
        exact hs.again c p.item
    next => cases hstep
  | joined =>
    rw [step] at hstep
    split at hstep
    · split_ifs at hstep
      cases hstep
      exact hs.setStage fun todo round copies p hp ↦ by cases hp
    · cases hstep
  | compare =>
    rcases ledger_compare hstep with ⟨stage, hledger, -, hstage⟩ | ⟨todo, round, copies, nodeId,
      inst, hledger⟩
    · rw [hledger]
      exact hs.setStage fun todo round copies p hp ↦ absurd hp (hstage todo round copies p)
    · rw [hledger]
      refine (hs.dispatch nodeId _).setStage ?_
      rintro todo' round' copies' p ⟨⟩
      exact hs.asked_request nodeId _
  | reply a =>
    rw [step] at hstep
    split at hstep
    next todo round copies p hstage =>
      cases hstep
      have hasked := hs.waiting todo round copies p hstage
      exact (executeOn_traced hs hasked hauthentic).1.setStage fun todo' round' copies' q hq ↦ by
        cases hq
    next => cases hstep
  | sign salt results =>
    obtain ⟨id, p, hget, hledger⟩ := ledger_sign hstep
    rw [hledger]
    exact hs.sign hget _

theorem traced_init : (init c : State A).ledger.Traced h earlier := by
  rw [ledger_init]
  refine ⟨rfl, ?_, ?_, ?_, ?_, ?_⟩
  · exact fun k id p hp ↦ by simp at hp
  · exact fun w p hp ↦ by cases hp
  · exact fun todo round copies p hp ↦ by cases hp
  · exact fun g hg ↦ by simp at hg
  · exact fun x hx ↦ by simp at hx

/-- **A recorded result is bound to its work exactly when the response names the request and its
result the instance**, for every response that was not signed before the run. -/
theorem bound_iff {t : State A} {es : List Event} {x : Execution}
    (hrun : Path (step h c) (Authentic h earlier) (init c) es t) (hx : x ∈ t.executions)
    (hnew : (x.request.nodeId, executeComparable h x.response) ∉ earlier) :
    t.Bound h x ↔ x.response.requestId = requestId x.request.item x.request.salt ∧
      x.result.instanceId = x.request.item.inst.id := by
  have htraced : t.ledger.Traced h earlier := hrun.invariant traced_init
    fun s e s' hs hok hstep ↦ step_traced hs hok hstep
  obtain ⟨hasked, -, hsigned⟩ := htraced.executions x hx
  refine and_congr_left fun _ ↦ ⟨?_, fun hid ↦ ?_⟩
  · rintro ⟨g, hg, hsalt, -, hpayload⟩
    obtain ⟨p, hp, hpsalt, -, hid⟩ := htraced.signed g hg
    have hsame : p = x.request := by
      rw [Ledger.Asked, hpsalt, hsalt] at hp
      rw [Ledger.Asked, hp] at hasked
      exact congrArg Prod.snd (Option.some.inj hasked)
    rw [hpayload, hsame] at hid
    exact hid
  · obtain ⟨g, hg, hnode, hpayload⟩ := hsigned.resolve_left hnew
    obtain ⟨p, -, hpsalt, -, hgid⟩ := htraced.signed g hg
    rw [hpayload] at hgid
    exact ⟨g, hg, hpsalt.symm.trans (Js.number_inj (hgid.symm.trans hid)), hnode, hpayload⟩

end State

/-! ## A replayed response -/

/-- What the node answers to its first request, which is for the first instance. -/
def firstResponse : ExecuteResponse where
  nodeId := "n1"
  requestId := State.requestId ⟨⟨"a"⟩, false, 0, 0⟩ 0
  results := [⟨"a", "", true, 1⟩]
  signature := ""

/-- The node answers its first request, and the request for the second instance gets the same
response. -/
def replayingRun : List Event :=
  started ++ [.sign 0 firstResponse.results] ++ served 0 (.response firstResponse) ++
    served 3 (.response firstResponse)

theorem hasSigned_firstResponse {l : Ledger String} {nodeId : String}
    (hsigned : l.signed = [⟨0, "n1", executeComparable plainHost firstResponse⟩])
    (hverify : verifyExecuteResponse plainHost nodeId firstResponse = .ok true) :
    l.HasSigned [] nodeId (executeComparable plainHost firstResponse) := by
  have hnode : "n1" = nodeId := of_decide_eq_true (Except.ok.inj hverify)
  exact .inr ⟨_, hsigned ▸ List.mem_singleton_self _, hnode, rfl⟩

theorem authentic_replayingRun : Always (State.step plainHost twoInstances)
    (Authentic plainHost []) (State.init twoInstances) replayingRun := by
  iterate 5 refine (always_cons rfl).mpr ⟨trivial, ?_⟩
  iterate 2
    refine (always_cons rfl).mpr ⟨fun _ ↦ hasSigned_firstResponse rfl, ?_⟩
    iterate 2 refine (always_cons rfl).mpr ⟨trivial, ?_⟩
  exact trivial

/-- The result of the first instance is recorded for the second one. -/
theorem replayed_response_recorded :
    ∃ t, Path (State.step plainHost twoInstances) (Authentic plainHost [])
        (State.init twoInstances) replayingRun t ∧
      (t.singleResults.get "b").map (·.instanceId) = some "a" ∧
      ∃ x ∈ t.executions, x.request.item.inst.id = "b" ∧ ¬ t.Bound plainHost x := by
  refine ⟨_, path_of_run rfl authentic_replayingRun, rfl, _,
    List.mem_cons_of_mem _ (List.mem_singleton_self _), rfl, ?_⟩
  rintro ⟨-, hid⟩
  exact absurd hid (by decide)

/-- The first execution of that run is bound to its work. -/
theorem first_response_bound :
    ∃ t x, Path (State.step plainHost twoInstances) (Authentic plainHost [])
        (State.init twoInstances) replayingRun t ∧ x ∈ t.executions ∧ t.Bound plainHost x := by
  refine ⟨_, _, path_of_run rfl authentic_replayingRun, List.mem_cons_self, ?_⟩
  exact (State.bound_iff (path_of_run rfl authentic_replayingRun) List.mem_cons_self
    List.not_mem_nil).mpr ⟨rfl, rfl⟩

end Swarmlet.Mesh
