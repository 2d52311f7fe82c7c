import Mathlib.Data.Nat.ModEq
import Swarmlet.Mesh.Dispatch

/-!
# What the certificate says about cross-checking

The certificate reports as `crossChecked` the number of redundant instances that have a recorded
execution at all. How many nodes executed them does not enter: with one node, or after failures, all
copies of an instance may come from the same machine.

The number is right in every run with at least two nodes in which the workers' requests all succeed
(`crossChecked_eq`). There the picks follow the queue: the request for the item at position `k` is
the `k`-th pick, so the primary copy and the first extra copy of an instance go to different nodes,
either because the turns are consecutive or because the first copy is already recorded and its node
avoided.
-/

namespace Swarmlet.Mesh

open EventMachine Js

variable {A : Type}

/-! ## The shape of the queue -/

variable {inst : EvalInstance} {item : WorkItem} {l : List EvalInstance} {i key : ℕ}
  {redundant : List String}

theorem mem_of_mem_itemsOf (h : item ∈ itemsOf i inst key) : item.inst = inst := by
  rw [itemsOf] at h
  split_ifs at h
  · rcases List.mem_cons.mp h with rfl | h
    · rfl
    · obtain ⟨n, -, rfl⟩ := List.mem_map.mp h
      rfl
  · rw [List.mem_singleton.mp h]

theorem mem_of_mem_queueFrom (h : item ∈ queueFrom i key l) : item.inst ∈ l := by
  induction l generalizing i key with
  | nil => simp [queueFrom] at h
  | cons inst l ih =>
    rw [queueFrom, List.mem_append] at h
    rcases h with h | h
    · rw [mem_of_mem_itemsOf h]
      exact List.mem_cons_self
    · exact List.mem_cons_of_mem _ (ih h)

/-- Two items of one instance: the later one is an extra copy, and the instance is redundant. -/
def CopiesOf (redundant : List String) (a b : WorkItem) : Prop :=
  a.inst.id = b.inst.id → b.extraCopy = true ∧ a.inst.id ∈ redundant

theorem pairwise_itemsOf (h : isRedundant i = true → inst.id ∈ redundant) :
    (itemsOf i inst key).Pairwise (CopiesOf redundant) := by
  rw [itemsOf]
  split_ifs with hred
  · refine List.pairwise_cons.mpr ⟨fun b hb _ ↦ ?_, ?_⟩
    · obtain ⟨n, -, rfl⟩ := List.mem_map.mp hb
      exact ⟨rfl, h hred⟩
    · exact List.pairwise_map.mpr (List.pairwise_lt_range.imp fun _ _ ↦ ⟨rfl, h hred⟩)
  · exact List.pairwise_singleton ..

theorem pairwise_queueFrom (hnodup : (l.map (·.id)).Nodup)
    (h : ∀ n inst, l[n]? = some inst → isRedundant (i + n) = true → inst.id ∈ redundant) :
    (queueFrom i key l).Pairwise (CopiesOf redundant) := by
  induction l generalizing i key with
  | nil => exact List.Pairwise.nil
  | cons inst l ih =>
    rw [List.map_cons, List.nodup_cons] at hnodup
    rw [queueFrom, List.pairwise_append]
    refine ⟨pairwise_itemsOf (h 0 inst rfl), ih hnodup.2 fun n inst' hget hred ↦ ?_, ?_⟩
    · refine h (n + 1) inst' hget ?_
      rwa [Nat.add_right_comm] at hred
    · intro a ha b hb hid
      have hmem := mem_of_mem_queueFrom hb
      rw [mem_of_mem_itemsOf ha] at hid
      exact absurd (List.mem_map.mpr ⟨b.inst, hmem, hid.symm⟩) hnodup.1

namespace Certification

variable {c : Certification}

theorem pairwise_queue (c : Certification) : c.queue.Pairwise (CopiesOf c.redundantIds) :=
  pairwise_queueFrom c.distinct fun n inst hget hred ↦ by
    rw [Nat.zero_add] at hred
    exact List.mem_map.mpr ⟨(inst, n), List.mem_filter.mpr
      ⟨List.mem_zipIdx_iff_getElem?.mpr hget, hred⟩, rfl⟩

theorem nodup_redundantIds (c : Certification) : c.redundantIds.Nodup := by
  refine c.distinct.sublist ?_
  have hmap : c.instances.map (·.id) = c.instances.zipIdx.map (·.1.id) := by
    conv_lhs => rw [← List.zipIdx_map_fst 0 c.instances]
    rw [List.map_map]
    rfl
  rw [hmap]
  exact List.filter_sublist.map _

theorem mem_instances_of_redundant {id : String} (h : id ∈ c.redundantIds) :
    ∃ n inst, c.instances[n]? = some inst ∧ isRedundant n = true ∧ inst.id = id := by
  obtain ⟨⟨inst, n⟩, hmem, rfl⟩ := List.mem_map.mp h
  obtain ⟨hzip, hred⟩ := List.mem_filter.mp hmem
  exact ⟨n, inst, List.mem_zipIdx_iff_getElem?.mp hzip, hred, rfl⟩

end Certification

theorem neighbours_queueFrom {n : ℕ} (key : ℕ)
    (hget : l[n]? = some inst) (hred : isRedundant (i + n) = true) :
    ∃ k, ⟨inst, false, 0, k⟩ ∈ queueFrom i key l ∧
      ∀ m < REDUNDANT_COPIES - 1, ⟨inst, true, 0, k + 1 + m⟩ ∈ queueFrom i key l := by
  induction l generalizing i key n with
  | nil => simp at hget
  | cons first l ih =>
    cases n with
    | zero =>
      cases hget
      rw [Nat.add_zero] at hred
      refine ⟨key, List.mem_append_left _ ?_, fun m hm ↦ List.mem_append_left _ ?_⟩
      · simp [itemsOf]
      · rw [itemsOf, if_pos hred]
        exact List.mem_cons_of_mem _ (List.mem_map.mpr ⟨m, List.mem_range.mpr hm, rfl⟩)
    | succ =>
      obtain ⟨k, hprimary, hextra⟩ :=
        ih (key + (itemsOf i first key).length) hget (by rwa [Nat.add_right_comm, Nat.add_assoc])
      exact ⟨k, List.mem_append_right _ hprimary, fun m hm ↦ List.mem_append_right _ (hextra m hm)⟩

theorem Certification.getElem?_key {c : Certification} {k : ℕ}
    (h : c.queue[k]? = some item) : item.key = k := by
  have hkeys : (c.queue.map (·.key))[k]? = some item.key := by rw [List.getElem?_map, h]; rfl
  have hlt : k < (queueFrom 0 0 c.instances).length := (List.getElem?_eq_some_iff.mp h).1
  rw [Certification.queue, map_key_queueFrom, List.getElem?_range' hlt] at hkeys
  simpa using hkeys.symm

/-! ## Recorded copies -/

namespace State

variable {h : Host A} {c : Certification}

def executionsOf (s : State A) (id : String) : List Execution :=
  s.executions.filter (·.request.item.inst.id = id)

/-- The copies of the redundant instances are their executions. -/
structure Recorded (c : Certification) (s : State A) : Prop where
  keys : ∀ id, id ∈ s.multiResults.keys ↔ id ∈ c.redundantIds ∧ s.executionsOf id ≠ []
  copies : ∀ id ∈ c.redundantIds,
    (s.copiesOf id).map (·.nodeId) = (s.executionsOf id).map (·.request.nodeId)

variable {s s' : State A}

theorem Recorded.record (hs : s.Recorded c) {x : Execution} {copy : Copy A}
    (hnode : copy.nodeId = x.request.nodeId)
    (hmulti : s'.multiResults = if x.request.item.inst.id ∈ c.redundantIds then
      s.multiResults.set x.request.item.inst.id (s.copiesOf x.request.item.inst.id ++ [copy])
      else s.multiResults)
    (hexecutions : s'.executions = s.executions ++ [x]) : s'.Recorded c := by
  have hof : ∀ id, s'.executionsOf id =
      s.executionsOf id ++ if x.request.item.inst.id = id then [x] else [] := by
    intro id
    rw [executionsOf, hexecutions, List.filter_append, executionsOf]
    by_cases heq : x.request.item.inst.id = id <;> simp [heq]
  constructor
  · intro id
    rw [hmulti, hof]
    by_cases heq : x.request.item.inst.id = id
    · subst heq
      rw [if_pos rfl]
      split_ifs with hid
      · simp [JsMap.mem_keys_set, hid]
      · simp [hs.keys, hid]
    · rw [if_neg heq]
      split_ifs
      · simp [JsMap.mem_keys_set, hs.keys, Ne.symm heq]
      · simp [hs.keys]
  · intro id hmem
    rw [hof, copiesOf, hmulti]
    by_cases heq : x.request.item.inst.id = id
    · subst heq
      rw [if_pos hmem, JsMap.get_set_self, Option.getD_some, if_pos rfl, List.map_append,
        List.map_append, hs.copies _ hmem, List.map_singleton, List.map_singleton, hnode]
    · rw [if_neg heq, List.append_nil, ← hs.copies id hmem, copiesOf]
      split_ifs
      · rw [JsMap.get_set_of_ne _ (Ne.symm heq), copiesOf]
      · rw [copiesOf]

theorem Recorded.executeOn (hs : s.Recorded c) (p : Pending) (a : Answer) :
    (executeOn h c s p a).1.Recorded c := by
  rw [State.executeOn]
  cases check h p a with
  | error => exact hs
  | ok pair =>
    obtain ⟨r, result⟩ := pair
    obtain ⟨perNode, single, hrecord⟩ := record_eq h c s p result
    dsimp only
    rw [hrecord]
    exact hs.record (by rfl) rfl rfl

/-! ## Picks -/

theorem pickNode_ne_none (hpool : s.aliveNodes ≠ []) (exclude : List String) :
    s.pickNode exclude ≠ none := by
  intro hnone
  rw [pickNode, Option.map_eq_none_iff, List.getElem?_eq_none_iff] at hnone
  refine absurd hnone (Nat.not_le.mpr (Nat.mod_lt _ (List.length_pos_iff.mpr ?_)))
  split_ifs with hpreferred
  · exact hpool
  · exact hpreferred

theorem pickNode_nil {nodeId : String} (hpick : s.pickNode [] = some (nodeId, s')) :
    (s.aliveNodes[s.rr % s.aliveNodes.length]?).map (·.nodeId) = some nodeId := by
  have hall : (s.aliveNodes.filter fun n ↦ n.nodeId ∉ ([] : List String)) = s.aliveNodes :=
    List.filter_eq_self.mpr fun n _ ↦ by simp
  rw [pickNode, hall, ite_self] at hpick
  obtain ⟨n, hget, heq⟩ := Option.map_eq_some_iff.mp hpick
  have hid : n.nodeId = nodeId := congrArg Prod.fst heq
  rw [hget, ← hid]
  rfl

theorem pickNode_notMem {exclude : List String} {n : NodeHandle} {nodeId : String}
    (hn : n ∈ s.aliveNodes) (hother : n.nodeId ∉ exclude)
    (hpick : s.pickNode exclude = some (nodeId, s')) : nodeId ∉ exclude := by
  have hne : (s.aliveNodes.filter fun n ↦ n.nodeId ∉ exclude) ≠ [] :=
    List.ne_nil_of_mem (List.mem_filter.mpr ⟨hn, decide_eq_true hother⟩)
  rw [pickNode, if_neg hne] at hpick
  obtain ⟨m, hget, heq⟩ := Option.map_eq_some_iff.mp hpick
  have hm := (List.mem_filter.mp (List.mem_of_getElem? hget)).2
  have hid : m.nodeId = nodeId := congrArg Prod.fst heq
  rw [← hid]
  exact of_decide_eq_true hm

end State

namespace Certification

variable {c : Certification}

theorem getElem?_nodes (h : i < c.nodeCount) : c.nodes[i]? = some { nodeId := s!"n{i + 1}" } := by
  rw [nodes, List.getElem?_map, List.getElem?_range h]
  rfl

theorem nodeId_inj {j : ℕ} (h : s!"n{i + 1}" = s!"n{j + 1}") : i = j :=
  Nat.succ.inj (Js.toString_inj ((String.append_right_inj "n").mp h))

theorem length_nodes (c : Certification) : c.nodes.length = c.nodeCount := by
  rw [nodes, List.length_map, List.length_range]

theorem turn_ne {k d : ℕ} {a b : String} (hd : d ≠ 0) (hcount : d < c.nodeCount)
    (ha : (c.nodes[k % c.nodeCount]?).map (·.nodeId) = some a)
    (hb : (c.nodes[(k + d) % c.nodeCount]?).map (·.nodeId) = some b) : b ≠ a := by
  have hpos : 0 < c.nodeCount := by omega
  rw [getElem?_nodes (Nat.mod_lt _ hpos)] at ha hb
  cases ha
  cases hb
  intro heq
  have hmod : k + d ≡ k + 0 [MOD c.nodeCount] := nodeId_inj heq
  have hzero : d % c.nodeCount = 0 % c.nodeCount := Nat.ModEq.add_left_cancel' k hmod
  rw [Nat.mod_eq_of_lt hcount, Nat.zero_mod] at hzero
  exact hd hzero

theorem exists_other (hcount : 2 ≤ c.nodeCount) (a : String) : ∃ n ∈ c.nodes, n.nodeId ≠ a := by
  by_cases h : "n1" = a
  · refine ⟨{ nodeId := s!"n{1 + 1}" }, List.mem_of_getElem? (getElem?_nodes hcount), ?_⟩
    exact h ▸ by decide
  · exact ⟨{ nodeId := s!"n{0 + 1}" },
      List.mem_of_getElem? (getElem?_nodes (Nat.lt_of_lt_of_le Nat.zero_lt_two hcount)), h⟩

end Certification

/-! ## Runs without failures -/

namespace State

variable {h : Host A} {c : Certification}

def requests (s : State A) : List Pending := s.dispatched.map (·.2)

def send (s : State A) (nodeId : String) (item : WorkItem) : State A :=
  (({ s with work := s.work.take.2, rr := s.rr + 1 } : State A).dispatch nodeId item).2

theorem requests_send (s : State A) (nodeId : String) (item : WorkItem) :
    (s.send nodeId item).requests = s.requests ++ [s.ledger.request nodeId item] := by
  rw [send, requests, requests, dispatch, List.map_append]
  rfl

theorem mem_requests_send {s : State A} {nodeId : String} {item : WorkItem} {p : Pending} :
    p ∈ (s.send nodeId item).requests ↔ p ∈ s.requests ∨ p = s.ledger.request nodeId item := by
  rw [requests_send, List.mem_append, List.mem_singleton]

def Succeeds (h : Host A) (s : State A) : Event → Prop
  | .answer w a => ∀ p, s.workers w = .executing p → ∃ accepted, check h p a = .ok accepted
  | _ => True

instance (h : Host A) (s : State A) : ∀ e, Decidable (Succeeds h s e)
  | .answer w a =>
    match hw : s.workers w with
    | .executing p =>
      match hcheck : check h p a with
      | .ok accepted => isTrue fun q hq ↦ by
          rw [hw] at hq
          cases hq
          exact ⟨accepted, hcheck⟩
      | .error _ => isFalse fun hall ↦ by
          obtain ⟨accepted, haccepted⟩ := hall p hw
          rw [hcheck] at haccepted
          cases haccepted
    | .looping | .returned _ _ | .finished => isTrue fun q hq ↦ by
        rw [hw] at hq
        cases hq
  | .turn _ | .resume _ | .joined | .compare | .reply _ | .sign _ _ => isTrue trivial

/-- A pool in which nothing has failed: the requests follow the queue, the primary copies go round
the nodes, and the first extra copy of an instance avoids its primary one. -/
structure Smooth (c : Certification) (s : State A) : Prop where
  nodes : s.nodes = c.nodes
  queue : s.work.queue = c.queue
  sent : s.requests.map (·.item) = c.queue.take s.work.next
  turns : s.rr = s.requests.length
  inFlight : ∀ w p, s.workers w = .executing p → p ∈ s.requests
  returned : ∀ w p outcome, s.workers w = .returned p outcome → outcome = .ok
  executed : ∀ x ∈ s.executions, x.request ∈ s.requests
  unfailed : s.failed = []
  primary : ∀ p ∈ s.requests, p.item.extraCopy = false →
    (c.nodes[p.item.key % c.nodeCount]?).map (·.nodeId) = some p.nodeId
  apart : ∀ p ∈ s.requests, ∀ q ∈ s.requests, q.item.extraCopy = false →
    p.item.inst.id = q.item.inst.id → p.item.key = q.item.key + 1 → p.nodeId ≠ q.nodeId

variable {s s' s₁ : State A} {item : WorkItem} {p : Pending} {e : Event} {nodeId : String}

theorem Smooth.getElem?_key (hs : s.Smooth c) (hp : p ∈ s.requests) :
    c.queue[p.item.key]? = some p.item ∧ p.item.key < s.work.next := by
  have hmem : p.item ∈ c.queue.take s.work.next := hs.sent ▸ List.mem_map_of_mem hp
  obtain ⟨k, hget⟩ := List.getElem?_of_mem hmem
  have hlt : k < s.work.next := by
    have := (List.getElem?_eq_some_iff.mp hget).1
    rw [List.length_take] at this
    omega
  rw [List.getElem?_take_of_lt hlt] at hget
  rw [c.getElem?_key hget]
  exact ⟨hget, hlt⟩

theorem Smooth.eq_of_key (hs : s.Smooth c) {q : Pending} (hp : p ∈ s.requests) (hq : q ∈ s.requests)
    (hkey : p.item.key = q.item.key) : p = q := by
  have hnodup : (s.requests.map (·.item)).Nodup := by
    rw [hs.sent]
    exact c.nodup_queue.sublist (List.take_sublist _ _)
  have hitem : p.item = q.item := by
    have hp' := (hs.getElem?_key hp).1
    rw [hkey, (hs.getElem?_key hq).1] at hp'
    exact (Option.some.inj hp').symm
  exact List.inj_on_of_nodup_map hnodup hp hq hitem

theorem Smooth.aliveNodes (hs : s.Smooth c) (hnodes : s₁.nodes = s.nodes) :
    s₁.aliveNodes = c.nodes := by
  rw [State.aliveNodes, hnodes, hs.nodes, List.filter_eq_self]
  intro n hn
  obtain ⟨i, -, rfl⟩ := List.mem_map.mp hn
  rfl

theorem Smooth.rr_eq (hs : s.Smooth c) (hget : c.queue[s.work.next]? = some item) :
    s.rr = item.key := by
  have hlen := congrArg List.length hs.sent
  have hlt := (List.getElem?_eq_some_iff.mp hget).1
  rw [List.length_map, List.length_take] at hlen
  rw [hs.turns, c.getElem?_key hget]
  omega

theorem Smooth.pick_nil (hs : s.Smooth c) (hget : c.queue[s.work.next]? = some item)
    (hnodes : s₁.nodes = s.nodes) (hrr : s₁.rr = s.rr)
    (hpick : s₁.pickNode [] = some (nodeId, s')) :
    (c.nodes[item.key % c.nodeCount]?).map (·.nodeId) = some nodeId := by
  have hturn := pickNode_nil hpick
  rwa [hs.aliveNodes hnodes, c.length_nodes, hrr, hs.rr_eq hget] at hturn

theorem copiesOf_of_lt {j : ℕ}
    {a b : WorkItem} (hij : i < j) (ha : c.queue[i]? = some a) (hb : c.queue[j]? = some b) :
    CopiesOf c.redundantIds a b := by
  obtain ⟨hi, rfl⟩ := List.getElem?_eq_some_iff.mp ha
  obtain ⟨hj, rfl⟩ := List.getElem?_eq_some_iff.mp hb
  exact List.pairwise_iff_getElem.mp c.pairwise_queue i j hi hj hij

section

variable (hs : s.Smooth c)

include hs

theorem Smooth.pick (hrecorded : s.Recorded c) (hcount : 2 ≤ c.nodeCount)
    (hget : c.queue[s.work.next]? = some item) (hnodes : s₁.nodes = s.nodes) (hrr : s₁.rr = s.rr)
    (hpick : s₁.pickNode (if item.extraCopy then (s.copiesOf item.inst.id).map (·.nodeId) else []) =
      some (nodeId, s')) :
    (item.extraCopy = false →
      (c.nodes[item.key % c.nodeCount]?).map (·.nodeId) = some nodeId) ∧
    ∀ q ∈ s.requests, q.item.extraCopy = false → item.inst.id = q.item.inst.id →
      item.key = q.item.key + 1 → nodeId ≠ q.nodeId := by
  refine ⟨fun hprimary ↦ ?_, fun q hq hprimary hid hkey ↦ ?_⟩
  · rw [hprimary] at hpick
    exact hs.pick_nil hget hnodes hrr hpick
  · obtain ⟨hqget, hqlt⟩ := hs.getElem?_key hq
    obtain ⟨hextra, hredundant⟩ := copiesOf_of_lt hqlt hqget hget hid.symm
    -- Only the primary copy can be recorded when the first extra copy is read.
    have hcopies : ∀ a ∈ (s.copiesOf item.inst.id).map (·.nodeId), a = q.nodeId := by
      intro a ha
      rw [hid, hrecorded.copies _ hredundant] at ha
      obtain ⟨x, hx, rfl⟩ := List.mem_map.mp ha
      obtain ⟨hxmem, hxid⟩ := List.mem_filter.mp hx
      have hxid : x.request.item.inst.id = q.item.inst.id := of_decide_eq_true hxid
      have hxreq := hs.executed x hxmem
      obtain ⟨hxget, hxlt⟩ := hs.getElem?_key hxreq
      have hnext : s.work.next = item.key := (c.getElem?_key hget).symm
      have hle : ¬ x.request.item.key < q.item.key := by
        intro hlt
        rw [(copiesOf_of_lt hlt hxget hqget hxid).1] at hprimary
        cases hprimary
      rw [hs.eq_of_key hxreq hq (by omega)]
    rw [hextra, if_pos rfl] at hpick
    by_cases hempty : (s.copiesOf item.inst.id).map (·.nodeId) = []
    · rw [hempty] at hpick
      have hturn := hs.pick_nil hget hnodes hrr hpick
      rw [hkey] at hturn
      exact c.turn_ne Nat.one_ne_zero hcount (hs.primary q hq hprimary) hturn
    · obtain ⟨a, ha⟩ := List.exists_mem_of_ne_nil _ hempty
      obtain ⟨n, hn, hne⟩ := c.exists_other hcount q.nodeId
      have hnot : n.nodeId ∉ (s.copiesOf item.inst.id).map (·.nodeId) :=
        fun hmem ↦ hne (hcopies _ hmem)
      have hpicked := pickNode_notMem (hs.aliveNodes hnodes ▸ hn) hnot hpick
      exact fun heq ↦ hpicked (heq ▸ hcopies a ha ▸ ha)

theorem Smooth.setWorker (w : Fin 4) {x : Worker}
    (hflight : ∀ p, x = .executing p → p ∈ s.requests)
    (hreturned : ∀ p outcome, x = .returned p outcome → outcome = .ok) :
    (s.setWorker w x).Smooth c where
  __ := hs
  inFlight v p hv := by
    by_cases hvw : v = w
    · rw [hvw] at hv
      exact hflight p ((s.ledger.workers_setWorker_self w x).symm.trans hv)
    · exact hs.inFlight v p ((s.ledger.workers_setWorker_of_ne hvw x).symm.trans hv)
  returned v p outcome hv := by
    by_cases hvw : v = w
    · rw [hvw] at hv
      exact hreturned p outcome ((s.ledger.workers_setWorker_self w x).symm.trans hv)
    · exact hs.returned v p outcome ((s.ledger.workers_setWorker_of_ne hvw x).symm.trans hv)

theorem Smooth.read_none (htake : s.work.take.1 = none) :
    ({ s with work := s.work.take.2 } : State A).Smooth c where
  __ := hs
  sent := by
    have hle : c.queue.length ≤ s.work.next := by
      rw [← hs.queue]
      exact List.getElem?_eq_none_iff.mp htake
    have hsent := hs.sent
    rw [List.take_of_length_le hle] at hsent
    rw [show ({ s with work := s.work.take.2 } : State A).work.next = s.work.next + 1 from rfl,
      List.take_of_length_le (Nat.le_succ_of_le hle)]
    exact hsent

theorem Smooth.send (hget : c.queue[s.work.next]? = some item)
    (hprimary : item.extraCopy = false →
      (c.nodes[item.key % c.nodeCount]?).map (·.nodeId) = some nodeId)
    (hapart : ∀ q ∈ s.requests, q.item.extraCopy = false → item.inst.id = q.item.inst.id →
      item.key = q.item.key + 1 → nodeId ≠ q.nodeId) : (s.send nodeId item).Smooth c where
  nodes := hs.nodes
  queue := hs.queue
  sent := by
    rw [requests_send, List.map_append, hs.sent]
    exact (List.take_add_one.trans (by rw [hget]; rfl)).symm
  turns := by
    rw [requests_send, List.length_append, ← hs.turns]
    rfl
  inFlight w p hw := mem_requests_send.mpr (.inl (hs.inFlight w p hw))
  returned := hs.returned
  executed x hx := mem_requests_send.mpr (.inl (hs.executed x hx))
  unfailed := hs.unfailed
  primary p hp hextra := by
    rcases mem_requests_send.mp hp with hp | rfl
    · exact hs.primary p hp hextra
    · exact hprimary hextra
  apart p hp q hq hextra hid hkey := by
    have hnext : item.key = s.work.next := c.getElem?_key hget
    rcases mem_requests_send.mp hp with hp | rfl
    · rcases mem_requests_send.mp hq with hq | rfl
      · exact hs.apart p hp q hq hextra hid hkey
      · have hlt := (hs.getElem?_key hp).2
        have hkey' : p.item.key = item.key + 1 := hkey
        omega
    · rcases mem_requests_send.mp hq with hq | rfl
      · exact hapart q hq hextra hid hkey
      · exact absurd hkey (Nat.ne_of_lt (Nat.lt_succ_self _))

theorem Smooth.turn (hrecorded : s.Recorded c) (hcount : 2 ≤ c.nodeCount)
    {w : Fin 4} : (s.turn c w).Smooth c ∧ (s.turn c w).Recorded c := by
  rw [State.turn]
  cases htake : s.work.take.1 with
  | none =>
    refine ⟨(hs.read_none htake).setWorker w ?_ ?_, ⟨hrecorded.keys, hrecorded.copies⟩⟩
    · exact fun p hp ↦ by cases hp
    · exact fun p outcome hp ↦ by cases hp
  | some item =>
    have hget : c.queue[s.work.next]? = some item := by
      rw [← hs.queue]
      exact htake
    dsimp only
    cases hpick : ({ s with work := s.work.take.2 } : State A).pickNode
        (if item.extraCopy then (copiesOf { s with work := s.work.take.2 } item.inst.id).map
          (·.nodeId) else []) with
    | none =>
      refine absurd hpick (pickNode_ne_none ?_ _)
      obtain ⟨n, hn, -⟩ := c.exists_other hcount ""
      refine List.ne_nil_of_mem (List.mem_filter.mpr ⟨hs.nodes ▸ hn, ?_⟩)
      obtain ⟨i, -, rfl⟩ := List.mem_map.mp hn
      rfl
    | some picked =>
      obtain ⟨nodeId, s'⟩ := picked
      obtain ⟨hprimary, hapart⟩ := hs.pick hrecorded hcount hget (by rfl) (by rfl) hpick
      obtain rfl := pickNode_some hpick
      have hsmooth := hs.send hget hprimary hapart
      refine ⟨hsmooth.setWorker w ?_ ?_, ⟨hrecorded.keys, hrecorded.copies⟩⟩
      · rintro p ⟨⟩
        exact mem_requests_send.mpr (.inr rfl)
      · exact fun p outcome hp ↦ by cases hp

theorem Smooth.executeOn (hp : p ∈ s.requests) (a : Answer) :
    (executeOn h c s p a).1.Smooth c := by
  rw [State.executeOn]
  cases check h p a with
  | error => exact hs
  | ok pair =>
    obtain ⟨r, result⟩ := pair
    obtain ⟨perNode, single, hrecord⟩ := record_eq h c s p result
    dsimp only
    rw [hrecord]
    exact ⟨hs.nodes, hs.queue, hs.sent, hs.turns, hs.inFlight, hs.returned, fun x hx ↦ by
      rcases List.mem_append.mp hx with hx | hx
      · exact hs.executed x hx
      · rw [List.mem_singleton.mp hx]
        exact hp, hs.unfailed, hs.primary, hs.apart⟩

end

/-! ## The end of the pool -/

structure Pooling (c : Certification) (s : State A) : Prop where
  smooth : s.Smooth c
  recorded : s.Recorded c
  tended : s.ledger.Tended
  tracked : s.ledger.tracked = ↑c.queue

theorem Pooling.exists_execution (hs : s.Pooling c) (hdone : s.PoolDone) (hitem : item ∈ c.queue) :
    ∃ x ∈ s.executions, x.request.item = item := by
  have hsettled := tracked_of_poolDone hs.tended hdone
  have hmem : item ∈ s.ledger.settled := by
    rw [← hsettled, hs.tracked]
    exact hitem
  rw [Ledger.settled, show s.ledger.failed = [] from hs.smooth.unfailed, Multiset.mem_add] at hmem
  obtain ⟨x, hx, horigin⟩ := List.mem_map.mp (hmem.resolve_right (by simp))
  have hget := (hs.smooth.getElem?_key (hs.smooth.executed x hx)).1
  have hattempts := attempts_of_mem_queueFrom (List.mem_of_getElem? hget)
  refine ⟨x, hx, ?_⟩
  rw [← horigin, WorkItem.origin, ← hattempts]

theorem Pooling.checked (hs : s.Pooling c) (hdone : s.PoolDone) {id : String}
    (hid : id ∈ c.redundantIds) : ∃ x ∈ s.executionsOf id, ∃ y ∈ s.executionsOf id,
      x.request.nodeId ≠ y.request.nodeId := by
  obtain ⟨n, inst, hget, hred, rfl⟩ := c.mem_instances_of_redundant hid
  obtain ⟨k, hprimary, hextra⟩ := neighbours_queueFrom 0 hget
    (by rwa [Nat.zero_add])
  obtain ⟨x, hx, hxitem⟩ := hs.exists_execution hdone (hextra 0 (by decide))
  obtain ⟨y, hy, hyitem⟩ := hs.exists_execution hdone hprimary
  refine ⟨x, List.mem_filter.mpr ⟨hx, by simp [hxitem]⟩, y,
    List.mem_filter.mpr ⟨hy, by simp [hyitem]⟩, ?_⟩
  refine hs.smooth.apart _ (hs.smooth.executed x hx) _ (hs.smooth.executed y hy) ?_ ?_ ?_
  · rw [hyitem]
  · rw [hxitem, hyitem]
  · rw [hxitem, hyitem]

theorem Pooling.single (hs : s.Pooling c) {x y : Execution} (hx : x ∈ s.executions)
    (hy : y ∈ s.executions) (hid : x.request.item.inst.id = y.request.item.inst.id)
    (hred : x.request.item.inst.id ∉ c.redundantIds) : x.request.nodeId = y.request.nodeId := by
  have hxget := (hs.smooth.getElem?_key (hs.smooth.executed x hx)).1
  have hyget := (hs.smooth.getElem?_key (hs.smooth.executed y hy)).1
  rcases Nat.lt_trichotomy x.request.item.key y.request.item.key with hlt | heq | hlt
  · exact absurd (copiesOf_of_lt hlt hxget hyget hid).2 hred
  · rw [hs.smooth.eq_of_key (hs.smooth.executed x hx) (hs.smooth.executed y hy) heq]
  · exact absurd (hid ▸ (copiesOf_of_lt hlt hyget hxget hid.symm).2) hred

/-! ## The comparison -/

structure Compared (c : Certification) (s : State A) : Prop where
  done : ∀ w, s.workers w = .finished
  recorded : s.Recorded c
  checked : ∀ id ∈ c.redundantIds, ∃ x ∈ s.executionsOf id, ∃ y ∈ s.executionsOf id,
    x.request.nodeId ≠ y.request.nodeId
  single : ∀ x ∈ s.executions, ∀ y ∈ s.executions,
    x.request.item.inst.id = y.request.item.inst.id →
    x.request.item.inst.id ∉ c.redundantIds → x.request.nodeId = y.request.nodeId
  todo : ∀ todo position, s.stage = .reconciling todo position → ∀ id ∈ todo, id ∈ c.redundantIds
  waiting : ∀ todo round copies p, s.stage = .reconciling todo (.waiting round copies p) →
    p.item.inst.id ∈ c.redundantIds
  certified : ∀ cert, s.stage = .certified cert → cert.crossChecked = s.multiResults.size

theorem Compared.of_eq (hs : s.Compared c) (hworkers : s'.workers = s.workers)
    (hmulti : s'.multiResults = s.multiResults) (hexecutions : s'.executions = s.executions)
    (htodo : ∀ todo position, s'.stage = .reconciling todo position →
      ∀ id ∈ todo, id ∈ c.redundantIds)
    (hwaiting : ∀ todo round copies p, s'.stage = .reconciling todo (.waiting round copies p) →
      p.item.inst.id ∈ c.redundantIds)
    (hcertified : ∀ cert, s'.stage = .certified cert →
      cert.crossChecked = s.multiResults.size) : s'.Compared c := by
  refine ⟨hworkers ▸ hs.done, ⟨?_, ?_⟩, ?_, hexecutions ▸ hs.single, htodo, hwaiting,
    hmulti ▸ hcertified⟩
  · simpa only [executionsOf, hmulti, hexecutions] using hs.recorded.keys
  · simpa only [copiesOf, executionsOf, hmulti, hexecutions] using hs.recorded.copies
  · simpa only [executionsOf, hexecutions] using hs.checked

theorem Compared.reply (hs : s.Compared c) (a : Answer) (hp : p.item.inst.id ∈ c.redundantIds)
    {todo : List String} {round copies : ℕ} (htodo : ∀ id ∈ todo, id ∈ c.redundantIds) :
    ({ (executeOn h c s p a).1 with
      stage := .reconciling todo (.copying round copies) } : State A).Compared c := by
  have hrecorded := hs.recorded.executeOn (h := h) p a
  rw [State.executeOn] at hrecorded ⊢
  have hstage : ∀ todo' position, (.reconciling todo (.copying round copies) : Stage) =
      .reconciling todo' position → ∀ id ∈ todo', id ∈ c.redundantIds := by
    rintro _ _ ⟨⟩
    exact htodo
  cases hcheck : check h p a with
  | error =>
    exact hs.of_eq rfl rfl rfl hstage (fun _ _ _ _ heq ↦ by cases heq) fun _ heq ↦ by cases heq
  | ok pair =>
    obtain ⟨r, result⟩ := pair
    rw [hcheck] at hrecorded
    obtain ⟨perNode, single, hrecord⟩ := record_eq h c s p result
    dsimp only at hrecorded ⊢
    rw [hrecord] at hrecorded ⊢
    refine ⟨hs.done, ⟨hrecorded.keys, hrecorded.copies⟩, fun id hid ↦ ?_, ?_, hstage,
      (fun _ _ _ _ heq ↦ by cases heq), (fun _ heq ↦ by cases heq)⟩
    · obtain ⟨x, hx, y, hy, hne⟩ := hs.checked id hid
      have hsub : ∀ z ∈ s.executionsOf id, z ∈
          (s.executions ++ [(⟨p, r, result⟩ : Execution)]).filter fun z : Execution ↦
          z.request.item.inst.id = id := fun z hz ↦ by
        rw [List.filter_append]
        exact List.mem_append_left _ hz
      exact ⟨x, hsub x hx, y, hsub y hy, hne⟩
    · intro x hx y hy hid hnot
      rcases List.mem_append.mp hx with hx | hx
      · rcases List.mem_append.mp hy with hy | hy
        · exact hs.single x hx y hy hid hnot
        · rw [hid, List.mem_singleton.mp hy] at hnot
          exact absurd hp hnot
      · rw [List.mem_singleton.mp hx] at hnot
        exact absurd hp hnot

theorem Compared.moved (hs : s.Compared c) {todo : List String} {position : Reconciler}
    (hstage : s.stage = .reconciling todo position) {todo' : List String} {position' : Reconciler}
    (hworkers : s'.workers = s.workers) (hmulti : s'.multiResults = s.multiResults)
    (hexecutions : s'.executions = s.executions) (hsub : todo' ⊆ todo)
    (hwaiting : ∀ round copies p, position' ≠ .waiting round copies p)
    (hstage' : s'.stage = .reconciling todo' position') : s'.Compared c := by
  refine hs.of_eq hworkers hmulti hexecutions ?_ ?_ ?_
  · intro todo₁ position₁ heq id hid
    rw [hstage'] at heq
    cases heq
    exact hs.todo _ _ hstage id (hsub hid)
  · intro todo₁ round copies p heq
    rw [hstage'] at heq
    cases heq
    exact absurd rfl (hwaiting _ _ _)
  · intro cert heq
    rw [hstage'] at heq
    cases heq

theorem Compared.compare (hs : s.Compared c) (hstep : s.compare h c = some s') :
    s'.Compared c := by
  unfold State.compare at hstep
  split at hstep
  next hstage =>
    cases hstep
    refine hs.of_eq rfl rfl rfl (fun _ _ heq ↦ by cases heq) (fun _ _ _ _ heq ↦ by cases heq) ?_
    rintro _ ⟨⟩
    rfl
  next id rest round hstage =>
    dsimp only at hstep
    split_ifs at hstep
    · cases hstep
      have hsub : rest ⊆ id :: rest := List.subset_cons_self id rest
      rw [State.verdict]
      split_ifs <;> exact hs.moved hstage rfl rfl rfl hsub (fun _ _ _ heq ↦ by cases heq) rfl
    · cases hstep
      exact hs.moved hstage rfl rfl rfl (List.Subset.refl _) (fun _ _ _ heq ↦ by cases heq) rfl
  next id rest round copies hstage =>
    have hid := hs.todo _ _ hstage id List.mem_cons_self
    dsimp only at hstep
    split_ifs at hstep
    · cases hstep
      exact hs.moved hstage rfl rfl rfl (List.Subset.refl _) (fun _ _ _ heq ↦ by cases heq) rfl
    · split at hstep
      next nodeId s₁ inst hpick hinst =>
        obtain rfl := pickNode_some hpick
        cases hstep
        have hfound := List.find?_some hinst
        have hinst : inst.id = id := of_decide_eq_true hfound
        refine hs.of_eq rfl rfl rfl ?_ ?_ fun _ heq ↦ by cases heq
        · rintro _ _ ⟨⟩
          exact hs.todo _ _ hstage
        · rintro _ _ _ _ ⟨⟩
          exact hinst ▸ hid
      · cases hstep
        exact hs.moved hstage rfl rfl rfl (List.Subset.refl _) (fun _ _ _ heq ↦ by cases heq) rfl
  · cases hstep

/-! ## The whole run -/

theorem Pooling.step (hs : s.Pooling c) (hcount : 2 ≤ c.nodeCount) (hstep : step h c s e = some s')
    (hsucceeds : Succeeds h s e) (hs' : s'.stage = .dispatching) :
    s'.Pooling c := by
  have htended := step_tended hs.tended hstep hs'
  have htracked : s'.ledger.tracked = ↑c.queue := by
    rw [(step_tracked hstep hs').1 ?_, hs.tracked]
    intro hputs
    cases e with
    | resume w =>
      obtain ⟨p, outcome, hw, hne, -⟩ := hputs
      exact absurd (hs.smooth.returned w p outcome hw) hne
    | _ => exact hputs.elim
  obtain ⟨-, hw | @⟨w, p, a, hw⟩ | @⟨w, p, outcome, hw⟩ | hsign⟩ := step_dispatching hstep hs'
  · obtain ⟨hsmooth, hrecorded⟩ := hs.smooth.turn hs.recorded hcount
    exact ⟨hsmooth, hrecorded, htended, htracked⟩
  · obtain ⟨⟨r, result⟩, hcheck⟩ := hsucceeds p hw
    have hsmooth := hs.smooth.executeOn (h := h) (hs.smooth.inFlight w p hw) a
    have hrecorded := hs.recorded.executeOn (h := h) p a
    refine ⟨hsmooth.setWorker w (fun _ heq ↦ by cases heq) ?_, ⟨hrecorded.keys, hrecorded.copies⟩,
      htended, htracked⟩
    rintro _ _ ⟨⟩
    rw [State.executeOn, hcheck]
  · obtain rfl := hs.smooth.returned w p outcome hw
    have hkept : (s.resume c p .ok).Smooth c ∧ (s.resume c p .ok).Recorded c := by
      rw [resume]
      split_ifs
      · exact ⟨hs.smooth, hs.recorded⟩
      · obtain ⟨killed, fired, heq⟩ := s.killChaosTarget_eq c
        rw [heq]
        exact ⟨{ hs.smooth with }, { hs.recorded with }⟩
    exact ⟨hkept.1.setWorker w (fun _ heq ↦ by cases heq) (fun _ _ heq ↦ by cases heq),
      { hkept.2 with }, htended, htracked⟩
  · obtain ⟨⟨id, p⟩, -, rfl⟩ := Option.map_eq_some_iff.mp hstep
    have hsm := hs.smooth
    exact ⟨⟨hsm.nodes, hsm.queue, hsm.sent, hsm.turns, hsm.inFlight, hsm.returned, hsm.executed,
      hsm.unfailed, hsm.primary, hsm.apart⟩, ⟨hs.recorded.keys, hs.recorded.copies⟩, htended,
      htracked⟩

theorem Pooling.joined (hs : s.Pooling c) (hdone : s.PoolDone) : s.snapshot.Compared c where
  done := hdone.2
  recorded := ⟨hs.recorded.keys, hs.recorded.copies⟩
  checked _ hid := hs.checked hdone hid
  single _ hx _ hy := hs.single hx hy
  todo := by
    rintro _ _ ⟨⟩ id hid
    exact ((hs.recorded.keys id).mp hid).1
  waiting _ _ _ _ heq := by cases heq
  certified _ heq := by cases heq

theorem Compared.step (hs : s.Compared c) (hstage : s.stage ≠ .dispatching)
    (hstep : step h c s e = some s') : s'.Compared c := by
  cases e with
  | turn w =>
    have hnot : s.running ≠ some w := fun hrunning ↦ by
      cases (hs.done w).symm.trans (looping_of_running hrunning)
    rw [State.step, if_neg hnot] at hstep
    cases hstep
  | answer w | resume w => simp [State.step, hs.done w] at hstep
  | joined =>
    rw [State.step] at hstep
    split at hstep
    next heq => exact absurd heq hstage
    next => cases hstep
  | compare => exact hs.compare hstep
  | reply a =>
    rw [State.step] at hstep
    split at hstep
    next todo round copies p heq =>
      cases hstep
      exact hs.reply a (hs.waiting _ _ _ _ heq) (hs.todo _ _ heq)
    next => cases hstep
  | sign =>
    obtain ⟨⟨id, p⟩, -, rfl⟩ := Option.map_eq_some_iff.mp hstep
    exact hs.of_eq rfl rfl rfl hs.todo hs.waiting hs.certified

/-- What holds at each point of a run in which the workers' requests succeed. -/
def OnCourse (c : Certification) (s : State A) : Prop :=
  (s.stage = .dispatching → s.Pooling c) ∧ (s.stage ≠ .dispatching → s.Compared c)

theorem OnCourse.step (hs : s.OnCourse c) (hcount : 2 ≤ c.nodeCount)
    (hstep : step h c s e = some s') (hsucceeds : Succeeds h s e) : s'.OnCourse c := by
  refine ⟨fun hs' ↦ ?_, fun hs' ↦ ?_⟩
  · exact (hs.1 (step_dispatching hstep hs').1).step hcount hstep hsucceeds hs'
  by_cases hstage : s.stage = .dispatching
  · rcases step_cases hstep with ⟨hsame, -⟩ | ⟨hdone, rfl⟩ | ⟨hne, -⟩
    · exact absurd (hsame.trans hstage) hs'
    · exact (hs.1 hstage).joined hdone
    · exact absurd hstage hne
  · exact (hs.2 hstage).step hstage hstep

theorem smooth_init (c : Certification) :
    (init c : State A).Smooth c ∧ (init c : State A).Recorded c := by
  have hstart : ∃ killed fired, (init c : State A) =
      { nodes := c.nodes, work := ⟨c.queue, 0⟩, killedNodes := killed, chaosFired := fired } := by
    rw [init]
    split_ifs
    · exact killChaosTarget_eq _ c
    · exact ⟨_, _, rfl⟩
  obtain ⟨killed, fired, heq⟩ := hstart
  rw [heq]
  constructor
  · constructor
    case nodes | queue | sent | turns | unfailed => rfl
    case inFlight | returned => intros; contradiction
    all_goals exact fun _ hp ↦ by cases hp
  · exact ⟨fun id ↦ by simp [executionsOf, JsMap.keys, JsMap.empty], fun _ _ ↦ rfl⟩

theorem onCourse_init (c : Certification) : (init c : State A).OnCourse c := by
  have hstage : (init c : State A).stage = .dispatching :=
    congrArg Ledger.stage (ledger_init c)
  obtain ⟨hsmooth, hrecorded⟩ := smooth_init c
  exact ⟨fun _ ↦ ⟨hsmooth, hrecorded, tended_init c, tracked_init c⟩,
    fun hne ↦ absurd hstage hne⟩

/-- The number of instances that were executed on at least two different nodes. -/
def crossExecuted (c : Certification) (s : State A) : ℕ :=
  (c.instances.filter fun inst ↦
    2 ≤ (distinct ((s.executionsOf inst.id).map (·.request.nodeId))).length).length

/-- After the pool, the instances that ran on two nodes are the redundant ones. -/
theorem Compared.crossed_iff (hs : s.Compared c) (id : String) :
    2 ≤ (distinct ((s.executionsOf id).map (·.request.nodeId))).length ↔ id ∈ c.redundantIds := by
  rw [two_le_length_distinct]
  constructor
  · rintro ⟨a, ha, b, hb, hne⟩
    obtain ⟨x, hx, rfl⟩ := List.mem_map.mp ha
    obtain ⟨y, hy, rfl⟩ := List.mem_map.mp hb
    obtain ⟨hx, hxid⟩ := List.mem_filter.mp hx
    obtain ⟨hy, hyid⟩ := List.mem_filter.mp hy
    have hxid : x.request.item.inst.id = id := of_decide_eq_true hxid
    have hyid : y.request.item.inst.id = id := of_decide_eq_true hyid
    by_contra hid
    exact hne (hs.single x hx y hy (hxid.trans hyid.symm) (hxid ▸ hid))
  · intro hid
    obtain ⟨x, hx, y, hy, hne⟩ := hs.checked id hid
    exact ⟨_, List.mem_map_of_mem hx, _, List.mem_map_of_mem hy, hne⟩

theorem Compared.crossExecuted_eq (hs : s.Compared c) :
    s.crossExecuted c = c.redundantIds.length := by
  have hperm : ((c.instances.filter fun inst ↦ 2 ≤ (distinct ((s.executionsOf inst.id).map
      (·.request.nodeId))).length).map (·.id)).Perm c.redundantIds := by
    refine (List.perm_ext_iff_of_nodup (c.distinct.sublist (List.filter_sublist.map _))
      c.nodup_redundantIds).mpr fun id ↦ ?_
    constructor
    · intro hid
      obtain ⟨inst, hinst, rfl⟩ := List.mem_map.mp hid
      exact (hs.crossed_iff inst.id).mp (of_decide_eq_true (List.mem_filter.mp hinst).2)
    · intro hid
      obtain ⟨n, inst, hget, -, rfl⟩ := c.mem_instances_of_redundant hid
      exact List.mem_map_of_mem (List.mem_filter.mpr
        ⟨List.mem_of_getElem? hget, decide_eq_true ((hs.crossed_iff inst.id).mpr hid)⟩)
  rw [crossExecuted, ← hperm.length_eq, List.length_map]

theorem Compared.size_eq (hs : s.Compared c) : s.multiResults.size = c.redundantIds.length := by
  have hperm : s.multiResults.keys.Perm c.redundantIds := by
    refine (List.perm_ext_iff_of_nodup s.multiResults.distinct c.nodup_redundantIds).mpr fun id ↦ ?_
    refine (hs.recorded.keys id).trans (and_iff_left_of_imp fun hid ↦ ?_)
    obtain ⟨x, hx, -⟩ := hs.checked id hid
    exact List.ne_nil_of_mem hx
  rw [← hperm.length_eq, JsMap.length_keys]

/-- **With two nodes or more, and no failed request, the certificate counts the instances that
were executed on two nodes.** -/
theorem crossChecked_eq {t : State A} {es : List Event} {cert : Certificate}
    (hrun : run (step h c) (init c) es = some t) (hcount : 2 ≤ c.nodeCount)
    (hsucceeds : Always (step h c) (Succeeds h) (init c) es) (hcert : t.stage = .certified cert) :
    cert.crossChecked = t.crossExecuted c := by
  have hcourse : t.OnCourse c := (path_of_run hrun hsucceeds).invariant (onCourse_init c)
    fun s e s' hs hsucc hstep ↦ hs.step hcount hstep hsucc
  have hcompared := hcourse.2 (by rw [hcert]; exact Stage.noConfusion)
  rw [hcompared.certified cert hcert, hcompared.size_eq, hcompared.crossExecuted_eq]

end State

/-! ## One node, and two -/

def completeRun : List Event :=
  started ++ [0, 1, 2].flatMap (served · (answerOf "n1"))

/-- On one node, the instance is counted although no two nodes have executed it. -/
theorem crossChecked_on_one_node :
    ∃ t cert, run (State.step plainHost oneInstance) (State.init oneInstance)
        (completeRun ++ [.joined, .compare, .compare]) = some t ∧
      t.stage = .certified cert ∧ cert.crossChecked = 1 ∧ t.crossExecuted oneInstance = 0 := by
  refine ⟨_, _, rfl, rfl, by decide +kernel, by decide +kernel⟩

def oneOnTwo : Certification where
  instances := [⟨"a"⟩]
  distinct := oneInstance.distinct
  nodeCount := 2

def crossCheckedRun : List Event :=
  started ++ served 0 (answerOf "n1") ++ served 1 (answerOf "n2") ++ served 2 (answerOf "n1") ++
    [.joined, .compare, .compare]

theorem succeeds_crossCheckedRun : Always (State.step plainHost oneOnTwo) (State.Succeeds plainHost)
    (State.init oneOnTwo) crossCheckedRun := by
  decide +kernel

/-- On two nodes the count is that of the instances both have executed. -/
theorem crossChecked_on_two_nodes :
    ∃ t cert, run (State.step plainHost oneOnTwo) (State.init oneOnTwo) crossCheckedRun = some t ∧
      t.stage = .certified cert ∧ cert.crossChecked = t.crossExecuted oneOnTwo :=
  ⟨_, _, rfl, rfl, State.crossChecked_eq rfl (by decide) succeeds_crossCheckedRun rfl⟩

end Swarmlet.Mesh
