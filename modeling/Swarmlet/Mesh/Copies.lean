import Swarmlet.Mesh.CrossCheck

/-!
# The nodes that execute the copies

The three copies of a redundant instance are neighbours in the queue, so their picks are consecutive
turns. An extra copy avoids the nodes whose copies are recorded, but it does not see those that are
under way. Where one copy is recorded and another is under way, the turn among the remaining nodes
may come to the node of the latter: `two_nodes_for_three_copies`.

In a run without failures on three nodes or more, the copies go to three nodes if at each pick of an
extra copy the earlier ones are either all recorded, and then all avoided, or all under way, and
then the turns differ.
-/

namespace Swarmlet.Mesh

open EventMachine Js

variable {A : Type}

/-! ## The keys of the copies -/

def CloseTo (a b : WorkItem) : Prop := a.inst.id = b.inst.id → b.key < a.key + REDUNDANT_COPIES

theorem key_of_mem_itemsOf {i key : ℕ} {inst : EvalInstance} {item : WorkItem}
    (h : item ∈ itemsOf i inst key) : key ≤ item.key ∧ item.key < key + REDUNDANT_COPIES := by
  rcases List.mem_cons.mp h with rfl | h
  · exact ⟨Nat.le_refl _, Nat.lt_add_of_pos_right (by decide)⟩
  · split_ifs at h
    · obtain ⟨n, hn, rfl⟩ := List.mem_map.mp h
      rw [List.mem_range, REDUNDANT_COPIES] at hn
      rw [REDUNDANT_COPIES]
      dsimp only
      omega
    · cases h

theorem pairwise_closeTo {l : List EvalInstance} {i key : ℕ} (hnodup : (l.map (·.id)).Nodup) :
    (queueFrom i key l).Pairwise CloseTo := by
  induction l generalizing i key with
  | nil => exact List.Pairwise.nil
  | cons inst l ih =>
    rw [List.map_cons, List.nodup_cons] at hnodup
    rw [queueFrom, List.pairwise_append]
    refine ⟨?_, ih hnodup.2, fun a ha b hb hid ↦ ?_⟩
    · refine List.Pairwise.imp_of_mem (fun {a b} ha hb _ _ ↦ ?_)
        (List.pairwise_of_forall fun _ _ ↦ trivial)
      have hlow := (key_of_mem_itemsOf ha).1
      have hhigh := (key_of_mem_itemsOf hb).2
      omega
    · rw [mem_of_mem_itemsOf ha] at hid
      exact absurd (List.mem_map.mpr ⟨b.inst, mem_of_mem_queueFrom hb, hid.symm⟩) hnodup.1

theorem Certification.key_lt_of_id {c : Certification} {a b : WorkItem}
    (ha : c.queue[a.key]? = some a) (hb : c.queue[b.key]? = some b) (hlt : a.key < b.key)
    (hid : a.inst.id = b.inst.id) : b.key < a.key + REDUNDANT_COPIES := by
  obtain ⟨hi, hai⟩ := List.getElem?_eq_some_iff.mp ha
  obtain ⟨hj, hbj⟩ := List.getElem?_eq_some_iff.mp hb
  have hclose := List.pairwise_iff_getElem.mp (pairwise_closeTo c.distinct) a.key b.key hi hj hlt
  have hai' : (queueFrom 0 0 c.instances)[a.key] = a := hai
  have hbj' : (queueFrom 0 0 c.instances)[b.key] = b := hbj
  rw [hai', hbj'] at hclose
  exact hclose hid

namespace State

variable {h : Host A} {c : Certification} {s : State A}

/-! ## Requests and executions -/

theorem Pooling.answered (hs : s.Pooling c) {p : Pending} (hp : p ∈ s.requests) :
    (∃ x ∈ s.executions, x.request = p) ∨ ∃ w, s.workers w = .executing p := by
  have hget := (hs.smooth.getElem?_key hp).1
  have hmem : p.item ∈ s.ledger.tracked := hs.tracked ▸ List.mem_of_getElem? hget
  have heq {q : Pending} (hq : q ∈ s.requests) (horigin : q.item.origin = p.item) : q = p :=
    hs.smooth.eq_of_key hq hp (show q.item.origin.key = p.item.key by rw [horigin])
  rw [Ledger.tracked, Ledger.settled, Multiset.mem_add, Multiset.mem_add, Multiset.mem_add] at hmem
  rcases hmem with ((hx | hfailed) | hheld) | hpending
  · obtain ⟨x, hx, horigin⟩ := List.mem_map.mp hx
    exact .inl ⟨x, hx, heq (hs.smooth.executed x hx) horigin⟩
  · rw [show s.ledger.failed = [] from hs.smooth.unfailed] at hfailed
    simp at hfailed
  · obtain ⟨w, -, hw⟩ := Multiset.mem_sum.mp hheld
    have hworker : s.ledger.workers w = s.workers w := rfl
    rw [hworker] at hw
    cases hstate : s.workers w with
    | looping | finished => simp [hstate, Worker.held] at hw
    | executing q =>
      rw [hstate, Worker.held, Multiset.mem_singleton] at hw
      exact .inr ⟨w, heq (hs.smooth.inFlight w q hstate) hw.symm ▸ hstate⟩
    | returned q outcome =>
      rw [hstate, hs.smooth.returned w q outcome hstate] at hw
      simp [Worker.held] at hw
  · -- What is still to be read has a later position.
    obtain ⟨item, hitem, horigin⟩ := List.mem_map.mp hpending
    obtain ⟨k, hk⟩ := List.getElem?_of_mem hitem
    rw [Cursor.pending, List.getElem?_drop, show s.ledger.work.queue = c.queue from hs.smooth.queue]
      at hk
    have hkey := c.getElem?_key hk
    have hlt := (hs.smooth.getElem?_key hp).2
    rw [← horigin] at hlt
    exact absurd (show item.key < s.ledger.work.next from hlt) (by omega)

/-! ## Picks -/

/-- The copies of an instance are on different nodes, and those of which none is recorded yet went
out in turn. -/
structure Spread (c : Certification) (s : State A) : Prop where
  apart : ∀ p ∈ s.requests, ∀ q ∈ s.requests, p.item.inst.id = q.item.inst.id →
    p.nodeId = q.nodeId → p = q
  turned : ∀ p ∈ s.requests, s.executionsOf p.item.inst.id = [] →
    (c.nodes[p.item.key % c.nodeCount]?).map (·.nodeId) = some p.nodeId

/-- When an extra copy is read, no copy of its instance is recorded, or none is under way. -/
def Unmixed (s : State A) : Event → Prop
  | .turn _ => ∀ item, s.work.take.1 = some item → item.extraCopy = true →
      s.copiesOf item.inst.id = [] ∨
        ∀ v p, s.workers v = .executing p → p.item.inst.id ≠ item.inst.id
  | _ => True

theorem Smooth.exists_third (hs : s.Smooth c) (hcount : 3 ≤ c.nodeCount) {item : WorkItem}
    (hget : c.queue[item.key]? = some item) (hnext : s.work.next = item.key) :
    ∃ n ∈ c.nodes, ∀ q ∈ s.requests, q.item.inst.id = item.inst.id → n.nodeId ≠ q.nodeId := by
  by_contra hall
  push Not at hall
  have hnode {i : ℕ} (hi : i < 3) : ∃ q ∈ s.requests, s!"n{i + 1}" = q.nodeId ∧
      q.item.key < item.key ∧ item.key < q.item.key + 3 := by
    obtain ⟨q, hq, hid, hnode⟩ := hall _
      (List.mem_of_getElem? (c.getElem?_nodes (Nat.lt_of_lt_of_le hi hcount)))
    obtain ⟨hqget, hqlt⟩ := hs.getElem?_key hq
    rw [hnext] at hqlt
    exact ⟨q, hq, hnode, hqlt, c.key_lt_of_id hqget hget hqlt hid⟩
  have hkeys {i j : ℕ} {p q : Pending} (hp : p ∈ s.requests) (hq : q ∈ s.requests)
      (hi : s!"n{i + 1}" = p.nodeId) (hj : s!"n{j + 1}" = q.nodeId)
      (hkey : p.item.key = q.item.key) : i = j := by
    rw [hs.eq_of_key hp hq hkey, ← hj] at hi
    exact Certification.nodeId_inj hi
  obtain ⟨p, hp, hpnode, hplt, hpgt⟩ := hnode (i := 0) (by decide)
  obtain ⟨q, hq, hqnode, hqlt, hqgt⟩ := hnode (i := 1) (by decide)
  obtain ⟨r, hr, hrnode, hrlt, hrgt⟩ := hnode (i := 2) (by decide)
  -- Two positions for three requests.
  have hpigeon : p.item.key = q.item.key ∨ p.item.key = r.item.key ∨ q.item.key = r.item.key := by
    omega
  rcases hpigeon with heq | heq | heq
  · exact absurd (hkeys hp hq hpnode hqnode heq) (by decide)
  · exact absurd (hkeys hp hr hpnode hrnode heq) (by decide)
  · exact absurd (hkeys hq hr hqnode hrnode heq) (by decide)

theorem Pooling.pick_apart (hs : s.Pooling c) (hspread : s.Spread c) (hcount : 3 ≤ c.nodeCount)
    {item : WorkItem} (hget : c.queue[s.work.next]? = some item) {s₁ s' : State A} {nodeId : String}
    (hnodes : s₁.nodes = s.nodes) (hrr : s₁.rr = s.rr)
    (hunmixed : item.extraCopy = true → s.copiesOf item.inst.id = [] ∨
      ∀ v p, s.workers v = .executing p → p.item.inst.id ≠ item.inst.id)
    (hpick : s₁.pickNode (if item.extraCopy then (s.copiesOf item.inst.id).map (·.nodeId) else []) =
      some (nodeId, s')) :
    (∀ q ∈ s.requests, q.item.inst.id = item.inst.id → nodeId ≠ q.nodeId) ∧
      (s.executionsOf item.inst.id = [] →
        (c.nodes[item.key % c.nodeCount]?).map (·.nodeId) = some nodeId) := by
  have hnext : s.work.next = item.key := (c.getElem?_key hget).symm
  have hturned : s.executionsOf item.inst.id = [] →
      (c.nodes[item.key % c.nodeCount]?).map (·.nodeId) = some nodeId := by
    intro hnone
    have hkey : item.inst.id ∉ s.multiResults.keys := fun hmem ↦
      ((hs.recorded.keys _).mp hmem).2 hnone
    rw [copiesOf, JsMap.get_eq_none_iff.mpr hkey, Option.getD_none, List.map_nil, ite_self] at hpick
    exact hs.smooth.pick_nil hget hnodes hrr hpick
  refine ⟨fun q hq hid ↦ ?_, hturned⟩
  obtain ⟨hqget, hqlt⟩ := hs.smooth.getElem?_key hq
  obtain ⟨hextra, hredundant⟩ := copiesOf_of_lt hqlt hqget hget hid
  rw [hid] at hredundant
  have hcopies := hs.recorded.copies _ hredundant
  rw [hnext] at hget hqlt
  rcases hunmixed hextra with hnone | hquiet
  · have hexec : s.executionsOf item.inst.id = [] := by
      rw [hnone] at hcopies
      exact List.map_eq_nil_iff.mp hcopies.symm
    have hclose := c.key_lt_of_id hqget hget hqlt hid
    obtain ⟨d, hd⟩ := Nat.exists_eq_add_of_lt hqlt
    have hturn := hturned hexec
    rw [hd, Nat.add_assoc] at hturn
    rw [REDUNDANT_COPIES] at hclose
    exact c.turn_ne (Nat.succ_ne_zero d) (by omega) (hspread.turned q hq (hid ▸ hexec)) hturn
  · obtain ⟨n, hn, hthird⟩ := hs.smooth.exists_third hcount hget hnext
    rw [if_pos hextra, hcopies] at hpick
    have hnot : n.nodeId ∉ (s.executionsOf item.inst.id).map (·.request.nodeId) := fun hmem ↦ by
      obtain ⟨x, hx, hnode⟩ := List.mem_map.mp hmem
      obtain ⟨hx, hxid⟩ := List.mem_filter.mp hx
      exact hthird _ (hs.smooth.executed x hx) (of_decide_eq_true hxid) hnode.symm
    have hpicked := pickNode_notMem (hs.smooth.aliveNodes hnodes ▸ hn) hnot hpick
    rcases hs.answered hq with ⟨x, hx, rfl⟩ | ⟨w, hw⟩
    · intro heq
      exact hpicked (heq ▸ List.mem_map_of_mem (List.mem_filter.mpr ⟨hx, decide_eq_true hid⟩))
    · exact absurd hid (hquiet w q hw)

/-! ## Runs -/

theorem Spread.of_eq {s' : State A} (hs : s.Spread c) (hdispatched : s'.dispatched = s.dispatched)
    (hexecutions : s.executions <+: s'.executions) : s'.Spread c := by
  have hrequests : s'.requests = s.requests := by rw [requests, hdispatched, requests]
  refine ⟨fun p hp q hq ↦ ?_, fun p hp hnone ↦ ?_⟩
  · rw [hrequests] at hp hq
    exact hs.apart p hp q hq
  · rw [hrequests] at hp
    refine hs.turned p hp (List.prefix_nil.mp ?_)
    exact hnone ▸ hexecutions.filter _

theorem Spread.turn (hs : s.Pooling c) (hspread : s.Spread c) (hcount : 3 ≤ c.nodeCount) {w : Fin 4}
    (hunmixed : s.Unmixed (.turn w)) : (s.turn c w).Spread c := by
  rw [State.turn]
  cases htake : s.work.take.1 with
  | none => exact hspread.of_eq rfl List.prefix_rfl
  | some item =>
    have hget : c.queue[s.work.next]? = some item := hs.smooth.queue ▸ htake
    dsimp only
    cases hpick : ({ s with work := s.work.take.2 } : State A).pickNode
        (if item.extraCopy then (copiesOf { s with work := s.work.take.2 } item.inst.id).map
          (·.nodeId) else []) with
    | none =>
      refine absurd hpick (pickNode_ne_none (List.length_pos_iff.mp ?_) _)
      rw [hs.smooth.aliveNodes (by rfl), c.length_nodes]
      omega
    | some picked =>
      obtain ⟨nodeId, s'⟩ := picked
      obtain ⟨hapart, hturned⟩ := hs.pick_apart hspread hcount hget (by rfl) (by rfl)
        (hunmixed item htake) hpick
      obtain rfl := pickNode_some hpick
      refine ⟨fun p hp q hq hid hnode ↦ ?_, fun p hp hnone ↦ ?_⟩
      · rcases mem_requests_send.mp hp with hp | rfl
        · rcases mem_requests_send.mp hq with hq | rfl
          · exact hspread.apart p hp q hq hid hnode
          · exact absurd hnode.symm (hapart p hp hid)
        · rcases mem_requests_send.mp hq with hq | rfl
          · exact absurd hnode (hapart q hq hid.symm)
          · rfl
      · rcases mem_requests_send.mp hp with hp | rfl
        · exact hspread.turned p hp hnone
        · exact hturned hnone

/-- At least three nodes are alive, the answer is accepted, and copies are not mixed. -/
def Orderly (h : Host A) (s : State A) (e : Event) : Prop :=
  3 ≤ s.aliveNodes.length ∧ Succeeds h s e ∧ s.Unmixed e

theorem Spread.step (hs : s.Pooling c) (hspread : s.Spread c) {e : Event} {s' : State A}
    (hstep : step h c s e = some s') (horderly : s.Orderly h e) (hs' : s'.stage = .dispatching) :
    s'.Pooling c ∧ s'.Spread c := by
  obtain ⟨halive, hsucceeds, hunmixed⟩ := horderly
  have hcount : 3 ≤ c.nodeCount := by rwa [hs.smooth.aliveNodes rfl, c.length_nodes] at halive
  refine ⟨hs.step (by omega) hstep hsucceeds hs', ?_⟩
  obtain ⟨-, hw | @⟨w, p, a, hw⟩ | @⟨w, p, outcome, hw⟩ | hsign⟩ := step_dispatching hstep hs'
  · exact Spread.turn hs hspread hcount hunmixed
  · rcases ledger_executeOn h c s p a with ⟨-, heq⟩ | ⟨-, r, result, -, hledger⟩
    · rw [heq]
      exact hspread.of_eq rfl List.prefix_rfl
    · refine hspread.of_eq (congrArg Ledger.dispatched hledger) ?_
      rw [show (State.setWorker _ w _).executions = s.executions ++ [⟨p, r, result⟩] from
        congrArg Ledger.executions hledger]
      exact List.prefix_append _ _
  · obtain rfl := hs.smooth.returned w p outcome hw
    have hledger := ledger_resume_ok c s p
    refine hspread.of_eq (congrArg Ledger.dispatched hledger) ?_
    rw [show (State.setWorker _ w _).executions = s.executions from
      congrArg Ledger.executions hledger]
  · obtain ⟨id, p, -, hledger⟩ := ledger_sign hsign
    refine hspread.of_eq (congrArg Ledger.dispatched hledger) ?_
    rw [show s'.executions = s.executions from congrArg Ledger.executions hledger]

theorem spread_init (c : Certification) : (init c : State A).Spread c := by
  have hrequests : (init c : State A).requests = [] := by
    rw [requests, show (init c : State A).dispatched = [] from
      congrArg Ledger.dispatched (ledger_init c), List.map_nil]
  refine ⟨fun p hp ↦ ?_, fun p hp ↦ ?_⟩
  · rw [hrequests] at hp
    cases hp
  · rw [hrequests] at hp
    cases hp

/-- **The copies of a redundant instance are executed on three nodes**, in every run with three
nodes in which every request succeeds and no extra copy is picked while one copy of its instance is
recorded and another is under way. -/
theorem copies_on_three_nodes {t : State A} {es : List Event} {id : String}
    (hpath : Path (step h c) (Orderly h) (init c) es t) (hdone : t.PoolDone)
    (hid : id ∈ c.redundantIds) : REDUNDANT_COPIES ≤ distinctNodes (t.copiesOf id) := by
  have hall : t.stage = .dispatching → t.Pooling c ∧ t.Spread c := by
    refine hpath.invariant (I := fun s ↦ s.stage = .dispatching → s.Pooling c ∧ s.Spread c) ?_ ?_
    · exact fun hstage ↦ ⟨(onCourse_init c).1 hstage, spread_init c⟩
    · intro s e s' hs horderly hstep hs'
      obtain ⟨hpooling, hspread⟩ := hs (step_dispatching hstep hs').1
      exact Spread.step hpooling hspread hstep horderly hs'
  obtain ⟨hpooling, hspread⟩ := hall hdone.1
  obtain ⟨n, inst, hget, hred, rfl⟩ := c.mem_instances_of_redundant hid
  obtain ⟨k, hprimary, hextra⟩ := neighbours_queueFrom 0 hget (by rwa [Nat.zero_add])
  obtain ⟨x, hx, hxitem⟩ := hpooling.exists_execution hdone hprimary
  obtain ⟨y, hy, hyitem⟩ := hpooling.exists_execution hdone (hextra 0 (by decide))
  obtain ⟨z, hz, hzitem⟩ := hpooling.exists_execution hdone (hextra 1 (by decide))
  have hnode {a b : Execution} (ha : a ∈ t.executions) (hb : b ∈ t.executions)
      (hinst : a.request.item.inst = b.request.item.inst)
      (hkey : a.request.item.key ≠ b.request.item.key) : a.request.nodeId ≠ b.request.nodeId :=
    fun heq ↦ hkey (congrArg (·.item.key) (hspread.apart _ (hpooling.smooth.executed a ha) _
      (hpooling.smooth.executed b hb) (congrArg (·.id) hinst) heq))
  have hmem {a : Execution} (ha : a ∈ t.executions) (hinst : a.request.item.inst = inst) :
      a.request.nodeId ∈ distinct ((t.copiesOf inst.id).map (·.nodeId)) := by
    rw [mem_distinct, hpooling.recorded.copies _ hid]
    exact List.mem_map_of_mem (List.mem_filter.mpr ⟨ha, by simp [hinst]⟩)
  have hnodup : [x.request.nodeId, y.request.nodeId, z.request.nodeId].Nodup := by
    simp only [List.nodup_cons, List.mem_cons, List.not_mem_nil, or_false, not_or,
      not_false_eq_true, List.nodup_nil, and_true]
    have hxkey : x.request.item.key = k := by rw [hxitem]
    have hykey : y.request.item.key = k + 1 := by rw [hyitem]
    have hzkey : z.request.item.key = k + 1 + 1 := by rw [hzitem]
    exact ⟨⟨hnode hx hy (by rw [hxitem, hyitem]) (by omega),
      hnode hx hz (by rw [hxitem, hzitem]) (by omega)⟩,
      hnode hy hz (by rw [hyitem, hzitem]) (by omega)⟩
  refine (List.subperm_of_subset hnodup fun a ha ↦ ?_).length_le
  simp only [List.mem_cons, List.not_mem_nil, or_false] at ha
  rcases ha with rfl | rfl | rfl
  · exact hmem hx (by rw [hxitem])
  · exact hmem hy (by rw [hyitem])
  · exact hmem hz (by rw [hzitem])

end State

/-! ## Three copies on two nodes, and on three -/

/-- A suite of forty-one instances, of which the first, the twenty-first and the last are executed
redundantly, on three nodes. -/
def suiteOnThree : Certification where
  instances := (List.range 41).map fun i ↦ ⟨Nat.repr i⟩
  distinct := by decide +kernel
  nodeCount := 3

def servedBy (i : ℕ) (nodeId : String) : List Event := served i (answerOf nodeId)

/-- The first worker alone executes the suite up to the primary copy of the last instance, which
goes to the third node. The second worker takes the first extra copy, and when the primary one is
recorded the first worker takes the second. -/
def mixedRun : List Event :=
  started ++ servedBy 0 "n1" ++
    (List.range 40).flatMap (fun i ↦ servedBy 0 s!"n{(i + 4) % 3 + 1}") ++
    servedBy 1 "n2" ++ servedBy 0 "n3" ++ servedBy 0 "n1" ++ servedBy 1 "n1" ++
    servedBy 2 "n3" ++ servedBy 3 "n1"

/-- Every request succeeds and three nodes are alive, but two copies were executed on one node. -/
theorem two_nodes_for_three_copies :
    ∃ t, run (State.step plainHost suiteOnThree) (State.init suiteOnThree) mixedRun = some t ∧
      Always (State.step plainHost suiteOnThree) (fun s e ↦ 3 ≤ s.aliveNodes.length ∧
        s.Succeeds plainHost e) (State.init suiteOnThree) mixedRun ∧ t.PoolDone ∧
      "40" ∈ suiteOnThree.redundantIds ∧ State.distinctNodes (t.copiesOf "40") = 2 := by
  obtain ⟨t, hrun, hdone, htwo⟩ := exists_run (State.step plainHost suiteOnThree)
    (State.init suiteOnThree) mixedRun
    (fun t ↦ t.PoolDone ∧ State.distinctNodes (t.copiesOf "40") = 2) (by decide +kernel)
  exact ⟨t, hrun, by decide +kernel, hdone, by decide +kernel, htwo⟩

def oneOnThree : Certification where
  instances := [⟨"a"⟩]
  distinct := oneInstance.distinct
  nodeCount := 3

def orderlyRun : List Event :=
  started ++ servedBy 0 "n1" ++ servedBy 1 "n2" ++ servedBy 2 "n3"

theorem copies_on_three_nodes_orderlyRun :
    ∃ t, run (State.step plainHost oneOnThree) (State.init oneOnThree) orderlyRun = some t ∧
      t.PoolDone ∧ REDUNDANT_COPIES ≤ State.distinctNodes (t.copiesOf "a") := by
  have horderly : Always (State.step plainHost oneOnThree) (State.Orderly plainHost)
      (State.init oneOnThree) orderlyRun := by
    iterate 4 refine (always_cons rfl).mpr ⟨⟨by decide, trivial, fun _ _ _ ↦ .inl rfl⟩, ?_⟩
    iterate 3
      refine (always_cons rfl).mpr ⟨⟨by decide, by rintro p ⟨⟩; exact ⟨_, rfl⟩, trivial⟩, ?_⟩
      refine (always_cons rfl).mpr ⟨⟨by decide, trivial, trivial⟩, ?_⟩
      refine (always_cons rfl).mpr ⟨⟨by decide, trivial, fun item hitem _ ↦ by cases hitem⟩, ?_⟩
    exact trivial
  exact ⟨_, rfl, ⟨rfl, by decide⟩, State.copies_on_three_nodes (path_of_run rfl horderly)
    ⟨rfl, by decide⟩ (by decide)⟩

end Swarmlet.Mesh
