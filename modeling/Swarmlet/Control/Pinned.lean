import Swarmlet.Control.Routing

/-!
# Pinned placements

A spec that names its nodes is the owner's. The one place where the control plane writes a spec on
its own looks whether the spec pins its nodes; everything else that writes one belongs to an
operation that somebody asked for (`Event.Names`). And a start plans the spec that is stored, so
what it sends follows the names.
-/

namespace Swarmlet

open EventMachine

variable {k : Deps} {T : Terms} {c : Ambient} {d : DeploymentId} {v w : View} {s s' : Control}
  {spec : DeploymentSpec} {old : List AssignmentId}

/-! ## Starts that wait for workers -/

def OpView.Follows (o : OpView) : Prop :=
  ∀ dep generation plan coord workers pending, o.work = .start dep generation →
    o.stand = .awaiting (.workers plan coord workers) pending → plan.Follows dep.spec

theorem OpView.Follows.hear {o : OpView} (h : o.Follows) (id : AssignmentId)
    (state : AssignmentState) : (o.hear id state).Follows := by
  unfold OpView.hear
  split
  · rename_i target pending hstand
    split_ifs
    · rintro dep generation plan coord workers _ hwork ⟨⟩
      exact h dep generation plan coord workers pending hwork hstand
    · exact h
  · exact h

theorem Move.follows (h : ∀ o ∈ v.ops, o.Follows) (hm : Move k T c d v w) :
    ∀ o ∈ w.ops, o.Follows := by
  have hsettle : ∀ {o rest}, v.ops = o :: rest → ∀ p ∈ rest, p.Follows :=
    fun hops p hp ↦ h p (hops ▸ List.mem_cons_of_mem _ hp)
  cases hm with
  | heard id state =>
    intro o ho
    obtain ⟨p, hp, rfl⟩ := List.mem_map.mp ho
    exact (h p hp).hear id state
  | acceptStop | acceptStart | failed | crashed | offline =>
    -- What is queued has not begun.
    intro o ho
    rcases List.mem_append.mp ho with ho | ho
    · exact h o ho
    · rw [List.mem_singleton.mp ho]
      exact fun _ _ _ _ _ _ _ hstand ↦ nomatch hstand
  | caught excluded hops =>
    intro p hp
    rcases List.mem_cons.mp hp with rfl | hp
    · exact fun _ _ _ _ _ _ _ hstand ↦ nomatch hstand
    · exact hsettle hops p hp
  | settleError error hops | teardownDone hops | stopDone hops | ready hops => exact hsettle hops
  | _ => exact h

theorem Dispatch.follows (h : ∀ o ∈ v.ops, o.Follows)
    (hl : Dispatch d (s.surroundings k d) v w) : ∀ o ∈ w.ops, o.Follows := by
  have hhead : ∀ {o rest stand rows excluded}, v.ops = o :: rest →
      (o.dispatched stand rows excluded).Follows →
      ∀ p ∈ o.dispatched stand rows excluded :: rest, p.Follows := by
    intro o rest stand rows excluded hops ho p hp
    rcases List.mem_cons.mp hp with rfl | hp
    · exact ho
    · exact h p (hops ▸ List.mem_cons_of_mem _ hp)
  cases hl with
  | @planned f o rest dep plan state rows stand excluded hface hops hwork hstand hrunning hkind
      hblocked hstate hgone hplaced hexcluded hids hfresh hrows hplan hfree hafter =>
    refine hhead hops fun dep' generation plan' coord workers pending hwork' hstand' ↦ ?_
    obtain ⟨rfl, -⟩ := Work.start.inj (hwork.symm.trans hwork')
    obtain rfl | ⟨target, rfl, -, hworkers⟩ := hafter
    · cases hstand'
    · obtain ⟨rfl, -⟩ := Stand.awaiting.inj hstand'
      obtain ⟨rfl, -⟩ := hworkers _ _ _ rfl
      obtain ⟨_, -, -, hsound, -⟩ := Control.plan_sound hplan
      exact hsound.follows
  | coordinator rows stand hface hops hwork hstand hrunning hids hfresh hrows hfree hafter
  | watch rows stand excluded hface hops hwork hstand hrunning hkind hids hfresh hrows hplaced
      hafter =>
    refine hhead hops fun _ _ _ _ _ _ _ hstand' ↦ ?_
    obtain rfl | ⟨target, rfl, ⟨endpoint, rfl⟩, -⟩ := hafter <;> cases hstand'

theorem Micro.follows (hm : Micro k T s s') (h : ∀ d, ∀ o ∈ (s.view d).ops, o.Follows) :
    ∀ d, ∀ o ∈ (s'.view d).ops, o.Follows :=
  hm.slotwise h (fun d _ ↦ Move.follows (h d))
    (fun d _ ↦ Dispatch.follows (h d)) (by simp [View.created])
    fun _ _ _ hrestored ↦ by simp [hrestored.ops]

/-! ## A spec that is held -/

/-- A row comes from a plan that uses the nodes its spec names, and stands on one of them. -/
def RowView.Follows (spec : DeploymentSpec) (r : RowView) : Prop :=
  ∀ plan ∈ r.origin, plan.Follows spec ∧ (spec.kind ≠ .external → r.nodeId ∈ planNodes plan)

theorem RowView.Sent.follows {r : RowView} {plan : Plan} (h : r.Sent d plan)
    (hplan : plan.Follows spec) : r.Follows spec := by
  intro plan' hplan'
  obtain rfl := Option.mem_unique h.origin hplan'
  exact ⟨hplan, fun _ ↦ h.placed⟩

/-- The spec is still this one, and whatever was sent since follows it. -/
structure View.Held (spec : DeploymentSpec) (old : List AssignmentId) (v : View) : Prop where
  stays : ∀ f, v.face = some f → f.spec = spec
  sent : ∀ r ∈ v.rows, r.id ∈ old ∨ r.Follows spec

theorem Move.held (hm : Move k T c d v w) (h : v.Held spec old)
    (hpins : Control.pinsNodes spec = true) (hname : ¬T.names d) : w.Held spec old where
  stays := by
    have hspec := h.stays
    cases hm with
    | _ => grind [View.settle, View.setRowState, View.expire, View.block, View.setState,
        View.setReady, View.halt, View.hear]
  sent r hr := by
    obtain ⟨q, hq, heq⟩ := hm.rows_sub r hr
    rw [heq]
    exact h.sent q hq

theorem Dispatch.held (hl : Dispatch d (s.surroundings k d) v w) (h : v.Held spec old)
    (hg : v.Good d) (hf : ∀ o ∈ v.ops, o.Follows) : w.Held spec old := by
  have hspec : ∀ {o rest dep}, v.ops = o :: rest → o.work = .start dep v.generation →
      dep.spec = spec := by
    intro o rest dep hops hwork
    obtain ⟨-, -, f, hf, heq⟩ := hg.queue.snapshot o (hops ▸ List.mem_cons_self) dep _ hwork
    exact heq.symm.trans (h.stays f hf)
  have hsent : ∀ {rows : List RowView}, (∀ r ∈ rows, r.Follows spec) →
      ∀ r ∈ v.rows ++ rows, r.id ∈ old ∨ r.Follows spec :=
    fun hrows r hr ↦ (List.mem_append.mp hr).elim (h.sent r) fun hr ↦ .inr (hrows r hr)
  cases hl with
  | @planned f o rest dep plan state rows stand excluded hface hops hwork hstand hrunning hkind
      hblocked hstate hgone hplaced hexcluded hids hfresh hrows hplan =>
    refine ⟨by rintro _ ⟨⟩; exact h.stays f hface, hsent fun r hr ↦ (hrows r hr).follows ?_⟩
    obtain ⟨_, -, -, hsound, -⟩ := Control.plan_sound hplan
    exact hspec hops hwork ▸ hsound.follows
  | @coordinator f o rest dep plan coord workers rows stand hface hops hwork hstand hrunning hids
      hfresh hrows =>
    refine ⟨by rintro _ ⟨⟩; exact h.stays f hface, hsent fun r hr ↦ (hrows r hr).follows ?_⟩
    exact hspec hops hwork ▸ hf o (hops ▸ List.mem_cons_self) dep _ plan coord workers []
      hwork hstand
  | @watch f o rest dep rows stand excluded hface hops hwork hstand hrunning hkind =>
    refine ⟨by rintro _ ⟨⟩; exact h.stays f hface, hsent fun r hr plan' _ ↦ ?_⟩
    rw [hspec hops hwork] at hkind
    simp [Plan.Follows, hkind]

theorem Micro.held (hm : Micro k T s s') (hs : s.Good) (hd : d ∈ s.known)
    (hf : ∀ o ∈ (s.view d).ops, o.Follows) (h : (s.view d).Held spec old)
    (hpins : Control.pinsNodes spec = true) (hname : ¬T.names d) : (s'.view d).Held spec old := by
  refine hm.keeps_at (P := fun _ v ↦ v.Held spec old) hd h (fun _ _ _ hv ↦ hv)
    (fun _ hmove ↦ hmove.held h hpins hname)
    (fun _ hdispatch ↦ hdispatch.held h (hs.slots d) hf) fun _ w hrestored ↦ ?_
  refine ⟨fun g hg ↦ ?_, hrestored.rows ▸ h.sent⟩
  obtain ⟨f, hface, hspec, -⟩ := hrestored.source hg
  exact hspec.trans (h.stays f hface)

namespace Control

/-- **A pinned placement is never rewritten.** In every run, an event that does not belong to an
operation somebody asked for leaves the spec of a deployment that names its nodes as it is; and
every assignment it sends for this deployment comes from a plan that uses the named nodes, and goes
to one of the nodes of this plan. -/
theorem pinned_kept {es : List Event} {e : Event} {dep : Deployment}
    (hrun : run (step k) Control.init es = some s) (hstep : step k s e = some s')
    (hdep : (s.slots d).dep = some dep) (hpins : pinsNodes dep.spec = true) (hauto : ¬e.Names s d) :
    (∀ dep', (s'.slots d).dep = some dep' → dep'.spec = dep.spec) ∧
      ∀ row ∈ (s'.slots d).rows, row.id ∉ (s.slots d).rows.map (·.id) →
        ∀ plan ∈ row.origin, plan.Follows dep.spec ∧
          (dep.spec.kind ≠ .external → row.nodeId ∈ planNodes plan) := by
  obtain ⟨hs, hf⟩ := run_keeps hrun init_good
    (by simp [Control.init, Control.view, Slot.view]) fun _ _ _ _ h hm ↦ hm.follows h
  have hface := Slot.face_of_dep hdep
  have hheld : (s'.view d).Held dep.spec ((s.slots d).rows.map (·.id)) := by
    refine ((step_micros hs hstep).invariant hs (I := fun s₁ ↦ d ∈ s₁.known ∧
      (∀ d, ∀ o ∈ (s₁.view d).ops, o.Follows) ∧ (s₁.view d).Held dep.spec _)
      ⟨hs.mem_known hdep, hf, fun f hf ↦ by cases hface.symm.trans hf; rfl, fun r hr ↦ .inl ?_⟩
      fun _ _ hs₁ h hm ↦ ⟨hm.known h.1, hm.follows h.2.1,
        hm.held hs₁ h.1 (h.2.1 d) h.2.2 hpins hauto⟩).2.2
    obtain ⟨row, hrow, rfl⟩ := List.mem_map.mp hr
    exact List.mem_map_of_mem hrow
  refine ⟨fun dep' hdep' ↦ hheld.stays _ (Slot.face_of_dep hdep'), fun row hrow hnew ↦ ?_⟩
  exact (hheld.sent _ (List.mem_map_of_mem hrow)).resolve_left hnew

/-- A replica on the one node there is, which its spec names. -/
theorem pinned_kept_replica : ∃ s s' dep row plan,
    run (step smallDeps) Control.init (joins "n" ++ [.create "d" { replicaSpec with
      replicaNodeId := some "n" }, .start "d", .proceed "d" [] []]) = some s ∧
    step smallDeps s (.proceed "d" ["a"] []) = some s' ∧ (s.slots "d").dep = some dep ∧
    row ∈ (s'.slots "d").rows ∧ row.origin = some plan ∧ plan.Follows dep.spec ∧
    row.nodeId ∈ planNodes plan := by
  obtain ⟨s, hrun, ⟨dep, hdep, hpins, hkind⟩, hrows, s', hstep, row, hrow, horigin⟩ :=
    exists_run (step smallDeps) Control.init (joins "n" ++ [.create "d" { replicaSpec with
      replicaNodeId := some "n" }, .start "d", .proceed "d" [] []])
    (fun s ↦ (∃ dep ∈ (s.slots "d").dep, pinsNodes dep.spec = true ∧ dep.spec.kind ≠ .external) ∧
      (s.slots "d").rows.isEmpty = true ∧ ∃ s' ∈ step smallDeps s (.proceed "d" ["a"] []),
        ∃ row ∈ (s'.slots "d").rows, row.origin.isSome = true) (by decide +kernel)
  obtain ⟨plan, hplan⟩ := Option.isSome_iff_exists.mp horigin
  obtain ⟨hfollows, hplaced⟩ := (pinned_kept hrun hstep hdep hpins (by simp [Event.Names])).2 row
    hrow (by simp [List.isEmpty_iff.mp hrows]) plan hplan
  exact ⟨s, s', dep, row, plan, hrun, hstep, hdep, hrow, hplan, hfollows, hplaced hkind⟩

end Control

end Swarmlet
