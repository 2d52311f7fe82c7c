import Swarmlet.Lib.Checked
import Swarmlet.Lib.Machine
import Swarmlet.Control.StageResidue

/-!
# Native execution leaves no residue

The stage executor and the native path of the router as an event machine. Generations of any number
of deployments are in progress, each between two of its questions, and the answers come in any
order; what the executor does between two answers is one step. `markUnsafe` is not an await: the
executor answers it itself.

The router asks for a generation on behalf of a client. It acknowledges the recovery of a deployment
when it meets a lifetime of it that is not the one it has last seen ready, and the manager makes a
new lifetime each time its workers have become ready.

The history field `ended` holds the generations that have come to an end, and `seen` the lifetimes
that the router has seen ready.
-/

namespace Swarmlet.Stage

open Js Json

structure Generation where
  plan : Plan
  request : Request
  session : String
  onToken : Bool
  said : List Said := []
  rest : Script Question (Except String ObjectValue)
    (Except String (Except StageExecutionError Result) × Locals)

structure Router where
  active : List DeploymentId := []
  unsafeSet : List DeploymentId := []
  running : List Generation := []
  ended : List Generation := []
  /-- The native lifetimes of the manager; each one is an object of its own. -/
  lifetimes : DeploymentId → Option ℕ := fun _ ↦ none
  born : ℕ := 0
  nativeReady : DeploymentId → Option ℕ := fun _ ↦ none
  seen : List (DeploymentId × ℕ) := []

namespace Router

def acknowledgeRecovery (r : Router) (id : DeploymentId) : Except String Router :=
  if id ∈ r.active then .error "cannot acknowledge recovery during active execution"
  else .ok { r with unsafeSet := r.unsafeSet.filter (· ≠ id) }

def advance (r : Router) (id : DeploymentId) (said : List Said) :
    Script Question (Except String ObjectValue)
      (Except String (Except StageExecutionError Result) × Locals) →
    Router × List Said × Script Question (Except String ObjectValue)
      (Except String (Except StageExecutionError Result) × Locals)
  | .done x => (r, said, .done x)
  | .ask q k =>
    if q = .markUnsafe then
      advance { r with unsafeSet := id :: r.unsafeSet.filter (· ≠ id) } id
        (said ++ [(q, .ok [])]) (k (.ok []))
    else (r, said, .ask q k)

def resume (r : Router) (g : Generation) : Router :=
  let (r, said, rest) := r.advance g.plan.deploymentId g.said g.rest
  let g := { g with said, rest }
  match rest with
  | .done _ => { r with
      active := r.active.filter (· ≠ g.plan.deploymentId), ended := r.ended ++ [g] }
  | .ask _ _ => { r with running := r.running ++ [g] }

def generate (h : StageHost) (r : Router) (plan : Plan) (request : Request) (session : String)
    (onToken : Bool) : Except String Router := do
  validatePlan plan
  validateRequest h request
  if plan.deploymentId ∈ r.active then .error "native deployment is busy"
  else if plan.deploymentId ∈ r.unsafeSet then
    .error "native deployment requires recovery after unsafe cleanup"
  else .ok ({ r with active := r.active ++ [plan.deploymentId] }.resume
    ⟨plan, request, session, onToken, [], (Stage.generate h plan request session onToken).start {}⟩)

def recover (r : Router) (id : DeploymentId) (lifetime : ℕ) : Except String Router :=
  if r.nativeReady id = some lifetime then .ok r
  else do
    let r ← r.acknowledgeRecovery id
    .ok { r with
      nativeReady := fun i ↦ if i = id then some lifetime else r.nativeReady i
      seen := r.seen ++ [(id, lifetime)] }

/-- The native path of a request, up to the first await of the generation: the router after it. -/
def route (h : StageHost) (r : Router) (plan : Plan) (request : Request) (session : String)
    (onToken : Bool) : Router :=
  if plan.deploymentId ∈ r.active then r
  else match r.lifetimes plan.deploymentId with
    | none => r
    | some lifetime =>
      match r.recover plan.deploymentId lifetime with
      | .error _ => r
      | .ok r =>
        match r.generate h plan request session onToken with
        | .error _ => r
        | .ok r => r

inductive Event
  | ready (id : DeploymentId)
  | retire (id : DeploymentId)
  | route (plan : Plan) (request : Request) (session : String) (onToken : Bool)
  | generate (plan : Plan) (request : Request) (session : String) (onToken : Bool)
  | answer (i : ℕ) (a : Except String ObjectValue)

def step (h : StageHost) (r : Router) : Event → Option Router
  | .ready id => some { r with
      lifetimes := fun i ↦ if i = id then some r.born else r.lifetimes i, born := r.born + 1 }
  | .retire id => some { r with lifetimes := fun i ↦ if i = id then none else r.lifetimes i }
  | .route plan request session onToken => some (r.route h plan request session onToken)
  | .generate plan request session onToken =>
    match r.generate h plan request session onToken with
    | .error _ => some r
    | .ok r => some r
  | .answer i a =>
    match r.running[i]? with
    | none => none
    | some g =>
      match g.rest with
      | .done _ => none
      | .ask q k => some ({ r with running := r.running.eraseIdx i }.resume
        { g with said := g.said ++ [(q, a)], rest := k a })

/-! ## What a generation does to the router -/

variable {h : StageHost} {r r' : Router} {g : Generation}

def Marks (unsafeSet : List DeploymentId) (id : DeploymentId) (said : List Said) : Prop :=
  ∀ a, (.markUnsafe, a) ∈ said → id ∈ unsafeSet

/-- A set of marks that differs from another at one deployment only, and has lost no mark. -/
structure Grows (id : DeploymentId) (u u' : List DeploymentId) : Prop where
  kept : ∀ i ∈ u, i ∈ u'
  others : ∀ i ∈ u', i ≠ id → i ∈ u

theorem Grows.refl (id : DeploymentId) (u : List DeploymentId) : Grows id u u :=
  ⟨fun _ hi ↦ hi, fun _ hi _ ↦ hi⟩

variable {id : DeploymentId} {u : List DeploymentId} {plan : Plan} {request : Request}
  {session : String} {onToken : Bool}

theorem Grows.trans {v w : List DeploymentId} (h₁ : Grows id u v) (h₂ : Grows id v w) :
    Grows id u w :=
  ⟨fun i hi ↦ h₂.kept i (h₁.kept i hi), fun i hi hne ↦ h₁.others i (h₂.others i hi hne) hne⟩

theorem grows_mark (id : DeploymentId) (u : List DeploymentId) :
    Grows id u (id :: u.filter (· ≠ id)) where
  kept i hi := by
    by_cases heq : i = id
    · exact heq ▸ List.mem_cons_self
    · exact List.mem_cons_of_mem _ (List.mem_filter.mpr ⟨hi, decide_eq_true heq⟩)
  others i hi hne := by
    rcases List.mem_cons.mp hi with rfl | hi
    · exact absurd rfl hne
    · exact (List.mem_filter.mp hi).1

structure Standing (h : StageHost) (unsafeSet : List DeploymentId) (g : Generation) : Prop where
  reaches : Script.Reaches ((Stage.generate h g.plan g.request g.session g.onToken).start {})
    g.said g.rest
  marks : Marks unsafeSet g.plan.deploymentId g.said

structure Waiting (h : StageHost) (unsafeSet : List DeploymentId) (g : Generation) : Prop
    extends Standing h unsafeSet g where
  await : ∀ q k, g.rest = .ask q k → q ≠ .markUnsafe

theorem Waiting.grows {u' : List DeploymentId} (hg : Waiting h u g) (hu : Grows id u u') :
    Waiting h u' g :=
  ⟨⟨hg.reaches, fun a ha ↦ hu.kept _ (hg.marks a ha)⟩, hg.await⟩

theorem advance_spec (r : Router) (g : Generation) (hg : Standing h r.unsafeSet g) :
    ∃ u said rest, r.advance g.plan.deploymentId g.said g.rest =
        ({ r with unsafeSet := u }, said, rest) ∧
      Grows g.plan.deploymentId r.unsafeSet u ∧
      Waiting h u { g with said, rest } := by
  obtain ⟨plan, request, session, onToken, said, rest⟩ := g
  induction rest generalizing r said with
  | done x => exact ⟨_, said, .done x, rfl, .refl _ _, hg, nofun⟩
  | ask q k ih =>
    by_cases hq : q = .markUnsafe
    · have hmarked := grows_mark plan.deploymentId r.unsafeSet
      obtain ⟨u, said', rest', heq, hu, hg'⟩ := ih (.ok [])
        { r with unsafeSet := plan.deploymentId :: r.unsafeSet.filter (· ≠ plan.deploymentId) }
        (said ++ [(q, .ok [])]) ⟨hg.reaches.snoc _, fun _ _ ↦ List.mem_cons_self⟩
      exact ⟨u, said', rest', by rw [advance, if_pos hq]; exact heq, hmarked.trans hu, hg'⟩
    · refine ⟨_, said, .ask q k, by rw [advance, if_neg hq], .refl _ _, hg, fun q' k' heq ↦ ?_⟩
      cases heq
      exact hq

/-! ## The invariant -/

def holders (r : Router) : List DeploymentId := r.running.map (·.plan.deploymentId)

/-- The lifetimes a router has seen ready are not younger than the last one, which is not younger
than the one of the manager. -/
structure Aged (r : Router) : Prop where
  lifetimes : ∀ id l, r.lifetimes id = some l → l < r.born
  ready : ∀ id l, r.nativeReady id = some l → l < r.born
  current : ∀ id l l', r.nativeReady id = some l → r.lifetimes id = some l' → l ≤ l'
  seen : ∀ id l, (id, l) ∈ r.seen → ∃ l', r.nativeReady id = some l' ∧ l ≤ l'

/-- Between two steps: the leases are those of the generations that wait, one for each deployment.
-/
structure Sound (h : StageHost) (r : Router) : Prop extends Aged r where
  nodup : r.holders.Nodup
  active : ∀ id, id ∈ r.active ↔ id ∈ r.holders
  waiting : ∀ g ∈ r.running, Waiting h r.unsafeSet g

/-- While a generation runs, it holds a lease besides those of the generations that wait. -/
structure Holding (h : StageHost) (r : Router) (g : Generation) : Prop extends Aged r where
  nodup : (g.plan.deploymentId :: r.holders).Nodup
  active : ∀ id, id ∈ r.active ↔ id ∈ g.plan.deploymentId :: r.holders
  waiting : ∀ g' ∈ r.running, Waiting h r.unsafeSet g'
  self : Standing h r.unsafeSet g

/-- A generation has come to an end: what it leaves, and the mark if it has made one. -/
def Settled (unsafeSet : List DeploymentId) (g : Generation) : Prop :=
  Leaves g.session g.plan.endpoints.length g.said ∧ Marks unsafeSet g.plan.deploymentId g.said

structure Resumed (id : DeploymentId) (r r' : Router) : Prop where
  grows : Grows id r.unsafeSet r'.unsafeSet
  active : ∀ i ∈ r'.active, i ∈ r.active
  lifetimes : r'.lifetimes = r.lifetimes
  seen : r'.seen = r.seen
  ended : r'.ended = r.ended ∨ ∃ g, r'.ended = r.ended ++ [g] ∧ Settled r'.unsafeSet g

theorem Holding.resume (hr : Holding h r g) :
    Sound h (r.resume g) ∧ Resumed g.plan.deploymentId r (r.resume g) := by
  obtain ⟨u, said, rest, heq, hu, hg'⟩ := advance_spec r g hr.self
  rw [Router.resume, heq]
  cases rest with
  | done x =>
    refine ⟨⟨⟨hr.lifetimes, hr.ready, hr.current, hr.seen⟩, (List.nodup_cons.mp hr.nodup).2,
      fun id ↦ ?_, fun g hg ↦ (hr.waiting g hg).grows hu⟩,
      ⟨hu, fun i hi ↦ (List.mem_filter.mp hi).1, rfl, rfl,
      .inr ⟨_, rfl, generate_leaves hg'.reaches.runs, hg'.marks⟩⟩⟩
    rw [List.mem_filter, hr.active, List.mem_cons, decide_eq_true_iff]
    constructor
    · rintro ⟨rfl | hid, hne⟩
      · exact absurd rfl hne
      · exact hid
    · intro hid
      exact ⟨.inr hid, fun heq ↦ (List.nodup_cons.mp hr.nodup).1 (heq ▸ hid)⟩
  | ask =>
    have hholders :
        ∀ rest, ({ r with unsafeSet := u, running := r.running ++ [{ g with said, rest }] } :
        Router).holders = r.holders ++ [g.plan.deploymentId] := fun rest ↦ by simp [holders]
    refine ⟨⟨⟨hr.lifetimes, hr.ready, hr.current, hr.seen⟩, ?_, fun id ↦ ?_, fun g hg ↦ ?_⟩,
      ⟨hu, fun i hi ↦ hi, rfl, rfl, .inl rfl⟩⟩
    · rw [hholders, ← List.concat_eq_append, List.nodup_concat]
      exact List.nodup_cons.mp hr.nodup
    · rw [hholders, List.mem_append, List.mem_singleton]
      exact (hr.active id).trans (List.mem_cons.trans or_comm)
    · rcases List.mem_append.mp hg with hg | hg
      · exact (hr.waiting g hg).grows hu
      · exact List.mem_singleton.mp hg ▸ hg'

/-! ## One step -/

/-- **What one step may do**: it leaves at most one generation for each deployment; a generation
that comes to an end has settled; and a deployment that is marked loses its mark, or starts a
generation, only where the router meets a lifetime that it has not seen ready. -/
structure Next (r r' : Router) : Prop where
  single : r'.holders.Nodup
  ended : r'.ended = r.ended ∨ ∃ g, r'.ended = r.ended ++ [g] ∧ Settled r'.unsafeSet g
  recovered : ∀ id ∈ r.unsafeSet, id ∉ r'.unsafeSet ∨ (id ∉ r.active ∧ id ∈ r'.active) →
    ∃ l, r.lifetimes id = some l ∧ (id, l) ∉ r.seen ∧ (id, l) ∈ r'.seen

theorem Sound.next (hr : Sound h r') (hended : r'.ended = r.ended)
    (hmark : r'.unsafeSet = r.unsafeSet) (hactive : r'.active = r.active) : Next r r' where
  single := hr.nodup
  ended := .inl hended
  recovered id hid hstep := by
    rcases hstep with hlost | ⟨hold, hnew⟩
    · exact absurd (hmark ▸ hid) hlost
    · exact absurd (hactive ▸ hnew) hold

theorem Next.kept (hn : Next r r') (hseen : r'.seen = r.seen) (hid : id ∈ r.unsafeSet) :
    ¬ (id ∉ r'.unsafeSet ∨ (id ∉ r.active ∧ id ∈ r'.active)) := by
  intro hstep
  obtain ⟨l, -, hunseen, hmet⟩ := hn.recovered id hid hstep
  exact hunseen (hseen ▸ hmet)

theorem Sound.generate (hr : Sound h r)
    (hgen : r.generate h plan request session onToken = .ok r') :
    Sound h r' ∧ Next r r' ∧ r'.seen = r.seen := by
  obtain ⟨_, -, hgen⟩ := Checked.bind_ok hgen
  obtain ⟨_, -, hgen⟩ := Checked.bind_ok hgen
  split_ifs at hgen with hactive hmark
  cases hgen
  have hholding : Holding h { r with active := r.active ++ [plan.deploymentId] }
      ⟨plan, request, session, onToken, [],
        (Stage.generate h plan request session onToken).start {}⟩ :=
    ⟨⟨hr.lifetimes, hr.ready, hr.current, hr.seen⟩,
      List.nodup_cons.mpr ⟨fun hmem ↦ hactive ((hr.active _).mpr hmem), hr.nodup⟩,
      fun id ↦ by
        rw [List.mem_append, List.mem_singleton, hr.active, List.mem_cons, or_comm]
        rfl,
      hr.waiting, ⟨.refl _, fun a ha ↦ (List.not_mem_nil ha).elim⟩⟩
  obtain ⟨hsound, hresumed⟩ := hholding.resume
  refine ⟨hsound, ⟨hsound.nodup, hresumed.ended, fun id hid hstep ↦ ?_⟩, hresumed.seen⟩
  rcases hstep with hlost | ⟨hold, hnew⟩
  · exact absurd (hresumed.grows.kept id hid) hlost
  · rcases List.mem_append.mp (hresumed.active id hnew) with hmem | hmem
    · exact absurd hmem hold
    · exact absurd (List.mem_singleton.mp hmem ▸ hid) hmark

theorem recover_ok {l : ℕ} (hrec : r.recover id l = .ok r') :
    (r.nativeReady id = some l ∧ r' = r) ∨
    (r.nativeReady id ≠ some l ∧ id ∉ r.active ∧ r' = { r with
      unsafeSet := r.unsafeSet.filter (· ≠ id)
      nativeReady := fun i ↦ if i = id then some l else r.nativeReady i
      seen := r.seen ++ [(id, l)] }) := by
  unfold Router.recover at hrec
  by_cases hready : r.nativeReady id = some l
  · rw [if_pos hready] at hrec
    exact .inl ⟨hready, (Except.ok.inj hrec).symm⟩
  rw [if_neg hready] at hrec
  obtain ⟨r₁, hack, hrest⟩ := Checked.bind_ok hrec
  unfold acknowledgeRecovery at hack
  by_cases hactive : id ∈ r.active
  · rw [if_pos hactive] at hack
    cases hack
  · rw [if_neg hactive] at hack
    obtain rfl := Except.ok.inj hack
    exact .inr ⟨hready, hactive, (Except.ok.inj hrest).symm⟩

theorem Sound.recover {l : ℕ} (hr : Sound h r) (hlifetime : r.lifetimes id = some l)
    (hrec : r.recover id l = .ok r') :
    Sound h r' ∧ r'.ended = r.ended ∧ r'.active = r.active ∧
      (r' = r ∨ (∀ i ∈ r.unsafeSet, i ≠ id → i ∈ r'.unsafeSet) ∧ (id, l) ∉ r.seen ∧
        (id, l) ∈ r'.seen) := by
  obtain ⟨-, rfl⟩ | ⟨hready, hactive, rfl⟩ := recover_ok hrec
  · exact ⟨hr, rfl, rfl, .inl rfl⟩
  -- A lifetime that was seen is not younger than the one that was last ready.
  have hnew : (id, l) ∉ r.seen := fun hseen ↦ by
    obtain ⟨l', hl', hle⟩ := hr.seen id l hseen
    have hge := hr.current id l' l hl' hlifetime
    exact hready (hl'.trans (congrArg some (Nat.le_antisymm hge hle)))
  refine ⟨⟨⟨hr.lifetimes, fun i k hk ↦ ?_, fun i k k' hk hk' ↦ ?_, fun i k hk ↦ ?_⟩, hr.nodup,
    hr.active, fun g hg ↦ ⟨⟨(hr.waiting g hg).reaches, fun a ha ↦ ?_⟩,
      (hr.waiting g hg).await⟩⟩, rfl, rfl,
    .inr ⟨fun i hi hne ↦ List.mem_filter.mpr ⟨hi, decide_eq_true hne⟩, hnew, by simp⟩⟩
  · dsimp only at hk
    split_ifs at hk with hi
    · exact Option.some.inj hk ▸ hr.lifetimes id l hlifetime
    · exact hr.ready i k hk
  · dsimp only at hk
    split_ifs at hk with hi
    · have heq : l = k' := Option.some.inj (hlifetime.symm.trans (hi ▸ hk'))
      exact (Option.some.inj hk).symm.le.trans heq.le
    · exact hr.current i k k' hk hk'
  · rcases List.mem_append.mp hk with hk | hk
    · obtain ⟨k', hk', hle⟩ := hr.seen i k hk
      by_cases hi : i = id
      · subst hi
        exact ⟨l, if_pos rfl, hle.trans (hr.current i k' l hk' hlifetime)⟩
      · exact ⟨k', (if_neg hi).trans hk', hle⟩
    · obtain ⟨rfl, rfl⟩ := Prod.mk.inj (List.mem_singleton.mp hk)
      exact ⟨k, if_pos rfl, le_rfl⟩
  · refine List.mem_filter.mpr ⟨(hr.waiting g hg).marks a ha, decide_eq_true fun heq ↦ ?_⟩
    exact hactive (heq ▸ (hr.active _).mpr (List.mem_map_of_mem hg))

theorem Sound.route (hr : Sound h r) :
    Sound h (r.route h plan request session onToken) ∧
      Next r (r.route h plan request session onToken) := by
  unfold Router.route
  by_cases hactive : plan.deploymentId ∈ r.active
  · rw [if_pos hactive]
    exact ⟨hr, hr.next rfl rfl rfl⟩
  rw [if_neg hactive]
  cases hlifetime : r.lifetimes plan.deploymentId with
  | none => exact ⟨hr, hr.next rfl rfl rfl⟩
  | some l =>
    simp only
    cases hrec : r.recover plan.deploymentId l with
    | error => exact ⟨hr, hr.next rfl rfl rfl⟩
    | ok r₁ =>
      simp only
      obtain ⟨hr₁, hended, hactive₁, hcases⟩ := hr.recover hlifetime hrec
      -- Whatever follows keeps the marks that are left; one that is lost here is lost for a new
      -- lifetime.
      have hnext {r' : Router} (hn : Next r₁ r') (hseen : r'.seen = r₁.seen) : Next r r' := by
        refine ⟨hn.single, hended ▸ hn.ended, fun id hid hstep ↦ ?_⟩
        rw [← hactive₁] at hstep
        rcases hcases with rfl | ⟨hothers, hunseen, hseen₁⟩
        · exact absurd hstep (hn.kept hseen hid)
        by_cases heq : id = plan.deploymentId
        · exact heq ▸ ⟨l, hlifetime, hunseen, hseen ▸ hseen₁⟩
        · exact absurd hstep (hn.kept hseen (hothers id hid heq))
      cases hgen : r₁.generate h plan request session onToken with
      | error => exact ⟨hr₁, hnext (hr₁.next rfl rfl rfl) rfl⟩
      | ok =>
        obtain ⟨hr₂, hn, hseen⟩ := hr₁.generate hgen
        exact ⟨hr₂, hnext hn hseen⟩

theorem Sound.answer {i : ℕ} {q : Question} {a : Except String ObjectValue}
    {k : Except String ObjectValue → Script Question (Except String ObjectValue)
      (Except String (Except StageExecutionError Result) × Locals)}
    (hr : Sound h r) (hg : r.running[i]? = some g) (hrest : g.rest = .ask q k) :
    Sound h ({ r with running := r.running.eraseIdx i }.resume
        { g with said := g.said ++ [(q, a)], rest := k a }) ∧
      Next r ({ r with running := r.running.eraseIdx i }.resume
        { g with said := g.said ++ [(q, a)], rest := k a }) := by
  obtain ⟨hi, rfl⟩ := List.getElem?_eq_some_iff.mp hg
  have hself := hr.waiting _ (List.getElem_mem hi)
  have hperm : (r.running[i].plan.deploymentId :: (r.running.eraseIdx i).map
      (·.plan.deploymentId)).Perm r.holders :=
    (List.getElem_cons_eraseIdx_perm hi).map fun g : Generation ↦ g.plan.deploymentId
  have hholding : Holding h { r with running := r.running.eraseIdx i }
      { r.running[i] with said := r.running[i].said ++ [(q, a)], rest := k a } := by
    refine ⟨⟨hr.lifetimes, hr.ready, hr.current, hr.seen⟩, hperm.nodup_iff.mpr hr.nodup,
      fun id ↦ (hr.active id).trans hperm.mem_iff.symm,
      fun g hg ↦ hr.waiting g (List.mem_of_mem_eraseIdx hg), ⟨?_, fun b hb ↦ ?_⟩⟩
    · exact (hrest ▸ hself.reaches).snoc a
    · rcases List.mem_append.mp hb with hb | hb
      · exact hself.marks b hb
      · exact absurd (Prod.mk.inj (List.mem_singleton.mp hb)).1.symm (hself.await q k hrest)
  obtain ⟨hsound, hresumed⟩ := hholding.resume
  refine ⟨hsound, hsound.nodup, hresumed.ended, fun id hid hstep ↦ ?_⟩
  rcases hstep with hlost | ⟨hold, hnew⟩
  · exact absurd (hresumed.grows.kept id hid) hlost
  · exact absurd (hresumed.active id hnew) hold

theorem Sound.step {e : Event} (hr : Sound h r) (hstep : step h r e = some r') :
    Sound h r' ∧ Next r r' := by
  cases e with
  | ready id =>
    cases hstep
    have hsound : Sound h { r with
        lifetimes := fun i ↦ if i = id then some r.born else r.lifetimes i,
          born := r.born + 1 } := by
      refine ⟨⟨fun i l hl ↦ ?_, fun i l hl ↦ (hr.ready i l hl).trans (Nat.lt_succ_self _),
        fun i l l' hl hl' ↦ ?_, hr.seen⟩, hr.nodup, hr.active, hr.waiting⟩
      · dsimp only at hl
        split_ifs at hl with hi
        · cases hl
          exact Nat.lt_succ_self _
        · exact (hr.lifetimes i l hl).trans (Nat.lt_succ_self _)
      · dsimp only at hl'
        split_ifs at hl' with hi
        · cases hl'
          exact (hr.ready i l hl).le
        · exact hr.current i l l' hl hl'
    exact ⟨hsound, hsound.next rfl rfl rfl⟩
  | retire id =>
    cases hstep
    have hsound : Sound h { r with
        lifetimes := fun i ↦ if i = id then none else r.lifetimes i } := by
      refine ⟨⟨fun i l hl ↦ ?_, hr.ready, fun i l l' hl hl' ↦ ?_, hr.seen⟩, hr.nodup, hr.active,
        hr.waiting⟩
      · exact hr.lifetimes i l (Option.ite_none_left_eq_some.mp hl).2
      · exact hr.current i l l' hl (Option.ite_none_left_eq_some.mp hl').2
    exact ⟨hsound, hsound.next rfl rfl rfl⟩
  | route =>
    cases hstep
    exact hr.route
  | generate plan request session onToken =>
    simp only [Router.step] at hstep
    cases hgen : r.generate h plan request session onToken with
    | error =>
      rw [hgen] at hstep
      cases hstep
      exact ⟨hr, hr.next rfl rfl rfl⟩
    | ok =>
      rw [hgen] at hstep
      cases hstep
      exact ⟨(hr.generate hgen).1, (hr.generate hgen).2.1⟩
  | answer i =>
    simp only [Router.step] at hstep
    cases hg : r.running[i]? with
    | none => simp [hg] at hstep
    | some g =>
      rw [hg] at hstep
      cases hrest : g.rest with
      | done => simp [hrest] at hstep
      | ask =>
        simp only [hrest] at hstep
        cases hstep
        exact hr.answer hg hrest

theorem sound_init (h : StageHost) : Sound h {} :=
  ⟨⟨nofun, nofun, nofun, fun _ _ hmem ↦ (List.not_mem_nil hmem).elim⟩, .nil,
    fun _ ↦ Iff.rfl, fun _ hmem ↦ (List.not_mem_nil hmem).elim⟩

/-- **Native execution leaves no residue**, whatever the plans and requests are, whatever the
endpoints and the clients answer and when: every step a run can take is one that `Next` allows. -/
theorem native_leaves_no_residue {es : List Event} {e : Event}
    (hrun : EventMachine.run (step h) {} es = some r) (hstep : step h r e = some r') : Next r r' :=
  have hsound : Sound h r := EventMachine.run_invariant hrun (sound_init h)
    fun _ _ _ hs hstep ↦ (hs.step hstep).1
  (hsound.step hstep).2

/-- A generation fails in its first evaluation, and so does its clean-up. -/
def failing : List Event :=
  let request := ⟨some "a", none, 1, none⟩
  let refused := Event.answer 0 (.error "refused")
  [.ready "d", .route (halves "d") request "s" false,
    .answer 0 (.ok []), .answer 0 (.ok (idle (halfIdentity "0" "12"))),
    .answer 0 (.ok []), .answer 0 (.ok (idle (halfIdentity "12" "24"))),
    .answer 0 (.ok [("tokens", .arr [nat 1])]), refused, refused, refused, .answer 0 (.ok []),
    .ready "d"]

/-- The deployment is marked, and generates again once its workers have become ready anew. -/
theorem native_leaves_no_residue_failing : ∃ r r',
    EventMachine.run (step (oneFile [])) {} failing = some r ∧
      step (oneFile []) r (.route (halves "d") ⟨some "a", none, 1, none⟩ "t" false) = some r' ∧
      "d" ∈ r.unsafeSet ∧ r.ended.length = 1 ∧ r'.active = ["d"] ∧ Next r r' := by
  obtain ⟨r, hrun, hmark, hended, hactive⟩ := EventMachine.exists_run (step (oneFile [])) {} failing
    (fun r ↦ "d" ∈ r.unsafeSet ∧ r.ended.length = 1 ∧ (r.route (oneFile []) (halves "d")
      ⟨some "a", none, 1, none⟩ "t" false).active = ["d"]) (by decide +kernel)
  have hstep : step (oneFile []) r (.route (halves "d") ⟨some "a", none, 1, none⟩ "t" false) =
    some (r.route (oneFile []) (halves "d") ⟨some "a", none, 1, none⟩ "t" false) := rfl
  exact ⟨r, _, hrun, hstep, hmark, hended, hactive, native_leaves_no_residue hrun hstep⟩

end Router

end Swarmlet.Stage
