import Swarmlet.NodeAgent.Supervisor

/-!
# Updates survive crashes

What the supervisor has in memory is what is on disk, except while it writes, and after a write that
failed, when it only shuts down. Each write is one of five changes of the state, and what the change
needs is known where it is made: a trial is begun for a verified release above the accepted
sequence, and a release is activated after its trial passed the health check. A crash leaves the
state before the write or the state after it, and both are valid.

An agent is spawned only where the one before has exited: at the start, after an exit that was
noticed, and after `stopChild` returned.
-/

namespace Swarmlet.Agent

/-! ## What holds at each point of the program -/

/-- The manifest was **accepted** for this machine, with the pinned key of a binding and above a
sequence that was accepted before. -/
def Verified (h : Platform) (binding : String) (accepted : ℕ) (m : ReleaseManifest) : Prop :=
  ∃ rawBytes now, verifyRelease rawBytes (h.signed binding m) m ⟨h.platform, h.arch, accepted,
    now⟩ = .ok ()

/-- The trial was recorded when its manifest verified with the binding that was read. -/
def Recorded (h : Platform) (w : World) (binding : String) (r : InstalledRelease)
    (m : ReleaseManifest) : Prop :=
  ∃ accepted, (r, m, some binding, accepted) ∈ w.recorded ∧ Verified h binding accepted m

structure Staged (r : InstalledRelease) (m : ReleaseManifest) : Prop where
  sequence : (r.sequence : ℤ) = m.sequence
  positive : 1 ≤ r.sequence
  safe : r.sequence ≤ 2 ^ 53 - 1
  directory : isDirectoryOf r.sequence r.directory = true

def Changes (h : Platform) (w : World) (v : Supervisor) : Written → Prop
  | .boot | .reject => v.state = Supervisor.settled w.persisted ∧ v.child ≠ some .running
  | .unbind => v.state = Supervisor.settled w.persisted
  | .launch _ | .crash => v.state = Supervisor.rollback w.persisted ∧ v.child ≠ some .running
  | .begin binding next m => v.state = Supervisor.begun w.persisted next ∧
    w.persisted.acceptedSequence < next.sequence ∧ Staged next m ∧
    (next, m, some binding, w.persisted.acceptedSequence) ∈ w.recorded ∧
    Verified h binding w.persisted.acceptedSequence m
  | .activate => ∃ next m binding, v.state = Supervisor.activated w.persisted next ∧
    next.sequence ≤ w.persisted.acceptedSequence ∧ (next, m, some binding) ∈ w.passed ∧
    Staged next m ∧ Recorded h w binding next m

def At (h : Platform) (w : World) (v : Supervisor) : Pc → Prop
  | .loadIdentity | .crashSleep => v.state = w.persisted ∧ v.child ≠ some .running
  | .top | .check | .fetching _ | .verifying _ | .stoppingTrial | .pruning | .sleeping
  | .resuming .sleep => v.state = w.persisted
  | .staging binding m => v.state = w.persisted ∧
    Verified h binding w.persisted.acceptedSequence m
  | .checking binding | .probing binding | .leasing binding | .draining binding =>
    v.state = w.persisted ∧ ∃ c, v.candidate = some c ∧
      w.persisted.acceptedSequence < c.release.sequence ∧
      Verified h binding w.persisted.acceptedSequence c.manifest
  | .stoppingOld binding next m => v.state = w.persisted ∧ Staged next m ∧
    Recorded h w binding next m ∧ w.persisted.pending = some next ∧
    next.sequence = w.persisted.acceptedSequence ∧ ∀ t ∈ w.tried, t < next.sequence
  | .trying binding next m => v.state = w.persisted ∧ Staged next m ∧
    Recorded h w binding next m ∧ next.sequence ≤ w.persisted.acceptedSequence
  | .writing k => Changes h w v k
  | .resuming .ending | .ending => True

structure Supervisor.Held (v : Supervisor) : Prop where
  candidate : ∀ c ∈ v.candidate, Staged c.release c.manifest
  others : v.others = 0

structure Supervisor.Sound (h : Platform) (w : World) (v : Supervisor) : Prop
    extends v.Held where
  here : At h w v v.pc

structure World.Sound (h : Platform) (w : World) : Prop where
  valid : w.persisted.Valid
  increasing : w.tried.Pairwise (· < ·)
  tried : ∀ t ∈ w.tried, t ≤ w.persisted.acceptedSequence
  proc : ∀ v ∈ w.proc, v.Sound h w

/-! ## The changes keep the state valid -/

namespace UpdateState

variable {s : UpdateState}

theorem mem_refs {r : InstalledRelease} :
    r ∈ s.refs ↔ s.active = some r ∨ s.previous = some r ∨ s.pending = some r := by
  simp [refs, eq_comm]

theorem Valid.of_refs {t : UpdateState} (h : s.Valid)
    (haccepted : t.acceptedSequence = s.acceptedSequence) (hrefs : ∀ r ∈ t.refs, r ∈ s.refs) :
    t.Valid :=
  ⟨haccepted ▸ h.safe, fun r hr ↦ haccepted ▸ h.refs r (hrefs r hr)⟩

theorem Valid.settled (h : s.Valid) : (Supervisor.settled s).Valid :=
  h.of_refs rfl fun r hr ↦ by simp_all [mem_refs, Supervisor.settled]; tauto

theorem Valid.rollback (h : s.Valid) : (Supervisor.rollback s).Valid :=
  h.of_refs rfl fun r hr ↦ by simp_all [mem_refs, Supervisor.rollback]

theorem Valid.begun (h : s.Valid) {next : InstalledRelease} {m : ReleaseManifest}
    (hnew : s.acceptedSequence < next.sequence) (hnext : Staged next m) :
    (Supervisor.begun s next).Valid := by
  refine ⟨hnext.safe, fun r hr ↦ ?_⟩
  rw [mem_refs] at hr
  rcases hr with hr | hr | hr
  · have hold := h.refs r (mem_refs.mpr (.inl hr))
    exact ⟨hold.positive, hold.accepted.trans hnew.le, hold.directory⟩
  · have hold := h.refs r (mem_refs.mpr (.inr (.inl hr)))
    exact ⟨hold.positive, hold.accepted.trans hnew.le, hold.directory⟩
  · cases hr
    exact ⟨hnext.positive, le_rfl, hnext.directory⟩

end UpdateState

structure Persists (h : Platform) (w : World) (s : UpdateState) : Prop where
  valid : s.Valid
  accepted : w.persisted.acceptedSequence ≤ s.acceptedSequence
  active : s.active = w.persisted.active ∨ s.active = w.persisted.previous ∨
    ∃ r m binding, s.active = some r ∧ (r, m, some binding) ∈ w.passed ∧ Staged r m ∧
      Recorded h w binding r m
  pending : ∀ r ∈ s.pending, w.persisted.pending = some r ∨
    w.persisted.acceptedSequence < r.sequence ∧ ∃ m binding, (r.sequence : ℤ) = m.sequence ∧
      (r, m, some binding, w.persisted.acceptedSequence) ∈ w.recorded ∧
      Verified h binding w.persisted.acceptedSequence m

variable {h : Platform} {w : World} {v : Supervisor}

theorem Persists.refl (hw : w.persisted.Valid) :
    Persists h w w.persisted :=
  ⟨hw, le_rfl, .inl rfl, fun _ hr ↦ .inl hr⟩

theorem Persists.settled (hw : w.persisted.Valid) :
    Persists h w (Supervisor.settled w.persisted) :=
  ⟨hw.settled, le_rfl, .inl rfl, fun _ hr ↦ nomatch hr⟩

theorem Persists.rollback (hw : w.persisted.Valid) :
    Persists h w (Supervisor.rollback w.persisted) :=
  ⟨hw.rollback, le_rfl, .inr (.inl rfl), fun _ hr ↦ nomatch hr⟩

theorem Changes.persists {k : Written} (hw : w.persisted.Valid) (hk : Changes h w v k) :
    Persists h w v.state := by
  cases k with
  | boot | reject => exact hk.1 ▸ .settled hw
  | unbind => exact (show v.state = _ from hk) ▸ .settled hw
  | launch | crash => exact hk.1 ▸ .rollback hw
  | begin _ =>
    obtain ⟨hstate, hnew, hnext, hverified⟩ := hk
    refine hstate ▸ ⟨hw.begun hnew hnext, hnew.le, .inl rfl, fun r hr ↦ ?_⟩
    cases hr
    exact .inr ⟨hnew, _, _, hnext.sequence, hverified⟩
  | activate =>
    obtain ⟨next, m, binding, hstate, haccepted, hpassed, hnext, hrecorded⟩ := hk
    refine hstate ▸ ⟨⟨hw.safe, fun r hr ↦ ?_⟩, le_rfl,
      .inr (.inr ⟨next, m, binding, rfl, hpassed, hnext, hrecorded⟩), fun _ hr ↦ (nomatch hr)⟩
    rw [UpdateState.mem_refs] at hr
    rcases hr with hr | hr | hr
    · cases hr
      exact ⟨hnext.positive, haccepted, hnext.directory⟩
    · exact hw.refs r (UpdateState.mem_refs.mpr (.inl hr))
    · cases hr

/-! ## Pieces of a turn -/

theorem At.frame {v' : Supervisor} {pc : Pc} (hstate : v'.state = v.state)
    (hcandidate : v'.candidate = v.candidate)
    (hchild : v'.child = some .running → v.child = some .running) (hat : At h w v pc) :
    At h w v' pc := by
  cases pc with
  | loadIdentity | crashSleep => exact ⟨hstate ▸ hat.1, mt hchild hat.2⟩
  | writing k =>
    cases k with
    | boot | reject | launch | crash => exact ⟨hstate ▸ hat.1, mt hchild hat.2⟩
    | _ => simpa only [At, Changes, hstate] using hat
  | resuming k =>
    cases k with
    | sleep => exact hstate.trans hat
    | ending => trivial
  | ending => trivial
  | _ => simpa only [At, hstate, hcandidate] using hat

namespace Supervisor

variable {h : Platform} {w : World} {v v' : Supervisor} {e : Env}

section

variable {state : UpdateState} {child : Option Child} {c : Option Candidate} {stopping : Bool}
    {pc : Pc}

theorem Held.sound (hv : v.Held)
    (hhere : At h w ⟨state, child, v.others, v.candidate, stopping, pc⟩ pc) :
    Sound h w ⟨state, child, v.others, v.candidate, stopping, pc⟩ :=
  ⟨⟨hv.candidate, hv.others⟩, hhere⟩

theorem Held.drops (hv : v.Held) (hhere : At h w ⟨state, child, v.others, c, stopping, pc⟩ pc)
    (hc : c = v.candidate ∨ c = none) : Sound h w ⟨state, child, v.others, c, stopping, pc⟩ := by
  rcases hc with rfl | rfl
  · exact hv.sound hhere
  · exact ⟨⟨nofun, hv.others⟩, hhere⟩

end

theorem Sound.atPc {pc : Pc} (hv : v.Sound h w) (hpc : v.pc = pc) : At h w v pc := hpc ▸ hv.here

theorem assertBinding_eq (expected : String) (reading : Option String) (v : Supervisor) :
    ∃ c bound, v.assertBinding expected reading = ({ v with candidate := c }, bound) ∧
      (c = v.candidate ∨ c = none) ∧
      (bound = true → c = v.candidate ∧ reading = some expected) := by
  cases reading with
  | none => exact ⟨v.candidate, false, rfl, .inl rfl, nofun⟩
  | some binding =>
    rw [assertBinding]
    split_ifs with hbinding
    · exact ⟨v.candidate, true, rfl, .inl rfl, fun _ ↦ ⟨rfl, congrArg some hbinding⟩⟩
    · exact ⟨none, false, rfl, .inr rfl, nofun⟩

theorem others_spawn (hv : v.others = 0) (hchild : v.child ≠ some .running) :
    v.spawn.others = 0 := by
  simp [spawn, hv, hchild]

theorem at_afterSpawn (k : Spawned) (hstate : v.state = w.persisted) : At h w v (afterSpawn k) := by
  cases k <;> exact hstate

theorem at_throwing (k : Spawned) : At h w v (throwing k) := by
  cases k <;> trivial

theorem at_afterThrow (k : Written) : At h w v (afterThrow k) := by
  cases k with
  | launch k => exact at_throwing k
  | _ => trivial

section

variable (hv : v.Held) (hstate : v.state = w.persisted)

include hv hstate

theorem Held.spawnActive
    (hchild : v.child ≠ some .running) (k : Spawned) (e : Env) : (v.spawnActive k e).Sound h w := by
  unfold Supervisor.spawnActive
  split_ifs
  · exact hv.sound (at_afterSpawn k hstate)
  · exact ⟨⟨hv.candidate, others_spawn hv.others hchild⟩, at_afterSpawn k hstate⟩
  cases v.state.active with
  | none => exact hv.sound (at_throwing k)
  | some => exact hv.sound ⟨congrArg rollback hstate, hchild⟩

theorem Held.attempt (authority : String)
    (reading : Option String) (e : Env) : (v.attempt authority reading e).Sound h w := by
  unfold Supervisor.attempt
  split
  case h_1 => exact hv.sound hstate
  case h_2 c _ =>
    obtain ⟨c', bound, hb, hc', -⟩ := assertBinding_eq c.binding reading v
    simp only [hb]
    split_ifs
    · exact hv.drops hstate hc'
    · exact hv.drops hstate (.inr rfl)
    · exact hv.drops hstate hc'
    · exact hv.sound hstate

theorem Held.checkUpdates (e : Env) :
    (v.checkUpdates e).Sound h w := by
  unfold Supervisor.checkUpdates
  by_cases hdue : (!e.due) = true
  · rw [if_pos hdue]
    exact hv.sound hstate
  rw [if_neg hdue]
  cases e.binding with
  | none => exact hv.sound hstate
  | some authority =>
    by_cases hother : v.candidate.any (·.binding ≠ authority) = true
    · simp only [hother, if_true]
      split_ifs <;> exact hv.drops hstate (.inr rfl)
    · simp only [hother, Bool.false_eq_true, if_false]
      split_ifs
      · exact hv.sound hstate
      · split
        · exact hv.sound hstate
        · exact hv.attempt hstate authority e.binding' e

theorem Held.head : v.head.Sound h w := by
  unfold Supervisor.head
  by_cases hstopping : v.stopping = true
  · rw [if_pos hstopping]
    exact hv.sound trivial
  rw [if_neg hstopping]
  have hdead (hchild : v.child ≠ some .running) :
      (if v.state.active.isSome then { v with state := rollback v.state, pc := .writing .crash }
        else { v with pc := .crashSleep } : Supervisor).Sound h w := by
    split_ifs
    · exact hv.sound ⟨congrArg rollback hstate, hchild⟩
    · exact hv.sound ⟨hstate, hchild⟩
  split
  case h_1 => exact hv.sound trivial
  case h_2 hchild => exact hdead (by simp [hchild])
  case h_3 hchild => exact hdead (by simp [hchild])
  case h_4 => exact hv.sound hstate

end

theorem Sound.afterWrite {k : Written} (hv : v.Sound h w) (hk : Changes h w v k)
    (htried : ∀ t ∈ w.tried, t ≤ w.persisted.acceptedSequence) (e : Env) :
    (v.afterWrite e k).Sound h { w with disk := some v.state } := by
  have hheld := hv.toHeld
  cases k with
  | boot | crash => exact hheld.sound ⟨rfl, hk.2⟩
  | launch k => exact hheld.spawnActive rfl hk.2 k e
  | begin authority next =>
    obtain ⟨hstate, hnew, hnext, hrecorded, hverified⟩ := hk
    have hpending : v.state.pending = some next := by rw [hstate]; rfl
    have haccepted : next.sequence = v.state.acceptedSequence := by rw [hstate]; rfl
    unfold Supervisor.afterWrite
    obtain ⟨c, bound, hb, hc, -⟩ := assertBinding_eq authority e.binding v
    simp only [hb]
    split_ifs
    · exact hheld.drops ⟨rfl, hnext, ⟨_, hrecorded, hverified⟩, hpending, haccepted,
        fun t ht ↦ (htried t ht).trans_lt hnew⟩ (.inr rfl)
    · exact hheld.drops rfl hc
  | unbind | activate => exact hheld.sound rfl
  | reject =>
    unfold Supervisor.afterWrite
    split_ifs
    · exact hheld.sound rfl
    · exact hheld.spawnActive rfl hk.2 _ e

end Supervisor

/-! ## Steps -/

/-- **A step of a sound world** leads to a sound one; it persists a state that the one before
allows, begins no trial but that of the release pending on disk, and keeps the directories that the
state refers to. -/
structure World.Next (h : Platform) (w w' : World) : Prop where
  sound : w'.Sound h
  persists : Persists h w w'.persisted
  tried : w'.tried = w.tried ∨
    ∃ r, w.persisted.pending = some r ∧ w'.tried = w.tried ++ [r.sequence]
  kept : ∀ r ∈ w.persisted.refs, r.directory ∈ w.releases → r.directory ∈ w'.releases

theorem Staged.mk_of_verified {h : Platform} {binding : String} {accepted : ℕ} {m : ReleaseManifest}
    {uuid : String} (hm : Verified h binding accepted m) (huuid : isUuid uuid.toList = true) :
    Staged ⟨releaseDirectory m.sequence.toNat uuid, m.sequence.toNat⟩ m := by
  obtain ⟨_, _, hverified⟩ := hm
  obtain ⟨hsafe, hpositive, -⟩ := sequence_of_verifyRelease hverified
  rw [isSafeInteger, Bool.and_eq_true, decide_eq_true_eq, decide_eq_true_eq] at hsafe
  refine ⟨?_, ?_, ?_, ?_⟩
  · exact Int.toNat_of_nonneg (by omega)
  · show 1 ≤ m.sequence.toNat
    omega
  · show m.sequence.toNat ≤ 2 ^ 53 - 1
    omega
  · have htext : (releaseDirectory m.sequence.toNat uuid).toList
        = ((toString m.sequence.toNat).toList ++ ['-']) ++ uuid.toList := by
      simp [releaseDirectory]
    rw [isDirectoryOf, htext, startsWith_append, List.drop_left, huuid]
    rfl

namespace World

variable {h : Platform} {w w' : World} {v v' : Supervisor} {e : Env}

theorem Sound.next (hw : w.Sound h) (hdisk : w'.disk = w.disk) (htried : w'.tried = w.tried)
    (hkept : ∀ r ∈ w.persisted.refs, r.directory ∈ w.releases → r.directory ∈ w'.releases)
    (hproc : ∀ v ∈ w'.proc, v.Sound h w') : w.Next h w' := by
  have hpersisted : w'.persisted = w.persisted := by rw [persisted, hdisk]; rfl
  exact ⟨⟨hpersisted ▸ hw.valid, htried ▸ hw.increasing, by rw [htried, hpersisted]; exact hw.tried,
    hproc⟩, hpersisted ▸ .refl hw.valid, .inl htried, hkept⟩

theorem Sound.runs {w₁ : World} (hw : w.Sound h) (hdisk : w₁.disk = w.disk)
    (htried : w₁.tried = w.tried) (hkept : w.releases ⊆ w₁.releases) (hv : v.Sound h w₁) :
    w.Next h (w₁.running v) := by
  refine hw.next hdisk htried (fun _ _ hr ↦ hkept hr) fun u hu ↦ ?_
  cases hu
  exact ⟨hv.toHeld, hv.here⟩

theorem Sound.running (hw : w.Sound h) (hv : v.Sound h w) : w.Next h (w.running v) :=
  hw.runs rfl rfl (List.Subset.refl _) hv

theorem Sound.ended (hw : w.Sound h) : w.Next h w.ended :=
  hw.next rfl rfl (fun _ _ hr ↦ hr) fun _ hu ↦ nomatch hu

theorem Sound.persist (hw : w.Sound h) (hstate : Persists h w v.state)
    (hproc : ∀ u ∈ w'.proc, u.Sound h w') (hdisk : w'.disk = some v.state)
    (htried : w'.tried = w.tried) (hreleases : w'.releases = w.releases) : w.Next h w' := by
  have hpersisted : w'.persisted = v.state := by rw [persisted, hdisk]; rfl
  refine ⟨⟨hpersisted ▸ hstate.valid, htried ▸ hw.increasing, ?_, hproc⟩, hpersisted ▸ hstate,
    .inl htried, fun _ _ hr ↦ hreleases ▸ hr⟩
  rw [htried, hpersisted]
  exact fun t ht ↦ (hw.tried t ht).trans hstate.accepted

theorem Sound.goesOn (hw : w.Sound h) (hv : v.Sound h w) {pc : Pc}
    (hpc : At h w { v with pc } pc) : w.Next h (w.running { v with pc }) :=
  hw.running (hv.toHeld.sound hpc)

variable {authority : String} {m : ReleaseManifest}

theorem verified_of_verify (hstate : v.state = w.persisted)
    (hm : v.verify h e authority m = .ok ()) :
    Verified h authority w.persisted.acceptedSequence m := by
  rw [Supervisor.verify, hstate] at hm
  exact ⟨_, _, hm⟩

theorem Sound.asserting (hw : w.Sound h) (hv : v.Sound h w) {reading : Option String} {pc pc' : Pc}
    (hpc : At h w { v with pc } pc) (hpc' : ∀ c, At h w { v with candidate := c, pc := pc' } pc') :
    w.Next h (w.running { (v.assertBinding authority reading).1 with
      pc := if (v.assertBinding authority reading).2 then pc else pc' }) := by
  obtain ⟨c, bound, hb, hc, hbound⟩ := Supervisor.assertBinding_eq authority reading v
  rw [hb]
  cases bound with
  | true =>
    cases (hbound rfl).1
    exact hw.goesOn hv hpc
  | false => exact hw.running (hv.toHeld.drops (hpc' c) hc)

section

variable (hw : w.Sound h) (hv : v.Sound h w) (hturn : w.turn h e v = some w')

include hw hv hturn

theorem Sound.fetching (hpc : v.pc = .fetching authority) : w.Next h w' := by
  have hstate : v.state = w.persisted := hv.atPc hpc
  simp only [turn, hpc] at hturn
  split at hturn
  case h_1 m _ _ =>
    split at hturn
    case h_1 hm =>
      cases hturn
      exact hw.goesOn hv ⟨hstate, verified_of_verify hstate hm⟩
    case h_2 =>
      cases hturn
      exact hw.goesOn hv hstate
  case h_2 =>
    cases hturn
    exact hw.goesOn hv hstate

theorem Sound.staging (hpc : v.pc = .staging authority m) : w.Next h w' := by
  obtain ⟨hstate, hm⟩ : v.state = w.persisted ∧
    Verified h authority w.persisted.acceptedSequence m := hv.atPc hpc
  obtain ⟨c, bound, hb, hc, -⟩ := Supervisor.assertBinding_eq authority e.binding v
  simp only [turn, hpc, hb] at hturn
  -- The directory is new, and everything else stays.
  have hnext {u : Supervisor} (hu : u.Sound h w) : w.Next h ({ w with releases :=
      w.releases ++ [releaseDirectory m.sequence.toNat e.uuid] }.running u) :=
    hw.runs rfl rfl (List.subset_append_left _ _) ⟨hu.toHeld, hu.here⟩
  split_ifs at hturn with hok huuid hbound
  · cases hturn
    refine hnext (Supervisor.Held.attempt ⟨?_, by exact hv.others⟩ (by exact hstate) ..)
    rintro _ ⟨⟩
    exact .mk_of_verified hm huuid
  · cases hturn
    exact hnext (hv.toHeld.drops hstate hc)
  · cases hturn
    exact hw.goesOn hv hstate

theorem Sound.verifying (hpc : v.pc = .verifying authority) : w.Next h w' := by
  have hstate : v.state = w.persisted := hv.atPc hpc
  simp only [turn, hpc] at hturn
  split at hturn
  case h_1 => cases hturn
  case h_2 c hc =>
    split at hturn
    case h_1 hm =>
      cases hturn
      obtain ⟨-, -, hnew⟩ := sequence_of_verifyRelease hm
      have hsequence := (hv.candidate c hc).sequence
      have hlt : w.persisted.acceptedSequence < c.release.sequence := by
        rw [← hsequence] at hnew
        exact hstate ▸ Int.ofNat_lt.mp hnew
      exact hw.goesOn hv ⟨hstate, c, hc, hlt, verified_of_verify hstate hm⟩
    case h_2 =>
      cases hturn
      exact hw.running (hv.toHeld.drops hstate (.inr rfl))

theorem Sound.draining (hpc : v.pc = .draining authority) : w.Next h w' := by
  obtain ⟨hstate, c, hc, hnew, hverified⟩ : v.state = w.persisted ∧ ∃ c, v.candidate = some c ∧
      w.persisted.acceptedSequence < c.release.sequence ∧
      Verified h authority w.persisted.acceptedSequence c.manifest := hv.atPc hpc
  obtain ⟨c', bound, hb, hc', hbound⟩ := Supervisor.assertBinding_eq authority e.binding v
  simp only [turn, hpc, hb] at hturn
  split_ifs at hturn
  · split at hturn
    case h_1 next =>
      obtain ⟨hsame, hread⟩ := hbound rfl
      obtain rfl : c = next := Option.mem_unique hc hsame.symm
      cases hturn
      refine hw.runs rfl rfl (List.Subset.refl _)
        ⟨⟨fun u hu ↦ hv.candidate u (hsame ▸ hu), hv.others⟩, ?_, hnew, hv.candidate c hc, ?_,
        hverified⟩
      · exact congrArg (Supervisor.begun · c.release) hstate
      · -- What is recorded is what was read, and that is the key the manifest verified with.
        refine List.mem_append_right _ (List.mem_singleton.mpr ?_)
        rw [hread, hstate]
        rfl
    case h_2 =>
      cases hturn
      exact hw.running (hv.toHeld.drops hstate hc')
  · cases hturn
    exact hw.goesOn hv hstate

theorem Sound.stoppingOld {next : InstalledRelease}
    (hpc : v.pc = .stoppingOld authority next m) : w.Next h w' := by
  obtain ⟨hstate, hnext, hrecorded, hpending, haccepted, htried⟩ : v.state = w.persisted ∧
    Staged next m ∧ Recorded h w authority next m ∧ w.persisted.pending = some next ∧
    next.sequence = w.persisted.acceptedSequence ∧ ∀ t ∈ w.tried, t < next.sequence := hv.atPc hpc
  obtain ⟨c, bound, hb, hc, -⟩ := Supervisor.assertBinding_eq authority e.binding v
  simp only [turn, hpc, hb] at hturn
  split_ifs at hturn with hok hchild
  · cases hturn
    exact hw.goesOn hv trivial
  · cases hturn
    refine ⟨⟨hw.valid, ?_, ?_, ?_⟩, .refl hw.valid, .inr ⟨next, hpending, rfl⟩, fun _ _ hr ↦ hr⟩
    · refine List.pairwise_append.mpr ⟨hw.increasing, List.pairwise_singleton _ _, ?_⟩
      intro t ht t' ht'
      rw [List.mem_singleton.mp ht']
      exact htried t ht
    · intro t ht
      rcases List.mem_append.mp ht with ht | ht
      · exact hw.tried t ht
      · rw [List.mem_singleton.mp ht]
        exact haccepted.le
    · intro u hu
      cases hu
      have hsound : Supervisor.Sound h w { v with candidate := c, pc := .ending } :=
        hv.toHeld.drops trivial hc
      exact ⟨⟨hsound.candidate, Supervisor.others_spawn hv.others hchild⟩, hstate, hnext, hrecorded,
        haccepted.le⟩
  · cases hturn
    exact hw.running (hv.toHeld.drops hstate hc)
  · cases hturn
    exact hw.goesOn hv trivial

theorem Sound.trying {next : InstalledRelease}
    (hpc : v.pc = .trying authority next m) : w.Next h w' := by
  obtain ⟨hstate, hnext, hrecorded, haccepted⟩ : v.state = w.persisted ∧ Staged next m ∧
    Recorded h w authority next m ∧ next.sequence ≤ w.persisted.acceptedSequence := hv.atPc hpc
  obtain ⟨c, bound, hb, hc, -⟩ := Supervisor.assertBinding_eq authority e.binding v
  simp only [turn, hpc, hb] at hturn
  -- A trial that passed is in the history before its release is activated.
  have hpassed {u : Supervisor}
      (hu : u.Sound h { w with passed := w.passed ++ [(next, m, e.binding')] }) :
      w.Next h ({ w with passed := w.passed ++ [(next, m, e.binding')] }.running u) :=
    hw.runs rfl rfl (List.Subset.refl _) hu
  split at hturn
  case h_1 hok =>
    simp only [hok, Bool.false_eq_true, if_false, Option.some.injEq] at hturn
    rw [← hturn]
    exact hw.running (hv.toHeld.drops hstate hc)
  case h_2 hok _ =>
    simp only [hok, if_true, Option.some.injEq] at hturn
    rw [← hturn]
    exact hpassed (hv.toHeld.drops trivial hc)
  case h_3 binding hok hread =>
    simp only [hok, if_true] at hturn
    by_cases hbinding : binding = authority
    · rw [if_pos hbinding, Option.some.injEq] at hturn
      rw [← hturn]
      exact hpassed (hv.toHeld.drops ⟨next, m, authority,
        congrArg (Supervisor.activated · next) hstate, haccepted, by simp [hread, hbinding], hnext,
        hrecorded⟩ hc)
    · rw [if_neg hbinding, Option.some.injEq] at hturn
      rw [← hturn]
      exact hpassed (hv.toHeld.drops hstate hc)

theorem Sound.stoppingTrial (hpc : v.pc = .stoppingTrial) : w.Next h w' := by
  have hstate : v.state = w.persisted := hv.atPc hpc
  simp only [turn, hpc] at hturn
  split_ifs at hturn with hok hchild
  · cases hturn
    exact hw.running (hv.toHeld.sound ⟨congrArg Supervisor.settled hstate, hchild⟩)
  · cases hturn
    exact hw.running (hv.toHeld.sound trivial)

theorem Sound.pruning (hpc : v.pc = .pruning) : w.Next h w' := by
  have hstate : v.state = w.persisted := hv.atPc hpc
  simp only [turn, hpc, Option.some.injEq] at hturn
  rw [← hturn]
  refine hw.next rfl rfl (fun r hr hmem ↦ List.mem_filter.mpr ⟨hmem, ?_⟩) fun u hu ↦ ?_
  · simp [List.mem_map_of_mem (f := (·.directory)) (hstate ▸ hr : r ∈ v.state.refs)]
  cases hu
  exact hv.toHeld.sound hstate

theorem Sound.writing {k : Written} (hpc : v.pc = .writing k) : w.Next h w' := by
  have hk : Changes h w v k := hv.atPc hpc
  have hpersists := hk.persists hw.valid
  have hthrown (w'' : World) :
      ({ v with pc := Supervisor.afterThrow k } : Supervisor).Sound h w'' :=
    hv.toHeld.sound (Supervisor.at_afterThrow k)
  simp only [turn, hpc] at hturn
  split_ifs at hturn
  · cases hturn
    refine hw.persist hpersists (fun u hu ↦ ?_) rfl rfl rfl
    cases hu
    have hafter := hv.afterWrite hk hw.tried e
    exact ⟨hafter.toHeld, hafter.here⟩
  · cases hturn
    refine hw.persist hpersists (fun u hu ↦ ?_) rfl rfl rfl
    cases hu
    exact hthrown _
  · cases hturn
    exact hw.running (hthrown w)

theorem Sound.turn_next : w.Next h w' := by
  have hheld := hv.toHeld
  cases hpc : v.pc with
  | fetching => exact hw.fetching hv hturn hpc
  | staging => exact hw.staging hv hturn hpc
  | verifying => exact hw.verifying hv hturn hpc
  | draining => exact hw.draining hv hturn hpc
  | stoppingOld => exact hw.stoppingOld hv hturn hpc
  | trying => exact hw.trying hv hturn hpc
  | stoppingTrial => exact hw.stoppingTrial hv hturn hpc
  | pruning => exact hw.pruning hv hturn hpc
  | writing => exact hw.writing hv hturn hpc
  | loadIdentity =>
    obtain ⟨hstate, hchild⟩ : v.state = w.persisted ∧ v.child ≠ some .running := hv.atPc hpc
    simp only [turn, hpc] at hturn
    split_ifs at hturn
    · cases hturn
      exact hw.running (hheld.spawnActive hstate hchild .start e)
    · cases hturn
      exact hw.ended
  | crashSleep =>
    obtain ⟨hstate, hchild⟩ : v.state = w.persisted ∧ v.child ≠ some .running := hv.atPc hpc
    simp only [turn, hpc] at hturn
    split_ifs at hturn
    · cases hturn
      exact hw.running (hheld.sound trivial)
    · cases hturn
      exact hw.running (hheld.spawnActive hstate hchild .restart e)
  | top =>
    simp only [turn, hpc, Option.some.injEq] at hturn
    exact hturn ▸ hw.running (hheld.head (hv.atPc hpc))
  | check =>
    simp only [turn, hpc, Option.some.injEq] at hturn
    exact hturn ▸ hw.running (hheld.checkUpdates (hv.atPc hpc) e)
  | checking | leasing =>
    have hat := hv.atPc hpc
    have hstate : v.state = w.persisted := hat.1
    simp only [turn, hpc] at hturn
    by_cases hok : e.ok = true
    · rw [if_pos hok] at hturn
      cases hturn
      exact hw.asserting hv hat fun _ ↦ hstate
    · rw [if_neg hok] at hturn
      cases hturn
      refine hw.goesOn hv ?_
      first | exact hstate | split_ifs <;> exact hstate
  | probing =>
    simp only [turn, hpc, Option.some.injEq] at hturn
    exact hturn ▸ hw.running (hheld.sound (hv.atPc hpc))
  | resuming k =>
    cases k with
    | sleep =>
      simp only [turn, hpc, Option.some.injEq] at hturn
      exact hturn ▸ hw.goesOn hv (hv.atPc hpc)
    | ending =>
      simp only [turn, hpc, Option.some.injEq] at hturn
      exact hturn ▸ hw.running (hheld.sound trivial)
  | sleeping =>
    simp only [turn, hpc, Option.some.injEq] at hturn
    exact hturn ▸ hw.goesOn hv (hv.atPc hpc)
  | ending =>
    simp only [turn, hpc, Option.some.injEq] at hturn
    exact hturn ▸ hw.ended

end

theorem Sound.read (hw : w.Sound h) :
    readUpdateState (w.disk.map UpdateState.encode) = .ok w.persisted := by
  cases hdisk : w.disk with
  | none => rw [persisted, hdisk]; rfl
  | some s =>
    have hs : w.persisted = s := by rw [persisted, hdisk]; rfl
    rw [hs]
    exact readUpdateState_encode (hs ▸ hw.valid)

theorem Sound.boot (hw : w.Sound h) : w.Next h w.boot := by
  unfold World.boot
  rw [hw.read]
  simp only
  split_ifs <;>
    exact hw.running ⟨⟨fun _ hc ↦ (nomatch hc), rfl⟩, rfl, fun hc ↦ (nomatch hc)⟩

/-- **Every step of a sound world.** -/
theorem Sound.step (hw : w.Sound h) {ev : Event} (hstep : w.step h ev = some w') : w.Next h w' := by
  cases ev with
  | boot =>
    simp only [World.step] at hstep
    split_ifs at hstep
    cases hstep
    exact hw.boot
  | crash =>
    obtain ⟨v, hv, rfl⟩ := Option.map_eq_some_iff.mp hstep
    split
    case h_1 k hpc =>
      have hk : Changes h w v k := (hw.proc v hv).atPc hpc
      exact hw.persist (hk.persists hw.valid) (fun _ hu ↦ nomatch hu) rfl rfl rfl
    case h_2 => exact hw.ended
  | turn =>
    obtain ⟨v, hv, hturn⟩ := Option.bind_eq_some_iff.mp hstep
    exact hw.turn_next (hw.proc v hv) hturn
  | signal =>
    obtain ⟨v, hv, rfl⟩ := Option.map_eq_some_iff.mp hstep
    have hsound := hw.proc v hv
    exact hw.running (hsound.toHeld.sound (hsound.here.frame rfl rfl id))
  | childExits | childNoticed =>
    obtain ⟨v, hv, hexits⟩ := Option.bind_eq_some_iff.mp hstep
    have hsound := hw.proc v hv
    split_ifs at hexits
    cases hexits
    exact hw.running (hsound.toHeld.sound (At.frame (v := v) rfl rfl (by simp) hsound.here))

/-! ## Runs -/

def initial (releases : List String) : World := { releases }

theorem sound_initial (h : Platform) (releases : List String) : (initial releases).Sound h where
  valid := ⟨Nat.zero_le _, fun _ hr ↦ nomatch hr⟩
  increasing := .nil
  tried := fun _ ht ↦ nomatch ht
  proc := fun _ hv ↦ nomatch hv

structure CrashSafe (h : Platform) (w w' : World) : Prop where
  accepted : w.persisted.acceptedSequence ≤ w'.persisted.acceptedSequence
  /-- A trial is persisted, as pending, only for a sequence above the accepted one, and for a
  manifest that verifies above it with the pinned key of the binding that was read. -/
  pending : ∀ r ∈ w'.persisted.pending, w.persisted.pending = some r ∨
    w.persisted.acceptedSequence < r.sequence ∧ ∃ m binding, (r.sequence : ℤ) = m.sequence ∧
      (r, m, some binding, w.persisted.acceptedSequence) ∈ w.recorded ∧
      Verified h binding w.persisted.acceptedSequence m
  trial : w'.tried = w.tried ∨
    ∃ r, w.persisted.pending = some r ∧ w'.tried = w.tried ++ [r.sequence]
  once : w'.tried.Nodup
  /-- The active release changes to the previous one, or the bootstrap, or to a release whose trial
  passed; its manifest verified with the pinned key of the binding that was read when the trial was
  recorded, above the sequence accepted then, and the same binding was read after the trial. -/
  active : w'.persisted.active ≠ w.persisted.active → w'.persisted.active = w.persisted.previous ∨
    ∃ r m binding accepted, w'.persisted.active = some r ∧ (r.sequence : ℤ) = m.sequence ∧
      (r, m, some binding) ∈ w.passed ∧ (r, m, some binding, accepted) ∈ w.recorded ∧
      Verified h binding accepted m
  readable : readUpdateState (w'.disk.map UpdateState.encode) = .ok w'.persisted
  kept : ∀ r ∈ w.persisted.refs, r.directory ∈ w.releases → r.directory ∈ w'.releases
  alive : ∀ v ∈ w'.proc, v.alive ≤ 1

theorem Next.crashSafe (hnext : w.Next h w') : w.CrashSafe h w' where
  accepted := hnext.persists.accepted
  pending := hnext.persists.pending
  trial := hnext.tried
  once := hnext.sound.increasing.imp fun hlt ↦ hlt.ne
  active := by
    intro hchanged
    rcases hnext.persists.active with hsame | hback |
      ⟨r, m, binding, hr, hpassed, hstaged, accepted, hrecorded, hverified⟩
    · exact absurd hsame hchanged
    · exact .inl hback
    · exact .inr ⟨r, m, binding, accepted, hr, hstaged.sequence, hpassed, hrecorded, hverified⟩
  readable := hnext.sound.read
  kept := hnext.kept
  alive := by
    intro v hv
    rw [Supervisor.alive, (hnext.sound.proc v hv).others]
    split_ifs <;> simp

/-- **Updates are crash safe**: every step of every run, with crashes and failures anywhere in it.
-/
theorem updates_crash_safe (h : Platform) (releases : List String) {es : List Event} {w w' : World}
    {ev : Event} (hrun : EventMachine.run (step h) (initial releases) es = some w)
    (hstep : w.step h ev = some w') : w.CrashSafe h w' := by
  have hw : w.Sound h := EventMachine.run_invariant hrun (sound_initial h releases)
    fun _ _ _ hs hs' ↦ (hs.step hs').sound
  exact (hw.step hstep).crashSafe

def trusting : Platform := ⟨"linux", "x64", fun binding _ ↦ binding = "k"⟩

def release : ReleaseManifest :=
  { kind := "swarmlet-release", schema := 1, sequence := 1, version := "1.0.0", platform := "linux"
    arch := "x64", issuedAt := 0, expiresAt := 100
    files := [⟨"swarmlet-node", 1, String.ofList (List.replicate 64 '0')⟩]
    signature := String.ofList (List.replicate 88 'A') }

def answered : Event :=
  .turn { binding := some "k", binding' := some "k", manifest := some release
          uuid := String.ofList (List.replicate 36 '0') }

def update : List Event :=
  .boot :: List.replicate 11 answered ++ .childExits :: List.replicate 2 answered

/-- The process dies while it activates the release, after the file was renamed. -/
theorem updates_crash_safe_activation :
    ∃ w w', EventMachine.run (step trusting) (initial []) update = some w ∧
      w.step trusting (.crash true) = some w' ∧ w.persisted.active = none ∧
      w'.persisted.active.map (·.sequence) = some 1 ∧ w'.tried = [1] ∧ w.CrashSafe trusting w' := by
  obtain ⟨w, hrun, hbefore, hafter⟩ := EventMachine.exists_run (step trusting) (initial []) update
    (fun w ↦ w.persisted.active = none ∧ (w.step trusting (.crash true)).any (fun w' ↦
      decide (w'.persisted.active.map (·.sequence) = some 1 ∧ w'.tried = [1])) = true)
    (by decide +kernel)
  cases hstep : w.step trusting (.crash true) with
  | none => simp [hstep] at hafter
  | some w' =>
    rw [hstep] at hafter
    obtain ⟨hactive, htried⟩ := of_decide_eq_true hafter
    exact ⟨w, w', hrun, hstep, hbefore, hactive, htried, updates_crash_safe trusting [] hrun hstep⟩

end World

end Swarmlet.Agent
