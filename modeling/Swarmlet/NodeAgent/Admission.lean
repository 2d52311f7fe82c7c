import Swarmlet.Control.Planner

/-!
# What the owner of a node admits

The agent's own rules, which it checks against its current offer before it starts the engine of an
assignment: the offer is enabled and has the role of the assignment's kind, and the memory and CPU
limits the engine is held to are positive safe integers within the offer. Limits that control left
open are the whole offer. A stop and the watch of a server somebody else owns start no engine and
are always admitted.
-/

namespace Swarmlet

/-! ## Roles -/

def Assignment.ownerRole : Assignment → Option Role
  | .worker _ => some .worker
  | .coordinator _ => some .coordinator
  | .replica a => if a.external.isSome then none else some .replica
  | .stage _ => some .worker
  | .stop _ _ => none

def assertOwnerAllows (a : Assignment) (offer : Offer) : Except String Unit :=
  match a.ownerRole with
  | none => .ok ()
  | some role =>
    if offer.enabled && offer.roles.has role then .ok ()
    else .error (s!"owner offer does not allow {role.text}; stop assignments before changing " ++
      "resources")

/-! ## Limits -/

structure Limits where
  ramMiB : ℕ
  cpuCores : ℕ
deriving DecidableEq

def Offer.limits (offer : Offer) (enforce : Option Enforce) : Limits where
  ramMiB := (enforce.bind (·.ramMiB)).getD offer.ramMiB
  cpuCores := (enforce.bind (·.cpuCores)).getD offer.cpuCores

/-- The limits control puts on an assignment. A native context has two fixed threads. -/
def Assignment.enforce : Assignment → Option Enforce
  | .worker a => a.enforce
  | .coordinator a => a.enforce
  | .replica a => a.enforce.map fun e ↦ ⟨some e.ramMiB, some e.cpuCores⟩
  | .stage a => some ⟨some a.enforceRamMiB, some 2⟩
  | .stop _ _ => none

def Assignment.limits (a : Assignment) (offer : Offer) : Limits := offer.limits a.enforce

def safeWithin (n bound : ℕ) : Bool := n ≤ MAX_SAFE_INTEGER && n ≤ bound

def checkReplica (offer : Offer) (l : Limits) : Except String Unit :=
  if l.ramMiB = 0 ∨ l.cpuCores < 1 then
    .error "replica needs a positive RAM budget and at least one CPU core"
  else if safeWithin l.ramMiB offer.ramMiB && safeWithin l.cpuCores offer.cpuCores then .ok ()
  else .error "replica allocation exceeds this node's current offer"

def checkSpawn (offer : Offer) (l : Limits) : Except String Unit :=
  if 1 ≤ l.ramMiB ∧ safeWithin l.ramMiB offer.ramMiB ∧
      1 ≤ l.cpuCores ∧ safeWithin l.cpuCores offer.cpuCores then .ok ()
  else .error "assignment allocation exceeds this node's current offer"

def ownerAdmission (offer : Offer) (a : Assignment) : Except String Unit := do
  assertOwnerAllows a offer
  match a with
  | .stop _ _ => .ok ()
  | .replica r =>
    if r.external.isSome then .ok ()
    else do
      checkReplica offer (a.limits offer)
      checkSpawn offer (a.limits offer)
  | _ => checkSpawn offer (a.limits offer)

structure Limits.Within (l : Limits) (offer : Offer) : Prop where
  ram_pos : 1 ≤ l.ramMiB
  ram_le : l.ramMiB ≤ offer.ramMiB
  ram_safe : l.ramMiB ≤ MAX_SAFE_INTEGER
  cpu_pos : 1 ≤ l.cpuCores
  cpu_le : l.cpuCores ≤ offer.cpuCores
  cpu_safe : l.cpuCores ≤ MAX_SAFE_INTEGER

theorem checkSpawn_ok {offer : Offer} {l : Limits} : checkSpawn offer l = .ok () ↔
    l.Within offer := by
  simp only [checkSpawn, safeWithin, Bool.and_eq_true, decide_eq_true_eq]
  split_ifs with h
  · exact iff_of_true rfl ⟨h.1, h.2.1.2, h.2.1.1, h.2.2.1, h.2.2.2.2, h.2.2.2.1⟩
  · refine iff_of_false (by simp) fun hl ↦ h ?_
    exact ⟨hl.ram_pos, ⟨hl.ram_safe, hl.ram_le⟩, hl.cpu_pos, hl.cpu_safe, hl.cpu_le⟩

/-- **Admission**: an assignment that starts an engine is admitted exactly when the offer is
enabled, has the role and holds the limits. -/
theorem ownerAdmission_ok {offer : Offer} {a : Assignment} {role : Role}
    (hrole : a.ownerRole = some role) : ownerAdmission offer a = .ok () ↔
      offer.enabled = true ∧ offer.roles.has role = true ∧ (a.limits offer).Within offer := by
  have howner : assertOwnerAllows a offer = .ok () ↔
      offer.enabled = true ∧ offer.roles.has role = true := by
    simp only [assertOwnerAllows, hrole, ← Bool.and_eq_true]
    split_ifs with h <;> simp [h]
  constructor
  · intro h
    obtain ⟨_, hallows, h⟩ := Checked.bind_ok h
    obtain ⟨henabled, hoffered⟩ := howner.mp hallows
    refine ⟨henabled, hoffered, checkSpawn_ok.mp ?_⟩
    cases a with
    | stop => cases hrole
    | replica r =>
      by_cases hext : r.external.isSome = true
      · simp [Assignment.ownerRole, hext] at hrole
      · simp only [hext] at h
        obtain ⟨_, -, h⟩ := Checked.bind_ok h
        exact h
    | worker | coordinator | stage => exact h
  · rintro ⟨henabled, hoffered, hwithin⟩
    have hspawn := checkSpawn_ok.mpr hwithin
    refine Checked.bind_of_ok (howner.mpr ⟨henabled, hoffered⟩) ?_
    cases a with
    | stop => cases hrole
    | replica r =>
      by_cases hext : r.external.isSome = true
      · simp [Assignment.ownerRole, hext] at hrole
      · simp only [hext]
        refine Checked.bind_of_ok (a := ()) ?_ hspawn
        have hram := hwithin.ram_pos
        have hcpu := hwithin.cpu_pos
        rw [checkReplica, if_neg (by omega)]
        simp [safeWithin, hwithin.ram_safe, hwithin.ram_le, hwithin.cpu_safe, hwithin.cpu_le]
    | worker | coordinator | stage => exact hspawn

end Swarmlet
