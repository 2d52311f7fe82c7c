import Swarmlet.Control.Routing

/-!
# One owner per external server

An external deployment watches a server that control did not start. Two deployments that watch the
same server would fight over its route, so `create` and `start` refuse a server that another
deployment owns, and `restore` retires what a registry holds twice.

The intent to run is only ever set by a `start` that has just passed this check, in the same turn,
and no operation makes a deployment external or gives one another server. So ownership is unique in
every state.
-/

namespace Swarmlet

open Js EventMachine

section

variable {k : Deps} {T : Terms} {c : Ambient} {d : DeploymentId} {e : Surroundings} {v w : View}
  {s s' : Control}

theorem Move.external (h : Move k T c d v w) {g : Face} (hg : w.face = some g)
    (hkind : g.spec.kind = .external) : ∃ f, v.face = some f ∧ f.spec = g.spec := by
  have hplanned : g.spec.kind.planned = true → False := by simp [hkind, DeploymentKind.planned]
  cases h <;> grind [View.settle, View.setRowState, View.hear, View.expire, View.block]

theorem Dispatch.external (h : Dispatch d e v w) {g : Face} (hg : w.face = some g) :
    w.running = v.running ∧ ∃ f, v.face = some f ∧ f.spec = g.spec := by
  cases h <;> grind

theorem Move.running (h : Move k T c d v w) (hrunning : w.running = true) :
    v.running = true ∨ ∃ f, v.face = some f ∧ (f.spec.kind = .external →
      ∃ server, f.spec.server k.rt = some server ∧ ∀ d', d' ≠ d → ¬(c.views d').Owns k.rt
      server) := by
  cases h with
  | _ => grind [View.settle, View.setRowState, View.hear, View.expire, View.block, View.setState,
      View.setReady, View.halt]

theorem Move.owns (h : Move k T c d v w) {server : NodeId × String} (howns : w.Owns k.rt server) :
    v.Owns k.rt server ∨ ∀ d', d' ≠ d → ¬(c.views d').Owns k.rt server := by
  obtain ⟨hrunning, g, hg, hkind, hserver⟩ := howns
  obtain ⟨f, hf, hspec⟩ := h.external hg hkind
  rcases h.running hrunning with hold | ⟨f', hf', howner⟩
  · exact .inl ⟨hold, f, hf, by rw [hspec, hkind], by rw [hspec, hserver]⟩
  · obtain rfl := Option.mem_unique hf hf'
    obtain ⟨server', hserver', hothers⟩ := howner (by rw [hspec, hkind])
    rw [hspec, hserver] at hserver'
    exact .inr (Option.some.inj hserver' ▸ hothers)

theorem Dispatch.owns (h : Dispatch d e v w) {server : NodeId × String}
    (howns : w.Owns k.rt server) : v.Owns k.rt server := by
  obtain ⟨hrunning, g, hg, hkind, hserver⟩ := howns
  obtain ⟨hsame, f, hf, hspec⟩ := h.external hg
  exact ⟨hsame ▸ hrunning, f, hf, by rw [hspec, hkind], by rw [hspec, hserver]⟩

theorem View.Restored.owns (h : v.Restored w) {server : NodeId × String}
    (howns : w.Owns k.rt server) : v.Owns k.rt server := by
  obtain ⟨hrunning, g, hg, hkind, hserver⟩ := howns
  cases hf : v.face with
  | none => cases (h.gone hf).symm.trans hg
  | some f =>
    obtain ⟨g', hg', hspec, -⟩ := h.face f hf
    obtain rfl := Option.mem_unique hg hg'
    exact ⟨h.running hrunning, f, hf, by rw [← hspec, hkind], by rw [← hspec, hserver]⟩

/-- Every external deployment that is to run has a server, and no other owns it. -/
structure Control.Exclusive (k : Deps) (s : Control) : Prop where
  server : ∀ d f, (s.view d).face = some f → f.spec.kind = .external → (s.view d).running = true →
    ∃ server, f.spec.server k.rt = some server
  unique : ∀ d d' server, (s.view d).Owns k.rt server → (s.view d').Owns k.rt server → d = d'

theorem Control.Exclusive.change (hs : s.Exclusive k)
    (hothers : ∀ d', d' ≠ d → s'.view d' = s.view d') (hserver : ∀ f, (s'.view d).face = some f →
    f.spec.kind = .external →
      (s'.view d).running = true → ∃ server, f.spec.server k.rt = some server)
    (howns : ∀ server, (s'.view d).Owns k.rt server → (s.view d).Owns k.rt server ∨
      ∀ d', d' ≠ d → ¬(s.view d').Owns k.rt server) : s'.Exclusive k := by
  have hother : ∀ d' server, d' ≠ d → (s'.view d').Owns k.rt server →
      ¬(s'.view d).Owns k.rt server := by
    intro d' server hne howns' howned
    rw [hothers d' hne] at howns'
    rcases howns server howned with hold | hnone
    · exact hne (hs.unique d' d server howns' hold)
    · exact hnone d' hne howns'
  refine ⟨fun d' f hf hkind hrunning ↦ ?_, fun d₁ d₂ server h₁ h₂ ↦ ?_⟩
  · by_cases hd : d' = d
    · subst hd
      exact hserver f hf hkind hrunning
    · rw [hothers d' hd] at hf hrunning
      exact hs.server d' f hf hkind hrunning
  · by_contra hne
    by_cases hd₁ : d₁ = d
    · subst hd₁
      exact hother d₂ server (Ne.symm hne) h₂ h₁
    by_cases hd₂ : d₂ = d
    · subst hd₂
      exact hother d₁ server hne h₁ h₂
    · rw [hothers d₁ hd₁] at h₁
      rw [hothers d₂ hd₂] at h₂
      exact hne (hs.unique d₁ d₂ server h₁ h₂)

theorem Micro.exclusive (hm : Micro k T s s') (hs : s.Exclusive k) : s'.Exclusive k := by
  cases hm with
  | slot d y hknown h =>
    refine hs.change (fun d' hne ↦ Control.view_on_of_ne s hne _) (fun g hg hkind hrunning ↦ ?_)
      fun server howns ↦ ?_
    · rw [Control.view_on_self] at hg hrunning
      obtain ⟨f, hf, hspec⟩ := h.external hg hkind
      rw [← hspec] at hkind ⊢
      rcases h.running hrunning with hold | ⟨f', hf', howner⟩
      · exact hs.server d f hf hkind hold
      · obtain rfl := Option.mem_unique hf hf'
        obtain ⟨server, hserver, -⟩ := howner hkind
        exact ⟨server, hserver⟩
    · rw [Control.view_on_self] at howns
      exact h.owns howns
  | dispatch d y hknown h =>
    refine hs.change (fun d' hne ↦ Control.view_on_of_ne s hne _) (fun g hg hkind hrunning ↦ ?_)
      fun server howns ↦ ?_
    · rw [Control.view_on_self] at hg hrunning
      obtain ⟨hsame, f, hf, hspec⟩ := h.external hg
      rw [← hspec] at hkind ⊢
      exact hs.server d f hf hkind (hsame ▸ hrunning)
    · rw [Control.view_on_self] at howns
      exact .inl (h.owns howns)
  | around s' h =>
    have hview : s'.view = s.view := funext fun d ↦ by rw [Control.view, h.slots, Control.view]
    exact ⟨hview ▸ hs.server, hview ▸ hs.unique⟩
  | created d y spec hnew hview =>
    refine hs.change (d := d) (fun d' hne ↦ by simp [Control.view, hne])
      (fun g hg hkind hrunning ↦ ?_) fun server howns ↦ ?_
    · simp [Control.view, hview, View.created] at hrunning
    · simp [Control.view, hview, View.created, View.Owns] at howns
  | restart s' hknown hslots =>
    refine ⟨fun d g hg hkind hrunning ↦ ?_, fun d d' server h h' ↦
      hs.unique d d' server ((hslots d).owns h) ((hslots d').owns h')⟩
    cases hf : (s.view d).face with
    | none => cases ((hslots d).gone hf).symm.trans hg
    | some f =>
      obtain ⟨g', hg', hspec, -⟩ := (hslots d).face f hf
      obtain rfl := Option.mem_unique hg hg'
      rw [hspec] at hkind ⊢
      exact hs.server d f hf hkind ((hslots d).running hrunning)

/-- **One owner per external server**: in every state of every run no two external deployments that
are to run have the same node and the same normalized origin. -/
theorem external_owner_unique {es : List Event} (h : run (step k) Control.init es = some s) :
    ∀ d d' dep dep' ext ext', s.getDeployment d = some dep → s.getDeployment d' = some dep' →
      dep.spec.kind = .external → dep'.spec.kind = .external →
      (s.slots d).intent.running = true → (s.slots d').intent.running = true →
      dep.spec.external = some ext → dep'.spec.external = some ext' → ext.nodeId = ext'.nodeId →
      Control.externalOrigin k.rt ext.url = Control.externalOrigin k.rt ext'.url → d = d' := by
  intro d d' dep dep' ext ext' hdep hdep' hkind hkind' hrunning hrunning' hext hext' hnode horigin
  have hs : s.Exclusive k := by
    refine (run_keeps h Control.init_good ⟨?_, ?_⟩
      fun T s₁ s₂ _ hs hm ↦ hm.exclusive hs).2
    · exact fun d f hf ↦ nomatch hf
    · rintro d d' server ⟨-, f, hf, -⟩
      cases hf
  obtain ⟨r, hr, rfl⟩ := Control.getDeployment_some hdep
  obtain ⟨r', hr', rfl⟩ := Control.getDeployment_some hdep'
  have hface : (s.view d).face = some r.face := Slot.face_of_dep hr
  have hface' : (s.view d').face = some r'.face := Slot.face_of_dep hr'
  obtain ⟨server, hserver⟩ := hs.server d r.face hface hkind hrunning
  have hsame : r'.face.spec.server k.rt = some server := by
    rw [← hserver]
    have hext₁ : r.face.spec.external = some ext := hext
    have hext₂ : r'.face.spec.external = some ext' := hext'
    simp [DeploymentSpec.server, hext₁, hext₂, hnode, horigin]
  exact hs.unique d d' server ⟨hrunning, _, hface, hkind, hserver⟩ ⟨hrunning', _, hface',
    hkind', hsame⟩

/-- A server changes its owner: one deployment stops, another one starts, and the first tries to. -/
def handover : List Event :=
  joins "n" ++ serves watchSpec ++ [.stop "d", .proceed "d" [] [], .report "n" "a" .stopped none,
    .proceed "d" [] [], .proceed "d" [] [], .create "e" watchSpec, .start "e", .start "d"]

theorem external_owner_unique_handover :
    ∃ s dep dep', run (step smallDeps) Control.init handover = some s ∧
      s.getDeployment "d" = some dep ∧ s.getDeployment "e" = some dep' ∧ dep.spec = watchSpec ∧
      dep'.spec = watchSpec ∧ (s.slots "e").intent.running = true ∧
      ¬(s.slots "d").intent.running = true := by
  obtain ⟨s, hrun, ⟨dep, hdep, hspec⟩, ⟨dep', hdep', hspec'⟩, hrunning⟩ :=
    exists_run (step smallDeps) Control.init handover
      (fun s ↦ (∃ dep ∈ s.getDeployment "d", dep.spec = watchSpec) ∧
        (∃ dep ∈ s.getDeployment "e", dep.spec = watchSpec) ∧
        (s.slots "e").intent.running = true) (by decide +kernel)
  refine ⟨s, dep, dep', hrun, hdep, hdep', hspec, hspec', hrunning, fun hboth ↦ ?_⟩
  have hone := external_owner_unique hrun "d" "e" dep dep' _ _ hdep hdep' (by rw [hspec]; rfl)
    (by rw [hspec']; rfl) hboth hrunning (by rw [hspec]; rfl) (by rw [hspec']; rfl) rfl rfl
  exact absurd hone (by decide)

end

end Swarmlet
