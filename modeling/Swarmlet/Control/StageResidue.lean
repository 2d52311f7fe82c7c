import Swarmlet.Control.StageGenerate

/-!
# A generation leaves nothing behind

What a generation has said when it ends. As long as it has only asked for the state of the endpoints
and for the tokens of the prompt, nothing has changed there. From then on every capsule file is
tracked before it is made, so the clean-up knows all of them whatever stopped the generation, and it
has no failure only if every deletion and every reset was acknowledged (`generate_leaves`).
-/

namespace Swarmlet.Stage

open Js Json Routine

/-! ## What questions do -/

def mutates : Question → Bool
  | .command _ (.eval _ _ _) | .command _ (.exportState _ _) | .command _ (.stateWrite _ _ _ _)
  | .command _ (.importState _ _) => true
  | _ => false

def Makes (i : ℕ) (file : String) : Question → Prop
  | .command j (.exportState _ f) => i = j ∧ (file = f ∨ file = f ++ ".json")
  | .command j (.stateWrite _ f _ _) => i = j ∧ file = f
  | _ => False

variable {i : ℕ} {q : Question} {t : List Said} {session : String}

theorem mutates_of_makes {file : String} (h : Makes i file q) :
    mutates q = true := by
  unfold Makes at h
  split at h
  · rfl
  · rfl
  · exact h.elim

def Looks (s : Locals) (t : List Said) (s' : Locals) : Prop :=
  s' = s ∧ ∀ said ∈ t, mutates said.1 = false

structure Tracks (s : Locals) (t : List Said) (s' : Locals) : Prop where
  endpoints : s'.endpoints = s.endpoints
  mutated : s'.mutated = s.mutated
  grows : ∀ i, ∀ file ∈ s.capsuleFiles i, file ∈ s'.capsuleFiles i
  makes : ∀ said ∈ t, ∀ i file, Makes i file said.1 → file ∈ s'.capsuleFiles i

theorem chains_only (P : Said → Prop) :
    Chains fun (s : Locals) (t : List Said) (s' : Locals) ↦ s' = s ∧ ∀ said ∈ t, P said where
  refl _ := ⟨rfl, by simp⟩
  trans := by
    rintro s t s₁ t' s' ⟨rfl, ht⟩ ⟨rfl, ht'⟩
    exact ⟨rfl, fun said hs ↦ (List.mem_append.mp hs).elim (ht said) (ht' said)⟩

theorem chains_looks : Chains Looks := chains_only _

theorem chains_tracks : Chains Tracks where
  refl _ := ⟨rfl, rfl, fun _ _ hf ↦ hf, by simp⟩
  trans := by
    intro s t s₁ t' s' h h'
    refine ⟨h'.endpoints.trans h.endpoints, h'.mutated.trans h.mutated,
      fun i file hf ↦ h'.grows i file (h.grows i file hf), fun said hs i file hmakes ↦ ?_⟩
    rcases List.mem_append.mp hs with hs | hs
    · exact h'.grows i file (h.makes said hs i file hmakes)
    · exact h'.makes said hs i file hmakes

/-! ## The body -/

theorem looks_call (hq : mutates q = false) :
    Respects Looks (call q : Exec ObjectValue) :=
  respects_call fun _ _ ↦ ⟨rfl, by simpa using hq⟩

section

variable (session : String) (endpoints : List Prepared) (i : ℕ) (onToken : Bool) (h : StageHost)

theorem looks_prepareEndpoint (target : NativeStageEndpoint) :
    Respects Looks (prepareEndpoint i target) :=
  chains_looks.bind (looks_call rfl) fun _ ↦
    chains_looks.bind (looks_call rfl) fun _ ↦
    chains_looks.bind (chains_looks.lift _) fun _ ↦
    chains_looks.bind (chains_looks.check _ _) fun _ ↦
    chains_looks.bind (chains_looks.check _ _) fun _ ↦ chains_looks.pure _

theorem looks_prepareFrom (targets : List NativeStageEndpoint) :
    Respects Looks (prepareFrom i targets) := by
  induction targets generalizing i with
  | nil => exact chains_looks.pure _
  | cons target rest ih =>
    exact chains_looks.bind (looks_prepareEndpoint i target) fun _ ↦
      chains_looks.bind (ih (i + 1)) fun _ ↦ chains_looks.pure _

theorem looks_prepare (plan : Plan) : Respects Looks (prepare plan) :=
  chains_looks.bind (looks_prepareFrom 0 _) fun _ ↦
    chains_looks.bind (chains_looks.check _ _) fun _ ↦ chains_looks.pure _

theorem looks_promptTokens (first : Prepared) (request : Request) :
    Respects Looks (promptTokens first request) := by
  refine chains_looks.bind (looks_call ?_) fun tokenized ↦ ?_
  · cases request.prompt <;> rfl
  · split
    · split_ifs
      · exact chains_looks.pure _
      · exact chains_looks.throw _
    · exact chains_looks.throw _

theorem tracks_call (hq : ∀ i file, ¬ Makes i file q) :
    Respects Tracks (call q : Exec ObjectValue) :=
  respects_call fun _ _ ↦ ⟨rfl, rfl, fun _ _ hf ↦ hf, by
    intro said hs i file hmakes
    rw [List.mem_singleton.mp hs] at hmakes
    exact absurd hmakes (hq i file)⟩

theorem tracks_evalThrough (position count : ℕ) (endpoints : List Prepared)
    (input : EvalInput) (output : Option NativeToken) :
    Respects Tracks (evalThrough session position count endpoints input output) := by
  have hcommand (e : Prepared) (input : EvalInput) :
      Respects Tracks (evalCommand e session position input count) :=
    chains_tracks.bind (tracks_call fun _ _ h ↦ h) fun _ ↦
      chains_tracks.bind (chains_tracks.check _ _) fun _ ↦ chains_tracks.pure _
  induction endpoints, input, output using evalThrough.induct with
  | case1 => exact chains_tracks.pure _
  | case2 e input _ =>
    refine chains_tracks.bind (chains_tracks.bind (hcommand e input) fun out ↦ ?_) fun _ ↦
      chains_tracks.pure _
    split
    · exact chains_tracks.pure _
    · exact chains_tracks.throw _
  | case3 e e' rest input output ih =>
    refine chains_tracks.bind (chains_tracks.bind (hcommand e input) fun out ↦ ?_) ih
    split
    · split_ifs
      · exact chains_tracks.pure _
      · exact chains_tracks.throw _
    · exact chains_tracks.throw _

theorem tracks_prefill (position : ℕ) (prompt : List ℕ) (output : Option NativeToken) :
    Respects Tracks (prefill session endpoints position prompt output) := by
  induction hk : prompt.length using Nat.strong_induction_on generalizing position prompt
    output with
  | _ k ih =>
  rw [prefill]
  split_ifs with hprompt
  · exact chains_tracks.pure _
  · have hlength := List.length_pos_iff.mpr hprompt
    have hbatch : 0 < BATCH := by decide
    refine chains_tracks.bind (tracks_evalThrough ..) fun output ↦ ih _ ?_ _ _ _ rfl
    rw [List.length_drop]
    omega

theorem tracks_emit (chunk : StageTokenChunk) : Respects Tracks (emit onToken chunk) := by
  unfold emit
  split_ifs
  · exact chains_tracks.bind (tracks_call fun _ _ h ↦ h) fun _ ↦ chains_tracks.pure _
  · exact chains_tracks.pure _

theorem tracks_decodeTokens (left position : ℕ) (output : NativeToken) (d : Decoded) :
    Respects Tracks (decodeTokens session endpoints onToken left position output d) := by
  induction left generalizing position output d with
  | zero => exact chains_tracks.pure _
  | succ left ih =>
    refine chains_tracks.bind (tracks_call fun _ _ h ↦ h) fun _ ↦ ?_
    split_ifs
    · exact chains_tracks.pure _
    · exact chains_tracks.bind (tracks_emit ..) fun _ ↦
        chains_tracks.bind (tracks_call fun _ _ h ↦ h) fun _ ↦ chains_tracks.pure _
    · refine chains_tracks.bind (tracks_emit ..) fun _ ↦
        chains_tracks.bind (tracks_call fun _ _ h ↦ h) fun _ ↦
        chains_tracks.bind (tracks_evalThrough ..) fun output ↦ ?_
      cases output with
      | some => exact ih _ _ _
      | none => exact chains_tracks.throw _

theorem mem_track (e : Prepared) (name : String) (s : Locals) :
    name ∈ (s.track e name).capsuleFiles e.index := by
  unfold Locals.track
  by_cases hname : name ∈ s.capsuleFiles e.index <;> simp [hname]

theorem tracks_track (e : Prepared) (name : String) (s : Locals) :
    Tracks s [] (s.track e name) := by
  refine ⟨rfl, rfl, fun i file hf ↦ ?_, by simp⟩
  unfold Locals.track
  simp only
  split_ifs
  · exact List.mem_append_left _ hf
  · exact hf

theorem tracks_said {s : Locals} {a : Except String ObjectValue}
    (h : ∀ i file, Makes i file q → file ∈ s.capsuleFiles i) : Tracks s [(q, a)] s :=
  ⟨rfl, rfl, fun _ _ hf ↦ hf, fun said hs i file hmakes ↦ by
    rw [List.mem_singleton.mp hs] at hmakes
    exact h i file hmakes⟩

theorem tracks_copyFile (source destination : Prepared) (session name : String) (max : ℕ)
    (expected : Option ℕ) (offset : ℕ) (size : Option ℕ) (bytes : List ℕ) :
    Respects Tracks
      (copyFile source destination session name max expected offset size bytes) := by
  induction hk : size.elim (max + 1) (· - offset) using Nat.strong_induction_on
    generalizing offset size bytes with
  | _ k ih =>
  intro s t x s' hrun
  by_cases hsize : size.all (offset < ·) = true
  swap
  · rw [copyFile, if_neg hsize] at hrun
    exact chains_tracks.pure _ hrun
  have hread (a : Except String ObjectValue) :
      Tracks s [(readAt source session name offset, a)] s := tracks_said fun _ _ h ↦ h.elim
  have hwrite (data : List ℕ) (a : Except String ObjectValue) : Tracks s
      [(.command destination.index (.stateWrite session name offset data), a)]
      (s.track destination name) := by
    refine chains_tracks.trans (tracks_track destination name s) (tracks_said ?_)
    rintro i file ⟨hi, hfile⟩
    rw [hi, hfile]
    exact mem_track destination name s
  obtain ⟨answer, rest, rfl, ⟨-, ⟨rfl, rfl⟩ | ⟨data, a, rfl, rfl⟩⟩ | ⟨data, total, write,
    rest', rfl, hack, htotal, hn, -, hrest⟩⟩ := runs_copyFile hrun hsize
  · exact hread answer
  · exact chains_tracks.trans (hread answer) (hwrite data a)
  · obtain ⟨ack, rfl, -⟩ := hack.write_eq
    refine chains_tracks.trans (hread answer) (chains_tracks.trans (hwrite data _) ?_)
    refine ih _ ?_ _ _ _ rfl hrest
    have hlength := List.length_pos_iff.mpr hack.data_ne
    have hwithin := hack.within
    rw [← hk]
    cases size with
    | none =>
      have hmax := reported_le htotal
      simp only [Option.elim]
      omega
    | some n =>
      obtain rfl := hn n rfl
      simp only [Option.elim]
      omega

theorem tracks_transfer (source destination : Prepared) (session file : String) :
    Respects Tracks (transfer h source destination session file) := by
  intro s t x s' hrun
  rw [transfer, track, track, runs_modify_bind, runs_modify_bind] at hrun
  -- Both files of the source are tracked before the export makes them.
  have hexport (a : Except String ObjectValue) :
      Tracks s [(.command source.index (.exportState session file), a)]
        ((s.track source file).track source (file ++ ".json")) := by
    refine chains_tracks.trans (tracks_track source file s) (chains_tracks.trans
      (tracks_track source (file ++ ".json") _) (tracks_said ?_))
    rintro i name ⟨rfl, rfl | rfl⟩
    · exact (tracks_track source _ _).grows _ _ (mem_track source _ s)
    · exact mem_track source _ _
  rcases runs_call_bind hrun with ⟨e, rfl, -, rfl⟩ | ⟨exported, t', rfl, hrest⟩
  · exact hexport _
  refine chains_tracks.trans (hexport _) ?_
  cases hbytes : integerOf 1 MAX_STATE (get exported "bytes") with
  | none =>
    simp only [hbytes] at hrest
    exact chains_tracks.throw _ hrest
  | some =>
    simp only [hbytes] at hrest
    refine chains_tracks.bind (chains_tracks.check _ _) (fun _ ↦
      chains_tracks.bind (tracks_copyFile ..) fun _ ↦
      chains_tracks.bind (chains_tracks.check _ _) fun _ ↦
      chains_tracks.bind (tracks_copyFile ..) fun _ ↦
      chains_tracks.bind (chains_tracks.lift _) fun document ↦ ?_) hrest
    split
    · exact chains_tracks.bind (chains_tracks.check _ _) fun _ ↦ chains_tracks.lift _
    · exact chains_tracks.throw _

theorem tracks_continuation (mode : NativeMode) (session : String) (position : ℕ)
    (endpoints : List Prepared) :
    Respects Tracks (continuation h mode session position endpoints) := by
  unfold continuation
  split
  · exact chains_tracks.pure _
  · exact chains_tracks.bind (tracks_transfer ..) fun _ ↦
      chains_tracks.bind (tracks_call fun _ _ h ↦ h) fun _ ↦
      chains_tracks.bind (chains_tracks.check _ _) fun _ ↦ chains_tracks.pure _
  · exact chains_tracks.throw _

theorem tracks_evaluate (mode : NativeMode) (session : String) (onToken : Bool)
    (maxTokens : ℕ) (endpoints : List Prepared) (prompt : List ℕ) :
    Respects Tracks (evaluate h mode session onToken maxTokens endpoints prompt) := by
  refine chains_tracks.bind (tracks_prefill ..) fun output ↦
    chains_tracks.bind (tracks_continuation ..) fun decodeEndpoints ↦ ?_
  split
  · exact chains_tracks.throw _
  · refine chains_tracks.bind (tracks_decodeTokens ..) fun d ↦ ?_
    simp only
    split_ifs
    · exact chains_tracks.bind (tracks_emit ..) fun _ ↦ chains_tracks.pure _
    · exact chains_tracks.bind (chains_tracks.pure _) fun _ ↦ chains_tracks.pure _

end

theorem prepareFrom_index {targets : List NativeStageEndpoint} {s s' : Locals}
    {prepared : List Prepared} (h : (prepareFrom i targets).Runs s t (.ok prepared) s') :
    prepared.map (·.index) = List.range' i targets.length := by
  induction targets generalizing i s t prepared s' with
  | nil =>
    obtain ⟨-, hprepared, -⟩ := runs_pure h
    cases hprepared
    rfl
  | cons target rest ih =>
    obtain ⟨e, s₁, t₁, t₂, -, he, h⟩ := runs_bind_ok h
    obtain ⟨others, s₂, t₃, t₄, -, hrest, h⟩ := runs_bind_ok h
    obtain ⟨-, hprepared, -⟩ := runs_pure h
    cases hprepared
    have hindex : e.index = i := by
      iterate 5 obtain ⟨_, _, _, _, -, -, he⟩ := runs_bind_ok he
      cases he
      rfl
    rw [List.map_cons, hindex, ih hrest, List.length_cons, List.range'_succ]

/-- What the `try` block has done when it ends: either no endpoint may have changed, or the clean-up
knows all endpoints and all files that may have been made. -/
theorem runs_body {h : StageHost} {plan : Plan} {request : Request} {onToken : Bool}
    {x : Except String Result} {s' : Locals}
    (hrun : (body h plan request session onToken).Runs {} t x s') :
    (s'.mutated = false ∧ ∀ said ∈ t, mutates said.1 = false) ∨
      (s'.mutated = true ∧ s'.endpoints.map (·.index) = List.range plan.endpoints.length ∧
        ∀ said ∈ t, ∀ i file, Makes i file said.1 → file ∈ s'.capsuleFiles i) := by
  rcases runs_bind hrun with ⟨e, -, he⟩ | ⟨endpoints, s₁, t₁, t₂, rfl, hprepare, hrest⟩
  · obtain ⟨rfl, hlooks⟩ := looks_prepare plan he
    exact .inl ⟨rfl, hlooks⟩
  obtain ⟨rfl, hlooks⟩ := looks_prepare plan hprepare
  have hindex : endpoints.map (·.index) = List.range plan.endpoints.length := by
    obtain ⟨prepared, s₂, t₃, t₄, -, hprepared, h⟩ := runs_bind_ok hprepare
    obtain ⟨_, _, _, _, -, -, h⟩ := runs_bind_ok h
    cases h
    rw [prepareFrom_index hprepared, List.range_eq_range']
  rw [runs_modify_bind] at hrest
  cases endpoints with
  | nil =>
    obtain ⟨rfl, -, rfl⟩ := runs_throw hrest
    exact .inl ⟨rfl, by simpa using hlooks⟩
  | cons first =>
    rcases runs_bind hrest with ⟨e, -, he⟩ | ⟨prompt, s₂, t₃, t₄, rfl, hprompt, hrest⟩
    · obtain ⟨rfl, hlooks'⟩ := looks_promptTokens first request he
      exact .inl ⟨rfl, fun said hs ↦ (List.mem_append.mp hs).elim (hlooks said) (hlooks' said)⟩
    · obtain ⟨rfl, hlooks'⟩ := looks_promptTokens first request hprompt
      have htracks := tracks_evaluate _ _ _ _ _ _ _ hrest
      refine .inr ⟨htracks.mutated, ?_, fun said hs i file hmakes ↦ ?_⟩
      · rw [htracks.endpoints]
        exact hindex
      · have hmutates := mutates_of_makes hmakes
        rcases List.mem_append.mp hs with hs | hs
        · rw [hlooks said hs] at hmutates
          cases hmutates
        rcases List.mem_append.mp hs with hs | hs
        · rw [hlooks' said hs] at hmutates
          cases hmutates
        · exact htracks.makes said hs i file hmakes

/-! ## The clean-up -/

/-- An endpoint has said that its session is empty. -/
def Empty (status : ObjectValue) : Prop :=
  isText "" (get status "session") = true ∧ isNumber 0 (get status "position") = true

def Addresses (i : ℕ) : Question → Prop
  | .command j _ => i = j
  | _ => False

theorem Addresses.unique {j : ℕ} (h : Addresses i q) (h' : Addresses j q) :
    i = j := by
  cases q with
  | command => exact Eq.trans h (Eq.symm h')
  | _ => exact h.elim

/-- **An endpoint is clear** at the end of a conversation: these files were acknowledged deleted,
and the last it has said is that its session is empty. -/
structure Clear (session : String) (i : ℕ) (files : List String) (t : List Said) : Prop where
  deleted : ∀ file ∈ files, ∃ a, (.command i (.stateDelete session file), .ok a) ∈ t ∧
    get a "deleted" = some (.bool true)
  empty : ∃ t₁ a t₂, t = t₁ ++ (.command i .status, .ok a) :: t₂ ∧ Empty a ∧
    ∀ said ∈ t₂, ¬ Addresses i said.1

theorem Clear.append {files : List String} {t' : List Said} (h : Clear session i files t)
    (ht' : ∀ said ∈ t', ¬ Addresses i said.1) :
    Clear session i files (t ++ t') := by
  obtain ⟨t₁, a, t₂, rfl, hempty, ht₂⟩ := h.empty
  refine ⟨fun file hf ↦ ?_, t₁, a, t₂ ++ t', by simp, hempty, fun said hs ↦ ?_⟩
  · obtain ⟨b, hb, hdeleted⟩ := h.deleted file hf
    exact ⟨b, List.mem_append_left _ hb, hdeleted⟩
  · exact (List.mem_append.mp hs).elim (ht₂ said) (ht' said)

theorem Clear.prepend {files : List String} {t' : List Said} (h : Clear session i files t') :
    Clear session i files (t ++ t') := by
  obtain ⟨t₁, a, t₂, rfl, hempty, ht₂⟩ := h.empty
  refine ⟨fun file hf ↦ ?_, t ++ t₁, a, t₂, by simp, hempty, ht₂⟩
  obtain ⟨b, hb, hdeleted⟩ := h.deleted file hf
  exact ⟨b, List.mem_append_right _ hb, hdeleted⟩

section CleanUp

variable {session : String} {e : Prepared} {s s' : Locals} {t : List Said}
  {failures : List StageCleanupFailure} {x : Except String (List StageCleanupFailure)}

theorem runs_cleaning_bind {operation : String} {step : Exec Unit}
    {f : List StageCleanupFailure → Exec (List StageCleanupFailure)}
    (h : (cleaning e operation step >>= f).Runs s t x s') :
    ∃ y failures s₁ t₁ t₂, t = t₁ ++ t₂ ∧ step.Runs s t₁ y s₁ ∧ (failures = [] → y = .ok ()) ∧
      (f failures).Runs s₁ t₂ x s' := by
  have hcleaning {t : List Said} {x : Except String (List StageCleanupFailure)} {s' : Locals}
      (h : (cleaning e operation step).Runs s t x s') :
      ∃ y failures, step.Runs s t y s' ∧ x = .ok failures ∧ (failures = [] → y = .ok ()) := by
    obtain ⟨y, s₁, t₁, t₂, rfl, hstep, hrest⟩ := runs_attempt_bind h
    cases y <;> obtain ⟨rfl, rfl, rfl⟩ := runs_pure hrest <;> rw [List.append_nil]
    · exact ⟨_, _, hstep, rfl, fun hnil ↦ by cases hnil⟩
    · exact ⟨_, _, hstep, rfl, fun _ ↦ rfl⟩
  rcases runs_bind h with ⟨_, -, he⟩ | ⟨a, s₁, t₁, t₂, rfl, ha, hrest⟩
  · obtain ⟨_, _, -, hx, -⟩ := hcleaning he
    cases hx
  · obtain ⟨y, failures, hstep, hx, hnil⟩ := hcleaning ha
    cases hx
    exact ⟨y, a, s₁, t₁, t₂, rfl, hstep, hnil, hrest⟩

/-- Only the endpoint itself is addressed, and nothing is changed here. -/
def Within (i : ℕ) (s : Locals) (t : List Said) (s' : Locals) : Prop :=
  s' = s ∧ ∀ said ∈ t, Addresses i said.1 ∧ mutates said.1 = false

theorem chains_within (i : ℕ) : Chains (Within i) := chains_only _

theorem within_call {q : Question} {i : ℕ} (hq : Addresses i q) (hmutates : mutates q = false) :
    Respects (Within i) (call q : Exec ObjectValue) :=
  respects_call fun _ _ ↦ ⟨rfl, by simpa using ⟨hq, hmutates⟩⟩

theorem within_deleteFile (file : String) :
    Respects (Within e.index) (deleteFile session e file) :=
  (chains_within _).bind (within_call rfl rfl) fun _ ↦ (chains_within _).check _ _

theorem within_resetEndpoint : Respects (Within e.index) (resetEndpoint session e) :=
  (chains_within _).bind (within_call rfl rfl) fun _ ↦
    (chains_within _).bind (within_call rfl rfl) fun _ ↦ (chains_within _).check _ _

theorem runs_deleteFiles {files : List String} (h : (deleteFiles session e files).Runs s t x s') :
    Within e.index s t s' ∧ ∃ failures, x = .ok failures ∧ (failures = [] → ∀ file ∈ files,
      ∃ a, (.command e.index (.stateDelete session file), .ok a) ∈ t ∧
        get a "deleted" = some (.bool true)) := by
  induction files generalizing s t x s' with
  | nil =>
    obtain ⟨rfl, rfl, rfl⟩ := runs_pure h
    exact ⟨(chains_within _).refl _, [], rfl, by simp⟩
  | cons file files ih =>
    obtain ⟨y, failures, s₁, t₁, t₂, rfl, hstep, hnil, hrest⟩ := runs_cleaning_bind h
    have hwithin := within_deleteFile file hstep
    rcases runs_bind hrest with ⟨_, -, he⟩ | ⟨rest, s₂, t₃, t₄, rfl, hfiles, hpure⟩
    · obtain ⟨-, _, hx, -⟩ := ih he
      cases hx
    obtain ⟨rfl, rfl, rfl⟩ := runs_pure hpure
    rw [List.append_nil]
    obtain ⟨hwithin', _, hx, hdeleted⟩ := ih hfiles
    cases hx
    refine ⟨(chains_within _).trans hwithin hwithin', _, rfl, fun hall name hname ↦ ?_⟩
    obtain ⟨hnone, hnone'⟩ := List.append_eq_nil_iff.mp hall
    rcases List.mem_cons.mp hname with rfl | hname
    · obtain rfl := hnil hnone
      rcases runs_call_bind hstep with ⟨_, -, hx, -⟩ | ⟨a, t', rfl, hcheck⟩
      · cases hx
      · refine ⟨a, by simp, eq_of_strictEq ?_⟩
        obtain ⟨-, hx, -⟩ := runs_check hcheck
        split_ifs at hx with hdeleted
        exact hdeleted
    · obtain ⟨a, ha, hdeleted⟩ := hdeleted hnone' name hname
      exact ⟨a, List.mem_append_right _ ha, hdeleted⟩

theorem clear_of_reset (h : (resetEndpoint session e).Runs s t (.ok ()) s') :
    Clear session e.index [] t := by
  rcases runs_call_bind h with ⟨_, -, hx, -⟩ | ⟨_, t₁, rfl, hstatus⟩
  · cases hx
  rcases runs_call_bind hstatus with ⟨_, -, hx, -⟩ | ⟨status, t₂, rfl, hcheck⟩
  · cases hx
  obtain ⟨rfl, hx, -⟩ := runs_check hcheck
  split_ifs at hx with hempty
  exact ⟨by simp, [_], status, [], rfl, Bool.and_eq_true_iff.mp hempty, by simp⟩

/-- The clean-up says nothing but deletions, resets and requests for the status, and without a
failure every endpoint is clear. -/
theorem runs_cleanUp {endpoints : List Prepared} (hnodup : (endpoints.map (·.index)).Nodup)
    (h : (cleanUp session endpoints).Runs s t x s') :
    s' = s ∧ (∀ said ∈ t, mutates said.1 = false ∧ ∃ e ∈ endpoints, Addresses e.index said.1) ∧
      ∃ failures, x = .ok failures ∧ (failures = [] → ∀ e ∈ endpoints,
        Clear session e.index (s.capsuleFiles e.index) t) := by
  induction endpoints generalizing t x s' with
  | nil =>
    obtain ⟨rfl, rfl, rfl⟩ := runs_pure h
    exact ⟨rfl, by simp, [], rfl, by simp⟩
  | cons e rest ih =>
    rw [List.map_cons, List.nodup_cons] at hnodup
    rw [cleanUp, runs_get_bind] at h
    rcases runs_bind h with ⟨_, -, he⟩ | ⟨deletions, s₁, t₁, t₂, rfl, hfiles, hrest⟩
    · obtain ⟨-, _, hx, -⟩ := runs_deleteFiles he
      cases hx
    obtain ⟨⟨rfl, hwithin⟩, _, hx, hdeleted⟩ := runs_deleteFiles hfiles
    cases hx
    obtain ⟨y, resets, s₂, t₃, t₄, rfl, hreset, hnil, hothers⟩ := runs_cleaning_bind hrest
    obtain ⟨rfl, hwithin'⟩ := within_resetEndpoint hreset
    rcases runs_bind hothers with ⟨_, -, he⟩ | ⟨failures, s₃, t₅, t₆, rfl, hclean, hpure⟩
    · obtain ⟨-, -, _, hx, -⟩ := ih hnodup.2 he
      cases hx
    obtain ⟨rfl, rfl, rfl⟩ := runs_pure hpure
    obtain ⟨rfl, hsaid, _, hx, hclear⟩ := ih hnodup.2 hclean
    cases hx
    rw [List.append_nil]
    refine ⟨rfl, fun said hs ↦ ?_, _, rfl, fun hall e' he' ↦ ?_⟩
    · rcases List.mem_append.mp hs with hs | hs
      · exact ⟨(hwithin said hs).2, e, List.mem_cons_self, (hwithin said hs).1⟩
      rcases List.mem_append.mp hs with hs | hs
      · exact ⟨(hwithin' said hs).2, e, List.mem_cons_self, (hwithin' said hs).1⟩
      · obtain ⟨hmutates, e', he', haddresses⟩ := hsaid said hs
        exact ⟨hmutates, e', List.mem_cons_of_mem _ he', haddresses⟩
    · simp only [List.append_eq_nil_iff] at hall
      rcases List.mem_cons.mp he' with rfl | he'
      · obtain rfl := hnil hall.1.2
        -- The others are other endpoints, so nothing more is said to this one.
        have hothers : ∀ said ∈ t₅, ¬ Addresses e'.index said.1 := fun said hs haddresses ↦ by
          obtain ⟨-, e'', he'', haddresses'⟩ := hsaid said hs
          exact hnodup.1 (haddresses.unique haddresses' ▸ List.mem_map_of_mem he'')
        have hempty := ((clear_of_reset hreset).append hothers).prepend (t := t₁)
        refine ⟨fun file hf ↦ ?_, hempty.empty⟩
        obtain ⟨a, ha, hacknowledged⟩ := hdeleted hall.1.1 file hf
        exact ⟨a, List.mem_append_left _ ha, hacknowledged⟩
      · rw [← List.append_assoc]
        exact (hclear hall.2 e' he').prepend

end CleanUp

/-! ## The whole generation -/

/-- **What a generation leaves**: the endpoints may have changed in its first part only. Then either
each of them is clear of every file that was made there, or the deployment was marked unsafe and its
owner was told to withdraw it. -/
def Leaves (session : String) (endpoints : ℕ) (t : List Said) : Prop :=
  ∃ t₁ t₂, t = t₁ ++ t₂ ∧ (∀ said ∈ t₂, mutates said.1 = false) ∧
    ((∀ said ∈ t₁, mutates said.1 = false) ∨
      (∀ i < endpoints, ∃ files, Clear session i files t₂ ∧
        ∀ said ∈ t₁, ∀ file, Makes i file said.1 → file ∈ files) ∨
      ∃ a failures b, (.markUnsafe, a) ∈ t₂ ∧ (.onUnsafeCleanup failures, b) ∈ t₂)

section

variable {failures : List StageCleanupFailure} {s s' : Locals} {t : List Said}
  {x : Except String (Except StageExecutionError Result)}

theorem runs_withdraw {x : Except String (List StageCleanupFailure)}
    (h : (withdraw failures).Runs s t x s') :
    ∃ a b, t = [(.markUnsafe, a), (.onUnsafeCleanup failures, b)] := by
  obtain ⟨a, t', rfl, hrest⟩ := Script.runs_ask h
  obtain ⟨b, s₁, t₁, t₂, rfl, hcall, hpure⟩ := runs_attempt_bind hrest
  obtain ⟨rfl, rfl⟩ := runs_call hcall
  cases b with
  | ok | error =>
    obtain ⟨rfl, -, -⟩ := runs_pure hpure
    exact ⟨a, _, rfl⟩

theorem runs_settle {outcome : Except String Result} (h : (settle outcome failures).Runs s t x s') :
    (failures = [] ∧ t = []) ∨
      ∃ a b, t = [(.markUnsafe, a), (.onUnsafeCleanup failures, b)] := by
  unfold settle at h
  split_ifs at h with hnil
  · exact .inl ⟨hnil, (runs_return h).1⟩
  · rcases runs_bind h with ⟨_, -, he⟩ | ⟨fs, s₁, t₁, t₂, rfl, hwithdraw, hrest⟩
    · exact .inr (runs_withdraw he)
    · rw [(runs_pure hrest).1, List.append_nil]
      exact .inr (runs_withdraw hwithdraw)

theorem generate_leaves {h : StageHost} {plan : Plan} {request : Request} {session : String}
    {onToken : Bool} (hrun : (generate h plan request session onToken).Runs {} t x s') :
    Leaves session plan.endpoints.length t := by
  obtain ⟨outcome, s, t₁, t₂, rfl, hbody, hrest⟩ := runs_attempt_bind hrun
  rw [runs_get_bind] at hrest
  have hquiet {failures : List StageCleanupFailure} {a b : Except String ObjectValue} :
      ∀ said ∈ ([(.markUnsafe, a), (.onUnsafeCleanup failures, b)] : List Said),
        mutates said.1 = false := by
    simp [mutates]
  rcases runs_body hbody with ⟨hmutated, hlooks⟩ | ⟨hmutated, hindex, hmakes⟩
  · rw [hmutated, if_neg Bool.false_ne_true] at hrest
    refine ⟨t₁, t₂, rfl, ?_, .inl hlooks⟩
    have hsettle : (settle outcome []).Runs s t₂ x s' := hrest
    rcases runs_settle hsettle with ⟨-, rfl⟩ | ⟨a, b, rfl⟩
    · simp
    · exact hquiet
  · rw [hmutated, if_pos rfl] at hrest
    refine ⟨t₁, t₂, rfl, ?_⟩
    have hnodup : (s.endpoints.map (·.index)).Nodup := hindex ▸ List.nodup_range
    rcases runs_bind hrest with ⟨_, -, he⟩ | ⟨failures, s₁, t₃, t₄, rfl, hclean,
      hsettle⟩
    · obtain ⟨-, -, _, hx, -⟩ := runs_cleanUp hnodup he
      cases hx
    obtain ⟨rfl, hsaid, _, hx, hclear⟩ := runs_cleanUp hnodup hclean
    cases hx
    rcases runs_settle hsettle with ⟨hnil, rfl⟩ | ⟨a, b, rfl⟩
    · rw [List.append_nil]
      refine ⟨fun said hs ↦ (hsaid said hs).1, .inr (.inl fun i hi ↦ ?_)⟩
      obtain ⟨e, he, rfl⟩ : ∃ e ∈ s₁.endpoints, e.index = i :=
        List.mem_map.mp (hindex ▸ List.mem_range.mpr hi)
      exact ⟨_, hclear hnil e he, fun said hs file hmade ↦ hmakes said hs _ file hmade⟩
    · refine ⟨fun said hs ↦ ?_, .inr (.inr ⟨a, failures, b, by simp, by simp⟩)⟩
      rcases List.mem_append.mp hs with hs | hs
      · exact (hsaid said hs).1
      · exact hquiet said hs

end

end Swarmlet.Stage
