import Swarmlet.Mux.Accounting

/-!
# Who owns an id

The map of a mux says which stream the frames of an id belong to. Two things can take a stream out
of the map while it is in use: a local `open` allocates the next id without looking whether the peer
has opened a stream under it, and `close` of a handle forgets the id of the handle, whoever has it
now.

Both need an OPEN frame with an id no correct peer would use: one of this side's parity, or one that
was used before. As long as no such frame arrives the ids of all streams ever made are pairwise
different, and every stream that is neither closed nor ended is the one its id leads to.
-/

namespace Swarmlet.Mux

open EventMachine

def StreamMux.Closing (m : StreamMux) (h : Handle) : Prop :=
  ∃ rest reason, .closing rest reason ∈ m.stack ∧ h ∈ rest

def ownId (odd : Bool) (id : ℕ) : Prop := (id % 2 = 1) = (odd = true)

/-- An OPEN frame uses an id of the other side that no stream of this mux has had. -/
def Event.Polite (odd : Bool) (m : StreamMux) (e : Event) : Prop :=
  ∀ id payload, e.frame = some ⟨id, .open, payload⟩ → ¬ownId odd id ∧ ∀ x ∈ m.objs, x.id ≠ id

structure StreamMux.Owned (odd : Bool) (m : StreamMux) : Prop where
  distinct : (m.objs.map (·.id)).Nodup
  parity : ownId odd m.nextId
  used : ∀ x ∈ m.objs, ownId odd x.id → x.id < m.nextId
  owner : ∀ (h : Handle) (x : MuxStream), m.objs[h]? = some x → x.isClosed = false → ¬m.Closing h →
    m.streams.get x.id = some h

section

variable {f : Option Frame} {aborts : Prop} {odd : Bool} {m m' : StreamMux}

variable {h : Handle} {x y : MuxStream}

theorem ids_set {l : List MuxStream} (hx : l[h]? = some x) (hid : y.id = x.id) :
    (l.set h y).map (·.id) = l.map (·.id) := by
  have hlt := Entries.lt_length hx
  refine List.ext_getElem? fun i ↦ ?_
  rw [List.getElem?_map, List.getElem?_map, List.getElem?_set]
  by_cases hi : h = i
  · subst hi
    rw [if_pos rfl, if_pos hlt, hx, Option.map_some, Option.map_some, hid]
  · rw [if_neg hi]

theorem StreamMux.Owned.eq_of_id (hm : m.Owned odd) {h' : Handle} {x' : MuxStream}
    (hx : m.objs[h]? = some x) (hx' : m.objs[h']? = some x') (hid : x.id = x'.id) : h = h' := by
  have hget : ∀ {h : Handle} {x : MuxStream}, m.objs[h]? = some x →
      (m.objs.map (·.id))[h]? = some x.id := fun hx ↦ by simp [hx]
  have hlt : h < (m.objs.map (·.id)).length := by
    simpa using Entries.lt_length hx
  exact (List.getElem?_inj hlt hm.distinct).mp ((hget hx).trans (hid ▸ (hget hx').symm))

theorem StreamMux.Owned.keep (hm : m.Owned odd) (hids : m'.objs.map (·.id) = m.objs.map (·.id))
    (hnext : m'.nextId = m.nextId)
    (hlive : ∀ (h : Handle) (y : MuxStream), m'.objs[h]? = some y → y.isClosed = false →
      ¬m'.Closing h → ∃ x, m.objs[h]? = some x ∧ x.id = y.id ∧ x.isClosed = false ∧ ¬m.Closing h ∧
        (m.streams.get x.id = some h → m'.streams.get x.id = some h)) : m'.Owned odd where
  distinct := hids ▸ hm.distinct
  parity := hnext ▸ hm.parity
  used y hy hown := by
    have hmem : y.id ∈ m.objs.map (·.id) := hids ▸ List.mem_map_of_mem hy
    obtain ⟨x, hx, hid⟩ := List.mem_map.mp hmem
    rw [← hid, hnext]
    exact hm.used x hx (hid ▸ hown)
  owner h y hy hopen hclosing := by
    obtain ⟨x, hx, hid, hopen', hclosing', hget⟩ := hlive h y hy hopen hclosing
    rw [← hid]
    exact hget (hm.owner h x hx hopen' hclosing')

theorem StreamMux.Owned.put (hm : m.Owned odd) (hx : m.objs[h]? = some x)
    (hobjs : m'.objs = m.objs.set h y) (hid : y.id = x.id)
    (hopen : y.isClosed = false → x.isClosed = false) (hnext : m'.nextId = m.nextId)
    (hclosing : ∀ h', (h' = h → y.isClosed = false) → m.Closing h' → m'.Closing h')
    (hstreams : ∀ h' id, (h' = h → y.isClosed = false) → (id = x.id → h' = h) →
      m.streams.get id = some h' → m'.streams.get id = some h') : m'.Owned odd := by
  refine hm.keep (by rw [hobjs, ids_set hx hid]) hnext fun h' z hz hz' hnot ↦ ?_
  rcases Entries.of_set hobjs hz with ⟨rfl, rfl⟩ | ⟨hne, hz⟩
  · exact ⟨x, hx, hid.symm, hopen hz', fun hc ↦ hnot (hclosing h' (fun _ ↦ hz') hc),
      hstreams h' x.id (fun _ ↦ hz') fun _ ↦ rfl⟩
  · exact ⟨z, hz, rfl, hz', fun hc ↦ hnot (hclosing h' (fun he ↦ absurd he hne) hc),
      hstreams h' z.id (fun he ↦ absurd he hne) fun he ↦ (hm.eq_of_id hx hz he.symm).symm⟩

theorem StreamMux.Closing.of_stack (hc : m.Closing h) (hstack : m.stack ⊆ m'.stack) :
    m'.Closing h := by
  obtain ⟨rest, reason, hmem, hrest⟩ := hc
  exact ⟨rest, reason, hstack hmem, hrest⟩

theorem StreamMux.Closing.of_push {k : Resume} {stack : List Resume} (hc : m'.Closing h)
    (hstack : m'.stack = k :: stack) (hk : ∀ rest reason, k ≠ .closing rest reason)
    (hsub : stack ⊆ m.stack) : m.Closing h := by
  obtain ⟨rest, reason, hmem, hrest⟩ := hc
  rw [hstack] at hmem
  rcases List.mem_cons.mp hmem with rfl | hmem
  · exact absurd rfl (hk rest reason)
  · exact ⟨rest, reason, hsub hmem, hrest⟩

theorem StreamMux.Closing.invoke (hc : m.Closing h) (c : Option Call) (k : Resume) :
    (m.invoke c k).Closing h := by
  cases c with
  | none => exact hc
  | some => exact hc.of_stack (List.subset_cons_self ..)

theorem StreamMux.Closing.shrink {h' : Handle} {rest : List Handle} {reason : String}
    {stack : List Resume} (hc : m.Closing h') (hstack : m.stack = .closing (h :: rest)
    reason :: stack) (hne : h' ≠ h) (hstack' : m'.stack = .closing rest reason :: stack) :
    m'.Closing h' := by
  obtain ⟨rest', reason', hmem, hrest⟩ := hc
  rw [hstack] at hmem
  rcases List.mem_cons.mp hmem with hk | hmem
  · cases hk
    exact ⟨rest, reason, hstack' ▸ List.mem_cons_self, (List.mem_cons.mp hrest).resolve_left hne⟩
  · exact ⟨rest', reason', hstack' ▸ List.mem_cons_of_mem _ hmem, hrest⟩

theorem StreamMux.Owned.still (hm : m.Owned odd) (hobjs : m'.objs = m.objs)
    (hnext : m'.nextId = m.nextId)
    (hclosing : ∀ h' x', m.objs[h']? = some x' → x'.isClosed = false → m.Closing h' → m'.Closing h')
    (hstreams : ∀ h' x', m.objs[h']? = some x' → x'.isClosed = false → m.streams.get x'.id =
    some h' →
      ¬m'.Closing h' → m'.streams.get x'.id = some h') : m'.Owned odd := by
  refine hm.keep (by rw [hobjs]) hnext fun h' z hz hz' hnot ↦ ?_
  rw [hobjs] at hz
  exact ⟨z, hz, rfl, hz', fun hc ↦ hnot (hclosing h' z hz hz' hc),
    fun hget ↦ hstreams h' z hz hz' hget hnot⟩

theorem StreamMux.Owned.create (hm : m.Owned odd) (hobjs : m'.objs = m.objs ++ [y])
    (hnew : ∀ x ∈ m.objs, x.id ≠ y.id) (hstreams : m'.streams = m.streams.set y.id m.objs.length)
    (hstack : m.stack ⊆ m'.stack) (hparity : ownId odd m'.nextId)
    (hused : ∀ x ∈ m.objs ++ [y], ownId odd x.id → x.id < m'.nextId) : m'.Owned odd where
  distinct := by
    rw [hobjs, List.map_append]
    refine hm.distinct.append (by simp) ?_
    simpa using fun x hx ↦ hnew x hx
  parity := hparity
  used := hobjs ▸ hused
  owner h x hx hopen hclosing := by
    rcases Entries.of_append hobjs hx with hx | ⟨rfl, rfl⟩
    · rw [hstreams, JsMap.get_set_of_ne _ (hnew x (List.mem_of_getElem? hx))]
      exact hm.owner h x hx hopen fun hc ↦ hclosing (hc.of_stack hstack)
    · rw [hstreams, JsMap.get_set_self]

/-- **Every act keeps the owners**, as long as a new stream of the peer has a new id of its side. -/
theorem Act.owned (hm : m.Owned odd) (ha : Act f aborts m m')
    (hpolite : ∀ id payload, f = some ⟨id, .open, payload⟩ →
      ¬ownId odd id ∧ ∀ x ∈ m.objs, x.id ≠ id) : m'.Owned odd := by
  -- Acts that write a stream, but neither its id nor the map.
  have hwrite : ∀ {m' : StreamMux} {h x y}, m.objs[h]? = some x → m'.objs = m.objs.set h y →
      y.id = x.id → (y.isClosed = false → x.isClosed = false) → m'.nextId = m.nextId →
      m'.streams = m.streams → (∀ h', m.Closing h' → m'.Closing h') → m'.Owned odd :=
    fun hx hobjs hid hopen hnext hstreams hclosing ↦ hm.put hx hobjs hid hopen hnext
      (fun h' _ ↦ hclosing h') fun _ _ _ _ hget ↦ hstreams ▸ hget
  have hcons : ∀ k : Resume, m.stack ⊆ k :: m.stack := fun k ↦ List.subset_cons_self k m.stack
  cases ha with
  | pop hstack hover =>
    refine hm.still rfl rfl (fun h' x' _ _ hc ↦ ?_) fun _ _ _ _ hget _ ↦ hget
    obtain ⟨rest, reason, hmem, hrest⟩ := hc
    rw [hstack] at hmem
    rcases List.mem_cons.mp hmem with rfl | hmem
    · rw [show rest = [] from hover] at hrest
      cases hrest
    · exact ⟨rest, reason, hmem, hrest⟩
  | register cb hx | write chunk hx | deliver hf hget hx =>
    exact hwrite hx rfl rfl id rfl rfl fun _ hc ↦ hc.of_stack (hcons _)
  | @hand h x cb c rest stack hstack hx =>
    refine hm.put hx rfl rfl id rfl (fun h' _ hc ↦ ?_) fun _ _ _ _ hget ↦ hget
    obtain ⟨rest', reason, hmem, hrest⟩ := hc
    rw [hstack] at hmem
    rcases List.mem_cons.mp hmem with hk | hmem
    · cases hk
    · exact ⟨rest', reason, List.mem_cons_of_mem _ hmem, hrest⟩
  | registerEnd cb hx | writeLate chunk hx | buffer hf hget hx =>
    exact hwrite hx rfl rfl id rfl rfl fun _ hc ↦ hc
  | tell | refuse reason hf hget =>
    exact hm.still rfl rfl (fun _ _ _ _ hc ↦ hc.of_stack (hcons _)) fun _ _ _ _ hget _ ↦ hget
  | close payload k hx =>
    -- The id that is forgotten is the one of the stream that is closed.
    refine hm.put hx rfl rfl (fun hy ↦ nomatch hy) rfl (fun _ _ hc ↦ hc.of_stack (hcons _))
      fun h' id hne heq hget ↦ ?_
    have hid : id ≠ _ := fun he ↦ nomatch hne (heq he)
    exact (JsMap.get_erase_of_ne _ hid).trans hget
  | @finish h x reason hx =>
    exact hwrite hx (StreamMux.objs_invoke ..) rfl (by simp [MuxStream.isClosed])
      (StreamMux.nextId_invoke ..) (StreamMux.streams_invoke ..)
      fun _ hc ↦ StreamMux.Closing.invoke (m := m.ended h x reason) hc _ _
  | @closedByPeer h x id payload reason hf hget hx =>
    refine hm.put hx (StreamMux.objs_invoke ..) rfl (by simp [MuxStream.isClosed])
      (StreamMux.nextId_invoke ..) (fun _ _ hc ↦
        StreamMux.Closing.invoke (m := (m.forget id).ended h x reason) hc _ _)
      fun h' id' hne _ hget' ↦ ?_
    have hid : id' ≠ id := by
      rintro rfl
      obtain rfl := Option.mem_unique hget hget'
      simp [MuxStream.isClosed] at hne
    rw [StreamMux.streams_invoke]
    exact (JsMap.get_erase_of_ne _ hid).trans hget'
  | @openFailed h x reason hx =>
    refine hm.put hx (StreamMux.objs_invoke ..) rfl (by simp [MuxStream.isClosed])
      (StreamMux.nextId_invoke ..) (fun _ _ hc ↦
        StreamMux.Closing.invoke (m := (m.forget x.id).ended h x reason) hc _ _)
      fun h' id' hne heq hget' ↦ ?_
    have hid : id' ≠ _ := fun he ↦ by
      have := hne (heq he)
      simp [MuxStream.isClosed] at this
    rw [StreamMux.streams_invoke]
    exact (JsMap.get_erase_of_ne _ hid).trans hget'
  | @forget h id hended hid =>
    refine hm.still rfl rfl (fun _ _ _ _ hc ↦ hc) fun h' x' hx' hopen hget _ ↦ ?_
    have hne : h' ≠ h := by
      rintro rfl
      rw [MuxStream.isClosed, hended x' hx', Bool.or_true] at hopen
      cases hopen
    refine (JsMap.get_erase_of_ne _ fun he ↦ hne ?_).trans hget
    rcases hid with hgone | ⟨x, hx, rfl⟩
    · exact Option.some.inj ((he ▸ hget).symm.trans hgone)
    · exact hm.eq_of_id hx' hx he
  | «open» =>
    refine hm.create rfl (fun x hx he ↦ ?_) rfl (hcons _) ?_ fun x hx hown ↦ ?_
    · have := hm.used x hx (by rw [he]; exact hm.parity)
      exact absurd he this.ne
    · have := hm.parity
      simp only [ownId, StreamMux.call, StreamMux.create, Nat.add_mod_right] at this ⊢
      exact this
    · show x.id < m.nextId + 2
      rcases List.mem_append.mp hx with hx | hx
      · exact (hm.used x hx hown).trans (by omega)
      · rw [List.mem_singleton.mp hx]
        exact Nat.lt_add_of_pos_right (by omega)
  | accept header hf =>
    obtain ⟨hside, hnew⟩ := hpolite _ _ hf
    refine hm.create rfl hnew rfl (hcons _) hm.parity fun x hx hown ↦ ?_
    rcases List.mem_append.mp hx with hx | hx
    · exact hm.used x hx hown
    · rw [List.mem_singleton.mp hx] at hown
      exact absurd hown hside
  | closeAll reason =>
    refine hm.still rfl rfl (fun _ _ _ _ hc ↦ hc.of_stack (hcons _)) fun h' x' _ _ hget hnot ↦ ?_
    exact absurd ⟨_, reason, List.mem_cons_self, JsMap.mem_values_of_get hget⟩ hnot
  | @skip h rest reason stack hstack hended =>
    refine hm.still rfl rfl (fun h' x' hx' hopen hc ↦ ?_) fun _ _ _ _ hget _ ↦ hget
    refine hc.shrink hstack (fun he ↦ ?_) rfl
    subst he
    rw [MuxStream.isClosed, hended x' hx', Bool.or_true] at hopen
    cases hopen
  | @endNext h x rest reason stack hstack hx =>
    refine hm.put hx rfl rfl (by simp [MuxStream.isClosed]) rfl (fun h' hne hc ↦ ?_)
      fun _ _ _ _ hget ↦ hget
    refine hc.shrink hstack (fun he ↦ ?_) rfl
    have := hne he
    simp [MuxStream.isClosed] at this

theorem new_owned (odd : Bool) : (StreamMux.new odd).Owned odd where
  distinct := by simp [StreamMux.new]
  parity := by cases odd <;> simp [StreamMux.new, ownId]
  used := by simp [StreamMux.new]
  owner := by simp [StreamMux.new]

variable {codec : Codec}

theorem step_owned {e : Event} (hwf : m.Wf) (hm : m.Owned odd) (hpolite : e.Polite odd m)
    (h : step codec m e = some m') : m'.Owned odd :=
  step_keeps hwf hm h (fun _ _ hm ha ↦ ha.owned hm fun _ _ hf ↦ nomatch hf)
    fun _ _ hg ha ↦ ha.owned hm fun id payload hf ↦ hpolite id payload (hg.trans hf)

theorem step_local {e : Event} (hstep : step codec m e = some m')
    (hlocal : (∃ header, e = .open header) ∨ ∃ h' reason, e = .close h' reason ∧ h ≠ h')
    (hx : m.objs[h]? = some x) : m'.objs[h]? = some x ∧ (m'.Closing h → m.Closing h) := by
  rcases hlocal with ⟨header, rfl⟩ | ⟨h', reason, rfl, hne⟩
  · cases hstep
    unfold StreamMux.open
    split_ifs
    · exact ⟨hx, id⟩
    · exact ⟨hx, id⟩
    · exact ⟨Entries.append_left rfl hx, fun hc ↦ hc.of_push rfl (by simp) (List.Subset.refl _)⟩
  · obtain ⟨y, hy, rfl⟩ := Option.map_eq_some_iff.mp hstep
    rw [StreamMux.closeStream, hy]
    dsimp only
    split_ifs
    · exact ⟨hx, id⟩
    · exact ⟨(Entries.set_of_ne rfl hne).trans hx, fun hc ↦ hc.of_push rfl (by simp)
        (List.Subset.refl _)⟩

/-- **No peer that uses its own new ids steals a stream.** In every run in which each OPEN frame has
an id of the peer's side that no stream has had, every stream that is neither closed nor ended is
the one its id leads to; and a local `open`, or the `close` of another handle, leaves it as it is.
-/
theorem owner_of_polite {es : List Event} (h : run (step codec) (.new odd) es = some m)
    (hpolite : Always (step codec) (fun m e ↦ e.Polite odd m) (.new odd) es) :
    (∀ (h : Handle) (x : MuxStream), m.objs[h]? = some x → x.isClosed = false → ¬m.Closing h →
      m.streams.get x.id = some h) ∧
    ∀ e m' (h : Handle) (x : MuxStream), step codec m e = some m' →
      ((∃ header, e = .open header) ∨ ∃ h' reason, e = .close h' reason ∧ h ≠ h') →
      m.objs[h]? = some x → x.isClosed = false → ¬m.Closing h →
        m'.objs[h]? = some x ∧ m'.streams.get x.id = some h := by
  have hm : m.Wf ∧ m.Owned odd := by
    refine (path_of_run h hpolite).invariant (I := fun m ↦ m.Wf ∧ m.Owned odd)
      ⟨new_wf odd, new_owned odd⟩ ?_
    rintro m e m' ⟨hwf, hm⟩ hpolite hstep
    exact ⟨(step_acts hwf hstep).wf hwf, step_owned hwf hm hpolite hstep⟩
  refine ⟨hm.2.owner, fun e m' h x hstep hlocal hx hopen hclosing ↦ ?_⟩
  have hpolite' : e.Polite odd m := by
    rcases hlocal with ⟨header, rfl⟩ | ⟨h', reason, rfl, -⟩ <;> exact fun _ _ hf ↦ nomatch hf
  have hm' := step_owned hm.1 hm.2 hpolite' hstep
  obtain ⟨hx', hstay⟩ := step_local hstep hlocal hx
  exact ⟨hx', hm'.owner h x hx' hopen fun hc ↦ hclosing (hstay hc)⟩

def plainHeader : Js.Json := .obj [("kind", .str "http"), ("port", .num 80)]

/-- The peer opens a stream under an id of its side, then this side opens one. -/
def bothOpen : List Event :=
  [.handleFrame (encodeFrame 2 .open []), .returns true, .open plainHeader, .returns true]

theorem owner_of_polite_bothOpen : ∃ m x, run (step plainCodec) (.new true) bothOpen = some m ∧
    m.objs[0]? = some x ∧ m.streams.get x.id = some 0 := by
  have hpolite : Always (step plainCodec) (fun m e ↦ e.Polite true m) (.new true) bothOpen := by
    have hlocal : ∀ {m e}, e.frame = none → Event.Polite true m e := fun hnone id payload hf ↦
      nomatch hnone.symm.trans hf
    refine ⟨fun id payload hf ↦ ?_, fun _ _ ↦ ⟨hlocal rfl, fun _ _ ↦ ⟨hlocal rfl, fun _ _ ↦
      ⟨hlocal rfl, fun _ _ ↦ trivial⟩⟩⟩⟩
    rw [Event.frame, decodeFrame_encodeFrame] at hf
    cases hf
    simp [ownId, StreamMux.new]
  obtain ⟨m, hm, ⟨x, hx, hopen⟩, hstack⟩ := exists_run (step plainCodec) (.new true) bothOpen
    (fun m ↦ (∃ x ∈ m.objs[0]?, x.isClosed = false) ∧ m.stack.isEmpty = true) (by decide +kernel)
  refine ⟨m, x, hm, hx, (owner_of_polite hm hpolite).1 0 x hx hopen ?_⟩
  rintro ⟨rest, reason, hmem, -⟩
  rw [List.isEmpty_iff.mp hstack] at hmem
  cases hmem

/-- A peer that opens the next id of this side loses its stream to the next local `open`; and after
a peer has closed an id and opened it again, closing the old handle takes the new stream out of the
map. -/
theorem streams_stolen :
    (∃ m, run (step plainCodec) (.new true) [.handleFrame (encodeFrame 1 .open []), .returns true,
        .open plainHeader, .returns true] = some m ∧
      (∃ x ∈ m.objs[0]?, x.id = 1 ∧ x.isClosed = false) ∧ m.streams.get 1 = some 1) ∧
    ∃ m, run (step plainCodec) (.new true) [.handleFrame (encodeFrame 2 .open []), .returns true,
        .handleFrame (encodeFrame 2 .close []), .handleFrame (encodeFrame 2 .open []),
        .returns true, .close 0 "", .returns true] = some m ∧
      (∃ x ∈ m.objs[1]?, x.id = 2 ∧ x.isClosed = false) ∧ m.streams.get 2 = none :=
  ⟨exists_run _ _ _ _ (by decide +kernel), exists_run _ _ _ _ (by decide +kernel)⟩

end

end Swarmlet.Mux
