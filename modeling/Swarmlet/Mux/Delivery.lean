import Swarmlet.Mux.Ownership

/-!
# What a stream hands over

Chunks that arrive before a data handler is registered are buffered, and handed over when it is. At
any moment what has arrived on a stream in use is what was handed over, what the loop of `onData` is
about to hand over, and what is buffered, in this order (`StreamMux.Flowing`). Two things break it:
a handler that throws inside that loop, and a frame that is fed from inside a callback.

When a CLOSE frame is handled the buffer is dropped, and nothing is handed over afterwards. So what
arrived before it is handed over exactly if a data handler was there before it.
-/

namespace Swarmlet.Mux

open EventMachine

/-! ## What the map leads to -/

/-- What an id leads to is a stream of that id in use; what `closeAll` is about to end is not in the
map. -/
structure StreamMux.Mapped (m : StreamMux) : Prop where
  live : ∀ id h, m.streams.get id = some h →
    ∃ x : MuxStream, m.objs[h]? = some x ∧ x.id = id ∧ x.isClosed = false
  closing : ∀ h, m.Closing h → h < m.objs.length ∧ ∀ id, m.streams.get id ≠ some h

section

variable {f : Option Frame} {aborts : Prop} {m m' : StreamMux}

variable {h : Handle} {x y : MuxStream} {stack : List Resume}

theorem StreamMux.Mapped.put (hm : m.Mapped) (hx : m.objs[h]? = some x)
    (hobjs : m'.objs = m.objs.set h y) (hid : y.id = x.id)
    (hstreams : ∀ id h', m'.streams.get id = some h' → m.streams.get id = some h' ∧
      (h' = h → y.isClosed = false))
    (hclosing : ∀ h', m'.Closing h' → m.Closing h') : m'.Mapped where
  live id h' hget := by
    obtain ⟨hget', hopen⟩ := hstreams id h' hget
    obtain ⟨z, hz, hzid, hzopen⟩ := hm.live id h' hget'
    rcases Entries.set_cases hx hobjs hz with ⟨hh, rfl, hy⟩ | ⟨-, hz⟩
    · exact ⟨y, hy, hid.trans hzid, hopen hh⟩
    · exact ⟨z, hz, hzid, hzopen⟩
  closing h' hc := by
    obtain ⟨hlt, hnot⟩ := hm.closing h' (hclosing h' hc)
    exact ⟨by rw [hobjs, List.length_set]; exact hlt, fun id hget ↦ hnot id (hstreams id h' hget).1⟩

theorem StreamMux.Mapped.create (hm : m.Mapped) (hobjs : m'.objs = m.objs ++ [y])
    (hopen : y.isClosed = false) (hstreams : m'.streams = m.streams.set y.id m.objs.length)
    (hclosing : ∀ h', m'.Closing h' → m.Closing h') : m'.Mapped where
  live id h hget := by
    by_cases hid : id = y.id
    · subst hid
      rw [hstreams, JsMap.get_set_self] at hget
      cases hget
      exact ⟨y, by simp [hobjs], rfl, hopen⟩
    · rw [hstreams, JsMap.get_set_of_ne _ hid] at hget
      obtain ⟨x, hx, hxid, hxopen⟩ := hm.live id h hget
      exact ⟨x, Entries.append_left hobjs hx, hxid, hxopen⟩
  closing h hc := by
    obtain ⟨hlt, hnot⟩ := hm.closing h (hclosing h hc)
    refine ⟨by rw [hobjs, List.length_append]; exact hlt.trans_le (Nat.le_add_right ..),
      fun id hget ↦ ?_⟩
    by_cases hid : id = y.id
    · subst hid
      rw [hstreams, JsMap.get_set_self] at hget
      cases hget
      exact absurd hlt (lt_irrefl _)
    · rw [hstreams, JsMap.get_set_of_ne _ hid] at hget
      exact hnot id hget

theorem StreamMux.Mapped.still (hm : m.Mapped) (hobjs : m'.objs = m.objs)
    (hstreams : ∀ id h, m'.streams.get id = some h → m.streams.get id = some h)
    (hclosing : ∀ h', m'.Closing h' → m.Closing h') : m'.Mapped where
  live id h hget := hobjs ▸ hm.live id h (hstreams id h hget)
  closing h hc := by
    obtain ⟨hlt, hnot⟩ := hm.closing h (hclosing h hc)
    exact ⟨hobjs ▸ hlt, fun id hget ↦ hnot id (hstreams id h hget)⟩

theorem StreamMux.Mapped.of_get (hm : m.Mapped) {id : ℕ}
    (hget : m.streams.get id = some h) (hx : m.objs[h]? = some x) : x.id = id ∧ x.isClosed =
    false := by
  obtain ⟨y, hy, hid, hopen⟩ := hm.live id h hget
  obtain rfl := Option.mem_unique hx hy
  exact ⟨hid, hopen⟩

theorem StreamMux.Closing.of_invoke {c : Option Call} {m₁ : StreamMux}
    (hc : (m₁.invoke c .done).Closing h) (hstack : m₁.stack = m.stack) : m.Closing h := by
  cases c with
  | none => exact hc.of_stack (hstack ▸ List.Subset.refl _)
  | some => exact hc.of_push rfl (by simp) (hstack ▸ List.Subset.refl _)

theorem StreamMux.Closing.of_shrink {h' : Handle} {rest : List Handle} {reason : String}
    (hc : m'.Closing h') (hstack' : m'.stack = .closing rest reason :: stack)
    (hstack : m.stack = .closing (h :: rest) reason :: stack) : m.Closing h' := by
  obtain ⟨rest', reason', hmem, hrest⟩ := hc
  rw [hstack'] at hmem
  rcases List.mem_cons.mp hmem with hk | hmem
  · cases hk
    exact ⟨_, _, by rw [hstack]; exact List.mem_cons_self, List.mem_cons_of_mem h hrest⟩
  · exact ⟨rest', reason', by rw [hstack]; exact List.mem_cons_of_mem _ hmem, hrest⟩

theorem Act.mapped (hm : m.Mapped) (ha : Act f aborts m m') : m'.Mapped := by
  have hrefl := List.Subset.refl m.stack
  have hwrite : ∀ {m' : StreamMux} {h x y}, m.objs[h]? = some x → m'.objs = m.objs.set h y →
      y.id = x.id → y.isClosed = x.isClosed → m'.streams = m.streams →
      (∀ h', m'.Closing h' → m.Closing h') → m'.Mapped := by
    intro m' h x y hx hobjs hid hopen hstreams hclosing
    refine hm.put hx hobjs hid (fun id h' hget ↦ ?_) hclosing
    rw [hstreams] at hget
    refine ⟨hget, fun hh ↦ ?_⟩
    subst hh
    exact hopen.trans (hm.of_get hget hx).2
  -- A stream that is closed or ends goes with its id.
  have hgone : ∀ {m' : StreamMux} {h x y}, m.objs[h]? = some x → m'.objs = m.objs.set h y →
      y.id = x.id → m'.streams = m.streams.erase x.id →
      (∀ h', m'.Closing h' → m.Closing h') → m'.Mapped := by
    intro m' h x y hx hobjs hid hstreams hclosing
    refine hm.put hx hobjs hid (fun id h' hget ↦ ?_) hclosing
    rw [hstreams] at hget
    obtain ⟨hne, hget⟩ := JsMap.get_of_erase hget
    refine ⟨hget, fun hh ↦ ?_⟩
    subst hh
    exact absurd (hm.of_get hget hx).1.symm hne
  cases ha with
  | pop hstack =>
    exact hm.still rfl (fun _ _ hget ↦ hget) fun h' hc ↦
      hc.of_stack (hstack ▸ List.subset_cons_self ..)
  | register cb hx | write chunk hx | deliver hf hget hx =>
    exact hwrite hx rfl rfl rfl rfl fun h' hc ↦ hc.of_push rfl (by simp) hrefl
  | hand hstack hx =>
    exact hwrite hx rfl rfl rfl rfl fun h' hc ↦
      hc.of_push rfl (by simp) (hstack ▸ List.subset_cons_self ..)
  | registerEnd cb hx | writeLate chunk hx | buffer hf hget hx =>
    exact hwrite hx rfl rfl rfl rfl fun h' hc ↦ hc
  | tell | refuse reason hf hget =>
    exact hm.still rfl (fun _ _ hget ↦ hget) fun h' hc ↦ hc.of_push rfl (by simp) hrefl
  | close payload k hx hopen hk =>
    refine hgone hx rfl rfl rfl fun h' hc ↦ hc.of_push rfl ?_ hrefl
    rintro rest reason rfl
    exact hk
  | @finish h x reason hx hclosed =>
    refine hm.put hx (StreamMux.objs_invoke ..) rfl (fun id h' hget ↦ ?_) fun h' hc ↦
      hc.of_invoke rfl
    rw [StreamMux.streams_invoke] at hget
    refine ⟨hget, fun hh ↦ ?_⟩
    subst hh
    have := (hm.of_get hget hx).2
    simp [MuxStream.isClosed, hclosed] at this
  | closedByPeer reason hf hget hx =>
    refine hgone hx (StreamMux.objs_invoke ..) rfl ?_ fun h' hc ↦ hc.of_invoke rfl
    rw [StreamMux.streams_invoke, (hm.of_get hget hx).1]
    rfl
  | openFailed reason hx =>
    exact hgone hx (StreamMux.objs_invoke ..) rfl (StreamMux.streams_invoke ..) fun h' hc ↦
      hc.of_invoke rfl
  | forget => exact hm.still rfl (fun _ _ hget ↦ (JsMap.get_of_erase hget).2) fun h' hc ↦ hc
  | «open» | accept => exact hm.create rfl rfl rfl fun h' hc ↦ hc.of_push rfl (by simp) hrefl
  | closeAll =>
    refine ⟨fun id h hget ↦ (by cases hget), fun h hc ↦ ⟨?_, fun id hget ↦ by cases hget⟩⟩
    obtain ⟨rest, reason', hmem, hrest⟩ := hc
    rcases List.mem_cons.mp hmem with hk | hmem
    · cases hk
      obtain ⟨e, he, rfl⟩ := List.mem_map.mp hrest
      obtain ⟨x, hx, -⟩ := hm.live e.1 e.2 (m.streams.get_of_mem he)
      exact Entries.lt_length hx
    · exact (hm.closing h ⟨rest, reason', hmem, hrest⟩).1
  | @skip h rest reason stack hstack =>
    exact hm.still rfl (fun _ _ hget ↦ hget) fun h' hc ↦ hc.of_shrink rfl hstack
  | @endNext h x rest reason stack hstack hx =>
    have hclosing : m.Closing h :=
      ⟨_, reason, by rw [hstack]; exact List.mem_cons_self, List.mem_cons_self⟩
    refine hm.put hx rfl rfl (fun id h' hget ↦ ⟨hget, fun hh ↦ ?_⟩) fun h' hc ↦
      hc.of_shrink rfl hstack
    exact absurd (hh ▸ hget) ((hm.closing h hclosing).2 id)

/-! ## What has arrived -/

/-- The stream that a loop of `onData` is about, and what it is about to hand over. -/
def Resume.flushed : Resume → Option (Handle × List Bytes)
  | .flush h _ rest => some (h, rest)
  | _ => none

def StreamMux.flushes (m : StreamMux) : List (Handle × List Bytes) :=
  m.stack.filterMap Resume.flushed

def due (h : Handle) (loops : List (Handle × List Bytes)) : Bytes :=
  loops.flatMap fun l ↦ if l.1 = h then l.2.flatten else []

structure StreamMux.Flowing (m : StreamMux) : Prop where
  /-- On a stream in use nothing that has arrived is lost, and the order is kept. -/
  arrived : ∀ (h : Handle) (x : MuxStream), m.objs[h]? = some x → x.isClosed = false →
    x.arrived.flatten = x.handed.flatten ++ due h m.flushes ++ x.pending.flatten
  buffered : ∀ (h : Handle) (x : MuxStream), m.objs[h]? = some x → x.dataCb.isSome → x.pending = []
  unheard : ∀ (h : Handle) (x : MuxStream), m.objs[h]? = some x → x.dataCb = none → x.handed = []
  registered : ∀ l ∈ m.flushes, ∃ x : MuxStream, m.objs[l.1]? = some x ∧ x.dataCb.isSome
  sofar : ∀ (h : Handle) (x : MuxStream), m.objs[h]? = some x →
    x.handed.flatten <+: x.arrived.flatten

theorem due_eq_nil {loops : List (Handle × List Bytes)} (hnone : ∀ l ∈ loops, l.1 ≠ h) :
    due h loops = [] := by
  rw [due, List.flatMap_eq_nil_iff]
  intro l hl
  rw [if_neg (hnone l hl)]

theorem due_cons_self (h : Handle) (rest : List Bytes) (loops : List (Handle × List Bytes)) :
    due h ((h, rest) :: loops) = rest.flatten ++ due h loops := by
  simp [due]

theorem due_cons_of_ne {h' : Handle} (hne : h' ≠ h) (rest : List Bytes)
    (loops : List (Handle × List Bytes)) : due h' ((h, rest) :: loops) = due h' loops := by
  simp [due, hne.symm]

namespace StreamMux.Flowing

theorem due_of_unheard (hm : m.Flowing) (hx : m.objs[h]? = some x)
    (hcb : x.dataCb = none) : due h m.flushes = [] := by
  refine due_eq_nil fun l hl hh ↦ ?_
  obtain ⟨y, hy, hsome⟩ := hm.registered l hl
  rw [hh, hx] at hy
  cases hy
  simp [hcb] at hsome

theorem put (hm : m.Flowing) (hx : m.objs[h]? = some x)
    (hobjs : m'.objs = m.objs.set h y) {loops : List (Handle × List Bytes)}
    (hflushes : m'.flushes = loops) (hcb : x.dataCb.isSome → y.dataCb.isSome)
    (hloops : ∀ l ∈ loops, (∃ l' ∈ m.flushes, l'.1 = l.1) ∨ l.1 = h ∧ y.dataCb.isSome)
    (hdue : ∀ h', h' ≠ h → due h' loops = due h' m.flushes)
    (harrived : y.isClosed = false →
      y.arrived.flatten = y.handed.flatten ++ due h loops ++ y.pending.flatten)
    (hbuffered : y.dataCb.isSome → y.pending = []) (hunheard : y.dataCb = none → y.handed = [])
    (hsofar : y.handed.flatten <+: y.arrived.flatten) : m'.Flowing := by
  subst hflushes
  refine ⟨Entries.forall_set hobjs harrived fun h' z hne hz ↦ ?_,
    Entries.forall_set hobjs hbuffered fun h' z _ ↦ hm.buffered h' z,
    Entries.forall_set hobjs hunheard fun h' z _ ↦ hm.unheard h' z, fun l hl ↦ ?_,
    Entries.forall_set hobjs hsofar fun h' z _ ↦ hm.sofar h' z⟩
  · rw [hdue h' hne]
    exact hm.arrived h' z hz
  · rcases hloops l hl with ⟨l', hl', heq⟩ | ⟨heq, hy⟩
    · obtain ⟨z, hz, hsome⟩ := hm.registered l' hl'
      rw [heq] at hz
      rcases Entries.set_cases hx hobjs hz with ⟨-, rfl, hy⟩ | ⟨-, hz⟩
      · exact ⟨y, hy, hcb hsome⟩
      · exact ⟨z, hz, hsome⟩
    · exact ⟨y, heq ▸ Entries.set_self hx hobjs, hy⟩

theorem same (hm : m.Flowing) (hx : m.objs[h]? = some x)
    (hobjs : m'.objs = m.objs.set h y) (hloops : m'.flushes = m.flushes)
    (hhanded : y.handed = x.handed) (harrived : y.arrived = x.arrived) (hcb : y.dataCb = x.dataCb)
    (hpending : y.pending = x.pending ∧ (y.isClosed = false → x.isClosed = false) ∨
      y.pending = [] ∧ y.isClosed = true) : m'.Flowing := by
  refine hm.put hx hobjs hloops (by rw [hcb]; exact id) (fun l hl ↦ .inl ⟨l, hl, rfl⟩)
    (fun h' _ ↦ rfl) (fun hopen ↦ ?_) (fun hsome ↦ ?_) (fun hnone ↦ ?_) ?_
  · rcases hpending with ⟨hsame, hopen'⟩ | ⟨-, hclosed⟩
    · rw [hhanded, harrived, hsame]
      exact hm.arrived h x hx (hopen' hopen)
    · cases hopen.symm.trans hclosed
  · rcases hpending with ⟨hsame, -⟩ | ⟨hempty, -⟩
    · exact hsame.trans (hm.buffered h x hx (hcb ▸ hsome))
    · exact hempty
  · exact hhanded.trans (hm.unheard h x hx (hcb ▸ hnone))
  · rw [hhanded, harrived]
    exact hm.sofar h x hx

theorem still (hm : m.Flowing) (hobjs : m'.objs = m.objs) (hloops : m'.flushes ⊆ m.flushes)
    (hdue : ∀ h x, m.objs[h]? = some x → x.isClosed = false → due h m'.flushes = due h m.flushes) :
    m'.Flowing where
  arrived h x hx hopen := by
    rw [hobjs] at hx
    rw [hdue h x hx hopen]
    exact hm.arrived h x hx hopen
  buffered h x hx := hm.buffered h x (hobjs ▸ hx)
  unheard h x hx := hm.unheard h x (hobjs ▸ hx)
  registered l hl := hobjs ▸ hm.registered l (hloops hl)
  sofar h x hx := hm.sofar h x (hobjs ▸ hx)

theorem of_eq (hm : m.Flowing) (hobjs : m'.objs = m.objs) (hloops : m'.flushes = m.flushes) :
    m'.Flowing :=
  hm.still hobjs (hloops ▸ List.Subset.refl _) fun _ _ _ _ ↦ by rw [hloops]

theorem create (hm : m.Flowing) {id : ℕ} {header : Js.Json}
    (hobjs : m'.objs = m.objs ++ [{ id := id, header := header }])
    (hloops : m'.flushes = m.flushes) : m'.Flowing := by
  have hnew : due m.objs.length m.flushes = [] := by
    refine due_eq_nil fun l hl hh ↦ ?_
    obtain ⟨y, hy, -⟩ := hm.registered l hl
    rw [hh, List.getElem?_eq_none le_rfl] at hy
    cases hy
  refine ⟨?_, Entries.forall_append hobjs (fun _ ↦ rfl) hm.buffered,
    Entries.forall_append hobjs (fun _ ↦ rfl) hm.unheard, fun l hl ↦ ?_,
    Entries.forall_append hobjs List.nil_prefix hm.sofar⟩
  · rw [hloops]
    exact Entries.forall_append hobjs (by simp [hnew]) hm.arrived
  · obtain ⟨x, hx, hsome⟩ := hm.registered l (hloops ▸ hl)
    exact ⟨x, Entries.append_left hobjs hx, hsome⟩

end StreamMux.Flowing

theorem StreamMux.flushes_of_stack {k : Resume} (hstack : m.stack = k :: stack)
    (hk : k.isFlush = false) : m.flushes = stack.filterMap Resume.flushed := by
  rw [flushes, hstack]
  cases k with
  | flush => cases hk
  | _ => rfl

theorem StreamMux.flushes_invoke (m : StreamMux) (c : Option Call) :
    (m.invoke c .done).flushes = m.flushes := by
  cases c <;> rfl

theorem Resume.AfterClose.isFlush {k : Resume} (hk : k.AfterClose h) : k.isFlush = false := by
  cases k with
  | flush => exact hk.elim
  | _ => rfl

/-- **Every act keeps the flow**, if no data handler throws in the loop of `onData` and no frame is
fed from inside that loop. -/
theorem Act.flowing (hm : m.Flowing) (haborts : ¬aborts)
    (hcalm : f.isSome = true → m.flushes = []) (ha : Act f aborts m m') : m'.Flowing := by
  cases ha with
  | @pop k stack hstack hover =>
    by_cases hk : k.isFlush = true
    · obtain ⟨h, cb, rest, rfl⟩ : ∃ h cb rest, k = .flush h cb rest := by
        cases k with
        | flush h cb rest => exact ⟨h, cb, rest, rfl⟩
        | _ => cases hk
      have hloops : m.flushes = (h, rest) :: stack.filterMap Resume.flushed := by
        rw [StreamMux.flushes, hstack]
        rfl
      refine hm.still rfl (hloops ▸ List.subset_cons_self ..) fun h' x hx hopen ↦ ?_
      rw [hloops]
      by_cases hh : h' = h
      · subst hh
        rcases hover with rfl | hclosed | hab
        · exact (due_cons_self h' [] _).symm
        · cases hopen.symm.trans (hclosed x hx)
        · exact absurd hab haborts
      · exact (due_cons_of_ne hh ..).symm
    · exact hm.of_eq rfl (StreamMux.flushes_of_stack hstack (by simpa using hk)).symm
  | @register h x cb hx =>
    refine hm.put hx rfl
      (show _ = (h, x.pending) :: m.flushes from rfl) (fun _ ↦ rfl)
      (fun l hl ↦ ?_) (fun h' hne ↦ due_cons_of_ne hne x.pending m.flushes) (fun hopen ↦ ?_)
      (fun _ ↦ rfl) (fun hnone ↦ by cases hnone) (hm.sofar h x hx)
    · rcases List.mem_cons.mp hl with rfl | hl
      · exact .inr ⟨rfl, rfl⟩
      · exact .inl ⟨l, hl, rfl⟩
    · refine (hm.arrived h x hx hopen).trans ?_
      rw [due_cons_self]
      -- Either nothing was buffered, or nothing was due.
      rcases Option.eq_none_or_eq_some x.dataCb with hcb | ⟨cb', hcb⟩
      · simp [MuxStream.cleared, hm.due_of_unheard hx hcb]
      · simp [MuxStream.cleared, hm.buffered h x hx (by simp [hcb])]
  | @hand h x cb c rest stack hstack hx hlive =>
    have hloops : m.flushes = (h, c :: rest) :: stack.filterMap Resume.flushed := by
      rw [StreamMux.flushes, hstack]
      rfl
    have harrived := hm.arrived h x hx hlive
    have hnew : x.arrived.flatten = (x.handed ++ [c]).flatten ++
        due h ((h, rest) :: stack.filterMap Resume.flushed) ++ x.pending.flatten := by
      rw [harrived, hloops, due_cons_self, due_cons_self]
      simp
    have hsome : x.dataCb.isSome := by
      obtain ⟨y, hy, hsome⟩ := hm.registered (h, c :: rest) (hloops ▸ List.mem_cons_self)
      obtain rfl := Option.mem_unique hx hy
      exact hsome
    refine hm.put hx rfl rfl id (fun l hl ↦ ?_)
      (fun h' hne ↦ ?_) (fun _ ↦ hnew) (hm.buffered h x hx) (fun hnone ↦ ?_) ?_
    · rcases List.mem_cons.mp hl with rfl | hl
      · exact .inr ⟨rfl, hsome⟩
      · exact .inl ⟨l, by rw [hloops]; exact List.mem_cons_of_mem _ hl, rfl⟩
    · rw [hloops]
      exact (due_cons_of_ne hne ..).trans (due_cons_of_ne hne ..).symm
    · rw [show x.dataCb = none from hnone] at hsome
      cases hsome
    · rw [List.append_assoc] at hnew
      exact ⟨_, hnew.symm⟩
  | registerEnd cb hx | writeLate chunk hx | write chunk hx =>
    exact hm.same hx rfl rfl rfl rfl rfl (.inl ⟨rfl, id⟩)
  | tell | forget | refuse | closeAll => exact hm.of_eq rfl rfl
  | close payload k hx hopen hk =>
    exact hm.same hx rfl (StreamMux.flushes_of_stack rfl hk.isFlush) rfl rfl rfl (.inr ⟨rfl, rfl⟩)
  | finish reason hx | closedByPeer reason hf hget hx | openFailed reason hx =>
    exact hm.same hx (StreamMux.objs_invoke ..) (StreamMux.flushes_invoke ..) rfl rfl rfl
      (.inr ⟨rfl, by simp [MuxStream.isClosed]⟩)
  | @deliver h x _ cb chunk hf hget hx hlive hcb =>
    have hloops : m.flushes = [] := hcalm (by rw [hf]; rfl)
    have hpending : x.pending = [] := hm.buffered h x hx (by simp [hcb])
    have harrived : x.arrived.flatten = x.handed.flatten := by
      rw [hm.arrived h x hx hlive, hloops, hpending]
      simp [due]
    refine hm.put hx rfl
      (show _ = [] from hloops) (fun hsome ↦ hsome) (fun l hl ↦ by cases hl)
      (fun _ _ ↦ by rw [hloops]) (fun _ ↦ ?_) (fun _ ↦ hpending)
      (fun hnone ↦ by cases hnone.symm.trans hcb) ?_
    · simp [due, hpending, harrived]
    · simp [harrived]
  | @buffer h x _ chunk hf hget hx hlive hcb =>
    have hhanded := hm.unheard h x hx hcb
    have harrived := hm.arrived h x hx hlive
    rw [hhanded, hm.due_of_unheard hx hcb] at harrived
    refine hm.put hx rfl (show _ = m.flushes from rfl) id
      (fun l hl ↦ .inl ⟨l, hl, rfl⟩) (fun _ _ ↦ rfl) (fun _ ↦ ?_) (fun hsome ↦ ?_)
      (fun _ ↦ hhanded) ?_
    · rw [hm.due_of_unheard hx hcb]
      simp [hhanded, harrived]
    · rw [show x.dataCb = none from hcb] at hsome
      cases hsome
    · simp [hhanded]
  | «open» | accept => exact hm.create rfl rfl
  | skip hstack => exact hm.of_eq rfl (StreamMux.flushes_of_stack hstack rfl).symm
  | endNext hstack hx =>
    exact hm.same hx rfl (StreamMux.flushes_of_stack hstack rfl).symm rfl rfl rfl
      (.inr ⟨rfl, by simp [MuxStream.isClosed]⟩)

/-! ## What the callbacks are given -/

def Call.given (h : Handle) : Call → Option Bytes
  | .data h' _ chunk => if h' = h then some chunk else none
  | _ => none

def Call.isEnd (h : Handle) : Call → Bool
  | .ended h' _ _ => h' = h
  | _ => false

/-- The chunks that the data handlers of a stream are given by a list of calls. -/
def given (h : Handle) (calls : List Call) : List Bytes := calls.filterMap (Call.given h)

def beforeEnd (h : Handle) (calls : List Call) : List Call := calls.takeWhile fun c ↦ !c.isEnd h

structure StreamMux.Logged (m : StreamMux) : Prop where
  handed : ∀ (h : Handle) (x : MuxStream), m.objs[h]? = some x → x.handed = given h m.calls
  made : ∀ h, m.objs.length ≤ h → given h m.calls = []
  ended : ∀ (h : Handle), ∀ c ∈ m.calls, c.isEnd h = true →
    ∃ x : MuxStream, m.objs[h]? = some x ∧ x.ended = true

namespace StreamMux.Logged

theorem put (hm : m.Logged) (new : List Call)
    (hx : m.objs[h]? = some x) (hobjs : m'.objs = m.objs.set h y)
    (hcalls : m'.calls = m.calls ++ new) (hhanded : y.handed = x.handed ++ given h new)
    (hothers : ∀ h', h' ≠ h → given h' new = []) (hended : x.ended = true → y.ended = true)
    (hends : ∀ c ∈ new, ∀ h', c.isEnd h' = true → h' = h ∧ y.ended = true) : m'.Logged := by
  have hgiven : ∀ h', given h' m'.calls = given h' m.calls ++ given h' new := fun h' ↦ by
    rw [given, hcalls, List.filterMap_append]
    rfl
  refine ⟨Entries.forall_set hobjs ?_ fun h' z hne hz ↦ ?_, fun h' hle ↦ ?_, fun h' c hc hend ↦ ?_⟩
  · rw [hgiven, hhanded, hm.handed h x hx]
  · rw [hgiven, hothers h' hne, List.append_nil]
    exact hm.handed h' z hz
  · rw [hobjs, List.length_set] at hle
    have hne : h' ≠ h := fun hh ↦ absurd (hh ▸ Entries.lt_length hx) (not_lt.mpr hle)
    rw [hgiven, hm.made h' hle, hothers h' hne]
    rfl
  · rw [hcalls] at hc
    rcases List.mem_append.mp hc with hold | hnew
    · obtain ⟨z, hz, hzend⟩ := hm.ended h' c hold hend
      rcases Entries.set_cases hx hobjs hz with ⟨-, rfl, hy⟩ | ⟨-, hz⟩
      · exact ⟨y, hy, hended hzend⟩
      · exact ⟨z, hz, hzend⟩
    · obtain ⟨rfl, hy⟩ := hends c hnew h' hend
      exact ⟨y, Entries.set_self hx hobjs, hy⟩

theorem still (hm : m.Logged) (new : List Call) (hobjs : m'.objs = m.objs)
    (hcalls : m'.calls = m.calls ++ new) (hgiven : ∀ h, given h new = [])
    (hends : ∀ c ∈ new, ∀ h, c.isEnd h = true → ∃ x : MuxStream, m.objs[h]? = some x ∧
    x.ended = true) : m'.Logged := by
  have hsame : ∀ h, given h m'.calls = given h m.calls := fun h ↦ by
    rw [given, hcalls, List.filterMap_append]
    exact (congrArg (_ ++ ·) (hgiven h)).trans (List.append_nil _)
  refine ⟨fun h x hx ↦ ?_, fun h hle ↦ ?_, fun h c hc hend ↦ ?_⟩
  · rw [hsame]
    exact hm.handed h x (hobjs ▸ hx)
  · rw [hsame]
    exact hm.made h (hobjs ▸ hle)
  · rw [hobjs]
    rw [hcalls] at hc
    rcases List.mem_append.mp hc with hold | hnew
    · exact hm.ended h c hold hend
    · exact hends c hnew h hend

theorem create (hm : m.Logged) {c : Call} (hobjs : m'.objs = m.objs ++ [y])
    (hcalls : m'.calls = m.calls ++ [c]) (hgiven : ∀ h, c.given h = none)
    (hends : ∀ h, c.isEnd h = false) (hy : y.handed = []) : m'.Logged := by
  have hsame : ∀ h, given h m'.calls = given h m.calls := fun h ↦ by
    rw [given, hcalls, List.filterMap_append, List.filterMap_cons_none (hgiven h)]
    exact List.append_nil _
  refine ⟨?_, fun h hle ↦ ?_, fun h c' hc hend ↦ ?_⟩
  · simp only [hsame]
    exact Entries.forall_append hobjs (by rw [hm.made _ le_rfl, hy]) hm.handed
  · rw [hsame]
    rw [hobjs, List.length_append] at hle
    exact hm.made h ((Nat.le_add_right ..).trans hle)
  · rw [hcalls] at hc
    rcases List.mem_append.mp hc with hold | hnew
    · obtain ⟨x, hx, hxend⟩ := hm.ended h c' hold hend
      exact ⟨x, Entries.append_left hobjs hx, hxend⟩
    · rw [List.mem_singleton.mp hnew, hends] at hend
      cases hend

end StreamMux.Logged

theorem StreamMux.calls_invoke (m : StreamMux) (c : Option Call) (k : Resume) :
    (m.invoke c k).calls = m.calls ++ c.toList := by
  cases c with
  | none => exact (List.append_nil _).symm
  | some => rfl

theorem Act.logged (hm : m.Logged) (ha : Act f aborts m m') : m'.Logged := by
  -- A stream is written, and frames are sent.
  have hsend : ∀ {m' : StreamMux} {h : Handle} {x y : MuxStream} (frames : List Bytes),
      m.objs[h]? = some x → m'.objs = m.objs.set h y → m'.calls = m.calls ++ frames.map .send →
      y.handed = x.handed → y.ended = x.ended → m'.Logged := by
    intro m' h x y frames hx hobjs hcalls hhanded hended
    have hnone : ∀ h', given h' (frames.map .send) = [] := by simp [given, Call.given]
    refine hm.put _ hx hobjs hcalls ?_ (fun h' _ ↦ hnone h') (by simp [hended])
      (by simp [Call.isEnd])
    rw [hnone, hhanded, List.append_nil]
  -- A stream ends, and its end handler is called, if there is one.
  have hend : ∀ {m' : StreamMux} {h : Handle} {x y : MuxStream} {reason : Option Js.Json},
      m.objs[h]? = some x → m'.objs = m.objs.set h y →
      m'.calls = m.calls ++ (x.endCb.map (.ended h · reason)).toList → y.handed = x.handed →
      y.ended = true → m'.Logged := by
    intro m' h x y reason hx hobjs hcalls hhanded hended
    have hnone : ∀ h', given h' (x.endCb.map (Call.ended h · reason)).toList = [] := fun h' ↦ by
      cases x.endCb <;> rfl
    refine hm.put _ hx hobjs hcalls ?_ (fun h' _ ↦ hnone h') (fun _ ↦ hended) fun c hc h' he ↦ ?_
    · rw [hnone, hhanded, List.append_nil]
    · obtain ⟨cb, -, rfl⟩ : ∃ cb, x.endCb = some cb ∧ Call.ended h cb reason = c := by
        simpa using hc
      exact ⟨(of_decide_eq_true he).symm, hended⟩
  have hgiven : ∀ {h : Handle} {cb : Handler} {chunk : Bytes},
      given h [.data h cb chunk] = [chunk] ∧ ∀ h', h' ≠ h → given h' [.data h cb chunk] = [] := by
    exact ⟨by simp [given, Call.given], fun h' hne ↦ by simp [given, Call.given, hne.symm]⟩
  have hstill : ∀ {m' : StreamMux}, m'.objs = m.objs → m'.calls = m.calls → m'.Logged :=
    fun hobjs hcalls ↦ hm.still [] hobjs (by simp [hcalls]) (fun _ ↦ rfl) (by simp)
  cases ha with
  | pop | forget | closeAll | skip => exact hstill rfl rfl
  | register cb hx | registerEnd cb hx | writeLate chunk hx | buffer hf hget hx =>
    exact hsend [] hx rfl (List.append_nil _).symm rfl rfl
  | hand hstack hx =>
    exact hm.put _ hx rfl rfl (by rw [hgiven.1]) hgiven.2 id (by simp [Call.isEnd])
  | @tell h x cb hx hended =>
    refine hm.still _ rfl rfl (fun _ ↦ rfl) fun c hc h' he ↦ ?_
    rw [List.mem_singleton.mp hc] at he
    exact of_decide_eq_true he ▸ ⟨x, hx, hended⟩
  | write chunk hx | close payload k hx => exact hsend [_] hx rfl rfl rfl rfl
  | finish reason hx | closedByPeer reason hf hget hx | openFailed reason hx =>
    exact hend hx (StreamMux.objs_invoke ..) (StreamMux.calls_invoke ..) rfl rfl
  | deliver hf hget hx =>
    exact hm.put _ hx rfl rfl (by rw [hgiven.1]) hgiven.2 (fun hended ↦ hended)
      (by simp [Call.isEnd])
  | «open» | accept => exact hm.create rfl rfl (fun _ ↦ rfl) (fun _ ↦ rfl) rfl
  | refuse => exact hm.still _ rfl rfl (fun _ ↦ rfl) (by simp [Call.isEnd])
  | endNext hstack hx => exact hend hx rfl rfl rfl rfl

theorem Act.calls_grow (ha : Act f aborts m m') : m.calls <+: m'.calls := by
  cases ha with
  | hand | tell | write | close | deliver | «open» | accept | refuse | endNext =>
    exact List.prefix_append ..
  | finish | closedByPeer | openFailed =>
    rw [StreamMux.calls_invoke]
    exact List.prefix_append ..
  | _ => exact List.prefix_rfl

/-! ## A stream that the peer closes -/

variable {codec : Codec} {odd : Bool}

/-- No frame is fed from inside the loop of `onData`, and no data handler throws there. -/
def Event.Calm (m : StreamMux) (e : Event) : Prop :=
  (∀ buf, e = .handleFrame buf → m.flushes = []) ∧ ¬e.Aborts m

instance (m : StreamMux) (e : Event) : Decidable (e.Calm m) :=
  match e with
  | .handleFrame _ => decidable_of_iff (m.flushes = [])
      ⟨fun h ↦ ⟨fun _ _ ↦ h, fun h' ↦ nomatch h'.1⟩, fun h ↦ h.1 _ rfl⟩
  | .throws => decidable_of_iff (¬∃ k ∈ m.stack.head?, k.isFlush = true)
      ⟨fun h ↦ ⟨fun _ h' ↦ (nomatch h'), fun h' ↦ h h'.2⟩, fun h h' ↦ h.2 ⟨rfl, h'⟩⟩
  | .open _ | .write _ _ | .close _ _ | .onData _ _ | .onEnd _ _ | .closeAll _ | .returns _ =>
    isTrue ⟨fun _ h ↦ (nomatch h), fun h ↦ nomatch h.1⟩

structure StreamMux.Kept (m : StreamMux) : Prop where
  wf : m.Wf
  mapped : m.Mapped
  logged : m.Logged
  flowing : m.Flowing

theorem new_kept (odd : Bool) : (StreamMux.new odd).Kept where
  wf := new_wf odd
  mapped := ⟨fun _ _ hget ↦ (nomatch hget), fun _ ⟨_, _, hmem, _⟩ ↦ (nomatch hmem)⟩
  logged := ⟨fun _ _ hx ↦ (nomatch hx), fun _ _ ↦ rfl, fun _ _ hc ↦ (nomatch hc)⟩
  flowing := ⟨fun _ _ hx ↦ (nomatch hx), fun _ _ hx ↦ (nomatch hx), fun _ _ hx ↦ (nomatch hx),
    fun _ hl ↦ (nomatch hl), fun _ _ hx ↦ (nomatch hx)⟩

theorem step_kept {e : Event} (hm : m.Kept) (hcalm : e.Calm m) (h : step codec m e = some m') :
    m'.Kept where
  wf := (step_acts hm.wf h).wf hm.wf
  mapped := (step_acts hm.wf h).invariant hm.mapped fun _ _ hm ha ↦ ha.mapped hm
  logged := (step_acts hm.wf h).invariant hm.logged fun _ _ hm ha ↦ ha.logged hm
  flowing := by
    refine step_keeps hm.wf hm.flowing h (fun _ _ hm ha ↦ ha.flowing hm hcalm.2 (by simp)) ?_
    intro g m' hg ha
    refine ha.flowing hm.flowing not_false fun _ ↦ ?_
    cases e with
    | handleFrame buf => exact hcalm.1 buf rfl
    | _ => cases hg

theorem handed_of_isClosed {es : List Event}
    (hrun : run (step codec) m es = some m') (hwf : m.Wf) (hlogged : m.Logged)
    (hx : m.objs[h]? = some x) (hclosed : x.isClosed = true) :
    given h m'.calls = given h m.calls ∧ m.calls <+: m'.calls := by
  have hlast : m'.Wf ∧ m'.Logged ∧ m.calls <+: m'.calls ∧
      ∃ y, m'.objs[h]? = some y ∧ y.isClosed = true ∧ y.handed = x.handed := by
    refine run_invariant (I := fun m' ↦ m'.Wf ∧ m'.Logged ∧ m.calls <+: m'.calls ∧
      ∃ y, m'.objs[h]? = some y ∧ y.isClosed = true ∧ y.handed = x.handed) hrun
      ⟨hwf, hlogged, List.prefix_rfl, x, hx, hclosed, rfl⟩ ?_
    rintro m₁ e m₂ ⟨hwf, hrest⟩ hstep
    have hacts := step_acts hwf hstep
    refine ⟨hacts.wf hwf, hacts.invariant (I := fun m' ↦ m'.Logged ∧ m.calls <+: m'.calls ∧
      ∃ y, m'.objs[h]? = some y ∧ y.isClosed = true ∧ y.handed = x.handed) hrest ?_⟩
    rintro m₁ m₂ ⟨hlogged, hcalls, y, hy, hyclosed, hyhanded⟩ ha
    obtain ⟨z, hz, hyz⟩ := ha.later h y hy
    refine ⟨ha.logged hlogged, hcalls.trans ha.calls_grow, z, hz, ?_,
      (hyz.handed hyclosed).trans hyhanded⟩
    rw [MuxStream.isClosed, Bool.or_eq_true] at hyclosed ⊢
    exact hyclosed.imp hyz.closed hyz.ended
  obtain ⟨-, hlogged', hcalls, y, hy, -, hhanded⟩ := hlast
  refine ⟨?_, hcalls⟩
  rw [← hlogged'.handed h y hy, ← hlogged.handed h x hx, hhanded]

theorem given_beforeEnd {calls calls' : List Call} (hcalls : calls <+: calls')
    (hnone : ∀ c ∈ calls, c.isEnd h = false) (hgiven : given h calls' = given h calls) :
    given h (beforeEnd h calls') = given h calls := by
  obtain ⟨new, rfl⟩ := hcalls
  have hnew : given h new = [] := by
    rw [given, List.filterMap_append] at hgiven
    exact List.append_right_eq_self.mp hgiven
  have hbefore : beforeEnd h (calls ++ new) = calls ++ beforeEnd h new := by
    refine List.takeWhile_append_of_pos fun c hc ↦ ?_
    rw [hnone c hc]
    rfl
  have hsub : given h (beforeEnd h new) = [] := by
    rw [given, List.filterMap_eq_nil_iff] at hnew ⊢
    exact fun c hc ↦ hnew c ((List.takeWhile_sublist _).subset hc)
  rw [hbefore, given, List.filterMap_append]
  exact (congrArg (_ ++ ·) hsub).trans (List.append_nil _)

theorem step_close {buf payload : Bytes} {id : ℕ}
    (hbuf : decodeFrame buf = .ok ⟨id, .close, payload⟩) (hget : m.streams.get id = some h)
    (hx : m.objs[h]? = some x) (hlive : x.isClosed = false)
    (hstep : step codec m (.handleFrame buf) = some m') : x.ended = false ∧
      ∃ y, m'.objs[h]? = some y ∧ y.isClosed = true ∧ y.handed = x.handed := by
  have hended : x.ended = false := by
    rw [MuxStream.isClosed, Bool.or_eq_false_iff] at hlive
    exact hlive.2
  refine ⟨hended, ?_⟩
  have hlt := Entries.lt_length hx
  cases hstep
  simp only [StreamMux.handleFrame, hbuf, bind, Except.bind, hget, StreamMux.endStream,
    StreamMux.forget, hx, hended, Bool.false_eq_true, if_false, Except.toOption, Option.getD_some]
  refine ⟨_, (congrArg (·[h]?) (StreamMux.objs_invoke ..)).trans (List.getElem?_set_self hlt), ?_,
    rfl⟩
  simp [MuxStream.isClosed]

/-- **What arrived before the peer's CLOSE is handed over before the end callback exactly if a data
handler was registered before the CLOSE frame**, or if nothing had arrived. -/
theorem handed_iff_registered {es es' : List Event} {m m' : StreamMux}
    {buf payload : Bytes} {id : ℕ} {h : Handle} {x : MuxStream}
    (hrun : run (step codec) (.new odd) es = some m)
    (hcalm : Always (step codec) (fun m e ↦ e.Calm m) (.new odd) es) (hquiet : m.flushes = [])
    (hbuf : decodeFrame buf = .ok ⟨id, .close, payload⟩) (hget : m.streams.get id = some h)
    (hx : m.objs[h]? = some x) (hrun' : run (step codec) m (.handleFrame buf :: es') = some m') :
    (given h (beforeEnd h m'.calls)).flatten = x.arrived.flatten ↔
      x.dataCb.isSome ∨ x.arrived.flatten = [] := by
  have hm : m.Kept := (path_of_run hrun hcalm).invariant (new_kept odd)
    fun _ _ _ hm hok hstep ↦ step_kept hm hok hstep
  have hlive := (hm.mapped.of_get hget hx).2
  obtain ⟨m₁, hclose, hrest⟩ := run_cons.mp hrun'
  obtain ⟨hended, y, hy, hyclosed, hyhanded⟩ := step_close hbuf hget hx hlive hclose
  have hacts := step_acts hm.wf hclose
  have hlogged := hacts.invariant hm.logged fun _ _ hm ha ↦ ha.logged hm
  obtain ⟨hgiven, hcalls⟩ := handed_of_isClosed hrest (hacts.wf hm.wf) hlogged hy hyclosed
  have hcalls₁ : m.calls <+: m₁.calls := hacts.invariant (I := fun m₁ ↦ m.calls <+: m₁.calls)
    List.prefix_rfl fun _ _ hm ha ↦ hm.trans ha.calls_grow
  have hgiven₁ : given h m₁.calls = given h m.calls := by
    rw [← hlogged.handed h y hy, hyhanded, hm.logged.handed h x hx]
  have hnone : ∀ c ∈ m.calls, c.isEnd h = false := by
    intro c hc
    by_contra hend
    obtain ⟨z, hz, hzended⟩ := hm.logged.ended h c hc (by simpa using hend)
    obtain rfl := Option.mem_unique hx hz
    cases hzended.symm.trans hended
  rw [given_beforeEnd (hcalls₁.trans hcalls) hnone (hgiven.trans hgiven₁),
    ← hm.logged.handed h x hx]
  have harrived := hm.flowing.arrived h x hx hlive
  rw [hquiet] at harrived
  rcases Option.eq_none_or_eq_some x.dataCb with hcb | ⟨cb, hcb⟩
  · simp [hcb, hm.flowing.unheard h x hx hcb, eq_comm]
  · have hpending := hm.flowing.buffered h x hx (by simp [hcb])
    simp [hcb, harrived, hpending, due]

/-- A chunk arrives, a data handler is registered, and the peer closes. -/
def registeredInTime : List Event :=
  [.handleFrame (encodeFrame 2 .open []), .returns true, .handleFrame (encodeFrame 2 .data [7]),
    .onData 0 0, .returns true]

theorem handed_iff_registered_inTime :
    ∃ m m' x, run (step plainCodec) (.new true) registeredInTime = some m ∧ m.objs[0]? = some x ∧
    x.arrived.flatten = [7] ∧ run (step plainCodec) m [.handleFrame (encodeFrame 2 .close [])] =
    some m' ∧ (given 0 (beforeEnd 0 m'.calls)).flatten = [7] := by
  obtain ⟨m, hrun, ⟨x, hx, hcb, harrived⟩, hget, hquiet⟩ :=
    exists_run (step plainCodec) (.new true) registeredInTime
      (fun m ↦ (∃ x ∈ m.objs[0]?, x.dataCb.isSome ∧ x.arrived.flatten = [7]) ∧
        m.streams.get 2 = some 0 ∧ m.flushes = []) (by decide +kernel)
  obtain ⟨m', hm'⟩ : ∃ m', run (step plainCodec) m [.handleFrame (encodeFrame 2 .close [])] =
    some m' :=
    ⟨_, rfl⟩
  have hiff := handed_iff_registered hrun (by decide +kernel) hquiet
    (decodeFrame_encodeFrame 2 .close []) hget hx hm'
  exact ⟨m, m', x, hrun, hx, harrived, hm', (hiff.mpr (.inl hcb)).trans harrived⟩

/-- The peer opens a stream, writes one byte and closes it; the data handler that is registered then
is given nothing. -/
theorem lost_before_close : ∃ m, run (step plainCodec) (.new true)
    [.handleFrame (encodeFrame 2 .open []), .returns true, .handleFrame (encodeFrame 2 .data [7]),
      .handleFrame (encodeFrame 2 .close []), .onData 0 0, .onEnd 0 1, .returns true] = some m ∧
    (∃ x ∈ m.objs[0]?, x.arrived = [[7]]) ∧ given 0 m.calls = [] ∧ m.stack.isEmpty = true ∧
      m.calls.any (Call.isEnd 0) = true :=
  exists_run _ _ _ _ (by decide +kernel)

/-- **No peer makes an id lead astray.** Whatever frames arrive, also ones that no correct peer
sends, an id of the map leads to a stream of that id that is in use. -/
theorem mapped_live {es : List Event} {m : StreamMux} {id : ℕ} {h : Handle}
    (hrun : run (step codec) (.new odd) es = some m) (hget : m.streams.get id = some h) :
    ∃ x : MuxStream, m.objs[h]? = some x ∧ x.id = id ∧ x.isClosed = false :=
  (run_keeps hrun (new_kept odd).mapped fun _ _ _ _ hm ha ↦ ha.mapped hm).live id h hget

theorem mapped_live_inTime : ∃ m h, run (step plainCodec) (.new true) registeredInTime = some m ∧
    m.streams.get 2 = some h ∧
    ∃ x : MuxStream, m.objs[h]? = some x ∧ x.id = 2 ∧ x.isClosed = false := by
  obtain ⟨m, hrun, hget⟩ := exists_run (step plainCodec) (.new true) registeredInTime
    (fun m ↦ m.streams.get 2 = some 0) (by decide +kernel)
  exact ⟨m, 0, hrun, hget, mapped_live hrun hget⟩

end

end Swarmlet.Mux
