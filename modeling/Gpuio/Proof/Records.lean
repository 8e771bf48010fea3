import Gpuio.Proof.System

/-!
# Records and the backend

The runtime callocs three kinds of record that the context keeps: a region record for each
registration, a stream record for each stream and an event record for each event. The call that
drops one frees it (`gpuio_unregister_memory`, `gpuio_stream_destroy`, `gpuio_event_destroy`),
every failing path frees the record it had allocated, and no other call writes a record. So the
heap never holds a record the history has lost: each region record is the record of a live
registration, each stream record that of a live slot and each event record a live event, whatever
the calls. Together with the invariant of the whole context, the records in the heap are then
exactly the live ones, after every legal run.

The model counts as held by the backend what its hooks accepted: a region whose `register_memory`
returned `0` until an `unregister_memory` returns `0`, and likewise a stream and an event. With
`nvidia_ops`, whose hooks succeed, this follows the same abstract state: over every legal run the
backend holds the live handles, newest first, the live streams and the live events, so the
runtime's vendor calls stay in balance with its registries; and a call that fails changes nothing.
-/

namespace Gpuio

/-- A region record. -/
def Block.isRegion : Block → Bool
  | .region _ => true
  | _ => false

/-- A stream record. -/
def Block.isStream : Block → Bool
  | .stream _ => true
  | _ => false

/-- The records of the live slots, in slot order. -/
def liveStreams (slots : List (Ptr × Bool)) : List Ptr := (slots.filter (·.2)).map (·.1)

/-- Every live block of the kind `kind` picks sits at an address of `l`. -/
def Covered (kind : Block → Bool) (heap : Heap) (l : List Ptr) : Prop :=
  ∀ p b, heap p = some b → kind b = true → p ∈ l

/-- Every runtime record in the heap belongs to the abstract state: a region record is the record
of a live registration, a stream record that of a live slot, an event record a live event. -/
structure NoOrphans (heap : Heap) (a : Live) : Prop where
  regions : Covered Block.isRegion heap (a.regs.map (·.handle))
  streams : Covered Block.isStream heap (liveStreams a.slots)
  events : Covered Block.isEvent heap a.events

/-- No record appears: every block of `heap'` that is not the caller's was already in `heap`. -/
def NoNewRecord (heap heap' : Heap) : Prop :=
  ∀ p b, heap' p = some b → (∀ origin size, b ≠ .user origin size) → heap p = some b

/-! ### One heap edit at a time -/

section Edits

variable {kind : Block → Bool} {heap heap' : Heap} {l l' : List Ptr} {p : Ptr}

theorem mem_liveStreams {slots : List (Ptr × Bool)} :
    p ∈ liveStreams slots ↔ (p, true) ∈ slots := by
  simp [liveStreams]

theorem liveStreams_append_live {slots : List (Ptr × Bool)} (p : Ptr) :
    liveStreams (slots ++ [(p, true)]) = liveStreams slots ++ [p] := by
  simp [liveStreams]

theorem liveStreams_destroy {slots : List (Ptr × Bool)} (h : Ptr) :
    liveStreams (slots.map fun x => (x.1, x.2 && x.1 != h)) = (liveStreams slots).filter (· != h) := by
  simp [liveStreams, List.filter_map, List.filter_filter, Function.comp_def, Bool.and_comm]

theorem Covered.of_kept (h : Covered kind heap l)
    (hkept : ∀ q b, heap' q = some b → kind b = true → ∃ b', heap q = some b' ∧ kind b' = true) :
    Covered kind heap' l := fun q b hq hk =>
  let ⟨b', hb', hk'⟩ := hkept q b hq hk
  h q b' hb' hk'

/-- Writing at `p` a block of another kind, or freeing it. -/
theorem Covered.update_other {v : Option Block} (h : Covered kind heap l)
    (hv : ∀ b, v = some b → kind b = false) : Covered kind (Function.update heap p v) l := by
  intro q b hq hk
  by_cases hqp : q = p
  · rw [hqp, Function.update_same] at hq
    rw [hv b hq] at hk
    cases hk
  · rw [Function.update_noteq hqp] at hq
    exact h q b hq hk

/-- Writing at `p` when the new list has `p` and keeps the others. -/
theorem Covered.update_mem {v : Option Block} (h : Covered kind heap l) (hp : p ∈ l')
    (hsub : ∀ q ∈ l, q ≠ p → q ∈ l') : Covered kind (Function.update heap p v) l' := by
  intro q b hq hk
  by_cases hqp : q = p
  · exact hqp ▸ hp
  · rw [Function.update_noteq hqp] at hq
    exact hsub q (h q b hq hk) hqp

/-- Freeing `p` when the new list keeps the others. -/
theorem Covered.release (h : Covered kind heap l) (hsub : ∀ q ∈ l, q ≠ p → q ∈ l') :
    Covered kind (Function.update heap p none) l' := by
  intro q b hq hk
  by_cases hqp : q = p
  · rw [hqp, Function.update_same] at hq
    cases hq
  · rw [Function.update_noteq hqp] at hq
    exact hsub q (h q b hq hk) hqp

theorem NoNewRecord.refl : NoNewRecord heap heap := fun _ _ h _ => h

/-- Freeing a block, or handing one to the caller. -/
theorem NoNewRecord.update {v : Option Block} (hv : ∀ b, v = some b → ∃ origin size, b = .user origin size) :
    NoNewRecord heap (Function.update heap p v) := by
  intro q b hq hb
  by_cases hqp : q = p
  · rw [hqp, Function.update_same] at hq
    obtain ⟨origin, size, rfl⟩ := hv b hq
    exact absurd rfl (hb origin size)
  · rwa [Function.update_noteq hqp] at hq

theorem NoNewRecord.release : NoNewRecord heap (Function.update heap p none) :=
  .update fun _ h => nomatch h

theorem NoNewRecord.user {origin : Allocator} {size : UInt64} :
    NoNewRecord heap (Function.update heap p (some (.user origin size))) :=
  .update fun _ h => ⟨origin, size, (Option.some.inj h).symm⟩

theorem Covered.of_noNew (h : Covered kind heap l) (hn : NoNewRecord heap heap')
    (huser : ∀ origin size, kind (.user origin size) = false) : Covered kind heap' l :=
  h.of_kept fun q b hq hk => ⟨b, hn q b hq (fun o n hb => by rw [hb, huser] at hk; cases hk), hk⟩

/-- The unlink loop rewrites only the links of region records, which keeps every kind. -/
theorem Covered.of_unlinked (h : Covered kind heap l) (hkind : ∀ b, kind b.unlinked = kind b)
    (hagree : ∀ y, (heap' y).map Block.unlinked = (heap y).map Block.unlinked) :
    Covered kind heap' l :=
  h.of_kept fun q b hq hk => by
    have e : (heap q).map Block.unlinked = some b.unlinked := by rw [← hagree, hq]; rfl
    obtain ⟨b', hb', e⟩ := Option.map_eq_some'.1 e
    exact ⟨b', hb', by rw [← hkind, e, hkind, hk]⟩

end Edits

section Orphans

variable {heap heap' : Heap} {a : Live} {p : Ptr}

theorem NoOrphans.of_noNew (hno : NoOrphans heap a) (hn : NoNewRecord heap heap') :
    NoOrphans heap' a :=
  ⟨hno.regions.of_noNew hn fun _ _ => rfl, hno.streams.of_noNew hn fun _ _ => rfl,
    hno.events.of_noNew hn fun _ _ => rfl⟩

theorem NoOrphans.of_unlinked (hno : NoOrphans heap a)
    (hagree : ∀ y, (heap' y).map Block.unlinked = (heap y).map Block.unlinked) :
    NoOrphans heap' a :=
  ⟨hno.regions.of_unlinked (fun b => by cases b <;> rfl) hagree,
    hno.streams.of_unlinked (fun b => by cases b <;> rfl) hagree,
    hno.events.of_unlinked (fun b => by cases b <;> rfl) hagree⟩

/-- A registration pushes its record, under its handle, as the newest registration. -/
theorem NoOrphans.push (hno : NoOrphans heap a) {pub : GpuioMemoryRegion}
    {rec : MemoryRegionInternal} :
    NoOrphans (Function.update heap pub.handle (some (.region rec))) { a with regs := pub :: a.regs } :=
  ⟨hno.regions.update_mem (List.mem_cons_self _ _) fun _ hq _ => List.mem_cons_of_mem _ hq,
    hno.streams.update_other fun _ h => by cases h; rfl,
    hno.events.update_other fun _ h => by cases h; rfl⟩

/-- A stream create appends its record as a live slot. -/
theorem NoOrphans.append (hno : NoOrphans heap a) {st : StreamInternal} :
    NoOrphans (Function.update heap p (some (.stream st))) { a with slots := a.slots ++ [(p, true)] } :=
  ⟨hno.regions.update_other fun _ h => by cases h; rfl,
    hno.streams.update_mem (by simp only [liveStreams_append_live]; exact List.mem_concat_self _ _)
      fun _ hq _ => by simp only [liveStreams_append_live]; exact List.mem_append_left _ hq,
    hno.events.update_other fun _ h => by cases h; rfl⟩

/-- An event create adds its record as a live event. -/
theorem NoOrphans.push_event (hno : NoOrphans heap a) :
    NoOrphans (Function.update heap p (some .event)) { a with events := p :: a.events } :=
  ⟨hno.regions.update_other fun _ h => by cases h; rfl,
    hno.streams.update_other fun _ h => by cases h; rfl,
    hno.events.update_mem (List.mem_cons_self _ _) fun _ hq _ => List.mem_cons_of_mem _ hq⟩

/-- An unregistration frees the record of the handle it drops. -/
theorem NoOrphans.release_region (hno : NoOrphans heap a) :
    NoOrphans (Function.update heap p none) { a with regs := a.regs.filter (·.handle != p) } :=
  ⟨hno.regions.release fun q hq hqp => by
      obtain ⟨pub, hpub, rfl⟩ := List.mem_map.1 hq
      exact List.mem_map_of_mem _ (List.mem_filter.2 ⟨hpub, by simpa using hqp⟩),
    hno.streams.release fun _ hq _ => hq, hno.events.release fun _ hq _ => hq⟩

/-- A stream destroy frees the record of the slot it marks dead. -/
theorem NoOrphans.release_stream (hno : NoOrphans heap a) :
    NoOrphans (Function.update heap p none)
      { a with slots := a.slots.map fun x => (x.1, x.2 && x.1 != p) } := by
  refine ⟨hno.regions.release fun _ hq _ => hq, ?_, hno.events.release fun _ hq _ => hq⟩
  refine hno.streams.release fun q hq hqp => ?_
  show q ∈ liveStreams (a.slots.map _)
  rw [liveStreams_destroy]
  exact List.mem_filter.2 ⟨hq, by simpa using hqp⟩

/-- An event destroy frees the record it drops. -/
theorem NoOrphans.release_event (hno : NoOrphans heap a) :
    NoOrphans (Function.update heap p none) { a with events := a.events.erase p } :=
  ⟨hno.regions.release fun _ hq _ => hq, hno.streams.release fun _ hq _ => hq,
    hno.events.release fun _ hq hqp => (List.mem_erase_of_ne hqp).2 hq⟩

end Orphans

/-! ### One call at a time -/

section Calls

variable {s : State} {o : Oracle} {r : Ret} {a : Live}

/-- What a call outside the registries and the events leaves to them: it adds no record, and the
backend's bookkeeping is as it was. -/
structure Bystander (s t : State) : Prop where
  records : NoNewRecord s.heap t.heap
  vendor : t.vendor = s.vendor

theorem Bystander.of_eq {t : State} (hheap : t.heap = s.heap) (hvendor : t.vendor = s.vendor) :
    Bystander s t :=
  ⟨hheap ▸ .refl, hvendor⟩

/-- An allocation helper either changes nothing or adds one block of the caller. -/
theorem Bystander.of_allocated {t : State} (halloc : s.AllocatedFrom t) : Bystander s t := by
  rcases halloc with rfl | ⟨p, origin, size, -, -, rfl⟩
  exacts [.of_eq rfl rfl, ⟨.user, rfl⟩]

/-- Only the calls of the registries and of the events add records or touch the backend's
bookkeeping. -/
theorem Call.run_bystander {c : Call} (h : c.run s o = .ok r) (hreg : c.ofRegistry = false)
    (hstr : c.ofStreams = false) (hev : c.ofEvents = false) : Bystander s r.state := by
  have same {args : List Ptr} {x : Ret} (hheap : x.state.heap = s.heap)
      (hvendor : x.state.vendor = s.vendor) (hr : guarded s args (.ok x) = .ok r) :
      Bystander s r.state := by
    rcases guarded_ok_cases hr with ⟨_, rfl⟩ | rfl
    exacts [.of_eq rfl rfl, .of_eq hheap hvendor]
  cases c with
  | malloc =>
    rcases gpuioMalloc_cases h with ⟨_, rfl⟩ | rfl | ⟨-, rfl⟩
    exacts [.of_eq rfl rfl, .of_eq rfl rfl, ⟨.user, rfl⟩]
  | mallocPinned => exact .of_allocated (gpuioMallocPinned_allocated h)
  | mallocDevice => exact .of_allocated (gpuioMallocDevice_allocated h)
  | mallocUnified =>
    rcases gpuioMallocUnified_cases h with ⟨_, rfl⟩ | ⟨-, h⟩
    exacts [.of_eq rfl rfl, .of_allocated (gpuioMallocDevice_allocated h)]
  | free =>
    rcases gpuioFree_cases h with ⟨_, rfl⟩ | ⟨-, rfl⟩ | ⟨-, -, -, -, ⟨-, -, rfl⟩ | ⟨-, -, rfl⟩⟩
    exacts [.of_eq rfl rfl, .of_eq rfl rfl, ⟨.release, rfl⟩, ⟨.release, rfl⟩]
  | memcpy _ _ _ _ stream | memcpyAsync _ _ _ _ stream =>
    rcases @gpuioMemcpy_cases s o r _ _ _ _ stream h with ⟨_, rfl⟩ | rfl <;> exact .of_eq rfl rfl
  | streamSynchronize =>
    rcases gpuioStreamSynchronize_cases h with ⟨_, rfl⟩ | ⟨-, -, -, rfl⟩ | ⟨-, rfl⟩ <;>
      exact .of_eq rfl rfl
  | streamQuery | eventRecord | eventSynchronize | eventElapsedTime | getStats | resetStats =>
    exact same rfl rfl h
  | statsUpdate => cases h; exact .of_eq rfl rfl
  | registerMemory | unregisterMemory => cases hreg
  | streamCreate | streamDestroy => cases hstr
  | eventCreate | eventDestroy => cases hev

/-- One call keeps the heap free of orphan records, whatever its arguments and answers. -/
theorem NoOrphans.step (hno : NoOrphans s.heap a) {c : Call} (h : c.run s o = .ok r) :
    NoOrphans r.state.heap (liveAfter a c r) := by
  cases c with
  | registerMemory =>
    rcases gpuioRegisterMemory_cases h with ⟨hc, hst, -, -⟩ | ⟨-, -, -, -, -, rec, v, tr, -, -, -, rfl⟩
    · rw [liveAfter, registryAfter_register_of_ne hc, hst]
      exact hno
    · rw [liveAfter, registryAfter_pushRegion]
      exact @NoOrphans.push _ _ hno (rec.fill o.calloc) _
  | unregisterMemory ctx region pub =>
    rcases gpuioUnregisterMemory_cases h with ⟨_, hc, rfl⟩ | ⟨_, _, _, hunlink, -, rfl⟩
    · simpa only [liveAfter, registryAfter, Ret.plain, if_neg hc] using hno
    · exact (hno.of_unlinked (unlinkRegion_unlinked hunlink)).release_region
  | streamCreate =>
    rcases gpuioStreamCreate_cases h with
      ⟨hc, hst, -, -⟩ | ⟨hc, -, hst, -⟩ | ⟨hc, -, -, -, hout, hst, -⟩
    · rw [liveAfter, streamsAfter_create_of_ne hc, hst]
      exact hno
    · rw [liveAfter, streamsAfter_create_of_ne (by rw [hc]; decide), hst]
      exact hno
    · simp only [liveAfter, streamsAfter, hc, hout, hst]
      exact hno.append
  | streamDestroy =>
    rcases gpuioStreamDestroy_cases h with ⟨_, hc, rfl⟩ | ⟨-, -, rfl⟩
    · simpa only [liveAfter, streamsAfter, Ret.plain, if_neg hc] using hno
    · exact hno.release_stream
  | eventCreate =>
    rcases gpuioEventCreate_cases h with ⟨code, rfl⟩ | ⟨-, rfl⟩ | ⟨-, -, -, rfl⟩
    · cases code <;> exact hno
    · exact hno
    · exact hno.push_event
  | eventDestroy =>
    rcases gpuioEventDestroy_cases h with ⟨_, hc, rfl⟩ | ⟨-, -, -, rfl⟩
    · simpa only [liveAfter, eventsAfter, Ret.plain, if_neg hc] using hno
    · exact hno.release_event
  | _ =>
    have hno' := hno.of_noNew (Call.run_bystander h rfl rfl rfl).records
    exact ⟨hno'.regions, hno'.streams, hno'.events⟩

end Calls

/-! ### The backend's bookkeeping -/

/-- The backend's bookkeeping matches what the history made live: it holds the handle of each live
registration, newest first, the record of each live stream, each once, and the live events. -/
structure VendorAgrees (v : Vendor) (a : Live) : Prop where
  registrations : v.registrations = a.regs.map (·.handle)
  streams : v.streams.Perm (liveStreams a.slots)
  nodup : (liveStreams a.slots).Nodup
  events : v.events = a.events

section Backend

variable {s : State} {o : Oracle} {r : Ret} {a : Live}

theorem State.hasHook_nvidia (hops : s.currentVendorOps = some nvidiaOps) (h : Hook) :
    s.hasHook h = true := by
  rw [State.hasHook, hops]
  rfl

theorem State.vendorStreamsInv_nvidia (hops : s.currentVendorOps = some nvidiaOps) :
    s.VendorStreamsInv := fun hno => by
  rw [State.hasHook_nvidia hops] at hno
  cases hno

theorem State.vendorUnregister_nvidia (hops : s.currentVendorOps = some nvidiaOps) {p : Ptr}
    (hret : o.ret .unregisterMemory = 0) :
    s.vendorUnregister o p = { s.vendor with registrations := s.vendor.registrations.erase p } := by
  simp [State.vendorUnregister, State.hasHook_nvidia hops, hret]

theorem State.vendorStreamCreate_nvidia (hops : s.currentVendorOps = some nvidiaOps) {p : Ptr} :
    s.vendorStreamCreate p = { s.vendor with streams := p :: s.vendor.streams } := by
  simp [State.vendorStreamCreate, State.hasHook_nvidia hops]

theorem State.vendorStreamDestroy_nvidia (hops : s.currentVendorOps = some nvidiaOps) {p : Ptr}
    (hret : o.ret .streamDestroy = 0) :
    s.vendorStreamDestroy o p = { s.vendor with streams := s.vendor.streams.erase p } := by
  simp [State.vendorStreamDestroy, State.hasHook_nvidia hops, hret]

theorem State.vendorEventCreate_nvidia (hops : s.currentVendorOps = some nvidiaOps) {p : Ptr} :
    s.vendorEventCreate p = { s.vendor with events := p :: s.vendor.events } := by
  simp [State.vendorEventCreate, State.hasHook_nvidia hops]

theorem State.vendorEventDestroy_nvidia (hops : s.currentVendorOps = some nvidiaOps) {p : Ptr}
    (hret : o.ret .eventDestroy = 0) :
    s.vendorEventDestroy o p = { s.vendor with events := s.vendor.events.erase p } := by
  simp [State.vendorEventDestroy, State.hasHook_nvidia hops, hret]

theorem VendorAgrees.congr {v : Vendor} {a' : Live} (hv : VendorAgrees v a) (hregs : a'.regs = a.regs)
    (hslots : a'.slots = a.slots) (hevents : a'.events = a.events) : VendorAgrees v a' := by
  obtain ⟨regs, slots, blocks, events⟩ := a'
  dsimp only at hregs hslots hevents
  subst hregs hslots hevents
  exact ⟨hv.registrations, hv.streams, hv.nodup, hv.events⟩

/-- Registration and unregistration as `nvidia_ops` answers them. -/
theorem VendorAgrees.registry_step (hinv : SystemInv s a) (hv : VendorAgrees s.vendor a)
    (hops : s.currentVendorOps = some nvidiaOps) (ho : o.NvidiaAnswers) {c : Call}
    (hc : c.ofRegistry = true) (h : c.run s o = .ok r) :
    VendorAgrees r.state.vendor (liveAfter a c r) := by
  cases c with
  | registerMemory =>
    show VendorAgrees _ { a with regs := registryAfter a.regs _ r }
    rcases gpuioRegisterMemory_cases h with
      ⟨hc, hst, -, -⟩ | ⟨-, -, -, -, -, rec, v, tr, -, hvs, ⟨hno, -⟩ | ⟨-, -, hvr⟩, rfl⟩
    · rw [registryAfter_register_of_ne hc, hst]
      exact hv
    · rw [State.hasHook_nvidia hops] at hno
      cases hno
    · have hstreams := congrArg Vendor.streams hvs
      rw [registryAfter_pushRegion]
      exact ⟨hvr.trans (congrArg _ hv.registrations), hstreams ▸ hv.streams, hv.nodup,
        (congrArg Vendor.events hvs).trans hv.events⟩
  | unregisterMemory ctx region pub =>
    show VendorAgrees _ { a with regs := registryAfter a.regs _ r }
    rcases gpuioUnregisterMemory_cases h with ⟨_, hc, rfl⟩ | ⟨_, _, _, -, -, rfl⟩
    · simpa only [registryAfter, Ret.plain, if_neg hc] using hv
    show VendorAgrees (s.vendorUnregister o pub.handle)
      { a with regs := a.regs.filter (·.handle != pub.handle) }
    rw [State.vendorUnregister_nvidia hops (ho .unregisterMemory nofun nofun)]
    refine ⟨?_, hv.streams, hv.nodup, hv.events⟩
    rw [hv.registrations, hinv.registry.rep.nodup.erase_eq_filter, List.filter_map]
    rfl
  | _ => cases hc

/-- Stream create and destroy as `nvidia_ops` answers them. -/
theorem VendorAgrees.streams_step (hinv : SystemInv s a) (hv : VendorAgrees s.vendor a)
    (hops : s.currentVendorOps = some nvidiaOps) (ho : o.NvidiaAnswers) {c : Call}
    (hc : c.ofStreams = true) (h : c.run s o = .ok r) :
    VendorAgrees r.state.vendor (liveAfter a c r) := by
  have hret : o.ret .streamDestroy = 0 := ho .streamDestroy nofun nofun
  cases c with
  | streamCreate =>
    show VendorAgrees _ { a with slots := streamsAfter a.slots _ r }
    rcases gpuioStreamCreate_cases h with
      ⟨hc, hst, -, -⟩ | ⟨hc, -, hst, -⟩ | ⟨hc, -, hnone, -, hout, hst, -⟩
    · rw [streamsAfter_create_of_ne hc, hst]
      exact hv
    · rw [streamsAfter_create_of_ne (by rw [hc]; decide), hst]
      simp only [State.vendorStreamDestroy_nvidia, State.vendorStreamCreate_nvidia, hops, hret,
        List.erase_cons_head]
      exact hv
    · simp only [streamsAfter, hc, hout, hst, State.vendorStreamCreate_nvidia hops]
      have hfresh : o.calloc ∉ liveStreams a.slots := fun hm => by
        obtain ⟨st, hst⟩ := hinv.stream_of_live (mem_liveStreams.1 hm)
        rw [hnone] at hst
        cases hst
      refine ⟨hv.registrations, ?_, ?_, hv.events⟩ <;> rw [liveStreams_append_live]
      · exact (hv.streams.cons o.calloc).trans (List.perm_append_singleton _ _).symm
      · exact hv.nodup.append (List.nodup_singleton _) (List.disjoint_singleton.2 hfresh)
  | streamDestroy ctx stream =>
    show VendorAgrees _ { a with slots := streamsAfter a.slots _ r }
    rcases gpuioStreamDestroy_cases h with ⟨_, hc, rfl⟩ | ⟨-, -, rfl⟩
    · simpa only [streamsAfter, Ret.plain, if_neg hc] using hv
    show VendorAgrees (s.vendorStreamDestroy o stream)
      { a with slots := a.slots.map fun x => (x.1, x.2 && x.1 != stream) }
    rw [State.vendorStreamDestroy_nvidia hops hret]
    refine ⟨hv.registrations, ?_, ?_, hv.events⟩ <;> rw [liveStreams_destroy]
    · rw [← hv.nodup.erase_eq_filter]
      exact hv.streams.erase stream
    · exact hv.nodup.filter _
  | _ => cases hc

/-- Event create and destroy as `nvidia_ops` answers them. -/
theorem VendorAgrees.events_step (hv : VendorAgrees s.vendor a)
    (hops : s.currentVendorOps = some nvidiaOps) (ho : o.NvidiaAnswers) {c : Call}
    (hc : c.ofEvents = true) (h : c.run s o = .ok r) :
    VendorAgrees r.state.vendor (liveAfter a c r) := by
  cases c with
  | eventCreate =>
    show VendorAgrees _ { a with events := eventsAfter a.events _ r }
    rcases gpuioEventCreate_cases h with ⟨code, rfl⟩ | ⟨-, rfl⟩ | ⟨-, -, -, rfl⟩
    · cases code <;> exact hv
    · exact hv
    · show VendorAgrees (s.vendorEventCreate o.calloc) { a with events := o.calloc :: a.events }
      rw [State.vendorEventCreate_nvidia hops]
      exact ⟨hv.registrations, hv.streams, hv.nodup, congrArg _ hv.events⟩
  | eventDestroy _ event =>
    show VendorAgrees _ { a with events := eventsAfter a.events _ r }
    rcases gpuioEventDestroy_cases h with ⟨_, hc, rfl⟩ | ⟨-, -, -, rfl⟩
    · simpa only [eventsAfter, Ret.plain, if_neg hc] using hv
    · show VendorAgrees (s.vendorEventDestroy o event) { a with events := a.events.erase event }
      rw [State.vendorEventDestroy_nvidia hops (ho .eventDestroy nofun nofun)]
      exact ⟨hv.registrations, hv.streams, hv.nodup, congrArg (·.erase event) hv.events⟩
  | _ => cases hc

/-- One call keeps the backend in step with the runtime, with `nvidia_ops` and its answers. -/
theorem VendorAgrees.step (hinv : SystemInv s a) (hv : VendorAgrees s.vendor a)
    (hops : s.currentVendorOps = some nvidiaOps) (ho : o.NvidiaAnswers) {c : Call}
    (h : c.run s o = .ok r) : VendorAgrees r.state.vendor (liveAfter a c r) := by
  cases hreg : c.ofRegistry
  · cases hstr : c.ofStreams
    · cases hev : c.ofEvents
      · rw [(Call.run_bystander h hreg hstr hev).vendor]
        exact hv.congr (registryAfter_of_other hreg) (streamsAfter_of_other hstr)
          (eventsAfter_of_other hev)
      · exact hv.events_step hops ho hev h
    · exact hv.streams_step hinv hops ho hstr h
  · exact hv.registry_step hinv hops ho hreg h

/-- **The backend agrees with the runtime.** With `nvidia_ops` and hooks that answer as
`vendor_nvidia.c` does, take a state where the whole invariant holds and the backend holds exactly
what the history made live. Every legal run returns, and afterwards the backend holds exactly the
handles of the live registrations, newest first, the records of the live streams and the live
events: the runtime never drops a registration, a stream or an event that the backend keeps, nor
keeps one the backend has dropped. -/
theorem nvidia_backend_agrees {calls : List (Call × Oracle)} (hinv : SystemInv s a)
    (hv : VendorAgrees s.vendor a) (hops : s.currentVendorOps = some nvidiaOps)
    (ho : ∀ co ∈ calls, co.2.NvidiaAnswers)
    (hlegal : Legal Call.SystemLegal liveAfter s a calls) :
    ∃ s' rets, exec s calls = .ok (s', rets) ∧
      s'.vendor.registrations =
        (afterAll liveAfter a (calls.map Prod.fst) rets).regs.map (·.handle) ∧
      s'.vendor.streams.Perm (liveStreams (afterAll liveAfter a (calls.map Prod.fst) rets).slots) ∧
      s'.vendor.events = (afterAll liveAfter a (calls.map Prod.fst) rets).events := by
  obtain ⟨s', rets, hexec, -, hv', -⟩ :=
    exec_inv_of (fun s a => SystemInv s a ∧ VendorAgrees s.vendor a ∧
        s.currentVendorOps = some nvidiaOps) Oracle.NvidiaAnswers
      (fun s a c o ⟨hinv, hv, hops⟩ hlegal ho =>
        let ⟨r, h⟩ := hinv.run_returns hlegal
        ⟨r, h, hinv.step hlegal h, hv.step hinv hops ho h,
          (Call.run_frame (State.vendorStreamsInv_nvidia hops) h).1.trans hops⟩)
      ⟨hinv, hv, hops⟩ ho hlegal
  exact ⟨s', rets, hexec, hv'.registrations, hv'.streams, hv'.events⟩

/-- The mixed run with `nvidia_ops` leaves the backend with nothing registered, no stream and no
event. -/
theorem nvidia_backend_agrees_mixed_run :
    ∃ s' rets, exec (State.initial (some nvidiaOps)) mixedRun = .ok (s', rets) ∧
      s'.vendor.registrations =
        (afterAll liveAfter .empty (mixedRun.map Prod.fst) rets).regs.map (·.handle) ∧
      s'.vendor.streams.Perm
        (liveStreams (afterAll liveAfter .empty (mixedRun.map Prod.fst) rets).slots) ∧
      s'.vendor.events = (afterAll liveAfter .empty (mixedRun.map Prod.fst) rets).events :=
  nvidia_backend_agrees (SystemInv.initial _) ⟨rfl, .nil, .nil, rfl⟩ rfl
    (by simp [mixedRun, Oracle.NvidiaAnswers, Oracle.grant]) mixedRun_legal

/-- **With `nvidia_ops`, a failing call changes nothing.** On every reachable state whose table is
`nvidia_ops`, when the hooks answer as `vendor_nvidia.c` does, a public operation that does not
return `GPUIO_SUCCESS` leaves the context, the live blocks and the vendor's bookkeeping as they
were: its `stream_destroy` always succeeds, so the stream that a failed `realloc` leaves behind is
always taken back. -/
theorem nvidia_failed_call_unchanged {s : State} {o : Oracle} {r : Ret} {c : Call}
    (hs : Reachable s) (hops : s.currentVendorOps = some nvidiaOps) (ho : o.NvidiaAnswers)
    (h : c.run s o = .ok r) (hc : r.code ≠ .success) : Unchanged s r := by
  rcases (Call.run_frame hs.vendorStreamsInv h).2.2 hc with hu | ⟨-, hleak⟩
  · exact hu
  · exact absurd ⟨State.hasHook_nvidia hops _, ho _ nofun nofun⟩ hleak.kept

/-- `realloc` fails after the vendor's `stream_create`: `NOMEM`, and nothing changed. -/
theorem nvidia_failed_call_unchanged_nomem :
    ∃ r, gpuioStreamCreate (State.initial (some nvidiaOps))
        { Oracle.grant 16 with realloc := false } 1 8 0 = .ok r ∧ r.code = .nomem ∧
      Unchanged (State.initial (some nvidiaOps)) r :=
  ⟨_, rfl, rfl, nvidia_failed_call_unchanged (.init _) rfl (fun _ _ _ => rfl)
    (show Call.run _ { Oracle.grant 16 with realloc := false } (.streamCreate 1 8 0) = _ from rfl)
    nofun⟩

end Backend

end Gpuio
