import Gpuio.Proof.Registry
import Gpuio.Proof.Streams
import Gpuio.Proof.Free
import Gpuio.Proof.Stats

/-!
# The whole context

The region list, the stream array, the caller's `malloc` blocks and the events share one context
and one heap. Each public operation writes only its own part of the context, and of the live
blocks only the one it frees, besides the links of region records when it unregisters
(`Call.run_keeps`). A legal call frees only a block of its own kind, so the invariants of the
registries, of the caller's blocks and of the events hold together over every interleaving of all
the public operations, with allocations, copies and statistics in between. Synchronize-all is the
one operation that reads records the history may have freed: it is taken only while no stream has
been destroyed. Whatever a run does, the stream array keeps `num_streams` non-`NULL` slots, so that
read of a freed record is the only way synchronize-all faults.

The counters are written only by `stats_update`, the copies and `gpuio_reset_stats`, so over any
run they are the sum of what those calls add, and submitted stays completed plus failed in every
state the API reaches.
-/

namespace Gpuio

/-! ### What a call may change -/

/-- The calls of the region registry. -/
def Call.ofRegistry : Call → Bool
  | .registerMemory .. | .unregisterMemory .. => true
  | _ => false

/-- The calls of the stream array. -/
def Call.ofStreams : Call → Bool
  | .streamCreate .. | .streamDestroy .. => true
  | _ => false

/-- The calls that hand out or release a caller's `malloc` block. -/
def Call.ofBlocks : Call → Bool
  | .malloc .. | .free .. => true
  | _ => false

/-- The calls that create or destroy an event. -/
def Call.ofEvents : Call → Bool
  | .eventCreate .. | .eventDestroy .. => true
  | _ => false

/-- The live blocks a call may change: the one that `gpuio_free`, `gpuio_stream_destroy` or
`gpuio_event_destroy` frees, and for `gpuio_unregister_memory` the region records, since it
rewrites the link of one of them and frees the one it unlinked. -/
def Call.Touches : Call → Ptr → Block → Prop
  | .free _ ptr, p, _ => p = ptr
  | .unregisterMemory .., _, b => ∃ r, b = .region r
  | .streamDestroy _ stream, p, _ => p = stream
  | .eventDestroy _ event, p, _ => p = event
  | _, _, _ => False

/-- The calls that write the counters. -/
def Call.ofStats : Call → Bool
  | .memcpy .. | .memcpyAsync .. | .statsUpdate .. | .resetStats .. => true
  | _ => false

/-- What a call `c` from `s` to `t` leaves alone: `ctx->regions` unless it is a registry call, the
stream array unless it is a stream call, the counters unless it writes them, and every live block
it does not touch. -/
structure Keeps (c : Call) (s t : State) : Prop where
  regions : c.ofRegistry = false → t.ctx.regions = s.ctx.regions
  streams : c.ofStreams = false →
    t.ctx.streams = s.ctx.streams ∧ t.ctx.numStreams = s.ctx.numStreams
  counters : c.ofStats = false → t.ctx.stats = s.ctx.stats
  blocks : ∀ p b, s.heap p = some b → ¬ c.Touches p b → t.heap p = some b

section Keeps

variable {c : Call} {s t : State} {o : Oracle} {r : Ret}

theorem Keeps.of_eq (hctx : t.ctx = s.ctx) (hheap : t.heap = s.heap) : Keeps c s t :=
  ⟨fun _ => by rw [hctx], fun _ => by rw [hctx]; exact ⟨rfl, rfl⟩, fun _ => by rw [hctx],
    fun _ _ h _ => hheap ▸ h⟩

theorem Keeps.refl : Keeps c s s := .of_eq rfl rfl

/-- A call that writes only the counters. -/
theorem Keeps.counting (hc : c.ofStats = true) (hregions : t.ctx.regions = s.ctx.regions)
    (hstreams : t.ctx.streams = s.ctx.streams) (hnum : t.ctx.numStreams = s.ctx.numStreams)
    (hheap : t.heap = s.heap) : Keeps c s t :=
  ⟨fun _ => hregions, fun _ => ⟨hstreams, hnum⟩, fun h => Bool.noConfusion (hc.symm.trans h),
    fun _ _ h _ => hheap ▸ h⟩

/-- A block added where the heap had none leaves every live block alone. -/
theorem Keeps.fresh {p : Ptr} {v : Option Block}
    (hregions : c.ofRegistry = false → t.ctx.regions = s.ctx.regions)
    (hstreams : c.ofStreams = false →
      t.ctx.streams = s.ctx.streams ∧ t.ctx.numStreams = s.ctx.numStreams)
    (hcounters : t.ctx.stats = s.ctx.stats) (hheap : t.heap = Function.update s.heap p v)
    (hnone : s.heap p = none) : Keeps c s t := by
  refine ⟨hregions, hstreams, fun _ => hcounters, fun q b hq _ => ?_⟩
  rw [hheap, Function.update_noteq (by rintro rfl; rw [hnone] at hq; cases hq), hq]

theorem Keeps.alloc {p : Ptr} {b : Block} (hnone : s.heap p = none) : Keeps c s (s.alloc p b) :=
  .fresh (fun _ => rfl) (fun _ => ⟨rfl, rfl⟩) rfl rfl hnone

/-- Freeing a block the call touches leaves every other live block alone. -/
theorem Keeps.release {p : Ptr} (hctx : t.ctx = s.ctx) (hheap : t.heap = Function.update s.heap p none)
    (htouch : ∀ b, c.Touches p b) : Keeps c s t := by
  refine ⟨fun _ => by rw [hctx], fun _ => by rw [hctx]; exact ⟨rfl, rfl⟩, fun _ => by rw [hctx],
    fun q b hq ht => ?_⟩
  rw [hheap, Function.update_noteq (by rintro rfl; exact ht (htouch b)), hq]

/-- An allocation helper either changes nothing or adds one block where the heap had none. -/
theorem Keeps.of_allocated (halloc : s.AllocatedFrom t) : Keeps c s t := by
  rcases halloc with rfl | ⟨p, -, -, -, hnone, rfl⟩
  exacts [.refl, .alloc hnone]

theorem gpuioMalloc_keeps {ctx ptr : Ptr} {size : UInt64}
    (h : gpuioMalloc s o ctx size ptr = .ok r) : Keeps c s r.state := by
  rcases gpuioMalloc_cases h with ⟨_, rfl⟩ | rfl | ⟨hf, rfl⟩
  exacts [.refl, .refl, .alloc (Heap.fresh_iff.1 hf).2]

theorem gpuioMallocUnified_keeps {ctx ptr : Ptr} {size : UInt64}
    (h : gpuioMallocUnified s o ctx size ptr = .ok r) : Keeps c s r.state := by
  rcases gpuioMallocUnified_cases h with ⟨_, rfl⟩ | ⟨-, h⟩
  exacts [.refl, .of_allocated (gpuioMallocDevice_allocated h)]

theorem gpuioFree_keeps {ctx ptr : Ptr} (h : gpuioFree s o ctx ptr = .ok r) :
    Keeps (.free ctx ptr) s r.state := by
  rcases gpuioFree_cases h with ⟨_, rfl⟩ | ⟨-, rfl⟩ | ⟨-, -, -, -, ⟨-, -, rfl⟩ | ⟨-, -, rfl⟩⟩
  exacts [.refl, .refl, .release rfl rfl fun _ => rfl, .release rfl rfl fun _ => rfl]

theorem gpuioRegisterMemory_keeps {ctx ptr region : Ptr} {size : UInt64}
    {access : GpuioMemAccess} (h : gpuioRegisterMemory s o ctx ptr size access region = .ok r) :
    Keeps (.registerMemory ctx ptr size access region) s r.state := by
  rcases gpuioRegisterMemory_cases h with
    ⟨-, hst, -, -⟩ | ⟨-, -, -, -, hnone, _, _, _, -, -, -, rfl⟩
  · rw [hst]
    exact .refl
  · exact .fresh nofun (fun _ => ⟨rfl, rfl⟩) rfl rfl hnone

theorem gpuioUnregisterMemory_keeps {ctx region : Ptr} {pub : GpuioMemoryRegion}
    (h : gpuioUnregisterMemory s o ctx region pub = .ok r) :
    Keeps (.unregisterMemory ctx region pub) s r.state := by
  have hblocks (p : Ptr) (b : Block) (hp : s.heap p = some b)
      (ht : ¬ Call.Touches (.unregisterMemory ctx region pub) p b) : r.state.heap p = some b :=
    unregisterMemory_keeps_block h hp fun rec hb => ht ⟨rec, hb⟩
  rcases gpuioUnregisterMemory_cases h with ⟨_, -, rfl⟩ | ⟨_, _, _, -, -, rfl⟩
  · exact .refl
  · exact ⟨nofun, fun _ => ⟨rfl, rfl⟩, fun _ => rfl, hblocks⟩

theorem gpuioMemcpy_keeps {ctx dst src : Ptr} {size : UInt64} (stream : Ptr) (hc : c.ofStats = true)
    (h : gpuioMemcpy s o ctx dst src size stream = .ok r) : Keeps c s r.state := by
  rcases gpuioMemcpy_cases h with ⟨_, rfl⟩ | rfl
  exacts [.refl, .counting hc rfl rfl rfl rfl]

theorem gpuioStreamCreate_keeps {ctx stream : Ptr} {priority : Int}
    (h : gpuioStreamCreate s o ctx stream priority = .ok r) :
    Keeps (.streamCreate ctx stream priority) s r.state := by
  rcases gpuioStreamCreate_cases h with
    ⟨-, hst, -, -⟩ | ⟨-, -, hst, -⟩ | ⟨-, -, hnone, -, -, hst, -⟩ <;> rw [hst]
  · exact .refl
  · exact .of_eq rfl rfl
  · exact .fresh (fun _ => rfl) nofun rfl rfl hnone

theorem gpuioStreamDestroy_keeps {ctx stream : Ptr} (h : gpuioStreamDestroy s o ctx stream = .ok r) :
    Keeps (.streamDestroy ctx stream) s r.state := by
  rcases gpuioStreamDestroy_cases h with ⟨_, -, rfl⟩ | ⟨-, -, rfl⟩
  exacts [.refl, .release rfl rfl fun _ => rfl]

theorem gpuioStreamSynchronize_keeps {ctx stream : Ptr}
    (h : gpuioStreamSynchronize s o ctx stream = .ok r) : Keeps c s r.state := by
  rcases gpuioStreamSynchronize_cases h with ⟨_, rfl⟩ | ⟨-, -, -, rfl⟩ | ⟨-, rfl⟩ <;> exact .refl

theorem gpuioEventCreate_keeps {ctx event : Ptr} (h : gpuioEventCreate s o ctx event = .ok r) :
    Keeps c s r.state := by
  rcases gpuioEventCreate_cases h with ⟨_, rfl⟩ | ⟨-, rfl⟩ | ⟨-, hnone, -, rfl⟩
  exacts [.refl, .refl, .fresh (fun _ => rfl) (fun _ => ⟨rfl, rfl⟩) rfl rfl hnone]

theorem gpuioEventDestroy_keeps {ctx event : Ptr} (h : gpuioEventDestroy s o ctx event = .ok r) :
    Keeps (.eventDestroy ctx event) s r.state := by
  rcases gpuioEventDestroy_cases h with ⟨_, -, rfl⟩ | ⟨-, -, -, rfl⟩
  exacts [.refl, .release rfl rfl fun _ => rfl]

/-- **Each call writes only what it owns.** A call that returns leaves `ctx->regions` alone unless
it registers or unregisters, the stream array alone unless it creates or destroys a stream, and
every live block alone except the one it frees and, for an unregistration, the region records. -/
theorem Call.run_keeps (h : c.run s o = .ok r) : Keeps c s r.state := by
  have same {args : List Ptr} {x : Ret} (hx : x.state = s) (hr : guarded s args (.ok x) = .ok r) :
      Keeps c s r.state := by
    rcases guarded_ok_cases hr with ⟨_, rfl⟩ | rfl
    exacts [.refl, hx ▸ .refl]
  cases c with
  | malloc => exact gpuioMalloc_keeps h
  | mallocPinned => exact .of_allocated (gpuioMallocPinned_allocated h)
  | mallocDevice => exact .of_allocated (gpuioMallocDevice_allocated h)
  | mallocUnified => exact gpuioMallocUnified_keeps h
  | free => exact gpuioFree_keeps h
  | registerMemory => exact gpuioRegisterMemory_keeps h
  | unregisterMemory => exact gpuioUnregisterMemory_keeps h
  | memcpy _ _ _ _ stream | memcpyAsync _ _ _ _ stream => exact gpuioMemcpy_keeps stream rfl h
  | streamCreate => exact gpuioStreamCreate_keeps h
  | streamDestroy => exact gpuioStreamDestroy_keeps h
  | streamSynchronize => exact gpuioStreamSynchronize_keeps h
  | streamQuery | eventRecord | eventSynchronize | eventElapsedTime | getStats => exact same rfl h
  | eventCreate => exact gpuioEventCreate_keeps h
  | eventDestroy => exact gpuioEventDestroy_keeps h
  | statsUpdate => cases h; exact .counting rfl rfl rfl rfl rfl
  | resetStats =>
    rcases guarded_ok_cases h with ⟨_, rfl⟩ | rfl
    exacts [.refl, .counting rfl rfl rfl rfl rfl]

end Keeps

/-! ### Each part under the other calls -/

section Spared

variable {regs : List GpuioMemoryRegion} {slots : List (Ptr × Bool)} {l : List Ptr} {c : Call}
  {s t : State} {r : Ret}

theorem RegistryInv.keeps (hinv : RegistryInv s.heap s.ctx.regions regs) (hk : Keeps c s t)
    (hc : c.ofRegistry = false)
    (hspared : ∀ pub ∈ regs, ∀ rec, s.heap pub.handle = some (.region rec) →
      ¬ c.Touches pub.handle (.region rec)) :
    RegistryInv t.heap t.ctx.regions regs := by
  rw [hk.regions hc]
  refine hinv.congr fun y hy => ?_
  obtain ⟨pub, hpub, rfl⟩ := List.mem_map.1 hy
  obtain ⟨rec, hrec, -⟩ := hinv.holds pub hpub
  rw [hk.blocks _ _ hrec (hspared pub hpub rec hrec), hrec]

theorem StreamsInv.keeps (hinv : StreamsInv s.ctx s.heap slots) (hk : Keeps c s t)
    (hc : c.ofStreams = false)
    (hspared : ∀ (k : Nat) p st, slots[k]? = some (p, true) → s.heap p = some (.stream st) →
      ¬ c.Touches p (.stream st)) :
    StreamsInv t.ctx t.heap slots := by
  obtain ⟨hstreams, hnum⟩ := hk.streams hc
  refine ⟨hnum.trans hinv.num, hstreams.trans hinv.array, hinv.nonnull, fun k p hslot => ?_⟩
  obtain ⟨st, hst, hid⟩ := hinv.live k p hslot
  exact ⟨st, hk.blocks _ _ hst (hspared k p st hslot hst), hid⟩

theorem Owned.keeps {kind : Block → Bool} (h : Owned kind s.heap l) (hk : Keeps c s t)
    (hspared : ∀ p ∈ l, ∀ b, s.heap p = some b → kind b = true → ¬ c.Touches p b) :
    Owned kind t.heap l :=
  h.keep fun p hp b hb hkind => hk.blocks p b hb (hspared p hp b hb hkind)

theorem registryAfter_of_other (hc : c.ofRegistry = false) : registryAfter regs c r = regs := by
  cases c <;> first | rfl | cases hc

theorem streamsAfter_of_other (hc : c.ofStreams = false) : streamsAfter slots c r = slots := by
  cases c <;> first | rfl | cases hc

theorem blocksAfter_of_other (hc : c.ofBlocks = false) : blocksAfter l c r = l := by
  cases c <;> first | rfl | cases hc

theorem eventsAfter_of_other (hc : c.ofEvents = false) : eventsAfter l c r = l := by
  cases c <;> first | rfl | cases hc

end Spared

/-! ### The whole context together -/

/-- The region list represents the live registrations, the stream array the created streams, and
the caller's `malloc` blocks and the live events are in the heap, all over one heap. -/
structure SystemInv (s : State) (a : Live) : Prop where
  registry : RegistryInv s.heap s.ctx.regions a.regs
  streams : StreamsInv s.ctx s.heap a.slots
  blocks : Owned Block.isMalloc s.heap a.blocks
  events : Owned Block.isEvent s.heap a.events

/-- The calls a run may make against what its history made live: any call, except that an
unregistration is of a live handle, `gpuio_free` is of `NULL` or of a block `gpuio_malloc` handed
out and no `gpuio_free` has released, creates leave fewer than `INT_MAX` streams, destroys are of
live streams and live events, and synchronize-all runs only while no stream has been destroyed. -/
def Call.SystemLegal (a : Live) : Call → Prop
  | .unregisterMemory _ _ pub => pub.handle ∈ a.regs.map (·.handle)
  | .free _ ptr => ptr = 0 ∨ ptr ∈ a.blocks
  | .streamCreate .. => (a.slots.length : Int) < intMax
  | .streamDestroy _ stream => (stream, true) ∈ a.slots
  | .streamSynchronize _ stream => stream = 0 → ∀ q ∈ a.slots, q.2 = true
  | .eventDestroy _ event => event ∈ a.events
  | _ => True

/-- `gpuio_init`'s context: nothing registered, created or handed out. -/
theorem SystemInv.initial (ops : Option VendorOps) : SystemInv (State.initial ops) .empty :=
  ⟨⟨.nil 0, nofun⟩, ⟨rfl, rfl, nofun, fun _ _ h => by simp [Live.empty] at h⟩, ⟨.nil, nofun⟩,
    ⟨.nil, nofun⟩⟩

section System

variable {a : Live} {c : Call} {s : State} {o : Oracle} {r : Ret}

theorem SystemInv.stream_of_live (hinv : SystemInv s a) {p : Ptr}
    (hp : (p, true) ∈ a.slots) : ∃ st, s.heap p = some (.stream st) := by
  obtain ⟨k, hk⟩ := List.mem_iff_getElem?.1 hp
  obtain ⟨st, hst, -⟩ := hinv.streams.live k p hk
  exact ⟨st, hst⟩

/-- What a legal call frees is of its own kind: `gpuio_free` a caller's `malloc` block, an
unregistration region records, a destroy the stream or the event it is given. -/
theorem SystemInv.touched (hinv : SystemInv s a) (hlegal : c.SystemLegal a) {p : Ptr} {b : Block}
    (hp : s.heap p = some b) (hnz : p ≠ 0) (ht : c.Touches p b) :
    (c.ofBlocks = true ∧ b.isMalloc = true) ∨ (c.ofRegistry = true ∧ ∃ rec, b = .region rec) ∨
      (c.ofStreams = true ∧ ∃ st, b = .stream st) ∨ (c.ofEvents = true ∧ b = .event) := by
  cases c with
  | free _ ptr =>
    obtain rfl : p = ptr := ht
    obtain ⟨-, n, hn⟩ := hinv.blocks.malloc_of_mem (hlegal.resolve_left hnz)
    rw [hp] at hn
    cases hn
    exact .inl ⟨rfl, rfl⟩
  | unregisterMemory => exact .inr (.inl ⟨rfl, ht⟩)
  | streamDestroy _ stream =>
    obtain rfl : p = stream := ht
    obtain ⟨st, hst⟩ := hinv.stream_of_live hlegal
    rw [hp] at hst
    cases hst
    exact .inr (.inr (.inl ⟨rfl, st, rfl⟩))
  | eventDestroy _ event =>
    obtain rfl : p = event := ht
    have hev := (hinv.events.event_of_mem hlegal).2
    rw [hp] at hev
    cases hev
    exact .inr (.inr (.inr ⟨rfl, rfl⟩))
  | _ => exact (ht : False).elim

theorem SystemInv.spares_regions (hinv : SystemInv s a) (hlegal : c.SystemLegal a)
    (hc : c.ofRegistry = false) :
    ∀ pub ∈ a.regs, ∀ rec, s.heap pub.handle = some (.region rec) →
      ¬ c.Touches pub.handle (.region rec) := fun pub hpub rec hrec ht => by
  have hnz := (ListSeg.live hinv.registry.rep (List.mem_map_of_mem _ hpub)).1
  rcases hinv.touched hlegal hrec hnz ht with ⟨-, h⟩ | ⟨h, -⟩ | ⟨-, _, h⟩ | ⟨-, h⟩
  · cases h
  · exact Bool.noConfusion (hc.symm.trans h)
  · cases h
  · cases h

theorem SystemInv.spares_streams (hinv : SystemInv s a) (hlegal : c.SystemLegal a)
    (hc : c.ofStreams = false) :
    ∀ (k : Nat) p st, a.slots[k]? = some (p, true) → s.heap p = some (.stream st) →
      ¬ c.Touches p (.stream st) := fun k p st hk hst ht => by
  have hnz := hinv.streams.nonnull _ (List.getElem?_mem hk)
  rcases hinv.touched hlegal hst hnz ht with ⟨-, h⟩ | ⟨-, _, h⟩ | ⟨h, -⟩ | ⟨-, h⟩
  · cases h
  · cases h
  · exact Bool.noConfusion (hc.symm.trans h)
  · cases h

theorem SystemInv.spares_blocks (hinv : SystemInv s a) (hlegal : c.SystemLegal a)
    (hc : c.ofBlocks = false) :
    ∀ p ∈ a.blocks, ∀ b, s.heap p = some b → b.isMalloc = true → ¬ c.Touches p b :=
  fun p hp b hb hk ht => by
  rcases hinv.touched hlegal hb (hinv.blocks.live p hp).1 ht with
    ⟨h, -⟩ | ⟨-, _, rfl⟩ | ⟨-, _, rfl⟩ | ⟨-, rfl⟩
  · exact Bool.noConfusion (hc.symm.trans h)
  all_goals cases hk

theorem SystemInv.spares_events (hinv : SystemInv s a) (hlegal : c.SystemLegal a)
    (hc : c.ofEvents = false) :
    ∀ p ∈ a.events, ∀ b, s.heap p = some b → b.isEvent = true → ¬ c.Touches p b :=
  fun p hp b hb hk ht => by
  rcases hinv.touched hlegal hb (hinv.events.live p hp).1 ht with
    ⟨-, h⟩ | ⟨-, _, rfl⟩ | ⟨-, _, rfl⟩ | ⟨h, -⟩
  · obtain rfl := Option.some.inj ((hinv.events.event_of_mem hp).2.symm.trans hb)
    cases h
  · cases hk
  · cases hk
  · exact Bool.noConfusion (hc.symm.trans h)

/-- Creating and destroying events keeps the live events in the heap, whatever they return. -/
theorem events_step {events : List Ptr} (hevents : Owned Block.isEvent s.heap events)
    (hc : c.ofEvents = true) (h : c.run s o = .ok r) :
    Owned Block.isEvent r.state.heap (eventsAfter events c r) := by
  cases c with
  | eventCreate =>
    rcases gpuioEventCreate_cases h with ⟨code, rfl⟩ | ⟨-, rfl⟩ | ⟨hnz, hnone, -, rfl⟩
    · cases code <;> exact hevents
    · exact hevents
    · exact hevents.push (Heap.fresh_iff.2 ⟨hnz, hnone⟩) rfl
  | eventDestroy _ event =>
    rcases gpuioEventDestroy_cases h with ⟨_, hcode, rfl⟩ | ⟨-, -, -, rfl⟩
    · show Owned _ _ (if _ = GpuioError.success then events.erase event else events)
      exact (if_neg hcode).symm ▸ hevents
    · exact hevents.release event
  | _ => cases hc

/-- A legal call keeps the whole invariant. -/
theorem SystemInv.step (hinv : SystemInv s a) (hlegal : c.SystemLegal a) (h : c.run s o = .ok r) :
    SystemInv r.state (liveAfter a c r) := by
  have hk := Call.run_keeps h
  -- the registry's calls and the caller's blocks go through the registry's own step
  have hreg (hc : c.ofRegistry = true ∨ c.ofBlocks = true) :
      RegistryInv r.state.heap r.state.ctx.regions (liveAfter a c r).regs ∧
        Owned Block.isMalloc r.state.heap (liveAfter a c r).blocks := by
    obtain ⟨r', h', hinv'⟩ := registry_legal_step s a c o hinv.registry hinv.blocks
      (by cases c <;> first | exact hlegal | (rcases hc with h | h <;> cases h))
    rw [h, Except.ok.injEq] at h'
    exact h' ▸ hinv'
  refine ⟨?_, ?_, ?_, ?_⟩
  · cases hc : c.ofRegistry
    · rw [show (liveAfter a c r).regs = a.regs from registryAfter_of_other hc]
      exact hinv.registry.keeps hk hc (hinv.spares_regions hlegal hc)
    · exact (hreg (.inl hc)).1
  · cases hc : c.ofStreams
    · rw [show (liveAfter a c r).slots = a.slots from streamsAfter_of_other hc]
      exact hinv.streams.keeps hk hc (hinv.spares_streams hlegal hc)
    · obtain ⟨r', h', hinv'⟩ := streams_legal_step s a.slots c o hinv.streams
        (by cases c <;> first | exact hlegal | cases hc)
      rw [h, Except.ok.injEq] at h'
      exact h' ▸ hinv'
  · cases hc : c.ofBlocks
    · rw [show (liveAfter a c r).blocks = a.blocks from blocksAfter_of_other hc]
      exact hinv.blocks.keeps hk (hinv.spares_blocks hlegal hc)
    · exact (hreg (.inr hc)).2
  · cases hc : c.ofEvents
    · rw [show (liveAfter a c r).events = a.events from eventsAfter_of_other hc]
      exact hinv.events.keeps hk (hinv.spares_events hlegal hc)
    · exact events_step hinv.events hc h

theorem gpuioMallocPinned_returns {ctx ptr : Ptr} {size : UInt64} :
    ∃ r, gpuioMallocPinned s o ctx size ptr = .ok r :=
  guarded_returns (by dsimp only; split_ifs <;> exact ⟨_, rfl⟩)

theorem gpuioMallocDevice_returns {ctx ptr : Ptr} {size : UInt64} :
    ∃ r, gpuioMallocDevice s o ctx size ptr = .ok r := by
  obtain ⟨r, hr⟩ := @gpuioMallocPinned_returns s o ctx ptr size
  refine guarded_returns ?_
  dsimp only
  split_ifs <;> first | exact ⟨_, rfl⟩ | exact ⟨_, by rw [hr]; rfl⟩

theorem gpuioEventDestroy_returns {ctx event : Ptr} {b : Block} (hb : s.heap event = some b)
    (hfree : b.freeable false = true) : ∃ r, gpuioEventDestroy s o ctx event = .ok r :=
  guarded_returns ⟨_, by
    rw [@State.freeBlock_of_freeable { s with vendor := s.vendorEventDestroy o event } _ _ _ hb hfree]
    rfl⟩

/-- Under the invariant no legal call faults. -/
theorem SystemInv.run_returns (hinv : SystemInv s a) (hlegal : c.SystemLegal a) :
    ∃ r, c.run s o = .ok r := by
  have total {args : List Ptr} {x : Ret} : ∃ r, guarded s args (.ok x) = .ok r :=
    guarded_returns ⟨x, rfl⟩
  cases c with
  | malloc => exact guarded_returns (by split_ifs <;> exact ⟨_, rfl⟩)
  | mallocPinned => exact gpuioMallocPinned_returns
  | mallocDevice => exact gpuioMallocDevice_returns
  | mallocUnified =>
    refine guarded_returns ?_
    split_ifs
    exacts [gpuioMallocDevice_returns, ⟨_, rfl⟩]
  | free ctx ptr =>
    obtain ⟨r, h, -⟩ := free_step hinv.registry hinv.blocks o ctx ptr hlegal
    exact ⟨r, h⟩
  | registerMemory ctx ptr size access region =>
    exact gpuioRegisterMemory_returns ctx ptr size access region
  | unregisterMemory ctx region pub =>
    obtain ⟨r, h, -⟩ := unregisterMemory_step hinv.registry o ctx region pub hlegal
    exact ⟨r, h⟩
  | memcpy | memcpyAsync => exact guarded_returns (by split_ifs <;> exact ⟨_, rfl⟩)
  | streamCreate ctx stream priority =>
    obtain ⟨r, h, -⟩ := streamCreate_step hinv.streams o ctx stream priority hlegal
    exact ⟨r, h⟩
  | streamDestroy ctx stream =>
    obtain ⟨r, h, -⟩ := streamDestroy_step hinv.streams o ctx stream hlegal
    exact ⟨r, h⟩
  | streamSynchronize ctx stream =>
    refine guarded_returns ?_
    split_ifs with h0
    · have hall := syncAll_eq_ok (@syncSlot_of_all_live s o a.slots hinv.streams (hlegal h0))
      rw [hinv.streams.num, Int.toNat_ofNat, hall]
      exact ⟨_, rfl⟩
    · exact ⟨_, rfl⟩
  | eventCreate => exact guarded_returns (by dsimp only; split_ifs <;> exact ⟨_, rfl⟩)
  | eventDestroy => exact gpuioEventDestroy_returns (hinv.events.event_of_mem hlegal).2 rfl
  | streamQuery | eventRecord | eventSynchronize | eventElapsedTime | getStats | resetStats =>
    exact total
  | statsUpdate => exact ⟨_, rfl⟩

/-- **The whole context over every interleaving.** From a state where `ctx->regions` represents
the live registrations, `ctx->streams` the created streams, and the caller's `malloc` blocks and
the live events are in the heap, every run of public operations that unregisters only live
handles, gives `gpuio_free` only `NULL` or a `malloc` block not yet freed, creates streams while
fewer than `INT_MAX` exist, destroys only live streams and live events, and synchronizes all
streams only while none has been destroyed, returns; and the whole invariant holds after it,
whatever the allocations, copies and statistics in between did. -/
theorem context_lifecycle {calls : List (Call × Oracle)} (hinv : SystemInv s a)
    (hlegal : Legal Call.SystemLegal liveAfter s a calls) :
    ∃ s' rets, exec s calls = .ok (s', rets) ∧
      SystemInv s' (afterAll liveAfter a (calls.map Prod.fst) rets) :=
  exec_inv SystemInv (fun _ _ _ _ hinv hlegal =>
    let ⟨r, h⟩ := hinv.run_returns hlegal
    ⟨r, h, hinv.step hlegal h⟩) hinv hlegal

end System

/-- With `nvidia_ops`: a block from `gpuio_malloc`, a region registered on it, a stream and an
event, synchronize-all, then the region unregistered, the stream and the event destroyed and the
block freed. -/
def mixedRun : List (Call × Oracle) :=
  [(.malloc 1 4096 8, .grant 64), (.registerMemory 1 64 4096 .readWrite 8, .grant 16),
    (.streamCreate 1 8 0, .grant 32), (.eventCreate 1 8, .grant 48),
    (.streamSynchronize 1 0, .grant 0),
    (.unregisterMemory 1 8 ⟨64, 16, 16, 4096, .readWrite, 0, true, 16⟩, .grant 0),
    (.streamDestroy 1 32, .grant 0), (.eventDestroy 1 48, .grant 0), (.free 1 64, .grant 0)]

theorem mixedRun_legal :
    Legal Call.SystemLegal liveAfter (State.initial (some nvidiaOps)) .empty mixedRun :=
  .cons trivial rfl <| .cons trivial rfl <| .cons (by simp only [Call.SystemLegal]; decide) rfl <|
    .cons trivial rfl <| .cons (by simp only [Call.SystemLegal]; decide) rfl <|
    .cons (by simp only [Call.SystemLegal]; decide) rfl <|
    .cons (by simp only [Call.SystemLegal]; decide) rfl <|
    .cons (by simp only [Call.SystemLegal]; decide) rfl <|
    .cons (by simp only [Call.SystemLegal]; decide) rfl trivial

theorem context_lifecycle_mixed_run :
    ∃ s' rets, exec (State.initial (some nvidiaOps)) mixedRun = .ok (s', rets) ∧
      SystemInv s' (afterAll liveAfter .empty (mixedRun.map Prod.fst) rets) :=
  context_lifecycle (SystemInv.initial _) mixedRun_legal

/-! ### The stream array in every reachable state -/

/-- The shape of the stream array: `num_streams` slots, none of them `NULL`. -/
structure State.StreamsSized (s : State) : Prop where
  nonneg : 0 ≤ s.ctx.numStreams
  length : s.ctx.streams.length = s.ctx.numStreams.toNat
  nonnull : (0 : Ptr) ∉ s.ctx.streams

section Sized

variable {s : State} {o : Oracle} {r : Ret}

theorem State.StreamsSized.of_ctx (hsz : s.StreamsSized) {t : State}
    (hstreams : t.ctx.streams = s.ctx.streams) (hnum : t.ctx.numStreams = s.ctx.numStreams) :
    t.StreamsSized :=
  ⟨hnum ▸ hsz.nonneg, by rw [hstreams, hnum, hsz.length], hstreams ▸ hsz.nonnull⟩

theorem State.StreamsSized.step (hsz : s.StreamsSized) {c : Call} (h : c.run s o = .ok r) :
    r.state.StreamsSized := by
  cases hc : c.ofStreams
  · obtain ⟨hstreams, hnum⟩ := (Call.run_keeps h).streams hc
    exact hsz.of_ctx hstreams hnum
  cases c with
  | streamCreate =>
    rcases gpuioStreamCreate_cases h with
      ⟨-, hst, -, -⟩ | ⟨-, -, hst, -⟩ | ⟨-, hnz, -, hnn, -, hst, -⟩ <;> rw [hst]
    · exact hsz
    · exact hsz.of_ctx rfl rfl
    have hlen : (s.ctx.numStreams + 1).toNat = s.ctx.numStreams.toNat + 1 := by omega
    have harray := reallocSlots_set_length o.calloc hsz.length
    refine ⟨by dsimp only; omega, ?_, ?_⟩ <;> dsimp only <;> rw [hlen, harray]
    · simp [hsz.length]
    · simpa [Ne.symm hnz] using hsz.nonnull
  | streamDestroy =>
    obtain ⟨hctx, -⟩ := gpuioStreamDestroy_keeps_ctx h
    exact hsz.of_ctx (by rw [hctx]) (by rw [hctx])
  | _ => cases hc

theorem syncSlot_eq_error {i : Nat} {f : Fault} (h : syncSlot s o i = .error f) :
    s.ctx.streams[i]? = none ∨
      ∃ p, s.ctx.streams[i]? = some p ∧ f = .invalidAccess p ∧ ∀ st, s.heap p ≠ some (.stream st) := by
  unfold syncSlot at h
  split at h
  · exact .inl ‹_›
  · rename_i p hp
    split_ifs at h
    split at h
    · cases h
    · cases h
      exact .inr ⟨p, hp, rfl, fun st hst => by simp_all⟩

theorem syncAll_eq_error {is : List Nat} {f : Fault} (h : syncAll s o is = .error f) :
    ∃ i ∈ is, syncSlot s o i = .error f := by
  induction is with
  | nil => cases h
  | cons i is ih =>
    cases hi : syncSlot s o i with
    | error f' =>
      rw [syncAll, hi] at h
      cases h
      exact ⟨i, List.mem_cons_self _ _, hi⟩
    | ok t =>
      cases hrest : syncAll s o is with
      | error f' =>
        rw [syncAll, hi, hrest] at h
        cases h
        obtain ⟨j, hj, hf⟩ := ih hrest
        exact ⟨j, List.mem_cons_of_mem _ hj, hf⟩
      | ok rest =>
        rw [syncAll, hi, hrest] at h
        cases h

/-- **The stream array is always sized.** In every state a run of public operations reaches from
`gpuio_init`, whatever the calls and the vendor's answers, `num_streams` is non-negative and counts
the slots of `ctx->streams`, none of them `NULL`. So synchronize-all never indexes past the array:
when it faults, it is on a slot whose record is no longer a stream, as after
`gpuio_stream_destroy` freed it. -/
theorem streams_sized {s : State} (hs : Reachable s) :
    s.StreamsSized ∧
      ∀ o ctx f, gpuioStreamSynchronize s o ctx 0 = .error f →
        ∃ p ∈ s.ctx.streams, f = .invalidAccess p ∧ ∀ st, s.heap p ≠ some (.stream st) := by
  have hsz : s.StreamsSized := by
    induction hs with
    | init => exact ⟨le_refl _, rfl, List.not_mem_nil _⟩
    | step c o _ h ih => exact ih.step h
  refine ⟨hsz, fun o ctx f h => ?_⟩
  have h := guarded_eq_error h
  simp only [if_true] at h
  cases hall : syncAll s o (List.range s.ctx.numStreams.toNat) with
  | ok tr => rw [hall] at h; cases h
  | error f' =>
    rw [hall] at h
    cases h
    obtain ⟨i, hi, hslot⟩ := syncAll_eq_error hall
    have hi : i < s.ctx.streams.length := hsz.length ▸ List.mem_range.1 hi
    rcases syncSlot_eq_error hslot with hnone | ⟨p, hp, hf, hnot⟩
    · rw [List.getElem?_eq_getElem hi] at hnone
      cases hnone
    · exact ⟨p, List.getElem?_mem hp, hf, hnot⟩

/-- After a create and a destroy, synchronize-all faults on the freed record of slot `0`. -/
theorem streams_sized_after_destroy :
    ∃ s, Reachable s ∧ gpuioStreamSynchronize s (.grant 0) 1 0 = .error (.invalidAccess 16) ∧
      (s.StreamsSized ∧ ∀ o ctx f, gpuioStreamSynchronize s o ctx 0 = .error f →
        ∃ p ∈ s.ctx.streams, f = .invalidAccess p ∧ ∀ st, s.heap p ≠ some (.stream st)) :=
  let hs := Reachable.step (.streamDestroy 1 16) (.grant 0)
    (.step (.streamCreate 1 8 0) (.grant 16) (.init none) rfl) rfl
  ⟨_, hs, rfl, streams_sized hs⟩

end Sized

/-! ### The counters over any run -/

section Counters

variable {s : State} {o : Oracle} {r : Ret}

/-- `gpuio_reset_stats`. -/
def Call.resets : Call → Bool
  | .resetStats _ => true
  | _ => false

theorem Call.counted_of_ofStats {c : Call} (hc : c.ofStats = false) (code : GpuioError) :
    c.counted code = .zero := by
  cases c <;> first | rfl | cases hc

theorem gpuioMemcpy_counters {ctx dst src : Ptr} {size : UInt64} (stream : Ptr)
    (h : gpuioMemcpy s o ctx dst src size stream = .ok r) :
    r.state.ctx.stats = s.ctx.stats.add ((Call.memcpy ctx dst src size stream).counted r.code) := by
  rcases guarded_eq_ok h with rfl | rfl | ⟨-, -, h⟩
  · exact GpuioStats.add_zero_eq.symm
  · exact GpuioStats.add_zero_eq.symm
  split_ifs at h <;> cases h
  · exact GpuioStats.add_zero_eq.symm
  · simp [State.addWritten, Call.counted, GpuioStats.add, GpuioStats.zero]

/-- A call adds its share to the counters, or is a reset that zeroes them. -/
theorem Call.run_counters {c : Call} (h : c.run s o = .ok r) :
    r.state.ctx.stats = s.ctx.stats.add (c.counted r.code) ∨
      c.resets = true ∧ r.state.ctx.stats = .zero := by
  cases hc : c.ofStats
  · rw [(Call.run_keeps h).counters hc, Call.counted_of_ofStats hc, GpuioStats.add_zero_eq]
    exact .inl rfl
  cases c with
  | memcpy _ _ _ _ stream => exact .inl (gpuioMemcpy_counters stream h)
  | memcpyAsync _ _ _ _ stream =>
    rw [Call.counted_memcpyAsync]
    exact .inl (gpuioMemcpy_counters stream h)
  | statsUpdate type bytes status =>
    cases h
    exact .inl (GpuioStats.update_eq_add _ type bytes status)
  | resetStats =>
    rcases guarded_eq_ok h with rfl | rfl | ⟨-, -, h⟩
    · exact .inl GpuioStats.add_zero_eq.symm
    · exact .inl GpuioStats.add_zero_eq.symm
    · cases h
      exact .inr ⟨rfl, rfl⟩
  | _ => cases hc

/-- **Balanced counters.** In every state a run of public operations reaches from `gpuio_init`,
whatever each call and the vendor returned, `requests_submitted` equals `requests_completed`
plus `requests_failed` (modulo 2^64): only `stats_update` moves them, by one submitted and one
completed or failed, and a reset zeroes all three. -/
theorem stats_balanced {s : State} (hs : Reachable s) :
    s.ctx.stats.requestsSubmitted = s.ctx.stats.requestsCompleted + s.ctx.stats.requestsFailed := by
  induction hs with
  | init => rfl
  | step c o _ h ih =>
    rcases Call.run_counters h with hst | ⟨-, hst⟩ <;> rw [hst]
    · exact GpuioStats.submitted_add ih (Call.counted_submitted _ _)
    · rfl

/-- A failed read and a completed write. -/
theorem stats_balanced_two_updates :
    ((GpuioStats.zero.update .read 4096 .general).update .write 64 .success).requestsSubmitted =
      ((GpuioStats.zero.update .read 4096 .general).update .write 64 .success).requestsCompleted +
        ((GpuioStats.zero.update .read 4096 .general).update .write 64 .success).requestsFailed :=
  stats_balanced (.step (.statsUpdate .write 64 .success) (.grant 0)
    (.step (.statsUpdate .read 4096 .general) (.grant 0) (.init none) rfl) rfl)

/-- **The counters over any run.** Every run of public operations without a reset that returns,
whatever the allocations, registrations, streams, events and vendor answers in it, leaves the
counters where they were plus the expected share of its calls and the codes they returned: no
operation but `stats_update` and the copies writes them. -/
theorem exec_counters {s s' : State} {calls : List (Call × Oracle)} {rets : List Ret}
    (hrun : exec s calls = .ok (s', rets)) (hcalls : ∀ co ∈ calls, co.1.resets = false) :
    s'.ctx.stats =
      s.ctx.stats.add (expectedStats ((calls.map Prod.fst).zip (rets.map Ret.code))) := by
  induction calls generalizing s rets with
  | nil =>
    cases hrun
    exact GpuioStats.add_zero_eq.symm
  | cons co rest ih =>
    obtain ⟨c, o⟩ := co
    obtain ⟨r, rs, hr, hexec, rfl⟩ := exec_cons_eq_ok hrun
    simp only [List.mem_cons, forall_eq_or_imp] at hcalls
    rw [ih hexec hcalls.2]
    rcases Call.run_counters hr with hst | ⟨hres, -⟩
    · rw [hst]
      simp only [List.map_cons, List.zip_cons_cons, expectedStats_cons, GpuioStats.add_assoc_eq]
    · rw [hcalls.1] at hres
      cases hres

/-- A run with `nvidia_ops` that allocates two blocks, registers a region on the first, records a
completed read, creates a stream and copies the first block into the second on it. -/
theorem exec_counters_mixed_run :
    ∃ s' rets, exec (State.initial (some nvidiaOps))
        [(.malloc 1 4096 8, .grant 64), (.malloc 1 4096 8, .grant 8192),
          (.registerMemory 1 64 4096 .readWrite 8, .grant 16),
          (.statsUpdate .read 64 .success, .grant 0), (.streamCreate 1 8 0, .grant 32),
          (.memcpy 1 8192 64 4096 32, .grant 0)] = .ok (s', rets) ∧
      s'.ctx.stats = (State.initial (some nvidiaOps)).ctx.stats.add (expectedStats
        (([(.malloc 1 4096 8, .grant 64), (.malloc 1 4096 8, .grant 8192),
          (.registerMemory 1 64 4096 .readWrite 8, .grant 16),
          (.statsUpdate .read 64 .success, .grant 0), (.streamCreate 1 8 0, .grant 32),
          (.memcpy 1 8192 64 4096 32, .grant 0)] : List (Call × Oracle)).map Prod.fst |>.zip
            (rets.map Ret.code))) :=
  ⟨_, _, rfl, exec_counters rfl (by decide)⟩

end Counters

end Gpuio
