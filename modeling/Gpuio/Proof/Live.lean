import Gpuio.Proof.Cases

/-!
# What a history has made live

The run theorems measure each call against what the calls before it made live: the registrations
that `gpuio_register_memory` filled and no `gpuio_unregister_memory` has dropped, the stream slots
with whether each stream is still alive, the blocks `gpuio_malloc` handed out and `gpuio_free` has
not released, and the events not yet destroyed. Each is updated from a call and what it returned
alone; the invariants of the later modules tie them to the state.
-/

namespace Gpuio

/-- The live registrations after a call returned `r`: a successful registration adds the struct it
filled, a successful unregistration drops the registration with its handle. -/
def registryAfter (regs : List GpuioMemoryRegion) : Call → Ret → List GpuioMemoryRegion
  | .registerMemory .., r =>
    match r.code, r.out with
    | .success, some (.region pub) => pub :: regs
    | _, _ => regs
  | .unregisterMemory _ _ pub, r =>
    if r.code = .success then regs.filter (·.handle != pub.handle) else regs
  | _, _ => regs

/-- The slots after a call returned `r`: a successful create appends its record, a successful
destroy marks its record dead. -/
def streamsAfter (slots : List (Ptr × Bool)) : Call → Ret → List (Ptr × Bool)
  | .streamCreate .., r =>
    match r.code, r.out with
    | .success, some (.ptr p) => slots ++ [(p, true)]
    | _, _ => slots
  | .streamDestroy _ stream, r =>
    if r.code = .success then slots.map fun q => (q.1, q.2 && q.1 != stream) else slots
  | _, _ => slots

/-- The caller's `malloc` blocks after a call returned `r`: a successful `gpuio_malloc` adds the
block it wrote to `*ptr`, a `gpuio_free` that returned `GPUIO_SUCCESS` drops its argument. -/
def blocksAfter (blocks : List Ptr) : Call → Ret → List Ptr
  | .malloc .., r =>
    match r.code, r.out with
    | .success, some (.ptr p) => p :: blocks
    | _, _ => blocks
  | .free _ ptr, r => if r.code = .success then blocks.erase ptr else blocks
  | _, _ => blocks

/-- The live events after a call returned `r`: a successful create adds the event it wrote, a
destroy that returned `GPUIO_SUCCESS` drops its argument. -/
def eventsAfter (events : List Ptr) : Call → Ret → List Ptr
  | .eventCreate .., r =>
    match r.code, r.out with
    | .success, some (.ptr p) => p :: events
    | _, _ => events
  | .eventDestroy _ event, r => if r.code = .success then events.erase event else events
  | _, _ => events

/-- What the history has made live: registrations, stream slots, the caller's `malloc` blocks and
events. -/
structure Live where
  regs : List GpuioMemoryRegion
  slots : List (Ptr × Bool)
  blocks : List Ptr
  events : List Ptr

/-- Nothing live: the history of `gpuio_init`. -/
def Live.empty : Live := ⟨[], [], [], []⟩

/-- What is live after a call returned `r`. -/
def liveAfter (a : Live) (c : Call) (r : Ret) : Live :=
  ⟨registryAfter a.regs c r, streamsAfter a.slots c r, blocksAfter a.blocks c r,
    eventsAfter a.events c r⟩

/-! ### Blocks held on the caller's behalf -/

/-- `l` lists distinct non-`NULL` addresses, each holding a live block of the kind `kind` picks. -/
structure Owned (kind : Block → Bool) (heap : Heap) (l : List Ptr) : Prop where
  nodup : l.Nodup
  live : ∀ p ∈ l, p ≠ 0 ∧ ∃ b, heap p = some b ∧ kind b = true

/-- A block `malloc` handed out. -/
def Block.isMalloc : Block → Bool
  | .user .malloc _ => true
  | _ => false

/-- An event record. -/
def Block.isEvent : Block → Bool
  | .event => true
  | _ => false

section Owned

variable {kind : Block → Bool} {heap heap' : Heap} {l : List Ptr}

/-- Whatever keeps the listed blocks keeps the list. -/
theorem Owned.keep (h : Owned kind heap l)
    (hkeep : ∀ p ∈ l, ∀ b, heap p = some b → kind b = true → heap' p = some b) :
    Owned kind heap' l :=
  ⟨h.nodup, fun p hp =>
    let ⟨hnz, b, hb, hk⟩ := h.live p hp
    ⟨hnz, b, hkeep p hp b hb hk, hk⟩⟩

theorem Owned.sublist (h : Owned kind heap l) {l' : List Ptr} (hl : l'.Sublist l) :
    Owned kind heap l' :=
  ⟨h.nodup.sublist hl, fun p hp => h.live p (hl.subset hp)⟩

theorem Owned.not_mem_of_none (h : Owned kind heap l) {p : Ptr} (hp : heap p = none) : p ∉ l :=
  fun hm => by
    obtain ⟨-, b, hb, -⟩ := h.live p hm
    rw [hp] at hb
    cases hb

/-- Releasing `p` keeps the list without it. -/
theorem Owned.release (h : Owned kind heap l) (p : Ptr) :
    Owned kind (Function.update heap p none) (l.erase p) := by
  refine ⟨h.nodup.erase p, fun q hq => ?_⟩
  have hne : q ≠ p := fun e => h.nodup.not_mem_erase (e ▸ hq)
  obtain ⟨hnz, b, hb, hk⟩ := h.live q (List.mem_of_mem_erase hq)
  exact ⟨hnz, b, by rw [Function.update_noteq hne, hb], hk⟩

/-- A block of the kind added at a fresh address joins the list. -/
theorem Owned.push (h : Owned kind heap l) {p : Ptr} {b : Block} (hfresh : heap.fresh p = true)
    (hb : kind b = true) : Owned kind (Function.update heap p (some b)) (p :: l) := by
  obtain ⟨hnz, hnone⟩ := Heap.fresh_iff.1 hfresh
  have hold : Owned kind (Function.update heap p (some b)) l :=
    h.keep fun q _ b' hq _ => by
      rw [Function.update_noteq (by rintro rfl; rw [hnone] at hq; cases hq), hq]
  refine ⟨h.nodup.cons (h.not_mem_of_none hnone), ?_⟩
  simp only [List.mem_cons, forall_eq_or_imp]
  exact ⟨⟨hnz, b, Function.update_same _ _ _, hb⟩, hold.live⟩

theorem Owned.malloc_of_mem (h : Owned Block.isMalloc heap l) {p : Ptr} (hp : p ∈ l) :
    p ≠ 0 ∧ ∃ n, heap p = some (.user .malloc n) := by
  obtain ⟨hnz, b, hb, hk⟩ := h.live p hp
  rcases b with _ | _ | _ | ⟨_ | _ | _, n⟩ <;> first | exact ⟨hnz, n, hb⟩ | cases hk

theorem Owned.event_of_mem (h : Owned Block.isEvent heap l) {p : Ptr} (hp : p ∈ l) :
    p ≠ 0 ∧ heap p = some .event := by
  obtain ⟨hnz, b, hb, hk⟩ := h.live p hp
  rcases b with _ | _ | _ | _ <;> first | exact ⟨hnz, hb⟩ | cases hk

end Owned

end Gpuio
