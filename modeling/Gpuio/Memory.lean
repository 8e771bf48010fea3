import Gpuio.RegionList

/-!
# `memory.c`

Allocation, release, registration and copy, as the C functions run them. The allocation helpers
try the vendor first and fall back (pinned to an anonymous `mmap`, device to pinned); `gpuio_free`
scans the region list under `regions_lock`, then tries the vendor's `free` and falls back to libc
`free`; registration pushes a record on the head of the list and unregistration unlinks it with the
pointer-to-pointer loop of `RegionList`.
-/

namespace Gpuio

/-- The block a vendor allocation hook that returned `0` wrote to `*ptr`. The heap gains it when
the address is fresh; a `NULL` or live address breaks the vendor's side of `vendor_ops_t` and adds
no block, though the call still reports it. -/
def State.vendorBlock (s : State) (p : Ptr) (size : UInt64) : State :=
  if s.heap.fresh p then s.alloc p (.user .vendor size) else s

/-- `gpuio_malloc`. -/
def gpuioMalloc (s : State) (o : Oracle) (ctx : Ptr) (size : UInt64) (ptr : Ptr) :
    Except Fault Ret :=
  guarded s [ctx, ptr] <|
    if s.heap.fresh o.malloc then
      .ok ⟨.success, s.alloc o.malloc (.user .malloc size), [], some (.ptr o.malloc)⟩
    else .ok ⟨.nomem, s, [], some (.ptr 0)⟩

/-- `gpuio_malloc_pinned`: the vendor's `malloc_pinned`, else an anonymous private `mmap`. -/
def gpuioMallocPinned (s : State) (o : Oracle) (ctx : Ptr) (size : UInt64) (ptr : Ptr) :
    Except Fault Ret :=
  guarded s [ctx, ptr] <|
    if s.hasHook .mallocPinned ∧ o.ret .mallocPinned = 0 then
      .ok ⟨.success, s.vendorBlock o.vendorPtr size, [.hook .mallocPinned ptr 0],
        some (.ptr o.vendorPtr)⟩
    else
      let tr := s.hookCall o .mallocPinned ptr
      if s.heap.fresh o.mmap then
        .ok ⟨.success, s.alloc o.mmap (.user .mmap size), tr, some (.ptr o.mmap)⟩
      else .ok ⟨.nomem, s, tr, some (.ptr 0)⟩

/-- `gpuio_malloc_device`: the vendor's `malloc_device`, else `gpuio_malloc_pinned`. -/
def gpuioMallocDevice (s : State) (o : Oracle) (ctx : Ptr) (size : UInt64) (ptr : Ptr) :
    Except Fault Ret :=
  guarded s [ctx, ptr] <|
    if s.hasHook .mallocDevice ∧ o.ret .mallocDevice = 0 then
      .ok ⟨.success, s.vendorBlock o.vendorPtr size, [.hook .mallocDevice ptr 0],
        some (.ptr o.vendorPtr)⟩
    else (gpuioMallocPinned s o ctx size ptr).map (Ret.after (s.hookCall o .mallocDevice ptr))

/-- `gpuio_malloc_unified`: device memory when the table has `malloc_device`, else
`UNSUPPORTED`. -/
def gpuioMallocUnified (s : State) (o : Oracle) (ctx : Ptr) (size : UInt64) (ptr : Ptr) :
    Except Fault Ret :=
  guarded s [ctx, ptr] <|
    if s.hasHook .mallocDevice then gpuioMallocDevice s o ctx size ptr
    else .ok (.plain s .unsupported)

/-- `gpuio_free`: `BUSY` while a registered region has base `ptr`; otherwise the vendor's `free`,
and libc `free` when the table has no `free` or it fails. Neither knows how `ptr` was allocated. -/
def gpuioFree (s : State) (o : Oracle) (ctx ptr : Ptr) : Except Fault Ret :=
  guarded s [ctx] <|
    if ptr = 0 then .ok (.plain s .success)
    else
      match scanRegions s.heap ptr walkBound s.ctx.regions with
      | .error f => .error f
      | .ok true => .ok ⟨.busy, s, [.lock .regions, .unlock .regions], none⟩
      | .ok false =>
        let tr : List Effect := [.lock .regions, .unlock .regions] ++ s.hookCall o .free ptr
        if s.hasHook .free ∧ o.ret .free = 0 then
          (s.freeBlock true ptr).map fun t => ⟨.success, t, tr, none⟩
        else (s.freeBlock false ptr).map fun t => ⟨.success, t, tr ++ [.free ptr], none⟩

/-- `/* Fill public structure */` of `gpuio_register_memory`. -/
def MemoryRegionInternal.fill (r : MemoryRegionInternal) (internal : Ptr) : GpuioMemoryRegion :=
  { baseAddr := r.baseAddr, gpuAddr := r.gpuAddr, busAddr := r.busAddr, length := r.length,
    access := r.access, gpuId := r.gpuId, registered := true, handle := internal }

/-- The end of a successful `gpuio_register_memory`: the record at `internal` goes on the head of
`ctx->regions` under `regions_lock`, and the caller's struct is filled. -/
def State.pushRegion (s : State) (internal : Ptr) (r : MemoryRegionInternal)
    (tr : List Effect) : Ret :=
  ⟨.success,
    { s with
      ctx := { s.ctx with regions := internal }
      heap := Function.update s.heap internal (some (.region { r with next := s.ctx.regions })) },
    tr ++ [.lock .regions, .unlock .regions], some (.region (r.fill internal))⟩

/-- `gpuio_register_memory`. With a vendor table that has `register_memory` the vendor fills the
addresses, and its failure fails the call; without one the addresses are `ptr` itself. -/
def gpuioRegisterMemory (s : State) (o : Oracle) (ctx ptr : Ptr) (size : UInt64)
    (access : GpuioMemAccess) (region : Ptr) : Except Fault Ret :=
  guarded s [ctx, region] <|
    if ptr = 0 ∨ size = 0 then .ok (.plain s .invalidArg)
    else if !s.heap.fresh o.calloc then .ok (.plain s .nomem)
    else
      let internal := o.calloc
      let r : MemoryRegionInternal :=
        { baseAddr := ptr, gpuAddr := 0, busAddr := 0, length := size, access := access,
          gpuId := s.ctx.currentDevice, registered := true, next := 0 }
      if s.hasHook .registerMemory then
        let ret := o.ret .registerMemory
        if ret ≠ 0 then
          .ok ⟨.general, s, [.hook .registerMemory internal ret, .free internal], none⟩
        else
          .ok (State.pushRegion
            { s with vendor := { s.vendor with registrations := internal :: s.vendor.registrations } }
            internal { r with gpuAddr := o.vendorGpuAddr, busAddr := o.vendorBusAddr }
            [.hook .registerMemory internal 0])
      else .ok (s.pushRegion internal { r with gpuAddr := ptr, busAddr := ptr } [])

/-- The vendor's bookkeeping after its `unregister_memory` hook ran on `internal`. -/
def State.vendorUnregister (s : State) (o : Oracle) (internal : Ptr) : Vendor :=
  if s.hasHook .unregisterMemory ∧ o.ret .unregisterMemory = 0 then
    { s.vendor with registrations := s.vendor.registrations.erase internal }
  else s.vendor

/-- `gpuio_unregister_memory`: `region` is the address of the caller's struct and `pub` what it
holds. The record named by `pub.handle` is unlinked if it is on the list, the vendor hook runs,
and the record is written and freed whether or not it was found. -/
def gpuioUnregisterMemory (s : State) (o : Oracle) (ctx region : Ptr) (pub : GpuioMemoryRegion) :
    Except Fault Ret :=
  guarded s [ctx, region] <|
    if pub.handle = 0 then .ok (.plain s .invalidArg)
    else
      let internal := pub.handle
      match unlinkRegion internal s.ctx.regions s.heap walkBound .head with
      | .error f => .error f
      | .ok (regions, heap) =>
        match heap internal with
        | some (.region _) =>
          .ok ⟨.success,
            { s with
              ctx := { s.ctx with regions := regions }
              heap := Function.update heap internal none
              vendor := s.vendorUnregister o internal },
            [.lock .regions, .unlock .regions] ++ s.hookCall o .unregisterMemory internal ++
              [.free internal],
            some (.region { pub with registered := false })⟩
        | _ => .error (.invalidAccess internal)

/-- `ctx->stats.bytes_written += size` under `stats_lock`. -/
def State.addWritten (s : State) (size : UInt64) : State :=
  { s with ctx := { s.ctx with stats := { s.ctx.stats with
      bytesWritten := s.ctx.stats.bytesWritten + size } } }

/-- `gpuio_memcpy`: the vendor's `memcpy`, else a plain copy; either way `bytes_written` grows by
`size` once. The bytes themselves are not modelled. -/
def gpuioMemcpy (s : State) (o : Oracle) (ctx dst src : Ptr) (size : UInt64) (stream : Ptr) :
    Except Fault Ret :=
  guarded s [ctx] <|
    if dst = 0 ∨ src = 0 then .ok (.plain s .invalidArg)
    else
      .ok ⟨.success, s.addWritten size,
        s.hookCall o .memcpy dst ++ [.lock .stats, .unlock .stats], none⟩

/-- `gpuio_memcpy_async`, which calls the synchronous copy. -/
def gpuioMemcpyAsync (s : State) (o : Oracle) (ctx dst src : Ptr) (size : UInt64)
    (stream : Ptr) : Except Fault Ret :=
  gpuioMemcpy s o ctx dst src size stream

end Gpuio
