import Mathlib.Logic.Function.Basic
import Mathlib.Data.List.Basic

/-!
# The runtime's data

The records of `internal.h`, the context, and the world a call runs in: the process heap, the
vendor backend's own bookkeeping, and the table of vendor hooks that `current_vendor_ops` points
to. A call of the public API is a function from a `State` and an `Oracle` (what malloc, mmap,
realloc and every vendor hook answer during that call) to a `Ret`: the code it returns, the state
after it, the lock, vendor-call and release effects it performed in order, and what it wrote
through its output parameter. A call can also end in a `Fault`: undefined behaviour, or a list
walk that never reaches `NULL`.
-/

namespace Gpuio

/-- A 64-bit address; `0` is `NULL`. -/
abbrev Ptr := UInt64

/-- Modelled from the spec: `gpuio_error_t` lives in `gpuio.h`, which is not in src. Its kinds are
the spec's error list, with `GPUIO_SUCCESS` first. -/
inductive GpuioError
  | success
  | general
  | nomem
  | invalidArg
  | notFound
  | timeout
  | io
  | network
  | unsupported
  | permission
  | busy
  | canceled
  | deviceLost
  | alreadyInitialized
  | notInitialized
  deriving DecidableEq, Repr

/-- Modelled from the spec: `gpuio_mem_access_t` (read, write, read-write). -/
inductive GpuioMemAccess
  | read
  | write
  | readWrite
  deriving DecidableEq, Repr

/-- Modelled from the spec: `gpuio_request_type_t` (read, write, copy). -/
inductive GpuioRequestType
  | read
  | write
  | copy
  deriving DecidableEq, Repr

/-- `memory_region_internal_t`, without `type` and `is_pinned`: calloc zeroes them and no modelled
function reads them. -/
structure MemoryRegionInternal where
  baseAddr : Ptr
  gpuAddr : Ptr
  busAddr : UInt64
  length : UInt64
  access : GpuioMemAccess
  gpuId : Int
  registered : Bool
  next : Ptr
  deriving DecidableEq, Repr

/-- `stream_internal_t`: the id and the priority. The mutex, the vendor handle and the request
queue are read by no modelled function. -/
structure StreamInternal where
  id : Int
  priority : Int
  deriving DecidableEq, Repr

/-- `gpuio_memory_region_t`: the fields `gpuio_register_memory` fills in the caller's struct. -/
structure GpuioMemoryRegion where
  baseAddr : Ptr
  gpuAddr : Ptr
  busAddr : UInt64
  length : UInt64
  access : GpuioMemAccess
  gpuId : Int
  registered : Bool
  handle : Ptr
  deriving DecidableEq, Repr

/-- `gpuio_stats_t`: the counters `log.c` and `memory.c` update. The bandwidth placeholder (always
`0.0`) and the cache hit rate (never written) are left out. -/
structure GpuioStats where
  requestsSubmitted : UInt64
  requestsCompleted : UInt64
  requestsFailed : UInt64
  bytesRead : UInt64
  bytesWritten : UInt64
  deriving DecidableEq, Repr

/-- `memset(&ctx->stats, 0, sizeof(gpuio_stats_t))`. -/
def GpuioStats.zero : GpuioStats := ⟨0, 0, 0, 0, 0⟩

/-! ### The heap -/

/-- Who handed out a block that the caller owns. -/
inductive Allocator
  | malloc
  | mmap
  | vendor
  deriving DecidableEq, Repr

/-- A live block of the process: a record the runtime callocs, or memory handed to the caller. -/
inductive Block
  | region (r : MemoryRegionInternal)
  | stream (st : StreamInternal)
  | event
  | user (origin : Allocator) (size : UInt64)
  deriving DecidableEq, Repr

/-- Live blocks by address; a freed or never allocated address holds `none`. -/
abbrev Heap := Ptr → Option Block

/-- An allocator's answer `p` is a block only if it is fresh; any other answer reads as `NULL`. -/
def Heap.fresh (heap : Heap) (p : Ptr) : Bool :=
  p != 0 && (heap p).isNone

/-! ### The vendor table -/

/-- The slots of `vendor_ops_t` that `memory.c` and `stream.c` call. -/
inductive Hook
  | mallocDevice
  | mallocPinned
  | free
  | memcpy
  | registerMemory
  | unregisterMemory
  | streamCreate
  | streamDestroy
  | streamSynchronize
  | streamQuery
  | eventCreate
  | eventDestroy
  | eventRecord
  | eventSynchronize
  | eventElapsedTime
  deriving DecidableEq, Repr

/-- `vendor_ops_t`: which slots are non-`NULL`. -/
structure VendorOps where
  slot : Hook → Bool

/-- `nvidia_ops` of `vendor_nvidia.c`: every slot is filled. -/
def nvidiaOps : VendorOps := ⟨fun _ => true⟩

/-- The backend's own bookkeeping: the region records registered with it, the stream records it
backs and the events it created. A hook that succeeds does its part here; a hook that fails changes
nothing. -/
structure Vendor where
  registrations : List Ptr
  streams : List Ptr
  events : List Ptr
  deriving DecidableEq, Repr

/-! ### Context, state, and what a call leaves behind -/

/-- `struct gpuio_context`: the fields `memory.c`, `stream.c` and `log.c` read or write. -/
structure GpuioContext where
  initialized : Bool
  currentDevice : Int
  regions : Ptr
  streams : List Ptr
  numStreams : Int
  stats : GpuioStats
  deriving DecidableEq, Repr

structure State where
  ctx : GpuioContext
  heap : Heap
  vendor : Vendor
  currentVendorOps : Option VendorOps

/-- `current_vendor_ops && current_vendor_ops->h`. -/
def State.hasHook (s : State) (h : Hook) : Bool :=
  match s.currentVendorOps with
  | some ops => ops.slot h
  | none => false

/-- The registry locks of `struct gpuio_context`. -/
inductive Lock
  | regions
  | streams
  | stats
  deriving DecidableEq, Repr

/-- What a call does in order: lock operations, vendor calls with the value they returned, and libc
`free`. -/
inductive Effect
  | lock (l : Lock)
  | unlock (l : Lock)
  | hook (h : Hook) (arg : Ptr) (ret : Int)
  | free (p : Ptr)
  deriving DecidableEq, Repr

/-- What a call wrote through its output parameter. -/
inductive Out
  | ptr (p : Ptr)
  | region (r : GpuioMemoryRegion)
  | idle (b : Bool)
  | ms
  | stats (st : GpuioStats)
  deriving DecidableEq, Repr

/-- How a call can end without returning. -/
inductive Fault
  | invalidAccess (p : Ptr)
  | invalidFree (p : Ptr)
  | outOfBounds (i : Int)
  | overflow
  | loop
  deriving DecidableEq, Repr

structure Ret where
  code : GpuioError
  state : State
  trace : List Effect
  out : Option Out

/-- The environment's answers during one call: what calloc, malloc and mmap return, whether
realloc succeeds, what each vendor hook returns, and what a hook that returns `0` writes. A hook
that returns anything else writes nothing: `vendor_ops_t` reads a non-zero return as "not done". -/
structure Oracle where
  calloc : Ptr
  malloc : Ptr
  mmap : Ptr
  realloc : Bool
  ret : Hook → Int
  vendorPtr : Ptr
  vendorGpuAddr : Ptr
  vendorBusAddr : UInt64
  idle : Bool

/-- The answers of the hooks of `vendor_nvidia.c`: each returns `0`, except `malloc_pinned` and
`malloc_device`, which return `-1` when their `malloc` fails. -/
def Oracle.NvidiaAnswers (o : Oracle) : Prop :=
  ∀ h, h ≠ .mallocPinned → h ≠ .mallocDevice → o.ret h = 0

/-! ### Shared shapes -/

/-- A call that returns `code` and does nothing else. -/
def Ret.plain (s : State) (code : GpuioError) : Ret := ⟨code, s, [], none⟩

/-- Effects performed before a nested call. -/
def Ret.after (tr : List Effect) (r : Ret) : Ret := { r with trace := tr ++ r.trace }

def State.alloc (s : State) (p : Ptr) (b : Block) : State :=
  { s with heap := Function.update s.heap p (some b) }

def State.release (s : State) (p : Ptr) : State :=
  { s with heap := Function.update s.heap p none }

/-- Whether a deallocator may release a live block: libc `free` takes what `malloc` and `calloc`
handed out, and a vendor `free` that succeeds also what the vendor handed out; nothing the library
calls unmaps an anonymous `mmap` mapping. -/
def Block.freeable (byVendor : Bool) : Block → Bool
  | .user .mmap _ => false
  | .user .vendor _ => byVendor
  | _ => true

/-- `free(p)`, by libc or, with `byVendor`, by the vendor's `free`. Releasing an address that holds
no block the deallocator may take (already freed, never allocated, from another allocator) is
undefined. -/
def State.freeBlock (s : State) (byVendor : Bool) (p : Ptr) : Except Fault State :=
  match s.heap p with
  | some b => if b.freeable byVendor then .ok (s.release p) else .error (.invalidFree p)
  | none => .error (.invalidFree p)

/-- The entry checks of every public operation: `if (!ctx || !arg || ...) return
GPUIO_ERROR_INVALID_ARG; if (!ctx->initialized) return GPUIO_ERROR_NOT_INITIALIZED;`. The
pointers checked against `NULL`, `ctx` among them, are `args`. -/
def guarded (s : State) (args : List Ptr) (body : Except Fault Ret) : Except Fault Ret :=
  if args.any (· == 0) then .ok (.plain s .invalidArg)
  else if !s.ctx.initialized then .ok (.plain s .notInitialized)
  else body

/-- A vendor hook's call as the trace records it, if the table has the slot. -/
def State.hookCall (s : State) (o : Oracle) (h : Hook) (arg : Ptr) : List Effect :=
  if s.hasHook h then [.hook h arg (o.ret h)] else []

/-- `int ret = current_vendor_ops->h(...)`, with `0` when the slot is empty (the code then takes
the path of a successful call or skips the hook). -/
def State.hookRet (s : State) (o : Oracle) (h : Hook) : Int :=
  if s.hasHook h then o.ret h else 0

end Gpuio
