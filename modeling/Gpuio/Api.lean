import Gpuio.Memory
import Gpuio.Stream
import Gpuio.Log

/-!
# The public API as one step function

A `Call` is one call of a public operation of `memory.c`, `stream.c` or `log.c`, with its
arguments; `exec` runs a sequence of them, each with the environment's answers during it. The
properties of the registries are invariants of `exec`: `exec_inv` does the induction over the
run once, so each of them needs only what one call preserves. Which runs count is given by an
abstract state (the registrations or streams the history has made live, say), a legality
condition on the next call against it (unregister only a live handle), and its update by each
call's result.
-/

namespace Gpuio

inductive Call
  | malloc (ctx : Ptr) (size : UInt64) (ptr : Ptr)
  | mallocPinned (ctx : Ptr) (size : UInt64) (ptr : Ptr)
  | mallocDevice (ctx : Ptr) (size : UInt64) (ptr : Ptr)
  | mallocUnified (ctx : Ptr) (size : UInt64) (ptr : Ptr)
  | free (ctx ptr : Ptr)
  | registerMemory (ctx ptr : Ptr) (size : UInt64) (access : GpuioMemAccess) (region : Ptr)
  | unregisterMemory (ctx region : Ptr) (pub : GpuioMemoryRegion)
  | memcpy (ctx dst src : Ptr) (size : UInt64) (stream : Ptr)
  | memcpyAsync (ctx dst src : Ptr) (size : UInt64) (stream : Ptr)
  | streamCreate (ctx stream : Ptr) (priority : Int)
  | streamDestroy (ctx stream : Ptr)
  | streamSynchronize (ctx stream : Ptr)
  | streamQuery (ctx stream idle : Ptr)
  | eventCreate (ctx event : Ptr)
  | eventDestroy (ctx event : Ptr)
  | eventRecord (ctx event stream : Ptr)
  | eventSynchronize (ctx event : Ptr)
  | eventElapsedTime (ctx start end_ ms : Ptr)
  | statsUpdate (type : GpuioRequestType) (bytes : UInt64) (status : GpuioError)
  | getStats (ctx stats : Ptr)
  | resetStats (ctx : Ptr)

def Call.run (s : State) (o : Oracle) : Call → Except Fault Ret
  | .malloc ctx size ptr => gpuioMalloc s o ctx size ptr
  | .mallocPinned ctx size ptr => gpuioMallocPinned s o ctx size ptr
  | .mallocDevice ctx size ptr => gpuioMallocDevice s o ctx size ptr
  | .mallocUnified ctx size ptr => gpuioMallocUnified s o ctx size ptr
  | .free ctx ptr => gpuioFree s o ctx ptr
  | .registerMemory ctx ptr size access region =>
    gpuioRegisterMemory s o ctx ptr size access region
  | .unregisterMemory ctx region pub => gpuioUnregisterMemory s o ctx region pub
  | .memcpy ctx dst src size stream => gpuioMemcpy s o ctx dst src size stream
  | .memcpyAsync ctx dst src size stream => gpuioMemcpyAsync s o ctx dst src size stream
  | .streamCreate ctx stream priority => gpuioStreamCreate s o ctx stream priority
  | .streamDestroy ctx stream => gpuioStreamDestroy s o ctx stream
  | .streamSynchronize ctx stream => gpuioStreamSynchronize s o ctx stream
  | .streamQuery ctx stream idle => gpuioStreamQuery s o ctx stream idle
  | .eventCreate ctx event => gpuioEventCreate s o ctx event
  | .eventDestroy ctx event => gpuioEventDestroy s o ctx event
  | .eventRecord ctx event stream => gpuioEventRecord s o ctx event stream
  | .eventSynchronize ctx event => gpuioEventSynchronize s o ctx event
  | .eventElapsedTime ctx start end_ ms => gpuioEventElapsedTime s o ctx start end_ ms
  | .statsUpdate type bytes status => .ok (Gpuio.statsUpdate s type bytes status)
  | .getStats ctx stats => gpuioGetStats s ctx stats
  | .resetStats ctx => gpuioResetStats s ctx

/-- Run the calls in order; the first fault ends the run. -/
def exec (s : State) : List (Call × Oracle) → Except Fault (State × List Ret)
  | [] => .ok (s, [])
  | (c, o) :: rest =>
    match c.run s o with
    | .error f => .error f
    | .ok r =>
      match exec r.state rest with
      | .error f => .error f
      | .ok (s', rs) => .ok (s', r :: rs)

theorem exec_cons_eq_ok {s s' : State} {c : Call} {o : Oracle} {rest : List (Call × Oracle)}
    {rets : List Ret} (h : exec s ((c, o) :: rest) = .ok (s', rets)) :
    ∃ r rs, c.run s o = .ok r ∧ exec r.state rest = .ok (s', rs) ∧ rets = r :: rs := by
  simp only [exec] at h
  split at h
  · cases h
  · rename_i r hr
    split at h
    · cases h
    · rename_i rs hrs
      cases h
      exact ⟨r, rs, hr, hrs, rfl⟩

/-- Modelled from the spec: `gpuio_init` (`context.c`, not in src) leaves an initialized context
with no regions, no streams and zeroed statistics. -/
def GpuioContext.init (currentDevice : Int) : GpuioContext :=
  { initialized := true, currentDevice := currentDevice, regions := 0, streams := [],
    numStreams := 0, stats := .zero }

/-- The state `gpuio_init` leaves with `ops` as the vendor table: nothing allocated yet, and a
backend with nothing registered. -/
def State.initial (ops : Option VendorOps) : State :=
  { ctx := .init 0, heap := fun _ => none, vendor := ⟨[], [], []⟩, currentVendorOps := ops }

/-- An environment in which every allocator answers `p`, realloc succeeds and every vendor hook
returns `0`. -/
def Oracle.grant (p : Ptr) : Oracle :=
  { calloc := p, malloc := p, mmap := p, realloc := true, ret := fun _ => 0, vendorPtr := p,
    vendorGpuAddr := p, vendorBusAddr := p, idle := true }

/-! ### Runs against an abstract state -/

section Runs

variable {α : Type} (legal : α → Call → Prop) (after : α → Call → Ret → α)

/-- Every call is legal against the abstract state that the history before it leaves. -/
def Legal : State → α → List (Call × Oracle) → Prop
  | _, _, [] => True
  | s, a, (c, o) :: rest => legal a c ∧ ∀ r, c.run s o = .ok r → Legal r.state (after a c r) rest

/-- The abstract state after the calls returned `rets`. -/
def afterAll : α → List Call → List Ret → α
  | a, c :: cs, r :: rs => afterAll (after a c r) cs rs
  | a, _, _ => a

variable {legal after}

/-- An invariant that every legal call keeps when the environment answers as `good` says, and
under which no such call faults, holds after every legal run with such answers, and the run
returns. -/
theorem exec_inv_of (inv : State → α → Prop) (good : Oracle → Prop)
    (hstep : ∀ s a c o, inv s a → legal a c → good o →
      ∃ r, c.run s o = .ok r ∧ inv r.state (after a c r))
    {calls : List (Call × Oracle)} {s : State} {a : α} (hinv : inv s a)
    (hgood : ∀ co ∈ calls, good co.2) (hlegal : Legal legal after s a calls) :
    ∃ s' rets, exec s calls = .ok (s', rets) ∧
      inv s' (afterAll after a (calls.map Prod.fst) rets) := by
  induction calls generalizing s a with
  | nil => exact ⟨s, [], rfl, hinv⟩
  | cons co rest ih =>
    obtain ⟨c, o⟩ := co
    obtain ⟨r, hrun, hr⟩ := hstep s a c o hinv hlegal.1 (hgood _ (List.mem_cons_self _ _))
    obtain ⟨s', rets, hexec, hinv'⟩ :=
      ih hr (fun co h => hgood co (List.mem_cons_of_mem _ h)) (hlegal.2 r hrun)
    exact ⟨s', r :: rets, by simp [exec, hrun, hexec], hinv'⟩

/-- An invariant that every legal call keeps, and under which no legal call faults, holds after
every legal run, and the run returns. -/
theorem exec_inv (inv : State → α → Prop)
    (hstep : ∀ s a c o, inv s a → legal a c → ∃ r, c.run s o = .ok r ∧ inv r.state (after a c r))
    {calls : List (Call × Oracle)} {s : State} {a : α} (hinv : inv s a)
    (hlegal : Legal legal after s a calls) :
    ∃ s' rets, exec s calls = .ok (s', rets) ∧
      inv s' (afterAll after a (calls.map Prod.fst) rets) :=
  exec_inv_of inv (fun _ => True) (fun s a c o hi hl _ => hstep s a c o hi hl) hinv
    (fun _ _ => trivial) hlegal

theorem Legal.cons {s : State} {a : α} {c : Call} {o : Oracle} {r : Ret}
    {rest : List (Call × Oracle)} (hc : legal a c) (hrun : c.run s o = .ok r)
    (hrest : Legal legal after r.state (after a c r) rest) : Legal legal after s a ((c, o) :: rest) :=
  ⟨hc, fun r' h' => by rw [hrun, Except.ok.injEq] at h'; exact h' ▸ hrest⟩

end Runs

end Gpuio
