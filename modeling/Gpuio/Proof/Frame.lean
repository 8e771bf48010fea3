import Gpuio.Proof.Cases

/-!
# What a failing call leaves behind

Every public operation either succeeds or returns with the context, the live blocks and the
backend's bookkeeping as it found them, and with nothing or `NULL` in its output parameter. The
one exception is `gpuio_stream_create` when `realloc` fails after the vendor created the stream: the
code then asks the vendor to destroy it, and a vendor whose `stream_destroy` is absent or fails
keeps it. Over reachable states that is the only exception, because a vendor without
`stream_create` never backs a stream.
-/

namespace Gpuio

/-- The states a run of public calls reaches from `gpuio_init`. -/
inductive Reachable : State → Prop
  | init (ops : Option VendorOps) : Reachable (State.initial ops)
  | step {s : State} {r : Ret} (c : Call) (o : Oracle) : Reachable s → c.run s o = .ok r →
      Reachable r.state

/-- The context, the live blocks and the vendor's bookkeeping are as before, and the output
parameter is untouched or `NULL`. -/
structure Unchanged (s : State) (r : Ret) : Prop where
  ctx : r.state.ctx = s.ctx
  heap : r.state.heap = s.heap
  vendor : r.state.vendor = s.vendor
  out : r.out = none ∨ r.out = some (.ptr 0)

/-- The vendor keeps a stream that a failed `gpuio_stream_create` asked it to destroy: `realloc`
failed after the vendor's `stream_create` succeeded, and its `stream_destroy` is absent or
fails. Nothing else changes. -/
structure StreamLeak (s : State) (o : Oracle) (r : Ret) : Prop where
  code : r.code = .nomem
  created : s.hasHook .streamCreate = true
  kept : ¬(s.hasHook .streamDestroy = true ∧ o.ret .streamDestroy = 0)
  state : r.state = { s with vendor := { s.vendor with streams := o.calloc :: s.vendor.streams } }
  out : r.out = none

/-- A vendor without `stream_create` backs no stream. -/
def State.VendorStreamsInv (s : State) : Prop :=
  s.hasHook .streamCreate = false → s.vendor.streams = []

/-- What a call other than a stream create or destroy may change: never the vendor table nor the
streams the vendor backs, and on failure nothing the caller can see. -/
structure Framed (s : State) (r : Ret) : Prop where
  ops : r.state.currentVendorOps = s.currentVendorOps
  streams : r.state.vendor.streams = s.vendor.streams
  failed : r.code ≠ .success → Unchanged s r

section Steps

variable {s : State} {o : Oracle} {r : Ret}

theorem Framed.same (hout : r.out = none ∨ r.out = some (.ptr 0)) (hs : r.state = s) : Framed s r :=
  ⟨hs ▸ rfl, hs ▸ rfl, fun _ => ⟨hs ▸ rfl, hs ▸ rfl, hs ▸ rfl, hout⟩⟩

theorem Framed.success {t : State} {tr : List Effect} {out : Option Out}
    (hops : t.currentVendorOps = s.currentVendorOps) (hstreams : t.vendor.streams = s.vendor.streams) :
    Framed s ⟨.success, t, tr, out⟩ :=
  ⟨hops, hstreams, fun hc => absurd rfl hc⟩

theorem Framed.plain {code : GpuioError} : Framed s (.plain s code) := .same (.inl rfl) rfl

theorem forwardHook_framed {h : Hook} {arg : Ptr} {out : Option Out} :
    Framed s (forwardHook s o h arg out) := by
  unfold forwardHook
  dsimp only
  split_ifs
  · exact .same (.inl rfl) rfl
  · exact .success rfl rfl

/-- A call whose body cannot fail: the guards' answer, or a framed result of the body. -/
theorem Framed.of_guarded_ok {args : List Ptr} {x : Ret} (hx : Framed s x)
    (h : guarded s args (.ok x) = .ok r) : Framed s r := by
  rcases guarded_ok_cases h with ⟨_, rfl⟩ | rfl
  exacts [.plain, hx]

/-- Effects performed before a framed result change nothing it says. -/
theorem Framed.after {tr : List Effect} (hf : Framed s r) : Framed s (r.after tr) :=
  ⟨hf.ops, hf.streams, fun hc => let u := hf.failed hc; ⟨u.ctx, u.heap, u.vendor, u.out⟩⟩

theorem gpuioMalloc_framed {ctx ptr : Ptr} {size : UInt64}
    (h : gpuioMalloc s o ctx size ptr = .ok r) : Framed s r := by
  rcases gpuioMalloc_cases h with ⟨_, rfl⟩ | rfl | ⟨-, rfl⟩
  exacts [.plain, .same (.inr rfl) rfl, .success rfl rfl]

theorem gpuioMallocPinned_framed {ctx ptr : Ptr} {size : UInt64}
    (h : gpuioMallocPinned s o ctx size ptr = .ok r) : Framed s r := by
  rcases gpuioMallocPinned_cases h with ⟨_, rfl⟩ | ⟨-, -, rfl⟩ | ⟨-, ⟨-, rfl⟩ | rfl⟩
  exacts [.plain, .success State.vendorBlock_ops (by simp), .success rfl rfl, .same (.inr rfl) rfl]

theorem gpuioMallocDevice_framed {ctx ptr : Ptr} {size : UInt64}
    (h : gpuioMallocDevice s o ctx size ptr = .ok r) : Framed s r := by
  rcases gpuioMallocDevice_cases h with ⟨_, rfl⟩ | ⟨-, -, rfl⟩ | ⟨-, r', hr', rfl⟩
  exacts [.plain, .success State.vendorBlock_ops (by simp), (gpuioMallocPinned_framed hr').after]

theorem gpuioMallocUnified_framed {ctx ptr : Ptr} {size : UInt64}
    (h : gpuioMallocUnified s o ctx size ptr = .ok r) : Framed s r := by
  rcases gpuioMallocUnified_cases h with ⟨_, rfl⟩ | ⟨-, h⟩
  exacts [.plain, gpuioMallocDevice_framed h]

theorem gpuioFree_framed {ctx ptr : Ptr} (h : gpuioFree s o ctx ptr = .ok r) : Framed s r := by
  rcases gpuioFree_cases h with ⟨_, rfl⟩ | ⟨-, rfl⟩ | ⟨-, -, -, -, ⟨-, -, rfl⟩ | ⟨-, -, rfl⟩⟩
  exacts [.plain, .same (.inl rfl) rfl, .success rfl rfl, .success rfl rfl]

theorem gpuioRegisterMemory_framed {ctx ptr region : Ptr} {size : UInt64}
    {access : GpuioMemAccess} (h : gpuioRegisterMemory s o ctx ptr size access region = .ok r) :
    Framed s r := by
  rcases gpuioRegisterMemory_cases h with ⟨-, hst, hout, -⟩ | ⟨-, -, -, -, -, _, _, _, -, hv, -, rfl⟩
  · exact .same (.inl hout) hst
  · have hstreams := congrArg Vendor.streams hv
    exact .success rfl hstreams

theorem gpuioUnregisterMemory_framed {ctx region : Ptr} {pub : GpuioMemoryRegion}
    (h : gpuioUnregisterMemory s o ctx region pub = .ok r) : Framed s r := by
  rcases gpuioUnregisterMemory_cases h with ⟨_, -, rfl⟩ | ⟨_, _, _, -, -, rfl⟩
  · exact .plain
  · exact .success rfl (by simp only [State.vendorUnregister]; split_ifs <;> rfl)

theorem gpuioMemcpy_framed {ctx dst src : Ptr} {size : UInt64} (stream : Ptr)
    (h : gpuioMemcpy s o ctx dst src size stream = .ok r) : Framed s r := by
  rcases gpuioMemcpy_cases h with ⟨_, rfl⟩ | rfl
  exacts [.plain, .success rfl rfl]

theorem gpuioStreamSynchronize_framed {ctx stream : Ptr}
    (h : gpuioStreamSynchronize s o ctx stream = .ok r) : Framed s r := by
  rcases gpuioStreamSynchronize_cases h with ⟨_, rfl⟩ | ⟨-, _, -, rfl⟩ | ⟨-, rfl⟩
  exacts [.plain, .success rfl rfl, forwardHook_framed]

theorem gpuioEventCreate_framed {ctx event : Ptr} (h : gpuioEventCreate s o ctx event = .ok r) :
    Framed s r := by
  rcases gpuioEventCreate_cases h with ⟨_, rfl⟩ | ⟨-, rfl⟩ | ⟨-, -, -, rfl⟩
  exacts [.plain, .same (.inl rfl) rfl, .success rfl State.vendorEventCreate_streams]

theorem gpuioEventDestroy_framed {ctx event : Ptr} (h : gpuioEventDestroy s o ctx event = .ok r) :
    Framed s r := by
  rcases gpuioEventDestroy_cases h with ⟨_, -, rfl⟩ | ⟨-, -, -, rfl⟩
  exacts [.plain, .success rfl State.vendorEventDestroy_streams]

theorem Unchanged.plain {code : GpuioError} : Unchanged s (.plain s code) :=
  ⟨rfl, rfl, rfl, .inl rfl⟩

/-- After its `stream_create` and the compensating `stream_destroy`, the vendor is back where it
was, unless it has `stream_create` and its `stream_destroy` is absent or fails. -/
theorem vendorStreamDestroy_create (hv : s.VendorStreamsInv) (c : Ptr) :
    State.vendorStreamDestroy { s with vendor := s.vendorStreamCreate c } o c = s.vendor ∨
      s.hasHook .streamCreate = true ∧ ¬(s.hasHook .streamDestroy = true ∧ o.ret .streamDestroy = 0) ∧
        State.vendorStreamDestroy { s with vendor := s.vendorStreamCreate c } o c =
          { s.vendor with streams := c :: s.vendor.streams } := by
  unfold State.vendorStreamDestroy State.vendorStreamCreate
  by_cases hcreate : s.hasHook .streamCreate = true
  · simp only [if_pos hcreate]
    split_ifs with hd
    · exact .inl (by simp)
    · exact .inr ⟨hcreate, hd, rfl⟩
  · have hnil : s.vendor.streams = [] := hv (by simpa using hcreate)
    simp only [if_neg hcreate]
    split_ifs
    · exact .inl (by rw [hnil, List.erase_nil, ← hnil])
    · exact .inl rfl

/-- `gpuio_stream_create` keeps the vendor table and `VendorStreamsInv`, and when it fails it
changes nothing but, possibly, the stream the vendor keeps. -/
theorem gpuioStreamCreate_frame (hv : s.VendorStreamsInv) {ctx stream : Ptr} {priority : Int}
    (h : gpuioStreamCreate s o ctx stream priority = .ok r) :
    r.state.currentVendorOps = s.currentVendorOps ∧ r.state.VendorStreamsInv ∧
      (r.code ≠ .success → Unchanged s r ∨ StreamLeak s o r) := by
  have same (hst : r.state = s) (hout : r.out = none) : r.state.currentVendorOps = s.currentVendorOps ∧
      r.state.VendorStreamsInv ∧ (r.code ≠ .success → Unchanged s r ∨ StreamLeak s o r) :=
    ⟨by rw [hst], by rw [hst]; exact hv, fun _ => .inl ⟨by rw [hst], by rw [hst], by rw [hst], .inl hout⟩⟩
  rcases gpuioStreamCreate_cases h with ⟨-, hst, hout, -⟩ | ⟨hc, hout, hst, -⟩ |
    ⟨hc, -, -, -, -, hst, -⟩
  · exact same hst hout
  · rcases vendorStreamDestroy_create hv o.calloc with hkeep | ⟨hcreate, hd, hleak⟩
    · exact same (by rw [hst, hkeep]) hout
    · -- `realloc` failed after the vendor created the stream, which it keeps
      refine ⟨by rw [hst], fun hf => ?_, fun _ => .inr ⟨hc, hcreate, hd, by rw [hst, hleak], hout⟩⟩
      rw [hst] at hf
      exact absurd (hcreate.symm.trans hf) Bool.noConfusion
  · refine ⟨by rw [hst], fun hf => ?_, fun hc' => absurd hc hc'⟩
    rw [hst] at hf ⊢
    have hf' : s.hasHook .streamCreate = false := hf
    simp only [State.vendorStreamCreate, hf', Bool.false_eq_true, if_false]
    exact hv hf'

/-- `gpuio_stream_destroy` keeps the vendor table and the invariant; it never fails. -/
theorem gpuioStreamDestroy_frame (hv : s.VendorStreamsInv) {ctx stream : Ptr}
    (h : gpuioStreamDestroy s o ctx stream = .ok r) :
    r.state.currentVendorOps = s.currentVendorOps ∧ r.state.VendorStreamsInv ∧
      (r.code ≠ .success → Unchanged s r) := by
  rcases gpuioStreamDestroy_cases h with ⟨_, -, rfl⟩ | ⟨_, -, rfl⟩
  · exact ⟨rfl, hv, fun _ => .plain⟩
  refine ⟨rfl, fun hf => ?_, fun hc => absurd rfl hc⟩
  unfold State.vendorStreamDestroy
  split_ifs <;> simp [hv hf]

theorem Framed.vendorStreamsInv (hf : Framed s r) (hv : s.VendorStreamsInv) :
    r.state.VendorStreamsInv := by
  intro hc
  rw [hf.streams]
  exact hv (by simpa only [State.hasHook, hf.ops] using hc)

/-- One call keeps the vendor table and `VendorStreamsInv`, and a failing call changes nothing
but, in `gpuio_stream_create`, the stream the vendor keeps. -/
theorem Call.run_frame (hv : s.VendorStreamsInv) {c : Call} (h : c.run s o = .ok r) :
    r.state.currentVendorOps = s.currentVendorOps ∧ r.state.VendorStreamsInv ∧
      (r.code ≠ .success → Unchanged s r ∨
        (∃ ctx stream priority, c = .streamCreate ctx stream priority) ∧ StreamLeak s o r) := by
  have framed (hf : Framed s r) : r.state.currentVendorOps = s.currentVendorOps ∧
      r.state.VendorStreamsInv ∧ (r.code ≠ .success → Unchanged s r ∨
        (∃ ctx stream priority, c = .streamCreate ctx stream priority) ∧ StreamLeak s o r) :=
    ⟨hf.ops, hf.vendorStreamsInv hv, fun hc => .inl (hf.failed hc)⟩
  cases c with
  | malloc => exact framed (gpuioMalloc_framed h)
  | mallocPinned => exact framed (gpuioMallocPinned_framed h)
  | mallocDevice => exact framed (gpuioMallocDevice_framed h)
  | mallocUnified => exact framed (gpuioMallocUnified_framed h)
  | free => exact framed (gpuioFree_framed h)
  | registerMemory => exact framed (gpuioRegisterMemory_framed h)
  | unregisterMemory => exact framed (gpuioUnregisterMemory_framed h)
  | memcpy _ _ _ _ stream | memcpyAsync _ _ _ _ stream => exact framed (gpuioMemcpy_framed stream h)
  | streamCreate ctx stream priority =>
    obtain ⟨hops, hinv, hfailed⟩ := gpuioStreamCreate_frame hv h
    exact ⟨hops, hinv, fun hc => (hfailed hc).imp_right fun hl => ⟨⟨_, _, _, rfl⟩, hl⟩⟩
  | streamDestroy =>
    obtain ⟨hops, hinv, hfailed⟩ := gpuioStreamDestroy_frame hv h
    exact ⟨hops, hinv, fun hc => .inl (hfailed hc)⟩
  | streamSynchronize => exact framed (gpuioStreamSynchronize_framed h)
  | streamQuery | eventRecord | eventSynchronize | eventElapsedTime =>
    exact framed (.of_guarded_ok forwardHook_framed h)
  | eventCreate => exact framed (gpuioEventCreate_framed h)
  | eventDestroy => exact framed (gpuioEventDestroy_framed h)
  | statsUpdate => cases h; exact framed (.success rfl rfl)
  | getStats | resetStats =>
    refine framed (.of_guarded_ok ?_ h)
    exact .success rfl rfl

end Steps

theorem Reachable.vendorStreamsInv {s : State} (hs : Reachable s) : s.VendorStreamsInv := by
  induction hs with
  | init => exact fun _ => rfl
  | step c o _ h ih => exact (Call.run_frame ih h).2.1

/-- **Failing calls change nothing.** From any reachable state, a call that returns an error
leaves the context, the live blocks and the vendor's bookkeeping as they were and writes nothing
or `NULL` to its output parameter, except a `gpuio_stream_create` whose `realloc` failed after the
vendor created the stream, with a vendor `stream_destroy` that is absent or fails. -/
theorem failed_call_keeps_state {s : State} {o : Oracle} {r : Ret} (hs : Reachable s) {c : Call}
    (h : c.run s o = .ok r) (hc : r.code ≠ .success) :
    Unchanged s r ∨
      (∃ ctx stream priority, c = .streamCreate ctx stream priority) ∧ StreamLeak s o r :=
  (Call.run_frame hs.vendorStreamsInv h).2.2 hc

theorem failed_call_keeps_state_malloc :
    ∃ r, Call.run (State.initial none) (.grant 0) (.malloc 1 64 8) = .ok r ∧ r.code ≠ .success ∧
      Unchanged (State.initial none) r :=
  ⟨_, rfl, by decide, (failed_call_keeps_state (.init none)
    (show Call.run _ (.grant 0) (.malloc 1 64 8) = .ok _ from rfl) (by decide)).resolve_right
    fun ⟨⟨_, _, _, hc⟩, _⟩ => Call.noConfusion hc⟩

/-- With `nvidia_ops` and a `stream_destroy` that fails, a `gpuio_stream_create` whose `realloc`
fails returns `NOMEM` and leaves the vendor backing the stream it freed. -/
theorem stream_create_nomem_keeps_vendor_stream :
    ∃ r, Call.run (State.initial (some nvidiaOps))
        { Oracle.grant 16 with realloc := false, ret := fun h => if h = .streamDestroy then -1 else 0 }
        (.streamCreate 1 8 0) = .ok r ∧
      r.code = .nomem ∧ r.state.vendor.streams = [16] ∧ (State.initial (some nvidiaOps)).vendor.streams = [] :=
  ⟨_, rfl, rfl, rfl, rfl⟩


end Gpuio
