import Gpuio.Basic

/-!
# `stream.c`

Streams live in the array `ctx->streams`, grown by one slot per successful create; the new stream's
id is its slot. Destroying a stream frees its record but leaves its slot as it was, so the array
keeps a pointer to freed memory: the synchronize-all loop then reads that record's `id`. Events are
calloc'd records the vendor backs; with no vendor table their operations succeed and do nothing.
Destroying an event frees its record whatever the vendor's `event_destroy` answered.
-/

namespace Gpuio

/-- `INT_MAX` for the 32-bit `int` that holds `num_streams` and `stream_id`. -/
def intMax : Int := 2147483647

/-- `realloc(ctx->streams, n * sizeof(void*))` when it succeeds: the first `n` slots survive, new
slots are uninitialised (here `NULL`). -/
def reallocSlots (streams : List Ptr) (n : Nat) : List Ptr :=
  streams.take n ++ List.replicate (n - streams.length) 0

/-- The vendor's bookkeeping after its `stream_create` hook succeeded on `internal`. -/
def State.vendorStreamCreate (s : State) (internal : Ptr) : Vendor :=
  if s.hasHook .streamCreate then { s.vendor with streams := internal :: s.vendor.streams }
  else s.vendor

/-- The vendor's bookkeeping after its `stream_destroy` hook ran on `internal`. -/
def State.vendorStreamDestroy (s : State) (o : Oracle) (internal : Ptr) : Vendor :=
  if s.hasHook .streamDestroy ∧ o.ret .streamDestroy = 0 then
    { s.vendor with streams := s.vendor.streams.erase internal }
  else s.vendor

/-- `/* Add to context */` of `gpuio_stream_create`: under `streams_lock`, grow `ctx->streams` by
one slot and store `internal` there with id `num_streams`. When `realloc` fails the lock is
released, the vendor is asked to destroy the stream and the record is freed. -/
def State.addStream (s : State) (o : Oracle) (internal : Ptr) (priority : Int) :
    Except Fault Ret :=
  let streamId := s.ctx.numStreams
  if intMax < streamId + 1 then .error .overflow
  else if !o.realloc then
    .ok ⟨.nomem, { s with vendor := s.vendorStreamDestroy o internal },
      [.lock .streams, .unlock .streams] ++ s.hookCall o .streamDestroy internal ++ [.free internal],
      none⟩
  else if streamId < 0 then .error (.outOfBounds streamId)
  else
    .ok ⟨.success,
      { s with
        ctx := { s.ctx with
          streams := (reallocSlots s.ctx.streams (streamId + 1).toNat).set streamId.toNat internal
          numStreams := streamId + 1 }
        heap := Function.update s.heap internal (some (.stream ⟨streamId, priority⟩)) },
      [.lock .streams, .unlock .streams], some (.ptr internal)⟩

/-- `gpuio_stream_create`. -/
def gpuioStreamCreate (s : State) (o : Oracle) (ctx stream : Ptr) (priority : Int) :
    Except Fault Ret :=
  guarded s [ctx, stream] <|
    if !s.heap.fresh o.calloc then .ok (.plain s .nomem)
    else
      let internal := o.calloc
      let created := s.hookCall o .streamCreate internal
      if s.hookRet o .streamCreate ≠ 0 then .ok ⟨.general, s, created ++ [.free internal], none⟩
      else
        ({ s with vendor := s.vendorStreamCreate internal }.addStream o internal priority).map
          (Ret.after created)

/-- `gpuio_stream_destroy`: the vendor hook, then `pthread_mutex_destroy(&internal->lock)`,
`internal->id = -1` and `free(internal)`; the slot in `ctx->streams` is left alone. The source
returns the undeclared `GPUPIO_SUCCESS`, read here as the `GPUIO_SUCCESS` it misspells. -/
def gpuioStreamDestroy (s : State) (o : Oracle) (ctx stream : Ptr) : Except Fault Ret :=
  guarded s [ctx, stream] <|
    match s.heap stream with
    | some (.stream _) =>
      .ok ⟨.success,
        { s with
          heap := Function.update s.heap stream none
          vendor := s.vendorStreamDestroy o stream },
        s.hookCall o .streamDestroy stream ++ [.free stream], none⟩
    | _ => .error (.invalidAccess stream)

/-- One iteration of the synchronize-all loop:
`if (ctx->streams[i] && ctx->streams[i]->id >= 0)` then the vendor's `stream_synchronize`. -/
def syncSlot (s : State) (o : Oracle) (i : Nat) : Except Fault (List Effect) :=
  match s.ctx.streams[i]? with
  | none => .error (.outOfBounds i)
  | some p =>
    if p = 0 then .ok []
    else
      match s.heap p with
      | some (.stream st) => .ok (if 0 ≤ st.id then s.hookCall o .streamSynchronize p else [])
      | _ => .error (.invalidAccess p)

/-- `for (int i = 0; i < ctx->num_streams; i++)` over the indices `is`. -/
def syncAll (s : State) (o : Oracle) : List Nat → Except Fault (List Effect)
  | [] => .ok []
  | i :: is => do
    let tr ← syncSlot s o i
    let rest ← syncAll s o is
    pure (tr ++ rest)

/-- The operations that only forward to one vendor hook: `if (current_vendor_ops &&
current_vendor_ops->h) { int ret = ...; if (ret != 0) return GPUIO_ERROR_GENERAL; }`, then
`GPUIO_SUCCESS` with `out` written through the output parameter. -/
def forwardHook (s : State) (o : Oracle) (h : Hook) (arg : Ptr) (out : Option Out) : Ret :=
  let ret := s.hookRet o h
  ⟨if ret ≠ 0 then .general else .success, s, s.hookCall o h arg, if ret ≠ 0 then none else out⟩

/-- `gpuio_stream_synchronize`: every slot under `streams_lock` for a `NULL` stream, else the one
stream. -/
def gpuioStreamSynchronize (s : State) (o : Oracle) (ctx stream : Ptr) : Except Fault Ret :=
  guarded s [ctx] <|
    if stream = 0 then
      (syncAll s o (List.range s.ctx.numStreams.toNat)).map fun tr =>
        ⟨.success, s, [.lock .streams] ++ tr ++ [.unlock .streams], none⟩
    else .ok (forwardHook s o .streamSynchronize stream none)

/-- `gpuio_stream_query`; with no vendor hook the stream is reported idle. -/
def gpuioStreamQuery (s : State) (o : Oracle) (ctx stream idle : Ptr) : Except Fault Ret :=
  guarded s [ctx, stream, idle] <|
    .ok (forwardHook s o .streamQuery stream
      (some (.idle (if s.hasHook .streamQuery then o.idle else true))))

/-- The vendor's bookkeeping after its `event_create` hook succeeded on `ev`. -/
def State.vendorEventCreate (s : State) (ev : Ptr) : Vendor :=
  if s.hasHook .eventCreate then { s.vendor with events := ev :: s.vendor.events } else s.vendor

/-- The vendor's bookkeeping after its `event_destroy` hook ran on `event`. -/
def State.vendorEventDestroy (s : State) (o : Oracle) (event : Ptr) : Vendor :=
  if s.hasHook .eventDestroy ∧ o.ret .eventDestroy = 0 then
    { s.vendor with events := s.vendor.events.erase event }
  else s.vendor

/-- `gpuio_event_create`. The vendor's `event_create` receives `&ev`; `nvidia_event_create` leaves
it, and the model keeps the calloc'd record as the event. -/
def gpuioEventCreate (s : State) (o : Oracle) (ctx event : Ptr) : Except Fault Ret :=
  guarded s [ctx, event] <|
    if !s.heap.fresh o.calloc then .ok (.plain s .nomem)
    else
      let ev := o.calloc
      if s.hookRet o .eventCreate ≠ 0 then
        .ok ⟨.general, s, s.hookCall o .eventCreate ev ++ [.free ev], none⟩
      else
        .ok ⟨.success, { s.alloc ev .event with vendor := s.vendorEventCreate ev },
          s.hookCall o .eventCreate ev, some (.ptr ev)⟩

/-- `gpuio_event_destroy`: the vendor's `event_destroy`, whose answer is ignored, then
`free(event)`. -/
def gpuioEventDestroy (s : State) (o : Oracle) (ctx event : Ptr) : Except Fault Ret :=
  guarded s [ctx, event] <|
    (State.freeBlock { s with vendor := s.vendorEventDestroy o event } false event).map fun t =>
      ⟨.success, t, s.hookCall o .eventDestroy event ++ [.free event], none⟩

/-- `gpuio_event_record`. -/
def gpuioEventRecord (s : State) (o : Oracle) (ctx event stream : Ptr) : Except Fault Ret :=
  guarded s [ctx, event, stream] <| .ok (forwardHook s o .eventRecord event none)

/-- `gpuio_event_synchronize`. -/
def gpuioEventSynchronize (s : State) (o : Oracle) (ctx event : Ptr) : Except Fault Ret :=
  guarded s [ctx, event] <| .ok (forwardHook s o .eventSynchronize event none)

/-- `gpuio_event_elapsed_time`; with no vendor hook `*ms` is `0.0`. -/
def gpuioEventElapsedTime (s : State) (o : Oracle) (ctx start end_ ms : Ptr) : Except Fault Ret :=
  guarded s [ctx, start, end_, ms] <| .ok (forwardHook s o .eventElapsedTime start (some .ms))

end Gpuio
