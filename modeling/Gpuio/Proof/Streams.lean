import Gpuio.Proof.Frame
import Gpuio.Proof.Live

/-!
# The stream array

The history of creates and destroys is a list of slots: the record each successful create stored
and whether it is still alive. The invariant says that `num_streams` counts the slots, that
`ctx->streams` holds their records in order, and that every live stream's record carries its slot
index as its id. Creates append and destroys only free a record, so the invariant holds after every
run that destroys only live streams and creates while fewer than `INT_MAX` streams exist: at
`INT_MAX` the `stream_id + 1` that sizes the `realloc` overflows.
-/

namespace Gpuio

/-- `num_streams` counts the slots, `ctx->streams` holds their records in order, none of them
`NULL`, and the record of each live slot has the slot's index as id. -/
structure StreamsInv (ctx : GpuioContext) (heap : Heap) (slots : List (Ptr × Bool)) : Prop where
  num : ctx.numStreams = slots.length
  array : ctx.streams = slots.map Prod.fst
  nonnull : ∀ q ∈ slots, q.1 ≠ 0
  live : ∀ (k : Nat) p, slots[k]? = some (p, true) → ∃ st, heap p = some (.stream st) ∧ st.id = k

/-- The records a call's successful create returned. -/
def Call.created : Call → Ret → List Ptr
  | .streamCreate .., r =>
    match r.code, r.out with
    | .success, some (.ptr p) => [p]
    | _, _ => []
  | _, _ => []

/-- The records that the successful creates among `calls` returned, in order. -/
def createdStreams : List Call → List Ret → List Ptr
  | c :: cs, r :: rs => c.created r ++ createdStreams cs rs
  | _, _ => []

/-- The stream calls a run may make: creates while fewer than `INT_MAX` slots exist, and destroys
of live streams. -/
def Call.StreamsLegal (slots : List (Ptr × Bool)) : Call → Prop
  | .streamCreate .. => (slots.length : Int) < intMax
  | .streamDestroy _ stream => (stream, true) ∈ slots
  | _ => False

theorem reallocSlots_set_length {l : List Ptr} {n : Nat} (x : Ptr) (h : l.length = n) :
    (reallocSlots l (n + 1)).set n x = l ++ [x] := by
  subst h
  simp [reallocSlots, List.take_of_length_le]

theorem streamsAfter_map_fst (slots : List (Ptr × Bool)) (c : Call) (r : Ret) :
    (streamsAfter slots c r).map Prod.fst = slots.map Prod.fst ++ c.created r := by
  cases c with
  | streamCreate =>
    simp only [streamsAfter, Call.created]
    repeat' split
    all_goals simp_all
  | streamDestroy => simp only [streamsAfter, Call.created]; split_ifs <;> simp [Function.comp_def]
  | _ => simp [streamsAfter, Call.created]

theorem afterAll_map_fst (slots : List (Ptr × Bool)) (cs : List Call) (rs : List Ret) :
    (afterAll streamsAfter slots cs rs).map Prod.fst = slots.map Prod.fst ++ createdStreams cs rs := by
  induction cs generalizing slots rs with
  | nil => simp [afterAll, createdStreams]
  | cons c cs ih =>
    cases rs with
    | nil => simp [afterAll, createdStreams]
    | cons r rs => simp [afterAll, createdStreams, ih, streamsAfter_map_fst]

section Steps

variable {s : State} {slots : List (Ptr × Bool)}

theorem StreamsInv.not_mem_of_fresh (hinv : StreamsInv s.ctx s.heap slots) {p : Ptr} (hp : s.heap p = none) :
    ∀ (k : Nat) q, slots[k]? = some (q, true) → q ≠ p := by
  intro k q hk hq
  obtain ⟨st, hst, -⟩ := hinv.live k q hk
  rw [hq, hp] at hst
  cases hst

theorem streamsAfter_create_of_ne {ctx stream : Ptr} {priority : Int} {r : Ret}
    (hc : r.code ≠ .success) : streamsAfter slots (.streamCreate ctx stream priority) r = slots := by
  simp only [streamsAfter]
  split
  · exact absurd ‹_› hc
  · rfl

theorem streamCreate_step (hinv : StreamsInv s.ctx s.heap slots) (o : Oracle) (ctx stream : Ptr)
    (priority : Int) (hlen : (slots.length : Int) < intMax) :
    ∃ r, gpuioStreamCreate s o ctx stream priority = .ok r ∧
      StreamsInv r.state.ctx r.state.heap (streamsAfter slots (.streamCreate ctx stream priority) r) := by
  obtain ⟨r, h⟩ := @gpuioStreamCreate_returns s o ctx stream priority (by rw [hinv.num]; omega)
    (by rw [hinv.num]; omega)
  refine ⟨r, h, ?_⟩
  rcases gpuioStreamCreate_cases h with
    ⟨hc, hst, -, -⟩ | ⟨hc, -, hst, -⟩ | ⟨hc, hnz, hfresh, -, hout, hst, -⟩
  · rw [streamsAfter_create_of_ne hc, hst]
    exact hinv
  · rw [streamsAfter_create_of_ne (by rw [hc]; decide), hst]
    exact hinv
  · simp only [streamsAfter, hc, hout, hst]
    refine ⟨by simp [hinv.num], ?_, ?_, fun k p hk => ?_⟩
    · simp [hinv.array, reallocSlots_set_length _ (List.length_map _ _), hinv.num]
    · intro q hq
      rcases List.mem_append.1 hq with hq | hq
      · exact hinv.nonnull q hq
      · rw [List.mem_singleton.1 hq]
        exact hnz
    · rcases Nat.lt_or_ge k slots.length with hk' | hk'
      · rw [List.getElem?_append_left hk'] at hk
        obtain ⟨st, hst, hid⟩ := hinv.live k p hk
        exact ⟨st, by rw [Function.update_noteq (hinv.not_mem_of_fresh hfresh k p hk), hst], hid⟩
      · rw [List.getElem?_append_right hk'] at hk
        obtain ⟨hzero, rfl⟩ : k - slots.length = 0 ∧ o.calloc = p := by
          match h : k - slots.length, hk with
          | 0, hk => simpa using hk
        exact ⟨_, Function.update_same _ _ _, by simp [hinv.num]; omega⟩

theorem streamDestroy_step (hinv : StreamsInv s.ctx s.heap slots) (o : Oracle) (ctx stream : Ptr)
    (hlive : (stream, true) ∈ slots) :
    ∃ r, gpuioStreamDestroy s o ctx stream = .ok r ∧
      StreamsInv r.state.ctx r.state.heap (streamsAfter slots (.streamDestroy ctx stream) r) := by
  obtain ⟨k, hk⟩ := List.mem_iff_getElem?.mp hlive
  obtain ⟨st, hst, -⟩ := hinv.live k stream hk
  unfold gpuioStreamDestroy guarded
  split_ifs
  · exact ⟨_, rfl, hinv⟩
  · exact ⟨_, rfl, hinv⟩
  · simp only [hst]
    refine ⟨_, rfl, ?_⟩
    simp only [streamsAfter, if_true]
    refine ⟨by simp [hinv.num], by simp [hinv.array, Function.comp_def], fun q hq => ?_,
      fun j p hj => ?_⟩
    · obtain ⟨q', hq', rfl⟩ := List.mem_map.1 hq
      exact hinv.nonnull q' hq'

    simp only [List.getElem?_map, Option.map_eq_some', Prod.mk.injEq, Bool.and_eq_true,
      bne_iff_ne] at hj
    obtain ⟨⟨q, a⟩, hq, rfl, ha, hne⟩ := hj
    obtain rfl : a = true := ha
    obtain ⟨st', hst', hid⟩ := hinv.live j q hq
    exact ⟨st', by rw [Function.update_noteq hne, hst'], hid⟩

theorem streams_legal_step (s : State) (slots : List (Ptr × Bool)) (c : Call) (o : Oracle)
    (hinv : StreamsInv s.ctx s.heap slots) (hlegal : c.StreamsLegal slots) :
    ∃ r, c.run s o = .ok r ∧ StreamsInv r.state.ctx r.state.heap (streamsAfter slots c r) := by
  cases c with
  | streamCreate ctx stream priority => exact streamCreate_step hinv o ctx stream priority hlegal
  | streamDestroy ctx stream => exact streamDestroy_step hinv o ctx stream hlegal
  | _ => exact hlegal.elim

theorem gpuioStreamDestroy_keeps_ctx {o : Oracle} {ctx stream : Ptr} {r : Ret}
    (h : gpuioStreamDestroy s o ctx stream = .ok r) :
    r.state.ctx = s.ctx ∧ ∀ p, p ≠ stream → r.state.heap p = s.heap p := by
  rcases gpuioStreamDestroy_cases h with ⟨_, -, rfl⟩ | ⟨-, -, rfl⟩
  · exact ⟨rfl, fun _ _ => rfl⟩
  · exact ⟨rfl, fun p hp => Function.update_noteq hp _ _⟩

end Steps

/-! ### Runs -/

/-- **The stream array over every run.** Creates while fewer than `INT_MAX` streams exist and
destroys of live streams, from a context with no streams, return; `ctx->streams` then holds the
records of the successful creates in order, `num_streams` counts them, and every stream not
destroyed has its slot index as id. A failing create changes neither the context nor the live
blocks, and the vendor's streams only when `realloc` failed after the vendor created one that its
`stream_destroy` does not take back. A destroy changes no slot and no other record. -/
theorem streams_lifecycle :
    (∀ (s : State) (calls : List (Call × Oracle)), s.ctx.numStreams = 0 → s.ctx.streams = [] →
      Legal Call.StreamsLegal streamsAfter s [] calls →
      ∃ s' rets, exec s calls = .ok (s', rets) ∧
        s'.ctx.streams = createdStreams (calls.map Prod.fst) rets ∧
        s'.ctx.numStreams = (createdStreams (calls.map Prod.fst) rets).length ∧
        StreamsInv s'.ctx s'.heap (afterAll streamsAfter [] (calls.map Prod.fst) rets)) ∧
    (∀ (s : State) (o : Oracle) (ctx stream : Ptr) (priority : Int) (r : Ret), Reachable s →
      gpuioStreamCreate s o ctx stream priority = .ok r → r.code ≠ .success →
      r.state.ctx = s.ctx ∧ r.state.heap = s.heap ∧ (r.state.vendor = s.vendor ∨ StreamLeak s o r)) ∧
    (∀ (s : State) (o : Oracle) (ctx stream : Ptr) (r : Ret),
      gpuioStreamDestroy s o ctx stream = .ok r →
      r.state.ctx = s.ctx ∧ ∀ p, p ≠ stream → r.state.heap p = s.heap p) := by
  refine ⟨fun s calls hnum harray hlegal => ?_, fun s o ctx stream priority r hs h hc => ?_,
    fun s o ctx stream r h => gpuioStreamDestroy_keeps_ctx h⟩
  · obtain ⟨s', rets, hexec, hinv⟩ :=
      exec_inv (fun s slots => StreamsInv s.ctx s.heap slots) streams_legal_step
        (⟨by simpa using hnum, by simpa using harray, by simp, fun _ _ h => by simp at h⟩ :
          StreamsInv s.ctx s.heap []) hlegal
    have hfst := afterAll_map_fst [] (calls.map Prod.fst) rets
    simp only [List.map_nil, List.nil_append] at hfst
    refine ⟨s', rets, hexec, hinv.array.trans hfst, ?_, hinv⟩
    rw [hinv.num, ← hfst, List.length_map]
  · rcases (gpuioStreamCreate_frame hs.vendorStreamsInv h).2.2 hc with hu | hl
    · exact ⟨hu.ctx, hu.heap, .inl hu.vendor⟩
    · exact ⟨by rw [hl.state], by rw [hl.state], .inr hl⟩

/-- Two creates, a destroy of the first stream and a third create; a create that `realloc` fails
under `nvidia_ops`; and a destroy. -/
theorem streams_lifecycle_initial :
    (∃ s' rets, exec (State.initial none)
        [(.streamCreate 1 8 0, .grant 16), (.streamCreate 1 8 0, .grant 32),
          (.streamDestroy 1 16, .grant 0), (.streamCreate 1 8 0, .grant 48)] = .ok (s', rets) ∧
      s'.ctx.streams = createdStreams [.streamCreate 1 8 0, .streamCreate 1 8 0,
        .streamDestroy 1 16, .streamCreate 1 8 0] rets ∧
      s'.ctx.numStreams = (createdStreams [.streamCreate 1 8 0, .streamCreate 1 8 0,
        .streamDestroy 1 16, .streamCreate 1 8 0] rets).length ∧
      StreamsInv s'.ctx s'.heap (afterAll streamsAfter [] [.streamCreate 1 8 0,
        .streamCreate 1 8 0, .streamDestroy 1 16, .streamCreate 1 8 0] rets)) ∧
    (∃ r, gpuioStreamCreate (State.initial (some nvidiaOps))
        { Oracle.grant 16 with realloc := false } 1 8 0 = .ok r ∧ r.code ≠ .success ∧
      r.state.ctx = (State.initial (some nvidiaOps)).ctx ∧
      r.state.heap = (State.initial (some nvidiaOps)).heap ∧
      (r.state.vendor = (State.initial (some nvidiaOps)).vendor ∨
        StreamLeak (State.initial (some nvidiaOps)) { Oracle.grant 16 with realloc := false } r)) ∧
    ∃ r, gpuioStreamDestroy ((State.initial none).alloc 16 (.stream ⟨0, 0⟩)) (.grant 0) 1 16 =
        .ok r ∧
      r.state.ctx = ((State.initial none).alloc 16 (.stream ⟨0, 0⟩)).ctx ∧
      ∀ p, p ≠ 16 → r.state.heap p = ((State.initial none).alloc 16 (.stream ⟨0, 0⟩)).heap p :=
  ⟨streams_lifecycle.1 _ _ rfl rfl
      (.cons (by simp only [Call.StreamsLegal]; decide) rfl <|
        .cons (by simp only [Call.StreamsLegal]; decide) rfl <|
        .cons (by simp only [Call.StreamsLegal]; decide) rfl <|
        .cons (by simp only [Call.StreamsLegal]; decide) rfl trivial),
    ⟨_, rfl, by decide, streams_lifecycle.2.1 _ _ 1 8 0 _ (.init _) rfl (by decide)⟩,
    ⟨_, rfl, streams_lifecycle.2.2 _ _ 1 16 _ rfl⟩⟩

/-- A vendor table with `stream_create` but no `stream_destroy`: when `realloc` fails,
`gpuio_stream_create` returns `NOMEM` and frees the record the vendor still backs. -/
theorem stream_create_nomem_leaks_vendor_stream :
    ∃ r, gpuioStreamCreate (State.initial (some ⟨fun h => h != .streamDestroy⟩))
        { Oracle.grant 16 with realloc := false } 1 8 0 = .ok r ∧
      r.code = .nomem ∧ r.state.vendor.streams = [16] ∧ r.trace.getLast? = some (.free 16) :=
  ⟨_, rfl, rfl, rfl, rfl⟩

/-! ### Synchronize-all -/

section Sync

variable {s : State} {o : Oracle} {slots : List (Ptr × Bool)}

theorem syncSlot_live (hinv : StreamsInv s.ctx s.heap slots) {k : Nat} {p : Ptr}
    (hk : slots[k]? = some (p, true)) : syncSlot s o k = .ok (s.hookCall o .streamSynchronize p) := by
  obtain ⟨st, hst, hid⟩ := hinv.live k p hk
  have hp : p ≠ 0 := hinv.nonnull _ (List.getElem?_mem hk)
  have hid0 : 0 ≤ st.id := by omega
  simp [syncSlot, hinv.array, hk, hp, hst, hid0]

theorem syncAll_eq_ok {is : List Nat} {f : Nat → List Effect}
    (h : ∀ i ∈ is, syncSlot s o i = .ok (f i)) : syncAll s o is = .ok (is.map f).flatten := by
  induction is with
  | nil => rfl
  | cons i is ih =>
    simp only [List.forall_mem_cons] at h
    rw [syncAll, h.1, ih h.2]
    rfl

theorem syncSlot_of_all_live (hinv : StreamsInv s.ctx s.heap slots)
    (hlive : ∀ q ∈ slots, q.2 = true) :
    ∀ i ∈ List.range slots.length, syncSlot s o i =
      .ok (s.hookCall o .streamSynchronize (slots.getD i (0, true)).1) := by
  intro i hi
  have hi : i < slots.length := List.mem_range.1 hi
  refine syncSlot_live hinv ?_
  simp only [List.getD_eq_getElem?_getD, List.getElem?_eq_getElem hi, Option.getD_some]
  exact congrArg some (Prod.ext rfl (hlive _ (List.getElem_mem hi)))

/-- **Synchronize-all before any destroy.** While every slot holds a live stream, synchronizing the
`NULL` stream returns and calls the vendor's `stream_synchronize` once on each stream, in slot
order, all under `streams_lock`. -/
theorem synchronize_all_live (hinv : StreamsInv s.ctx s.heap slots)
    (hlive : ∀ q ∈ slots, q.2 = true) {ctx : Ptr} (hctx : ctx ≠ 0)
    (hinit : s.ctx.initialized = true) :
    gpuioStreamSynchronize s o ctx 0 =
      .ok ⟨.success, s,
        [.lock .streams] ++ (slots.map fun q => s.hookCall o .streamSynchronize q.1).flatten ++
          [.unlock .streams], none⟩ := by
  have hslot := @syncSlot_of_all_live s o slots hinv hlive
  have hmap : (List.range slots.length).map
      (fun i => s.hookCall o .streamSynchronize (slots.getD i (0, true)).1) =
      slots.map fun q => s.hookCall o .streamSynchronize q.1 := by
    apply List.ext_getElem (by simp)
    intro i h₁ h₂
    simp [List.getElem?_eq_getElem (by simpa using h₁ : i < slots.length)]
  unfold gpuioStreamSynchronize guarded
  simp only [List.any_cons, List.any_nil, beq_iff_eq, hctx, hinit, hinv.num, Int.toNat_ofNat,
    syncAll_eq_ok hslot, hmap]
  simp [hctx, Except.map]

/-- With `nvidia_ops`, two streams created from `gpuio_init` and synchronized together: the hook
runs on each, in slot order, between the lock and the unlock. -/
theorem synchronize_all_live_two_streams :
    ∃ r₁ r₂, gpuioStreamCreate (State.initial (some nvidiaOps)) (.grant 16) 1 8 0 = .ok r₁ ∧
      gpuioStreamCreate r₁.state (.grant 32) 1 8 0 = .ok r₂ ∧
      StreamsInv r₂.state.ctx r₂.state.heap [(16, true), (32, true)] ∧
      gpuioStreamSynchronize r₂.state (.grant 0) 1 0 =
        .ok ⟨.success, r₂.state, [.lock .streams, .hook .streamSynchronize 16 0,
          .hook .streamSynchronize 32 0, .unlock .streams], none⟩ := by
  refine ⟨_, _, rfl, rfl, ?hinv, synchronize_all_live ?hinv (by decide) (by decide) rfl⟩
  refine ⟨rfl, rfl, by decide, fun k p hk => ?_⟩
  match k, hk with
  | 0, hk => cases hk; exact ⟨_, rfl, rfl⟩
  | 1, hk => cases hk; exact ⟨_, rfl, rfl⟩

/-- Synchronize-all after a destroy: the slot still holds the freed record, and the loop reads its
`id`. -/
theorem synchronize_all_reads_destroyed_stream :
    exec (State.initial (some nvidiaOps))
      [(.streamCreate 1 8 0, .grant 32), (.streamDestroy 1 32, .grant 0),
        (.streamSynchronize 1 0, .grant 0)] =
      .error (.invalidAccess 32) := rfl

end Sync

end Gpuio
