import Gpuio.Api

/-!
# What each call can return

The guards every public operation starts with, and for each operation the list of its outcomes,
with the state, trace and output of each and the conditions under which it is taken. Later proofs
case on these lemmas and never unfold the operations again, so a change to one C function touches
one lemma here.
-/

namespace Gpuio

section Cases

variable {s : State} {o : Oracle} {r : Ret}

/-- Past the guards, the body runs with non-`NULL` arguments on an initialized context. -/
theorem guarded_eq_ok {args : List Ptr} {body : Except Fault Ret} (h : guarded s args body = .ok r) :
    r = .plain s .invalidArg ∨ r = .plain s .notInitialized ∨
      (∀ a ∈ args, a ≠ 0) ∧ s.ctx.initialized = true ∧ body = .ok r := by
  unfold guarded at h
  split_ifs at h with hargs hinit <;> cases h
  · exact .inl rfl
  · exact .inr (.inl rfl)
  · simp only [List.any_eq_true, beq_iff_eq, not_exists, not_and] at hargs
    exact .inr (.inr ⟨fun a ha h0 => hargs a ha h0, by simpa using hinit, rfl⟩)

theorem guarded_pass {args : List Ptr} {body : Except Fault Ret} (hargs : ∀ a ∈ args, a ≠ 0)
    (hinit : s.ctx.initialized = true) : guarded s args body = body := by
  have hany : args.any (· == 0) = false := by simpa using hargs
  simp only [guarded, hany, hinit, Bool.not_true, Bool.false_eq_true, if_false]

theorem guarded_eq_error {args : List Ptr} {body : Except Fault Ret} {f : Fault}
    (h : guarded s args body = .error f) : body = .error f := by
  unfold guarded at h
  split_ifs at h
  exact h

theorem guarded_returns {args : List Ptr} {body : Except Fault Ret} (h : ∃ r, body = .ok r) :
    ∃ r, guarded s args body = .ok r := by
  unfold guarded
  split_ifs
  exacts [⟨_, rfl⟩, ⟨_, rfl⟩, h]

theorem except_map_eq_ok {α β : Type} {f : α → β} {x : Except Fault α} {b : β}
    (h : x.map f = .ok b) : ∃ a, x = .ok a ∧ f a = b := by
  cases x with
  | error => cases h
  | ok a => cases h; exact ⟨a, rfl, rfl⟩

/-- The guards' answer, or the body's past them. -/
theorem guarded_cases {args : List Ptr} {body : Except Fault Ret} (h : guarded s args body = .ok r) :
    (∃ code, r = .plain s code) ∨ (∀ a ∈ args, a ≠ 0) ∧ s.ctx.initialized = true ∧ body = .ok r := by
  rcases guarded_eq_ok h with rfl | rfl | h
  exacts [.inl ⟨_, rfl⟩, .inl ⟨_, rfl⟩, .inr h]

/-- A body that cannot fail: the guards' answer or the body's. -/
theorem guarded_ok_cases {args : List Ptr} {x : Ret} (h : guarded s args (.ok x) = .ok r) :
    (∃ code, r = .plain s code) ∨ r = x := by
  rcases guarded_cases h with hplain | ⟨-, -, h⟩
  exacts [.inl hplain, .inr (Except.ok.inj h).symm]

/-! ### Releasing a block -/

theorem State.freeBlock_eq_ok {v : Bool} {p : Ptr} {t : State} :
    s.freeBlock v p = .ok t ↔ (∃ b, s.heap p = some b ∧ b.freeable v = true) ∧ t = s.release p := by
  unfold State.freeBlock
  rcases hp : s.heap p with _ | b
  · simp
  · by_cases hb : b.freeable v = true <;> simp [hb, @eq_comm _ t]

theorem State.freeBlock_of_freeable {v : Bool} {p : Ptr} {b : Block} (hp : s.heap p = some b)
    (hb : b.freeable v = true) : s.freeBlock v p = .ok (s.release p) :=
  State.freeBlock_eq_ok.2 ⟨⟨b, hp, hb⟩, rfl⟩

theorem State.freeBlock_of_none {v : Bool} {p : Ptr} (hp : s.heap p = none) :
    s.freeBlock v p = .error (.invalidFree p) := by
  simp [State.freeBlock, hp]

/-- What libc `free` may take, a vendor `free` that succeeds may take too. -/
theorem Block.freeable_vendor {b : Block} (hb : b.freeable false = true) : b.freeable true = true := by
  rcases b with _ | _ | _ | ⟨_ | _ | _, _⟩ <;> simp_all [Block.freeable]

theorem Heap.fresh_iff {heap : Heap} {p : Ptr} : heap.fresh p = true ↔ p ≠ 0 ∧ heap p = none := by
  simp [Heap.fresh]

/-! ### The allocation calls -/

@[simp] theorem State.vendorBlock_ctx {p : Ptr} {n : UInt64} : (s.vendorBlock p n).ctx = s.ctx := by
  unfold State.vendorBlock; split <;> rfl

@[simp] theorem State.vendorBlock_vendor {p : Ptr} {n : UInt64} :
    (s.vendorBlock p n).vendor = s.vendor := by
  unfold State.vendorBlock; split <;> rfl

@[simp] theorem State.vendorBlock_ops {p : Ptr} {n : UInt64} :
    (s.vendorBlock p n).currentVendorOps = s.currentVendorOps := by
  unfold State.vendorBlock; split <;> rfl

theorem gpuioMalloc_cases {ctx ptr : Ptr} {size : UInt64}
    (h : gpuioMalloc s o ctx size ptr = .ok r) :
    (∃ code, r = .plain s code) ∨ r = ⟨.nomem, s, [], some (.ptr 0)⟩ ∨
      s.heap.fresh o.malloc = true ∧
        r = ⟨.success, s.alloc o.malloc (.user .malloc size), [], some (.ptr o.malloc)⟩ := by
  rcases guarded_cases h with hplain | ⟨-, -, h⟩
  · exact .inl hplain
  by_cases hf : s.heap.fresh o.malloc = true
  · rw [if_pos hf] at h
    cases h
    exact .inr (.inr ⟨hf, rfl⟩)
  · rw [if_neg hf] at h
    cases h
    exact .inr (.inl rfl)

/-- What `gpuio_malloc_pinned` can return: the vendor's block when its `malloc_pinned` returned
`0`; else, after the vendor's failed attempt if any, a fresh `mmap` mapping or `NOMEM`. -/
theorem gpuioMallocPinned_cases {ctx ptr : Ptr} {size : UInt64}
    (h : gpuioMallocPinned s o ctx size ptr = .ok r) :
    (∃ code, r = .plain s code) ∨
    (s.hasHook .mallocPinned = true ∧ o.ret .mallocPinned = 0 ∧
      r = ⟨.success, s.vendorBlock o.vendorPtr size, [.hook .mallocPinned ptr 0],
        some (.ptr o.vendorPtr)⟩) ∨
    ¬(s.hasHook .mallocPinned = true ∧ o.ret .mallocPinned = 0) ∧
      (s.heap.fresh o.mmap = true ∧
          r = ⟨.success, s.alloc o.mmap (.user .mmap size), s.hookCall o .mallocPinned ptr,
            some (.ptr o.mmap)⟩ ∨
        r = ⟨.nomem, s, s.hookCall o .mallocPinned ptr, some (.ptr 0)⟩) := by
  rcases guarded_cases h with hplain | ⟨-, -, h⟩
  · exact .inl hplain
  by_cases hv : s.hasHook .mallocPinned = true ∧ o.ret .mallocPinned = 0
  · rw [if_pos hv] at h
    cases h
    exact .inr (.inl ⟨hv.1, hv.2, rfl⟩)
  rw [if_neg hv] at h
  by_cases hm : s.heap.fresh o.mmap = true
  · rw [if_pos hm] at h
    cases h
    exact .inr (.inr ⟨hv, .inl ⟨hm, rfl⟩⟩)
  · rw [if_neg hm] at h
    cases h
    exact .inr (.inr ⟨hv, .inr rfl⟩)

/-- What `gpuio_malloc_device` can return: the vendor's block, or what `gpuio_malloc_pinned`
returns after the vendor's failed attempt. -/
theorem gpuioMallocDevice_cases {ctx ptr : Ptr} {size : UInt64}
    (h : gpuioMallocDevice s o ctx size ptr = .ok r) :
    (∃ code, r = .plain s code) ∨
    (s.hasHook .mallocDevice = true ∧ o.ret .mallocDevice = 0 ∧
      r = ⟨.success, s.vendorBlock o.vendorPtr size, [.hook .mallocDevice ptr 0],
        some (.ptr o.vendorPtr)⟩) ∨
    ¬(s.hasHook .mallocDevice = true ∧ o.ret .mallocDevice = 0) ∧
      ∃ r', gpuioMallocPinned s o ctx size ptr = .ok r' ∧
        r = r'.after (s.hookCall o .mallocDevice ptr) := by
  rcases guarded_cases h with hplain | ⟨-, -, h⟩
  · exact .inl hplain
  by_cases hv : s.hasHook .mallocDevice = true ∧ o.ret .mallocDevice = 0
  · rw [if_pos hv] at h
    cases h
    exact .inr (.inl ⟨hv.1, hv.2, rfl⟩)
  · rw [if_neg hv] at h
    obtain ⟨r', hr', rfl⟩ := except_map_eq_ok h
    exact .inr (.inr ⟨hv, r', hr', rfl⟩)

theorem gpuioMallocUnified_cases {ctx ptr : Ptr} {size : UInt64}
    (h : gpuioMallocUnified s o ctx size ptr = .ok r) :
    (∃ code, r = .plain s code) ∨
      s.hasHook .mallocDevice = true ∧ gpuioMallocDevice s o ctx size ptr = .ok r := by
  rcases guarded_cases h with hplain | ⟨-, -, h⟩
  · exact .inl hplain
  by_cases hv : s.hasHook .mallocDevice = true
  · rw [if_pos hv] at h
    exact .inr ⟨hv, h⟩
  · rw [if_neg hv] at h
    cases h
    exact .inl ⟨_, rfl⟩

/-! ### The copies -/

theorem gpuioMemcpy_cases {ctx dst src : Ptr} {size : UInt64} {stream : Ptr}
    (h : gpuioMemcpy s o ctx dst src size stream = .ok r) :
    (∃ code, r = .plain s code) ∨
      r = ⟨.success, s.addWritten size, s.hookCall o .memcpy dst ++ [.lock .stats, .unlock .stats],
        none⟩ := by
  rcases guarded_cases h with hplain | ⟨-, -, h⟩
  · exact .inl hplain
  split_ifs at h <;> cases h
  exacts [.inl ⟨_, rfl⟩, .inr rfl]

/-! ### The synchronize-all loop -/

theorem syncSlot_eq_ok {i : Nat} {t : List Effect} (h : syncSlot s o i = .ok t) :
    t = [] ∨ ∃ p, t = s.hookCall o .streamSynchronize p := by
  unfold syncSlot at h
  repeat' split at h
  all_goals cases h
  all_goals first | exact .inl rfl | exact .inr ⟨_, rfl⟩

theorem syncAll_cons_eq_ok {i : Nat} {is : List Nat} {tr : List Effect}
    (h : syncAll s o (i :: is) = .ok tr) :
    ∃ t rest, syncSlot s o i = .ok t ∧ syncAll s o is = .ok rest ∧ tr = t ++ rest := by
  cases hi : syncSlot s o i with
  | error f => rw [syncAll, hi] at h; cases h
  | ok t =>
    cases hrest : syncAll s o is with
    | error f => rw [syncAll, hi, hrest] at h; cases h
    | ok rest =>
      rw [syncAll, hi, hrest] at h
      cases h
      exact ⟨t, rest, rfl, rfl, rfl⟩

/-! ### `gpuio_free` -/

/-- What `gpuio_free` can return: the state it was given, after the guards or for `NULL`; `BUSY`
when the scan finds a region with base `ptr`; else `ptr`, a block the deallocator it reaches may
take, released through the vendor's `free` alone or through libc `free` after the vendor's failed
attempt. -/
theorem gpuioFree_cases {ctx ptr : Ptr} (h : gpuioFree s o ctx ptr = .ok r) :
    (∃ code, r = .plain s code) ∨
    (scanRegions s.heap ptr walkBound s.ctx.regions = .ok true ∧
      r = ⟨.busy, s, [.lock .regions, .unlock .regions], none⟩) ∨
    ptr ≠ 0 ∧ scanRegions s.heap ptr walkBound s.ctx.regions = .ok false ∧ ∃ b, s.heap ptr = some b ∧
      ((s.hasHook .free = true ∧ o.ret .free = 0) ∧ b.freeable true = true ∧
          r = ⟨.success, s.release ptr, [.lock .regions, .unlock .regions] ++ s.hookCall o .free ptr,
            none⟩ ∨
        ¬(s.hasHook .free = true ∧ o.ret .free = 0) ∧ b.freeable false = true ∧
          r = ⟨.success, s.release ptr,
            [.lock .regions, .unlock .regions] ++ s.hookCall o .free ptr ++ [.free ptr], none⟩) := by
  rcases guarded_cases h with hplain | ⟨-, -, h⟩
  · exact .inl hplain
  by_cases hp : ptr = 0
  · rw [if_pos hp] at h
    cases h
    exact .inl ⟨_, rfl⟩
  rw [if_neg hp] at h
  split at h
  · cases h
  · cases h
    exact .inr (.inl ⟨by assumption, rfl⟩)
  rename_i hscan
  dsimp only at h
  by_cases hv : s.hasHook .free = true ∧ o.ret .free = 0
  · rw [if_pos hv] at h
    obtain ⟨t, ht, rfl⟩ := except_map_eq_ok h
    obtain ⟨⟨b, hb, hfree⟩, rfl⟩ := State.freeBlock_eq_ok.1 ht
    exact .inr (.inr ⟨hp, hscan, b, hb, .inl ⟨hv, hfree, rfl⟩⟩)
  · rw [if_neg hv] at h
    obtain ⟨t, ht, rfl⟩ := except_map_eq_ok h
    obtain ⟨⟨b, hb, hfree⟩, rfl⟩ := State.freeBlock_eq_ok.1 ht
    exact .inr (.inr ⟨hp, hscan, b, hb, .inr ⟨hv, hfree, rfl⟩⟩)

/-- `gpuio_free` returns when the scan does and, unless `ptr` is `NULL` or the scan finds a region
with base `ptr`, `ptr` holds a block libc `free` may take. -/
theorem gpuioFree_returns {ctx ptr : Ptr} {b : Bool}
    (hscan : scanRegions s.heap ptr walkBound s.ctx.regions = .ok b)
    (hblock : ptr ≠ 0 → b = false → ∃ blk, s.heap ptr = some blk ∧ blk.freeable false = true) :
    ∃ r, gpuioFree s o ctx ptr = .ok r := by
  refine guarded_returns ?_
  by_cases hp : ptr = 0
  · exact ⟨_, if_pos hp⟩
  rw [if_neg hp, hscan]
  cases b
  · obtain ⟨blk, hblk, hfree⟩ := hblock hp rfl
    dsimp only
    split_ifs
    · exact ⟨_, by rw [State.freeBlock_of_freeable hblk (Block.freeable_vendor hfree)]; rfl⟩
    · exact ⟨_, by rw [State.freeBlock_of_freeable hblk hfree]; rfl⟩
  · exact ⟨_, rfl⟩

/-! ### `gpuio_register_memory` -/

/-- What `gpuio_register_memory` can return: the state it was given, after the guards, a failed
`calloc` or a failed vendor registration; or the fresh record pushed on the region list with the
caller's struct filled from it, after the vendor's registration if the table has one. -/
theorem gpuioRegisterMemory_cases {ctx ptr region : Ptr} {size : UInt64}
    {access : GpuioMemAccess} (h : gpuioRegisterMemory s o ctx ptr size access region = .ok r) :
    (r.code ≠ .success ∧ r.state = s ∧ r.out = none ∧
      (r.trace = [] ∨ s.hasHook .registerMemory = true ∧
        r.trace = [.hook .registerMemory o.calloc (o.ret .registerMemory), .free o.calloc])) ∨
    (ctx ≠ 0 ∧ region ≠ 0 ∧ s.ctx.initialized = true ∧ o.calloc ≠ 0 ∧ s.heap o.calloc = none ∧
      ∃ (rec : MemoryRegionInternal) (v : Vendor) (tr : List Effect),
        rec.registered = true ∧ v = { s.vendor with registrations := v.registrations } ∧
        (s.hasHook .registerMemory = false ∧ tr = [] ∧ v.registrations = s.vendor.registrations ∨
          s.hasHook .registerMemory = true ∧ tr = [.hook .registerMemory o.calloc 0] ∧
            v.registrations = o.calloc :: s.vendor.registrations) ∧
        r = State.pushRegion { s with vendor := v } o.calloc rec tr) := by
  rcases guarded_eq_ok h with rfl | rfl | ⟨hargs, hinit, h⟩
  · exact .inl ⟨nofun, rfl, rfl, .inl rfl⟩
  · exact .inl ⟨nofun, rfl, rfl, .inl rfl⟩
  have hctx := hargs ctx (by simp)
  have hregion := hargs region (by simp)
  by_cases hbad : ptr = 0 ∨ size = 0
  · rw [if_pos hbad] at h
    cases h
    exact .inl ⟨nofun, rfl, rfl, .inl rfl⟩
  rw [if_neg hbad] at h
  by_cases hfresh : (!s.heap.fresh o.calloc) = true
  · rw [if_pos hfresh] at h
    cases h
    exact .inl ⟨nofun, rfl, rfl, .inl rfl⟩
  rw [if_neg hfresh] at h
  obtain ⟨hnz, hnone⟩ : o.calloc ≠ 0 ∧ s.heap o.calloc = none := by simpa [Heap.fresh] using hfresh
  by_cases hhook : s.hasHook .registerMemory = true
  · rw [if_pos hhook] at h
    by_cases hret : o.ret .registerMemory ≠ 0
    · rw [if_pos hret] at h
      cases h
      exact .inl ⟨nofun, rfl, rfl, .inr ⟨hhook, rfl⟩⟩
    · rw [if_neg hret] at h
      cases h
      refine .inr ⟨hctx, hregion, hinit, hnz, hnone, _, _, _, ?_, ?_, .inr ⟨hhook, rfl, ?_⟩, rfl⟩ <;>
        rfl
  · rw [if_neg hhook] at h
    cases h
    refine .inr ⟨hctx, hregion, hinit, hnz, hnone, _, _, _, ?_, ?_,
      .inl ⟨by simpa using hhook, rfl, ?_⟩, rfl⟩ <;> rfl

theorem gpuioRegisterMemory_returns (ctx ptr : Ptr) (size : UInt64) (access : GpuioMemAccess)
    (region : Ptr) : ∃ r, gpuioRegisterMemory s o ctx ptr size access region = .ok r := by
  match h : gpuioRegisterMemory s o ctx ptr size access region with
  | .ok r => exact ⟨r, rfl⟩
  | .error f =>
    have h := guarded_eq_error h
    dsimp only at h
    split_ifs at h

/-! ### `gpuio_unregister_memory` -/

/-- What `gpuio_unregister_memory` can return: the state it was given, after the guards or for a
`NULL` handle; or, when the unlink loop returns and leaves a region record at the handle, that
record freed with the list and heap the loop left and the vendor's registration dropped. -/
theorem gpuioUnregisterMemory_cases {ctx region : Ptr} {pub : GpuioMemoryRegion}
    (h : gpuioUnregisterMemory s o ctx region pub = .ok r) :
    (∃ code, code ≠ .success ∧ r = .plain s code) ∨
      ∃ regions heap rec,
        unlinkRegion pub.handle s.ctx.regions s.heap walkBound .head = .ok (regions, heap) ∧
        heap pub.handle = some (.region rec) ∧
        r = ⟨.success,
          { s with
            ctx := { s.ctx with regions := regions }
            heap := Function.update heap pub.handle none
            vendor := s.vendorUnregister o pub.handle },
          [.lock .regions, .unlock .regions] ++ s.hookCall o .unregisterMemory pub.handle ++
            [.free pub.handle],
          some (.region { pub with registered := false })⟩ := by
  rcases guarded_eq_ok h with rfl | rfl | ⟨-, -, h⟩
  · exact .inl ⟨.invalidArg, nofun, rfl⟩
  · exact .inl ⟨.notInitialized, nofun, rfl⟩
  by_cases h0 : pub.handle = 0
  · rw [if_pos h0] at h
    cases h
    exact .inl ⟨.invalidArg, nofun, rfl⟩
  rw [if_neg h0] at h
  dsimp only at h
  split at h
  · cases h
  rename_i regions heap hunlink
  split at h
  · cases h
    rename_i rec hrec
    exact .inr ⟨regions, heap, rec, hunlink, hrec, rfl⟩
  · cases h

/-! ### `gpuio_stream_create` -/

/-- What `/* Add to context */` can return: `NOMEM` with the vendor's bookkeeping after the
compensating `stream_destroy`, or the new stream in slot `num_streams`. -/
theorem State.addStream_cases {internal : Ptr} {priority : Int}
    (h : s.addStream o internal priority = .ok r) :
    (r.code = .nomem ∧ r.out = none ∧
      r.state = { s with vendor := s.vendorStreamDestroy o internal } ∧
      r.trace = [.lock .streams, .unlock .streams] ++ s.hookCall o .streamDestroy internal ++
        [.free internal]) ∨
    (r.code = .success ∧ 0 ≤ s.ctx.numStreams ∧ r.out = some (.ptr internal) ∧
      r.state =
        { s with
          ctx := { s.ctx with
            streams := (reallocSlots s.ctx.streams (s.ctx.numStreams + 1).toNat).set
              s.ctx.numStreams.toNat internal
            numStreams := s.ctx.numStreams + 1 }
          heap := Function.update s.heap internal (some (.stream ⟨s.ctx.numStreams, priority⟩)) } ∧
      r.trace = [.lock .streams, .unlock .streams]) := by
  unfold State.addStream at h
  dsimp only at h
  split_ifs at h with hover hrealloc hneg <;> cases h
  · exact .inl ⟨rfl, rfl, rfl, rfl⟩
  · exact .inr ⟨rfl, by omega, rfl, rfl, rfl⟩

theorem State.addStream_returns {internal : Ptr} {priority : Int}
    (hlen : s.ctx.numStreams + 1 ≤ intMax) (hnn : 0 ≤ s.ctx.numStreams) :
    ∃ r, s.addStream o internal priority = .ok r := by
  unfold State.addStream
  dsimp only
  split_ifs <;> first | exact ⟨_, rfl⟩ | omega

/-- What `gpuio_stream_create` can return: the state it was given; that state with the vendor's
bookkeeping after its `stream_create` and the compensating `stream_destroy`, when `realloc`
failed; or the new stream in slot `num_streams`. -/
theorem gpuioStreamCreate_cases {ctx stream : Ptr} {priority : Int}
    (h : gpuioStreamCreate s o ctx stream priority = .ok r) :
    (r.code ≠ .success ∧ r.state = s ∧ r.out = none ∧
      (r.trace = [] ∨ r.trace = s.hookCall o .streamCreate o.calloc ++ [.free o.calloc])) ∨
    (r.code = .nomem ∧ r.out = none ∧ r.state =
      { s with vendor := (State.vendorStreamDestroy
          { s with vendor := s.vendorStreamCreate o.calloc } o o.calloc) } ∧
      r.trace = s.hookCall o .streamCreate o.calloc ++
        ([.lock .streams, .unlock .streams] ++ s.hookCall o .streamDestroy o.calloc ++
          [.free o.calloc])) ∨
    (r.code = .success ∧ o.calloc ≠ 0 ∧ s.heap o.calloc = none ∧ 0 ≤ s.ctx.numStreams ∧
      r.out = some (.ptr o.calloc) ∧
      r.state =
        { s with
          ctx := { s.ctx with
            streams := (reallocSlots s.ctx.streams (s.ctx.numStreams + 1).toNat).set
              s.ctx.numStreams.toNat o.calloc
            numStreams := s.ctx.numStreams + 1 }
          heap := Function.update s.heap o.calloc (some (.stream ⟨s.ctx.numStreams, priority⟩))
          vendor := s.vendorStreamCreate o.calloc } ∧
      r.trace = s.hookCall o .streamCreate o.calloc ++ [.lock .streams, .unlock .streams]) := by
  rcases guarded_eq_ok h with rfl | rfl | ⟨-, -, h⟩
  · exact .inl ⟨nofun, rfl, rfl, .inl rfl⟩
  · exact .inl ⟨nofun, rfl, rfl, .inl rfl⟩
  dsimp only at h
  split_ifs at h with hfresh hret
  · cases h
    exact .inl ⟨nofun, rfl, rfl, .inl rfl⟩
  · cases h
    exact .inl ⟨nofun, rfl, rfl, .inr rfl⟩
  · obtain ⟨r', ha, rfl⟩ := except_map_eq_ok h
    rcases State.addStream_cases ha with ⟨hc, hout, hst, htr⟩ | ⟨hc, hnn, hout, hst, htr⟩
    · exact .inr (.inl ⟨hc, hout, hst, congrArg _ htr⟩)
    · obtain ⟨hnz, hfresh'⟩ : o.calloc ≠ 0 ∧ s.heap o.calloc = none := by
        simpa [Heap.fresh] using hfresh
      exact .inr (.inr ⟨hc, hnz, hfresh', hnn, hout, hst, congrArg _ htr⟩)

theorem gpuioStreamCreate_returns {ctx stream : Ptr} {priority : Int}
    (hlen : s.ctx.numStreams + 1 ≤ intMax) (hnn : 0 ≤ s.ctx.numStreams) :
    ∃ r, gpuioStreamCreate s o ctx stream priority = .ok r := by
  match h : gpuioStreamCreate s o ctx stream priority with
  | .ok r => exact ⟨r, rfl⟩
  | .error f =>
    have h := guarded_eq_error h
    dsimp only at h
    split_ifs at h
    obtain ⟨r, ha⟩ := @State.addStream_returns { s with vendor := s.vendorStreamCreate o.calloc } o
      o.calloc priority hlen hnn
    rw [ha] at h
    cases h

/-! ### The other stream and event calls -/

@[simp] theorem State.vendorEventCreate_registrations {ev : Ptr} :
    (s.vendorEventCreate ev).registrations = s.vendor.registrations := by
  unfold State.vendorEventCreate; split <;> rfl

@[simp] theorem State.vendorEventCreate_streams {ev : Ptr} :
    (s.vendorEventCreate ev).streams = s.vendor.streams := by
  unfold State.vendorEventCreate; split <;> rfl

@[simp] theorem State.vendorEventDestroy_registrations {ev : Ptr} :
    (s.vendorEventDestroy o ev).registrations = s.vendor.registrations := by
  unfold State.vendorEventDestroy; split <;> rfl

@[simp] theorem State.vendorEventDestroy_streams {ev : Ptr} :
    (s.vendorEventDestroy o ev).streams = s.vendor.streams := by
  unfold State.vendorEventDestroy; split <;> rfl

theorem gpuioStreamDestroy_cases {ctx stream : Ptr} (h : gpuioStreamDestroy s o ctx stream = .ok r) :
    (∃ code, code ≠ .success ∧ r = .plain s code) ∨ ∃ st, s.heap stream = some (.stream st) ∧
      r = ⟨.success,
        { s with
          heap := Function.update s.heap stream none
          vendor := s.vendorStreamDestroy o stream },
        s.hookCall o .streamDestroy stream ++ [.free stream], none⟩ := by
  rcases guarded_eq_ok h with rfl | rfl | ⟨-, -, h⟩
  · exact .inl ⟨.invalidArg, nofun, rfl⟩
  · exact .inl ⟨.notInitialized, nofun, rfl⟩
  split at h
  · cases h
    exact .inr ⟨_, by assumption, rfl⟩
  · cases h

/-- What `gpuio_stream_synchronize` can return: the synchronize-all loop's calls under
`streams_lock` for a `NULL` stream, else the one stream's vendor call. -/
theorem gpuioStreamSynchronize_cases {ctx stream : Ptr}
    (h : gpuioStreamSynchronize s o ctx stream = .ok r) :
    (∃ code, r = .plain s code) ∨
    (stream = 0 ∧ ∃ tr, syncAll s o (List.range s.ctx.numStreams.toNat) = .ok tr ∧
      r = ⟨.success, s, [.lock .streams] ++ tr ++ [.unlock .streams], none⟩) ∨
    stream ≠ 0 ∧ r = forwardHook s o .streamSynchronize stream none := by
  rcases guarded_cases h with hplain | ⟨-, -, h⟩
  · exact .inl hplain
  by_cases h0 : stream = 0
  · rw [if_pos h0] at h
    obtain ⟨tr, htr, rfl⟩ := except_map_eq_ok h
    exact .inr (.inl ⟨h0, tr, htr, rfl⟩)
  · rw [if_neg h0] at h
    cases h
    exact .inr (.inr ⟨h0, rfl⟩)

/-- What `gpuio_event_create` can return: the state it was given, after the guards or a failed
`calloc`, or with the record freed after a failed vendor `event_create`; else the fresh event
record, which the vendor backs if it has `event_create`. -/
theorem gpuioEventCreate_cases {ctx event : Ptr} (h : gpuioEventCreate s o ctx event = .ok r) :
    (∃ code, r = .plain s code) ∨
    (s.hookRet o .eventCreate ≠ 0 ∧
      r = ⟨.general, s, s.hookCall o .eventCreate o.calloc ++ [.free o.calloc], none⟩) ∨
    o.calloc ≠ 0 ∧ s.heap o.calloc = none ∧ s.hookRet o .eventCreate = 0 ∧
      r = ⟨.success, { s.alloc o.calloc .event with vendor := s.vendorEventCreate o.calloc },
        s.hookCall o .eventCreate o.calloc, some (.ptr o.calloc)⟩ := by
  rcases guarded_cases h with hplain | ⟨-, -, h⟩
  · exact .inl hplain
  by_cases hf : (!s.heap.fresh o.calloc) = true
  · rw [if_pos hf] at h
    cases h
    exact .inl ⟨_, rfl⟩
  rw [if_neg hf] at h
  obtain ⟨hnz, hnone⟩ := Heap.fresh_iff.1 (by simpa using hf)
  dsimp only at h
  by_cases hret : s.hookRet o .eventCreate ≠ 0
  · rw [if_pos hret] at h
    cases h
    exact .inr (.inl ⟨hret, rfl⟩)
  · rw [if_neg hret] at h
    cases h
    exact .inr (.inr ⟨hnz, hnone, not_not.1 hret, rfl⟩)

/-- What `gpuio_event_destroy` can return: the state it was given, after the guards; else the
record released by libc `free`, which must be able to take it, and the vendor's bookkeeping after
its `event_destroy`. -/
theorem gpuioEventDestroy_cases {ctx event : Ptr} (h : gpuioEventDestroy s o ctx event = .ok r) :
    (∃ code, code ≠ .success ∧ r = .plain s code) ∨ ∃ b, s.heap event = some b ∧
      b.freeable false = true ∧
      r = ⟨.success,
        { s with
          heap := Function.update s.heap event none
          vendor := s.vendorEventDestroy o event },
        s.hookCall o .eventDestroy event ++ [.free event], none⟩ := by
  rcases guarded_eq_ok h with rfl | rfl | ⟨-, -, h⟩
  · exact .inl ⟨.invalidArg, nofun, rfl⟩
  · exact .inl ⟨.notInitialized, nofun, rfl⟩
  obtain ⟨t, ht, rfl⟩ := except_map_eq_ok h
  obtain ⟨⟨b, hb, hfree⟩, rfl⟩ := State.freeBlock_eq_ok.1 ht
  exact .inr ⟨b, hb, hfree, rfl⟩

end Cases

end Gpuio
