import Gpuio.Proof.Live

/-!
# The region registry

The registry's invariant relates the heap list to what the caller was told: `ctx->regions`
represents the handles of the live registrations, newest first, and each record still holds what
its registration copied into the caller's struct. Registration pushes, unregistration of a live
handle unlinks it wherever it sits, and `gpuio_free` only reads the list, so the invariant holds
after every legal run. The runs that count unregister only live handles and give `gpuio_free` only
`NULL` or a block `gpuio_malloc` handed out and no `gpuio_free` has released: `gpuio_free` cannot
tell a live record, a freed block or a mapping from the caller's memory, and releases them all.
-/

namespace Gpuio

/-- The record at `pub.handle` holds what its registration copied into `pub`. -/
def Holds (heap : Heap) (pub : GpuioMemoryRegion) : Prop :=
  ∃ r, heap pub.handle = some (.region r) ∧ r.fill pub.handle = pub ∧ r.registered = true

/-- `regions` represents the handles of `regs`, in order, and each record holds its struct. -/
structure RegistryInv (heap : Heap) (regions : Ptr) (regs : List GpuioMemoryRegion) : Prop where
  rep : RegionsRep heap regions (regs.map (·.handle))
  holds : ∀ pub ∈ regs, Holds heap pub

/-- The registry calls a run may make, with `gpuio_malloc` among them: any allocation or
registration, unregistration of a live handle, and `gpuio_free` of `NULL` or of a block
`gpuio_malloc` handed out and no `gpuio_free` has released since. -/
def Call.RegistryLegal (a : Live) : Call → Prop
  | .malloc .. | .registerMemory .. => True
  | .unregisterMemory _ _ pub => pub.handle ∈ a.regs.map (·.handle)
  | .free _ ptr => ptr = 0 ∨ ptr ∈ a.blocks
  | _ => False

/-! ### One call at a time -/

section Steps

variable {s : State} {regs : List GpuioMemoryRegion} {heap heap' : Heap} {regions : Ptr} {blocks : List Ptr}

theorem Holds.congr {pub : GpuioMemoryRegion}
    (hagree : (heap' pub.handle).map Block.unlinked = (heap pub.handle).map Block.unlinked)
    (h : Holds heap pub) : Holds heap' pub := by
  obtain ⟨r, hr, hfill, hreg⟩ := h
  rw [hr] at hagree
  match hb : heap' pub.handle, hagree with
  | some (.region r'), hagree =>
    simp only [Option.map_some', Block.unlinked, Option.some.injEq, Block.region.injEq] at hagree
    refine ⟨r', hb, ?_, ?_⟩
    · rw [← hfill]
      have := congrArg (MemoryRegionInternal.fill · pub.handle) hagree
      simpa [MemoryRegionInternal.fill] using this
    · simpa [hreg] using congrArg MemoryRegionInternal.registered hagree

theorem RegistryInv.fresh_not_mem (hinv : RegistryInv heap regions regs) {p : Ptr}
    (hp : heap p = none) :
    p ∉ regs.map (·.handle) := fun hm => by
  obtain ⟨-, r, hr⟩ := ListSeg.live hinv.rep hm
  simp [hp] at hr

/-- The invariant reads the heap at the live handles only. -/
theorem RegistryInv.congr (hinv : RegistryInv heap regions regs)
    (hagree : ∀ y ∈ regs.map (·.handle), heap' y = heap y) : RegistryInv heap' regions regs := by
  refine ⟨hinv.rep.frame hagree, fun pub hpub => ?_⟩
  obtain ⟨r', hr', hfill, hreg'⟩ := hinv.holds pub hpub
  exact ⟨r', (hagree _ (List.mem_map_of_mem _ hpub)).trans hr', hfill, hreg'⟩

/-- A registration's push keeps the invariant, with the filled struct as the newest entry. -/
theorem RegistryInv.push (hinv : RegistryInv heap regions regs) {internal : Ptr}
    {r : MemoryRegionInternal} (hfresh : heap.fresh internal) (hreg : r.registered = true) :
    RegistryInv (Function.update heap internal (some (.region { r with next := regions })))
      internal (r.fill internal :: regs) := by
  simp only [Heap.fresh, Bool.and_eq_true, bne_iff_ne, ne_eq, Option.isNone_iff_eq_none] at hfresh
  have hnot := hinv.fresh_not_mem hfresh.2
  have hold : RegistryInv (Function.update heap internal (some (.region { r with next := regions })))
      regions regs :=
    hinv.congr fun y hy => Function.update_noteq (by rintro rfl; exact hnot hy) _ _
  refine ⟨.cons _ hfresh.1 (Function.update_same _ _ _) hold.rep, ?_⟩
  simp only [List.mem_cons, forall_eq_or_imp]
  exact ⟨⟨_, Function.update_same _ _ _, rfl, hreg⟩, hold.holds⟩

/-- A block that is not a region record is no live handle. -/
theorem RegistryInv.not_mem_of_block (hinv : RegistryInv heap regions regs) {p : Ptr} {b : Block}
    (hp : heap p = some b) (hb : ∀ r, b ≠ .region r) : p ∉ regs.map (·.handle) := fun hm => by
  obtain ⟨-, r, hr⟩ := ListSeg.live hinv.rep hm
  exact hb r (Option.some.inj (hp.symm.trans hr))

/-- Releasing a block that is not a live record keeps the invariant. -/
theorem RegistryInv.release (hinv : RegistryInv heap regions regs) {p : Ptr}
    (hnot : p ∉ regs.map (·.handle)) :
    RegistryInv (Function.update heap p none) regions regs :=
  hinv.congr fun y hy => Function.update_noteq (by rintro rfl; exact hnot hy) _ _

theorem map_handle_filter {pre post : List Ptr} {h : Ptr}
    (hsplit : regs.map (·.handle) = pre ++ h :: post) (hnd : (pre ++ h :: post).Nodup) :
    (regs.filter (·.handle != h)).map (·.handle) = pre ++ post := by
  have hmid := List.nodup_cons.mp (List.nodup_middle.mp hnd)
  have hpre : h ∉ pre := fun hm => hmid.1 (List.mem_append_left _ hm)
  have hpost : h ∉ post := fun hm => hmid.1 (List.mem_append_right _ hm)
  rw [show (regs.filter (·.handle != h)).map (·.handle) = (regs.map (·.handle)).filter (· != h)
    by rw [List.filter_map]; rfl, hsplit, List.filter_append, List.filter_cons_of_neg (by simp),
    List.filter_eq_self.mpr (fun a ha => by simpa using ne_of_mem_of_not_mem ha hpre),
    List.filter_eq_self.mpr (fun a ha => by simpa using ne_of_mem_of_not_mem ha hpost)]

/-- Unlinking a live handle leaves the record in place, and once it is freed the invariant holds
of the registrations without it. -/
theorem RegistryInv.unlink (hinv : RegistryInv heap regions regs) {h : Ptr}
    (hlive : h ∈ regs.map (·.handle)) :
    ∃ regions' heap', unlinkRegion h regions heap walkBound .head = .ok (regions', heap') ∧
      (∃ r, heap' h = some (.region r)) ∧
      RegistryInv (Function.update heap' h none) regions' (regs.filter (·.handle != h)) := by
  obtain ⟨pre, post, hsplit⟩ := List.append_of_mem hlive
  have hrep := hinv.rep
  rw [hsplit] at hrep
  obtain ⟨regions', heap', hunlink, hrep', hagree⟩ := unlinkRegion_head_of_mem hrep
  obtain ⟨r, hr⟩ := (ListSeg.live hinv.rep hlive).2
  have hr' : (heap' h).map Block.unlinked = some (.region { r with next := 0 }) := by
    rw [hagree, hr]; rfl
  match hb : heap' h, hr' with
  | some (.region r'), _ =>
    have hfilter := map_handle_filter hsplit hrep.nodup
    have hinv' : RegistryInv heap' regions' (regs.filter (·.handle != h)) :=
      ⟨hfilter ▸ hrep', fun pub hpub => Holds.congr (hagree _) (hinv.holds pub (List.mem_filter.mp hpub).1)⟩
    refine ⟨regions', heap', hunlink, ⟨r', hb⟩, hinv'.release ?_⟩
    rw [hfilter]
    exact fun hm => (List.nodup_cons.mp (List.nodup_middle.mp hrep.nodup)).1 hm

@[simp]
theorem registryAfter_pushRegion {ctx ptr : Ptr} {size : UInt64} {access : GpuioMemAccess}
    {region internal : Ptr} {r : MemoryRegionInternal} {tr : List Effect} :
    registryAfter regs (.registerMemory ctx ptr size access region) (s.pushRegion internal r tr) =
      r.fill internal :: regs := rfl

theorem registryAfter_register_of_ne {ctx ptr : Ptr} {size : UInt64} {access : GpuioMemAccess}
    {region : Ptr} {r : Ret} (hc : r.code ≠ .success) :
    registryAfter regs (.registerMemory ctx ptr size access region) r = regs := by
  simp only [registryAfter]
  split
  · contradiction
  · rfl

/-- Registration keeps the invariant, with the filled struct as the newest entry when it
succeeds. -/
theorem registerMemory_inv (hinv : RegistryInv s.heap s.ctx.regions regs) {o : Oracle}
    {ctx ptr : Ptr} {size : UInt64} {access : GpuioMemAccess} {region : Ptr} {r : Ret}
    (hrun : gpuioRegisterMemory s o ctx ptr size access region = .ok r) :
    RegistryInv r.state.heap r.state.ctx.regions
      (registryAfter regs (.registerMemory ctx ptr size access region) r) := by
  rcases gpuioRegisterMemory_cases hrun with
    ⟨hc, hst, -, -⟩ | ⟨-, -, -, hnz, hnone, rec, v, tr, hreg, -, -, rfl⟩
  · rw [registryAfter_register_of_ne hc, hst]
    exact hinv
  · rw [registryAfter_pushRegion]
    exact hinv.push (by simp [Heap.fresh, hnz, hnone]) hreg

theorem registerMemory_step (hinv : RegistryInv s.heap s.ctx.regions regs) (o : Oracle)
    (ctx ptr : Ptr) (size : UInt64) (access : GpuioMemAccess) (region : Ptr) :
    ∃ r, gpuioRegisterMemory s o ctx ptr size access region = .ok r ∧
      RegistryInv r.state.heap r.state.ctx.regions
        (registryAfter regs (.registerMemory ctx ptr size access region) r) := by
  obtain ⟨r, h⟩ := @gpuioRegisterMemory_returns s o ctx ptr size access region
  exact ⟨r, h, registerMemory_inv hinv h⟩

theorem unregisterMemory_step (hinv : RegistryInv s.heap s.ctx.regions regs) (o : Oracle)
    (ctx region : Ptr) (pub : GpuioMemoryRegion) (hlive : pub.handle ∈ regs.map (·.handle)) :
    ∃ r, gpuioUnregisterMemory s o ctx region pub = .ok r ∧
      RegistryInv r.state.heap r.state.ctx.regions
        (registryAfter regs (.unregisterMemory ctx region pub) r) := by
  obtain ⟨regions', heap', hunlink, ⟨r', hr'⟩, hinv'⟩ := hinv.unlink hlive
  unfold gpuioUnregisterMemory guarded
  split_ifs with h1 h2 h3
  · exact ⟨_, rfl, hinv⟩
  · exact ⟨_, rfl, hinv⟩
  · exact absurd h3 (ListSeg.live hinv.rep hlive).1
  · simp only [hunlink, hr']
    exact ⟨_, rfl, hinv'⟩

/-- `gpuio_malloc` adds a fresh block of the caller and leaves the list alone. -/
theorem malloc_step (hinv : RegistryInv s.heap s.ctx.regions regs)
    (hblocks : Owned Block.isMalloc s.heap blocks) (o : Oracle) (ctx : Ptr) (size : UInt64)
    (ptr : Ptr) :
    ∃ r, gpuioMalloc s o ctx size ptr = .ok r ∧
      RegistryInv r.state.heap r.state.ctx.regions (registryAfter regs (.malloc ctx size ptr) r) ∧
      Owned Block.isMalloc r.state.heap (blocksAfter blocks (.malloc ctx size ptr) r) := by
  obtain ⟨r, h⟩ : ∃ r, gpuioMalloc s o ctx size ptr = .ok r :=
    guarded_returns (by split_ifs <;> exact ⟨_, rfl⟩)
  refine ⟨r, h, ?_⟩
  rcases gpuioMalloc_cases h with ⟨code, rfl⟩ | rfl | ⟨hf, rfl⟩
  · cases code <;> exact ⟨hinv, hblocks⟩
  · exact ⟨hinv, hblocks⟩
  · have hnone := (Heap.fresh_iff.1 hf).2
    exact ⟨hinv.congr fun y hy => Function.update_noteq
      (by rintro rfl; exact hinv.fresh_not_mem hnone hy) _ _, hblocks.push hf rfl⟩

/-- `gpuio_free` of `NULL` or of a caller's `malloc` block returns and keeps the list; when it
releases the block, the block leaves the caller's blocks. -/
theorem free_step (hinv : RegistryInv s.heap s.ctx.regions regs)
    (hblocks : Owned Block.isMalloc s.heap blocks) (o : Oracle) (ctx ptr : Ptr)
    (hlegal : ptr = 0 ∨ ptr ∈ blocks) :
    ∃ r, gpuioFree s o ctx ptr = .ok r ∧
      RegistryInv r.state.heap r.state.ctx.regions (registryAfter regs (.free ctx ptr) r) ∧
      Owned Block.isMalloc r.state.heap (blocksAfter blocks (.free ctx ptr) r) := by
  have hown (hp : ptr ≠ 0) : ∃ n, s.heap ptr = some (.user .malloc n) :=
    (hblocks.malloc_of_mem (hlegal.resolve_left hp)).2
  obtain ⟨r, h⟩ := @gpuioFree_returns s o ctx ptr _ (scanRegions_eq hinv.rep hinv.rep.length_lt)
    fun hp _ => ⟨_, (hown hp).choose_spec, rfl⟩
  have hsub : Owned Block.isMalloc s.heap (blocksAfter blocks (.free ctx ptr) r) := by
    show Owned _ _ (if r.code = .success then blocks.erase ptr else blocks)
    split_ifs
    exacts [hblocks.sublist (List.erase_sublist _ _), hblocks]
  refine ⟨r, h, ?_⟩
  rcases gpuioFree_cases h with ⟨_, rfl⟩ | ⟨-, rfl⟩ | ⟨hp, -, -, -, ⟨-, -, rfl⟩ | ⟨-, -, rfl⟩⟩
  · exact ⟨hinv, hsub⟩
  · exact ⟨hinv, hsub⟩
  all_goals
    have hnot := hinv.not_mem_of_block (hown hp).choose_spec fun _ h => Block.noConfusion h
    exact ⟨hinv.release hnot, hblocks.release ptr⟩

/-- Registration leaves every live block alone. -/
theorem registerMemory_keeps_block {o : Oracle} {ctx ptr : Ptr} {size : UInt64}
    {access : GpuioMemAccess} {region : Ptr} {r : Ret}
    (hrun : gpuioRegisterMemory s o ctx ptr size access region = .ok r) {p : Ptr} {b : Block}
    (hp : s.heap p = some b) : r.state.heap p = some b := by
  rcases gpuioRegisterMemory_cases hrun with ⟨-, hst, -, -⟩ | ⟨-, -, -, -, hnone, _, _, _, -, -, -, rfl⟩
  · rw [hst, hp]
  · exact (Function.update_noteq (by rintro rfl; rw [hnone] at hp; cases hp) _ _).trans hp

/-- Unregistration leaves every block that is not a region record alone. -/
theorem unregisterMemory_keeps_block {o : Oracle} {ctx region : Ptr} {pub : GpuioMemoryRegion}
    {r : Ret} (hrun : gpuioUnregisterMemory s o ctx region pub = .ok r) {p : Ptr} {b : Block}
    (hp : s.heap p = some b) (hb : ∀ rec, b ≠ .region rec) : r.state.heap p = some b := by
  rcases gpuioUnregisterMemory_cases hrun with ⟨_, -, rfl⟩ | ⟨_, _, rec, hunlink, hrec, rfl⟩
  · exact hp
  have hp' := unlinkRegion_keeps_other hunlink hp hb
  exact (Function.update_noteq (by rintro rfl; exact hb rec (Option.some.inj (hp'.symm.trans hrec)))
    _ _).trans hp'

/-- Unregistration keeps the invariant whatever handle it is given, as long as it returns. -/
theorem unregisterMemory_inv (hinv : RegistryInv s.heap s.ctx.regions regs) {o : Oracle}
    {ctx region : Ptr} {pub : GpuioMemoryRegion} {r : Ret}
    (hrun : gpuioUnregisterMemory s o ctx region pub = .ok r) :
    RegistryInv r.state.heap r.state.ctx.regions
      (registryAfter regs (.unregisterMemory ctx region pub) r) := by
  rcases gpuioUnregisterMemory_cases hrun with ⟨_, hc, rfl⟩ | ⟨_, _, _, hunlink, -, rfl⟩
  · simpa only [registryAfter, Ret.plain, if_neg hc] using hinv
  by_cases hlive : pub.handle ∈ regs.map (·.handle)
  · obtain ⟨_, _, hunlink', -, hinv'⟩ := hinv.unlink hlive
    rw [hunlink'] at hunlink
    cases hunlink
    exact hinv'
  · have hfilter : regs.filter (·.handle != pub.handle) = regs :=
      List.filter_eq_self.mpr fun q hq => by
        simpa using ne_of_mem_of_not_mem (List.mem_map_of_mem _ hq) hlive
    rw [unlinkRegion_head_of_not_mem hinv.rep hlive] at hunlink
    cases hunlink
    simpa [registryAfter, hfilter] using hinv.release hlive

/-- What a registration that filled the caller's struct did. -/
theorem gpuioRegisterMemory_filled {o : Oracle} {ctx ptr : Ptr} {size : UInt64}
    {access : GpuioMemAccess} {region : Ptr} {r : Ret} {pub : GpuioMemoryRegion}
    (hrun : gpuioRegisterMemory s o ctx ptr size access region = .ok r)
    (hout : r.out = some (.region pub)) :
    ctx ≠ 0 ∧ region ≠ 0 ∧ s.ctx.initialized = true ∧ s.heap o.calloc = none ∧ o.calloc ≠ 0 ∧
      pub.handle = o.calloc ∧ r.code = .success ∧ r.state.ctx = { s.ctx with regions := o.calloc } ∧
      ∃ rec : MemoryRegionInternal, rec.next = s.ctx.regions ∧
        r.state.heap = Function.update s.heap o.calloc (some (.region rec)) := by
  rcases gpuioRegisterMemory_cases hrun with
    ⟨-, -, hnone, -⟩ | ⟨hctx, hregion, hinit, hnz, hfresh, rec, v, tr, -, -, -, rfl⟩
  · rw [hnone] at hout
    cases hout
  · cases hout
    exact ⟨hctx, hregion, hinit, hfresh, hnz, rfl, rfl, rfl, { rec with next := s.ctx.regions }, rfl,
      rfl⟩

theorem register_unregister_restores {o o' : Oracle} {ctx ptr : Ptr} {size : UInt64}
    {access : GpuioMemAccess} {region : Ptr} {r : Ret} {pub : GpuioMemoryRegion}
    (hrun : gpuioRegisterMemory s o ctx ptr size access region = .ok r)
    (hout : r.out = some (.region pub)) :
    ∃ r', gpuioUnregisterMemory r.state o' ctx region pub = .ok r' ∧ r'.code = .success ∧
      r'.state.ctx.regions = s.ctx.regions ∧ r'.state.heap = s.heap := by
  obtain ⟨hctx, hregion, hinit, hfresh, hc0, hhandle, -, hctx', rec, hnext, hheap⟩ :=
    gpuioRegisterMemory_filled hrun hout
  have hrec : r.state.heap o.calloc = some (.region rec) := by rw [hheap, Function.update_same]
  have hunlink : unlinkRegion o.calloc o.calloc r.state.heap walkBound .head =
      .ok (rec.next, r.state.heap) :=
    unlinkRegion_of_seg (show Slot.head.load o.calloc r.state.heap = .ok o.calloc from rfl) (.nil _)
      (List.not_mem_nil _) hc0 hrec (by decide)
  unfold gpuioUnregisterMemory guarded
  simp only [hctx', hhandle, hc0, hunlink, hrec]
  simp [hctx, hregion, hinit]
  exact ⟨hnext, by rw [hheap, Function.update_idem, Function.update_eq_self_iff, hfresh]⟩

end Steps

/-! ### Runs -/

theorem registry_legal_step (s : State) (a : Live) (c : Call) (o : Oracle)
    (hinv : RegistryInv s.heap s.ctx.regions a.regs) (hblocks : Owned Block.isMalloc s.heap a.blocks)
    (hlegal : c.RegistryLegal a) :
    ∃ r, c.run s o = .ok r ∧ RegistryInv r.state.heap r.state.ctx.regions (liveAfter a c r).regs ∧
      Owned Block.isMalloc r.state.heap (liveAfter a c r).blocks := by
  cases c with
  | malloc ctx size ptr => exact malloc_step hinv hblocks o ctx size ptr
  | free ctx ptr => exact free_step hinv hblocks o ctx ptr hlegal
  | registerMemory ctx ptr size access region =>
    obtain ⟨r, h, hinv'⟩ := registerMemory_step hinv o ctx ptr size access region
    exact ⟨r, h, hinv', hblocks.keep fun _ _ _ hp _ => registerMemory_keeps_block h hp⟩
  | unregisterMemory ctx region pub =>
    obtain ⟨r, h, hinv'⟩ := unregisterMemory_step hinv o ctx region pub hlegal
    refine ⟨r, h, hinv', hblocks.keep fun _ _ b hp hk => unregisterMemory_keeps_block h hp ?_⟩
    rintro rec rfl
    cases hk
  | _ => exact hlegal.elim

/-- **The region list over every legal run.** Any sequence of allocations by `gpuio_malloc`,
registrations, unregistrations of live handles, and `gpuio_free` of `NULL` or of blocks
`gpuio_malloc` handed out and not yet freed, returns, and leaves `ctx->regions` a
`NULL`-terminated, duplicate-free list of exactly the live registrations' records, newest first,
each still holding what its registration reported. Unregistering the struct a registration just
filled puts the list head and the heap back as they were. -/
theorem regions_lifecycle :
    (∀ (s : State) (a : Live) (calls : List (Call × Oracle)),
      RegistryInv s.heap s.ctx.regions a.regs → Owned Block.isMalloc s.heap a.blocks →
      Legal Call.RegistryLegal liveAfter s a calls →
      ∃ s' rets, exec s calls = .ok (s', rets) ∧
        RegistryInv s'.heap s'.ctx.regions (afterAll liveAfter a (calls.map Prod.fst) rets).regs ∧
        ((afterAll liveAfter a (calls.map Prod.fst) rets).regs.map (·.handle)).Nodup) ∧
    (∀ (s : State) (o o' : Oracle) (ctx ptr : Ptr) (size : UInt64) (access : GpuioMemAccess)
      (region : Ptr) (r : Ret) (pub : GpuioMemoryRegion),
      gpuioRegisterMemory s o ctx ptr size access region = .ok r → r.out = some (.region pub) →
      ∃ r', gpuioUnregisterMemory r.state o' ctx region pub = .ok r' ∧ r'.code = .success ∧
        r'.state.ctx.regions = s.ctx.regions ∧ r'.state.heap = s.heap) := by
  refine ⟨fun s a calls hinv hblocks hlegal => ?_,
    fun s o o' ctx ptr size access region r pub hrun hout => register_unregister_restores hrun hout⟩
  obtain ⟨s', rets, hexec, hinv', -⟩ :=
    exec_inv (fun s a => RegistryInv s.heap s.ctx.regions a.regs ∧ Owned Block.isMalloc s.heap a.blocks)
      (fun s a c o hs hlegal => registry_legal_step s a c o hs.1 hs.2 hlegal) ⟨hinv, hblocks⟩ hlegal
  exact ⟨s', rets, hexec, hinv', hinv'.rep.nodup⟩

/-- A run that allocates a block, registers three regions (two on that block), unregisters the
middle one, is refused the block while a region has it as base, unregisters the other two and
frees the block. -/
theorem regions_lifecycle_initial :
    (∃ s' rets, exec (State.initial none)
        [(.malloc 1 64 8, .grant 4096), (.registerMemory 1 4096 64 .readWrite 8, .grant 16),
          (.registerMemory 1 8192 64 .read 8, .grant 32),
          (.registerMemory 1 4096 64 .write 8, .grant 48),
          (.unregisterMemory 1 8 ⟨8192, 8192, 8192, 64, .read, 0, true, 32⟩, .grant 0), (.free 1 4096, .grant 0),
          (.unregisterMemory 1 8 ⟨4096, 4096, 4096, 64, .readWrite, 0, true, 16⟩, .grant 0),
          (.unregisterMemory 1 8 ⟨4096, 4096, 4096, 64, .write, 0, true, 48⟩, .grant 0), (.free 1 4096, .grant 0)] =
        .ok (s', rets) ∧
      RegistryInv s'.heap s'.ctx.regions (afterAll liveAfter .empty [.malloc 1 64 8, .registerMemory 1 4096 64 .readWrite 8, .registerMemory 1 8192 64 .read 8,
            .registerMemory 1 4096 64 .write 8, .unregisterMemory 1 8 ⟨8192, 8192, 8192, 64, .read, 0, true, 32⟩, .free 1 4096,
            .unregisterMemory 1 8 ⟨4096, 4096, 4096, 64, .readWrite, 0, true, 16⟩, .unregisterMemory 1 8 ⟨4096, 4096, 4096, 64, .write, 0, true, 48⟩, .free 1 4096] rets).regs ∧
      ((afterAll liveAfter .empty [.malloc 1 64 8, .registerMemory 1 4096 64 .readWrite 8, .registerMemory 1 8192 64 .read 8,
            .registerMemory 1 4096 64 .write 8, .unregisterMemory 1 8 ⟨8192, 8192, 8192, 64, .read, 0, true, 32⟩, .free 1 4096,
            .unregisterMemory 1 8 ⟨4096, 4096, 4096, 64, .readWrite, 0, true, 16⟩, .unregisterMemory 1 8 ⟨4096, 4096, 4096, 64, .write, 0, true, 48⟩, .free 1 4096] rets).regs.map (·.handle)).Nodup) ∧
    ∃ r pub, gpuioRegisterMemory (State.initial none) (.grant 16) 1 4096 64 .readWrite 8 = .ok r ∧
      r.out = some (.region pub) ∧
      ∃ r', gpuioUnregisterMemory r.state (.grant 16) 1 8 pub = .ok r' ∧ r'.code = .success ∧
        r'.state.ctx.regions = (State.initial none).ctx.regions ∧
        r'.state.heap = (State.initial none).heap :=
  ⟨regions_lifecycle.1 _ .empty _ ⟨.nil 0, fun _ h => absurd h (List.not_mem_nil _)⟩
      ⟨List.nodup_nil, fun _ h => absurd h (List.not_mem_nil _)⟩
      (.cons trivial rfl <| .cons trivial rfl <| .cons trivial rfl <| .cons trivial rfl <|
        .cons (by simp only [Call.RegistryLegal]; decide) rfl <|
        .cons (by simp only [Call.RegistryLegal]; decide) rfl <|
        .cons (by simp only [Call.RegistryLegal]; decide) rfl <|
        .cons (by simp only [Call.RegistryLegal]; decide) rfl <|
        .cons (by simp only [Call.RegistryLegal]; decide) rfl trivial),
    _, _, rfl, rfl, regions_lifecycle.2 _ (.grant 16) _ _ 4096 64 .readWrite _ _ _ rfl rfl⟩

/-! ### The free scan -/

/-- **`BUSY` exactly while a listed region has the base.** On a well-formed region list,
`gpuio_free` of a non-`NULL` pointer that is the base of a listed region or a block `malloc`
handed out returns. It returns `BUSY` exactly when a listed region has that base, and then
releases nothing; either way `ctx->regions` still represents the same records. -/
theorem gpuioFree_busy_iff {s : State} {l : List Ptr} (hrep : RegionsRep s.heap s.ctx.regions l)
    (o : Oracle) {ctx p : Ptr} (hctx : ctx ≠ 0) (hinit : s.ctx.initialized = true) (hp : p ≠ 0)
    (hown : (∃ n, s.heap p = some (.user .malloc n)) ∨ ∃ q ∈ l, s.heap.baseAt q = some p) :
    ∃ r, gpuioFree s o ctx p = .ok r ∧
      (r.code = .busy ↔ ∃ q ∈ l, s.heap.baseAt q = some p) ∧
      (r.code = .busy → r.state = s ∧ r.trace = [.lock .regions, .unlock .regions]) ∧
      r.state.ctx.regions = s.ctx.regions ∧ RegionsRep r.state.heap s.ctx.regions l := by
  have hany : (l.any fun x => s.heap.baseAt x == some p) = true ↔
      ∃ q ∈ l, s.heap.baseAt q = some p := by
    simp only [List.any_eq_true, beq_iff_eq]
  rw [gpuioFree, guarded_pass (by simpa using hctx) hinit, if_neg hp, scanRegions_eq hrep hrep.length_lt]
  cases hb : l.any fun x => s.heap.baseAt x == some p
  · have hno : ¬∃ q ∈ l, s.heap.baseAt q = some p := fun h => Bool.false_ne_true (hb ▸ hany.2 h)
    obtain ⟨n, hn⟩ := hown.resolve_right hno
    have hkeep : RegionsRep (s.release p).heap s.ctx.regions l :=
      hrep.frame fun y hy => Function.update_noteq (by
        rintro rfl
        obtain ⟨-, r, hr⟩ := ListSeg.live hrep hy
        rw [hn] at hr
        cases hr) _ _
    dsimp only
    split_ifs <;> rw [State.freeBlock_of_freeable hn rfl] <;>
      exact ⟨_, rfl, iff_of_false nofun hno, nofun, rfl, hkeep⟩
  · exact ⟨_, rfl, iff_of_true rfl (hany.1 hb), fun _ => ⟨rfl, rfl⟩, rfl, hrep⟩

/-- A block registered as a region's base, handed to `gpuio_free`: `BUSY`. -/
theorem gpuioFree_busy_iff_registered :
    ∃ r, gpuioRegisterMemory ((State.initial none).alloc 4096 (.user .malloc 64)) (.grant 16) 1 4096 64
        .readWrite 8 = .ok r ∧
      ∃ r', gpuioFree r.state (.grant 0) 1 4096 = .ok r' ∧
        (r'.code = .busy ↔ ∃ q ∈ [(16 : Ptr)], r.state.heap.baseAt q = some 4096) ∧
        (r'.code = .busy → r'.state = r.state ∧ r'.trace = [.lock .regions, .unlock .regions]) ∧
        r'.state.ctx.regions = r.state.ctx.regions ∧ RegionsRep r'.state.heap r.state.ctx.regions [16] :=
  ⟨_, rfl, gpuioFree_busy_iff (.cons _ (by decide) rfl (.nil 0)) (.grant 0) (by decide) rfl
    (by decide) (.inr ⟨16, List.mem_singleton_self _, rfl⟩)⟩

/-- `gpuio_free` of the handle of a live registration: no listed region has that base, so it is
not `BUSY`, and it releases the record the list starts at; the head is unchanged, yet it represents
no list at all. -/
theorem free_handle_breaks_list :
    ∃ r, gpuioRegisterMemory (State.initial none) (.grant 16) 1 4096 64 .readWrite 8 = .ok r ∧
      RegionsRep r.state.heap r.state.ctx.regions [16] ∧
      ∃ r', gpuioFree r.state (.grant 32) 1 16 = .ok r' ∧ r'.code = .success ∧
        r'.state.ctx.regions = r.state.ctx.regions ∧
        ∀ l, ¬ RegionsRep r'.state.heap r'.state.ctx.regions l := by
  refine ⟨_, rfl, .cons _ (by decide) rfl (.nil 0), _, rfl, rfl, rfl, fun l hl => ?_⟩
  obtain ⟨r, hr⟩ := RegionsRep.head_live hl (by decide)
  cases hr

/-- Handing a live record to `gpuio_free` frees it while the list still starts at it: the
registration is live, yet `ctx->regions` represents no list at all. -/
theorem free_live_record_dangles :
    ∃ s' rets, exec (State.initial none)
        [(.registerMemory 1 4096 64 .readWrite 8, .grant 16), (.free 1 16, .grant 32)] =
        .ok (s', rets) ∧
      (afterAll registryAfter [] [.registerMemory 1 4096 64 .readWrite 8, .free 1 16] rets).map
        (·.handle) = [16] ∧
      ∀ l, ¬ RegionsRep s'.heap s'.ctx.regions l := by
  obtain ⟨s', rets, hexec, hafter, hhead, hfreed⟩ : ∃ s' rets, exec (State.initial none)
      [(.registerMemory 1 4096 64 .readWrite 8, .grant 16), (.free 1 16, .grant 32)] =
        .ok (s', rets) ∧
      (afterAll registryAfter [] [.registerMemory 1 4096 64 .readWrite 8, .free 1 16] rets).map
        (·.handle) = [16] ∧ s'.ctx.regions = 16 ∧ s'.heap 16 = none :=
    ⟨_, _, rfl, rfl, rfl, rfl⟩
  refine ⟨s', rets, hexec, hafter, fun l hl => ?_⟩
  obtain ⟨r, hr⟩ := RegionsRep.head_live (hhead ▸ hl) (by decide)
  rw [hfreed] at hr
  cases hr

/-- The second unregistration of one struct: its handle is no longer on the list, and the call
goes on to write the freed record. -/
theorem unregister_twice_faults :
    exec (State.initial none)
      [(.registerMemory 1 4096 64 .readWrite 8, .grant 16),
        (.unregisterMemory 1 8
          { baseAddr := 4096, gpuAddr := 4096, busAddr := 4096, length := 64, access := .readWrite,
            gpuId := 0, registered := true, handle := 16 }, .grant 16),
        (.unregisterMemory 1 8
          { baseAddr := 4096, gpuAddr := 4096, busAddr := 4096, length := 64, access := .readWrite,
            gpuId := 0, registered := false, handle := 16 }, .grant 16)] =
      .error (.invalidAccess 16) := rfl

end Gpuio
