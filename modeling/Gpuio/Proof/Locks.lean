import Gpuio.Proof.Frame

/-!
# Lock discipline

A trace keeps the discipline when it never takes a registry lock while it holds one, releases
every lock it takes, and calls no vendor hook while a lock is held. `lockWalk` follows the lock a
trace holds and gives up at the first event that breaks the discipline. Every path of every public
operation keeps it, except the synchronize-all loop of `gpuio_stream_synchronize`, which calls the
vendor's `stream_synchronize` on each stream while it holds `streams_lock`.
-/

namespace Gpuio

/-- The lock held after the events, from `held`; `none` once an event takes a lock while one is
held, releases a lock that is not held, or calls a vendor hook under a lock. -/
def lockWalk : Option Lock → List Effect → Option (Option Lock)
  | held, [] => some held
  | none, .lock l :: tr => lockWalk (some l) tr
  | some _, .lock _ :: _ => none
  | some l, .unlock l' :: tr => if l = l' then lockWalk none tr else none
  | none, .unlock _ :: _ => none
  | some _, .hook .. :: _ => none
  | none, .hook .. :: tr => lockWalk none tr
  | held, .free _ :: tr => lockWalk held tr

/-- The discipline of a whole call: it starts and ends holding no lock. -/
def LockDisciplined (tr : List Effect) : Prop :=
  lockWalk none tr = some none

instance : DecidablePred LockDisciplined := fun tr =>
  inferInstanceAs (Decidable (lockWalk none tr = some none))

/-! ### Traces built from disciplined pieces -/

section Pieces

variable {s : State} {o : Oracle}

theorem lockWalk_append (held : Option Lock) (a b : List Effect) :
    lockWalk held (a ++ b) = (lockWalk held a).bind fun held' => lockWalk held' b := by
  induction held, a using lockWalk.induct <;> simp_all [lockWalk]

@[simp] theorem lockWalk_hookCall (h : Hook) (arg : Ptr) (tr : List Effect) :
    lockWalk none (s.hookCall o h arg ++ tr) = lockWalk none tr := by
  unfold State.hookCall
  split <;> rfl

@[simp] theorem lockWalk_hookCall_self (h : Hook) (arg : Ptr) :
    lockWalk none (s.hookCall o h arg) = some none := by
  simpa using lockWalk_hookCall (s := s) (o := o) h arg []

@[simp] theorem lockWalk_lock_unlock (l : Lock) (tr : List Effect) :
    lockWalk none (.lock l :: .unlock l :: tr) = lockWalk none tr := by
  simp [lockWalk]

end Pieces

/-! ### Every call -/

section Calls

variable {s : State} {o : Oracle} {r : Ret}

theorem forwardHook_disciplined {h : Hook} {arg : Ptr} {out : Option Out} :
    LockDisciplined (forwardHook s o h arg out).trace := by
  simp [LockDisciplined, forwardHook]

/-- A call whose body cannot fail: the guards' answer, or a disciplined result of the body. -/
theorem LockDisciplined.of_guarded_ok {args : List Ptr} {x : Ret} (hx : LockDisciplined x.trace)
    (h : guarded s args (.ok x) = .ok r) : LockDisciplined r.trace := by
  rcases guarded_ok_cases h with ⟨_, rfl⟩ | rfl
  exacts [rfl, hx]

theorem gpuioMalloc_disciplined {ctx ptr : Ptr} {size : UInt64}
    (h : gpuioMalloc s o ctx size ptr = .ok r) : LockDisciplined r.trace := by
  rcases gpuioMalloc_cases h with ⟨_, rfl⟩ | rfl | ⟨-, rfl⟩ <;> rfl

theorem gpuioMallocPinned_disciplined {ctx ptr : Ptr} {size : UInt64}
    (h : gpuioMallocPinned s o ctx size ptr = .ok r) : LockDisciplined r.trace := by
  rcases gpuioMallocPinned_cases h with ⟨_, rfl⟩ | ⟨-, -, rfl⟩ | ⟨-, ⟨-, rfl⟩ | rfl⟩
  · rfl
  · rfl
  all_goals exact lockWalk_hookCall_self _ _

theorem gpuioMallocDevice_disciplined {ctx ptr : Ptr} {size : UInt64}
    (h : gpuioMallocDevice s o ctx size ptr = .ok r) : LockDisciplined r.trace := by
  rcases gpuioMallocDevice_cases h with ⟨_, rfl⟩ | ⟨-, -, rfl⟩ | ⟨-, r', hr', rfl⟩
  · rfl
  · rfl
  · exact (lockWalk_hookCall _ _ _).trans (gpuioMallocPinned_disciplined hr')

theorem gpuioFree_disciplined {ctx ptr : Ptr} (h : gpuioFree s o ctx ptr = .ok r) :
    LockDisciplined r.trace := by
  rcases gpuioFree_cases h with ⟨_, rfl⟩ | ⟨-, rfl⟩ | ⟨-, -, -, -, ⟨-, -, rfl⟩ | ⟨-, -, rfl⟩⟩
  · rfl
  all_goals simp [LockDisciplined, lockWalk]

theorem gpuioRegisterMemory_disciplined {ctx ptr region : Ptr} {size : UInt64}
    {access : GpuioMemAccess} (h : gpuioRegisterMemory s o ctx ptr size access region = .ok r) :
    LockDisciplined r.trace := by
  rcases gpuioRegisterMemory_cases h with
    ⟨-, -, -, htr | ⟨-, htr⟩⟩ | ⟨-, -, -, -, -, _, _, _, -, -, ⟨-, htr, -⟩ | ⟨-, htr, -⟩, rfl⟩ <;>
    simp [LockDisciplined, lockWalk, State.pushRegion, htr]

theorem gpuioUnregisterMemory_disciplined {ctx region : Ptr} {pub : GpuioMemoryRegion}
    (h : gpuioUnregisterMemory s o ctx region pub = .ok r) : LockDisciplined r.trace := by
  rcases gpuioUnregisterMemory_cases h with ⟨_, -, rfl⟩ | ⟨_, _, _, -, -, rfl⟩
  · rfl
  · simp [LockDisciplined, lockWalk]

theorem gpuioStreamCreate_disciplined {ctx stream : Ptr} {priority : Int}
    (h : gpuioStreamCreate s o ctx stream priority = .ok r) : LockDisciplined r.trace := by
  rcases gpuioStreamCreate_cases h with
    ⟨-, -, -, htr | htr⟩ | ⟨-, -, -, htr⟩ | ⟨-, -, -, -, -, -, htr⟩ <;>
    simp [LockDisciplined, lockWalk, htr]

theorem gpuioMemcpy_disciplined {ctx dst src : Ptr} {size : UInt64} (stream : Ptr)
    (h : gpuioMemcpy s o ctx dst src size stream = .ok r) : LockDisciplined r.trace := by
  rcases gpuioMemcpy_cases h with ⟨_, rfl⟩ | rfl
  · rfl
  · simp [LockDisciplined, lockWalk]

theorem gpuioStreamDestroy_disciplined {ctx stream : Ptr}
    (h : gpuioStreamDestroy s o ctx stream = .ok r) : LockDisciplined r.trace := by
  rcases gpuioStreamDestroy_cases h with ⟨_, -, rfl⟩ | ⟨_, -, rfl⟩
  · rfl
  · simp [LockDisciplined, lockWalk]

theorem gpuioEventCreate_disciplined {ctx event : Ptr}
    (h : gpuioEventCreate s o ctx event = .ok r) : LockDisciplined r.trace := by
  rcases gpuioEventCreate_cases h with ⟨_, rfl⟩ | ⟨-, rfl⟩ | ⟨-, -, -, rfl⟩
  · rfl
  · simp [LockDisciplined, lockWalk]
  · exact lockWalk_hookCall_self _ _

theorem gpuioEventDestroy_disciplined {ctx event : Ptr}
    (h : gpuioEventDestroy s o ctx event = .ok r) : LockDisciplined r.trace := by
  rcases gpuioEventDestroy_cases h with ⟨_, -, rfl⟩ | ⟨_, -, -, rfl⟩
  · rfl
  · simp [LockDisciplined, lockWalk]

theorem syncAll_eq_nil_of_no_hook (hnone : s.hasHook .streamSynchronize = false) {is : List Nat}
    {tr : List Effect} (h : syncAll s o is = .ok tr) : tr = [] := by
  induction is generalizing tr with
  | nil => cases h; rfl
  | cons i is ih =>
    obtain ⟨t, rest, hi, hrest, rfl⟩ := syncAll_cons_eq_ok h
    rcases syncSlot_eq_ok hi with rfl | ⟨p, rfl⟩
    · exact ih hrest
    · simp [State.hookCall, hnone, ih hrest]

/-- Every path of every call keeps the lock discipline, except the synchronize-all loop of
`gpuio_stream_synchronize` under a vendor table with `stream_synchronize`. -/
theorem Call.run_lock_discipline {c : Call} (h : c.run s o = .ok r) :
    LockDisciplined r.trace ∨
      (∃ ctx, c = .streamSynchronize ctx 0) ∧ s.hasHook .streamSynchronize = true := by
  cases c with
  | malloc => exact .inl (gpuioMalloc_disciplined h)
  | mallocPinned => exact .inl (gpuioMallocPinned_disciplined h)
  | mallocDevice => exact .inl (gpuioMallocDevice_disciplined h)
  | mallocUnified =>
    rcases gpuioMallocUnified_cases h with ⟨_, rfl⟩ | ⟨-, h⟩
    exacts [.inl rfl, .inl (gpuioMallocDevice_disciplined h)]
  | free => exact .inl (gpuioFree_disciplined h)
  | registerMemory => exact .inl (gpuioRegisterMemory_disciplined h)
  | unregisterMemory => exact .inl (gpuioUnregisterMemory_disciplined h)
  | memcpy _ _ _ _ stream | memcpyAsync _ _ _ _ stream =>
    exact .inl (gpuioMemcpy_disciplined stream h)
  | streamCreate => exact .inl (gpuioStreamCreate_disciplined h)
  | streamDestroy => exact .inl (gpuioStreamDestroy_disciplined h)
  | streamSynchronize ctx stream =>
    rcases gpuioStreamSynchronize_cases h with ⟨_, rfl⟩ | ⟨rfl, tr, hall, rfl⟩ | ⟨-, rfl⟩
    · exact .inl rfl
    · cases hsync : s.hasHook .streamSynchronize
      · rw [syncAll_eq_nil_of_no_hook hsync hall]
        exact .inl rfl
      · exact .inr ⟨⟨ctx, rfl⟩, rfl⟩
    · exact .inl forwardHook_disciplined
  | streamQuery | eventRecord | eventSynchronize | eventElapsedTime =>
    exact .inl (.of_guarded_ok forwardHook_disciplined h)
  | eventCreate => exact .inl (gpuioEventCreate_disciplined h)
  | eventDestroy => exact .inl (gpuioEventDestroy_disciplined h)
  | statsUpdate => cases h; exact .inl rfl
  | getStats | resetStats =>
    refine .inl (.of_guarded_ok ?_ h)
    rfl

theorem run_lock_discipline_register :
    ∃ r, Call.run (State.initial (some nvidiaOps)) (.grant 16)
        (.registerMemory 1 4096 64 .readWrite 8) = .ok r ∧
      (LockDisciplined r.trace ∨
        (∃ ctx, Call.registerMemory 1 4096 64 .readWrite 8 = .streamSynchronize ctx 0) ∧
          (State.initial (some nvidiaOps)).hasHook .streamSynchronize = true) :=
  ⟨_, rfl, @Call.run_lock_discipline (State.initial (some nvidiaOps)) (.grant 16) _
    (.registerMemory 1 4096 64 .readWrite 8) rfl⟩

end Calls

/-- With `nvidia_ops`, synchronizing the `NULL` stream after one create calls the vendor's
`stream_synchronize` while `streams_lock` is held. -/
theorem synchronize_all_hook_under_lock :
    ∃ s' rets, exec (State.initial (some nvidiaOps))
        [(.streamCreate 1 8 0, .grant 32), (.streamSynchronize 1 0, .grant 0)] = .ok (s', rets) ∧
      rets.map Ret.trace =
        [[.hook .streamCreate 32 0, .lock .streams, .unlock .streams],
          [.lock .streams, .hook .streamSynchronize 32 0, .unlock .streams]] ∧
      ¬ LockDisciplined [.lock .streams, .hook .streamSynchronize 32 0, .unlock .streams] :=
  ⟨_, _, rfl, rfl, by decide⟩

end Gpuio
