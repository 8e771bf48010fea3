import Gpuio.Api
import Mathlib.Data.UInt

/-!
# The statistics over a run

After `gpuio_reset_stats`, the counters are the sum, over the calls made since, of what each call
adds: a `stats_update` is submitted, and completed or failed by its status, with its bytes read or
written by its type when it succeeded; a copy that returned `GPUIO_SUCCESS` adds its size to
`bytes_written` once, whichever path served it. Every addition is of `uint64_t` and wraps, and
each call's share and return code depend only on its own arguments, so the snapshot does not
depend on the order of the calls.
-/

namespace Gpuio

/-- Fieldwise sum of counters. -/
def GpuioStats.add (a b : GpuioStats) : GpuioStats :=
  ⟨a.requestsSubmitted + b.requestsSubmitted, a.requestsCompleted + b.requestsCompleted,
    a.requestsFailed + b.requestsFailed, a.bytesRead + b.bytesRead, a.bytesWritten + b.bytesWritten⟩

/-- What one call adds to the counters, given the code it returned: a `stats_update` one request,
completed or failed, with its bytes when it succeeded; a successful copy its size to
`bytes_written`; any other call nothing. -/
def Call.counted : Call → GpuioError → GpuioStats
  | .statsUpdate type bytes status, _ =>
    { requestsSubmitted := 1
      requestsCompleted := if status = .success then 1 else 0
      requestsFailed := if status = .success then 0 else 1
      bytesRead := if status = .success ∧ (type = .read ∨ type = .copy) then bytes else 0
      bytesWritten := if status = .success ∧ (type = .write ∨ type = .copy) then bytes else 0 }
  | .memcpy _ _ _ size _, .success => { GpuioStats.zero with bytesWritten := size }
  | .memcpyAsync _ _ _ size _, .success => { GpuioStats.zero with bytesWritten := size }
  | _, _ => .zero

/-- The counters that the calls in `done`, with the codes they returned, add up to from zero: each
counter is the sum over the calls of what `Call.counted` gives it. -/
def expectedStats (done : List (Call × GpuioError)) : GpuioStats :=
  done.foldr (fun d acc => (d.1.counted d.2).add acc) .zero

/-- The calls that only touch the counters: `stats_update`, the copies and `gpuio_get_stats`. -/
def Call.isStats : Call → Bool
  | .statsUpdate .. | .memcpy .. | .memcpyAsync .. | .getStats .. => true
  | _ => false

/-- The code such a call returns on an initialized context: only a `NULL` argument fails. -/
def Call.statsCode : Call → GpuioError
  | .memcpy ctx dst src .. | .memcpyAsync ctx dst src .. =>
    if ctx = 0 ∨ dst = 0 ∨ src = 0 then .invalidArg else .success
  | .getStats ctx stats => if ctx = 0 ∨ stats = 0 then .invalidArg else .success
  | _ => .success

/-- The state with the counters replaced by `st`. -/
def State.withStats (s : State) (st : GpuioStats) : State :=
  { s with ctx := { s.ctx with stats := st } }

/-! ### The counters as a sum -/

section Sum

variable {a b c : GpuioStats}

theorem GpuioStats.zero_add_eq : GpuioStats.zero.add a = a := by
  simp only [GpuioStats.zero, GpuioStats.add, zero_add]

theorem GpuioStats.add_zero_eq : a.add GpuioStats.zero = a := by
  simp only [GpuioStats.zero, GpuioStats.add, add_zero]

theorem GpuioStats.add_assoc_eq : (a.add b).add c = a.add (b.add c) := by
  simp only [GpuioStats.add, add_assoc]

theorem GpuioStats.add_left_comm_eq : a.add (b.add c) = b.add (a.add c) := by
  simp only [GpuioStats.add, add_left_comm]

theorem expectedStats_cons (d : Call × GpuioError) (done : List (Call × GpuioError)) :
    expectedStats (d :: done) = (d.1.counted d.2).add (expectedStats done) := rfl

theorem expectedStats_perm {done done' : List (Call × GpuioError)} (h : done.Perm done') :
    expectedStats done = expectedStats done' := by
  unfold expectedStats
  refine h.foldr_eq' ?_ _
  intro _ _ _ _ _
  exact GpuioStats.add_left_comm_eq

theorem GpuioStats.submitted_add
    (ha : a.requestsSubmitted = a.requestsCompleted + a.requestsFailed)
    (hb : b.requestsSubmitted = b.requestsCompleted + b.requestsFailed) :
    (a.add b).requestsSubmitted = (a.add b).requestsCompleted + (a.add b).requestsFailed := by
  simp only [GpuioStats.add, ha, hb]
  ac_rfl

/-- Each call's share is submitted exactly when it is completed or failed. -/
theorem Call.counted_submitted (c : Call) (code : GpuioError) :
    (c.counted code).requestsSubmitted =
      (c.counted code).requestsCompleted + (c.counted code).requestsFailed := by
  unfold Call.counted
  split <;> try split_ifs
  all_goals rfl

/-- The counters of the expected snapshot: submitted is completed plus failed. -/
theorem expectedStats_submitted (done : List (Call × GpuioError)) :
    (expectedStats done).requestsSubmitted =
      (expectedStats done).requestsCompleted + (expectedStats done).requestsFailed := by
  induction done with
  | nil => rfl
  | cons d done ih => exact GpuioStats.submitted_add (Call.counted_submitted d.1 d.2) ih

end Sum

/-! ### Runs -/

section Runs

variable {s : State}

theorem GpuioStats.update_eq_add (st : GpuioStats) (type : GpuioRequestType) (bytes : UInt64)
    (status : GpuioError) :
    st.update type bytes status = st.add ((Call.statsUpdate type bytes status).counted .success) := by
  unfold GpuioStats.update Call.counted GpuioStats.add
  cases type <;> by_cases hs : status = .success <;> simp [hs]

theorem Call.counted_memcpyAsync (ctx dst src : Ptr) (size : UInt64) (stream : Ptr)
    (code : GpuioError) :
    (Call.memcpyAsync ctx dst src size stream).counted code =
      (Call.memcpy ctx dst src size stream).counted code := by
  cases code <;> rfl

theorem State.withStats_self : s.withStats s.ctx.stats = s := rfl

theorem memcpy_run (hinit : s.ctx.initialized = true) (o : Oracle) (ctx dst src : Ptr)
    (size : UInt64) (stream : Ptr) :
    ∃ r, gpuioMemcpy s o ctx dst src size stream = .ok r ∧
      r.code = (Call.memcpy ctx dst src size stream).statsCode ∧
      r.state = s.withStats (s.ctx.stats.add
        ((Call.memcpy ctx dst src size stream).counted (Call.memcpy ctx dst src size stream).statsCode)) := by
  unfold gpuioMemcpy guarded Call.statsCode
  by_cases hctx : ctx = 0
  · simp [hctx, Call.counted, GpuioStats.add_zero_eq, State.withStats_self, Ret.plain]
  by_cases hargs : dst = 0 ∨ src = 0
  · simp [hctx, hargs, hinit, Call.counted, GpuioStats.add_zero_eq, State.withStats_self, Ret.plain]
  · simp [hctx, hargs, hinit, Call.counted, GpuioStats.add, GpuioStats.zero, State.withStats,
      State.addWritten]

/-- A counting call on an initialized context returns its `statsCode`, adds what `Call.counted`
gives it to the counters, and changes nothing else. -/
theorem Call.run_stats (hinit : s.ctx.initialized = true) {c : Call} (hc : c.isStats = true)
    (o : Oracle) :
    ∃ r, c.run s o = .ok r ∧ r.code = c.statsCode ∧
      r.state = s.withStats (s.ctx.stats.add (c.counted c.statsCode)) := by
  cases c with
  | statsUpdate type bytes status =>
    exact ⟨_, rfl, rfl, congrArg s.withStats (GpuioStats.update_eq_add s.ctx.stats type bytes status)⟩
  | memcpy ctx dst src size stream => exact memcpy_run hinit o ctx dst src size stream
  | memcpyAsync ctx dst src size stream =>
    obtain ⟨r, hrun, hcode, hstate⟩ := memcpy_run hinit o ctx dst src size stream
    refine ⟨r, hrun, hcode, ?_⟩
    rw [hstate, Call.counted_memcpyAsync]
    rfl
  | getStats ctx stats =>
    unfold Call.run gpuioGetStats guarded Call.statsCode
    by_cases hargs : ctx = 0 ∨ stats = 0
    · rcases hargs with h | h <;>
        simp [h, Call.counted, GpuioStats.add_zero_eq, State.withStats_self, Ret.plain]
    · simp only [not_or] at hargs
      simp [hargs, hinit, Call.counted, GpuioStats.add_zero_eq, State.withStats_self]
  | _ => cases hc

theorem stats_run (hinit : s.ctx.initialized = true) (calls : List (Call × Oracle))
    (hcalls : ∀ c ∈ calls, c.1.isStats = true) :
    ∃ s' rets, exec s calls = .ok (s', rets) ∧ rets.map Ret.code = calls.map (·.1.statsCode) ∧
      s' = s.withStats (s.ctx.stats.add (expectedStats (calls.map fun c => (c.1, c.1.statsCode)))) := by
  induction calls generalizing s with
  | nil => exact ⟨s, [], rfl, rfl, by rw [List.map_nil, expectedStats, List.foldr_nil,
      GpuioStats.add_zero_eq, State.withStats_self]⟩
  | cons co rest ih =>
    obtain ⟨c, o⟩ := co
    simp only [List.mem_cons, forall_eq_or_imp] at hcalls
    obtain ⟨r, hrun, hcode, hstate⟩ := Call.run_stats hinit hcalls.1 o
    have hinit' : r.state.ctx.initialized = true := by rw [hstate]; exact hinit
    obtain ⟨s', rets, hexec, hcodes, hs'⟩ := ih hinit' hcalls.2
    refine ⟨s', r :: rets, by simp [exec, hrun, hexec], by simp [hcode, hcodes], ?_⟩
    rw [hs', hstate]
    simp only [State.withStats, List.map_cons, expectedStats_cons, GpuioStats.add_assoc_eq]

end Runs

/-- **The statistics snapshot.** After `gpuio_reset_stats` on an initialized context, every run of
`stats_update`, `gpuio_memcpy`, `gpuio_memcpy_async` and `gpuio_get_stats` calls returns, whatever
the vendor's `memcpy` does, and `gpuio_get_stats` then reports the expected counters of the calls
and the codes they returned. Submitted is completed plus failed, and the calls in any other order
leave the same counters. -/
theorem stats_snapshot {s : State} {ctx p : Ptr} (hinit : s.ctx.initialized = true)
    (hctx : ctx ≠ 0) (hp : p ≠ 0) (o : Oracle) (calls : List (Call × Oracle))
    (hcalls : ∀ c ∈ calls, c.1.isStats = true) :
    ∃ s' rets, exec s ((.resetStats ctx, o) :: calls) = .ok (s', rets) ∧
      gpuioGetStats s' ctx p = .ok ⟨.success, s', [.lock .stats, .unlock .stats],
        some (.stats (expectedStats ((calls.map Prod.fst).zip (rets.tail.map Ret.code))))⟩ ∧
      s'.ctx.stats.requestsSubmitted =
        s'.ctx.stats.requestsCompleted + s'.ctx.stats.requestsFailed ∧
      ∀ calls', calls'.Perm calls →
        ∃ s'' rets', exec s ((.resetStats ctx, o) :: calls') = .ok (s'', rets') ∧
          s''.ctx.stats = s'.ctx.stats := by
  have hreset : gpuioResetStats s ctx =
      .ok ⟨.success, s.withStats .zero, [.lock .stats, .unlock .stats], none⟩ := by
    simp [gpuioResetStats, guarded, hctx, hinit, State.withStats]
  have hinit0 : (s.withStats .zero).ctx.initialized = true := hinit
  -- every run from the reset state ends with the expected counters of its calls
  have hrun (calls : List (Call × Oracle)) (hcalls : ∀ c ∈ calls, c.1.isStats = true) :
      ∃ s' rets, exec s ((.resetStats ctx, o) :: calls) = .ok (s', rets) ∧
        rets.tail.map Ret.code = calls.map (·.1.statsCode) ∧
        s' = s.withStats (expectedStats (calls.map fun c => (c.1, c.1.statsCode))) := by
    obtain ⟨s', rets, hexec, hcodes, hs'⟩ := stats_run hinit0 calls hcalls
    refine ⟨s', ⟨.success, s.withStats .zero, [.lock .stats, .unlock .stats], none⟩ :: rets,
      by simp [exec, Call.run, hreset, hexec], hcodes, ?_⟩
    rw [hs']
    simp [State.withStats, GpuioStats.zero_add_eq]
  obtain ⟨s', rets, hexec, hcodes, hs'⟩ := hrun calls hcalls
  have hdone : (calls.map Prod.fst).zip (rets.tail.map Ret.code) =
      calls.map fun c => (c.1, c.1.statsCode) := by
    rw [hcodes, List.zip_map']
  refine ⟨s', rets, hexec, ?_, ?_, fun calls' hperm => ?_⟩
  · rw [hdone, hs']
    simp [gpuioGetStats, guarded, hctx, hp, hinit, State.withStats]
  · rw [hs']
    exact expectedStats_submitted _
  · obtain ⟨s'', rets', hexec', -, hs''⟩ :=
      hrun calls' fun c hc => hcalls c (hperm.subset hc)
    refine ⟨s'', rets', hexec', ?_⟩
    rw [hs'', hs', expectedStats_perm (hperm.map _)]

/-- Two blocks from `gpuio_malloc`, then a completed read and a copy from the first block into the
second through the fallback path. -/
theorem stats_snapshot_read_and_copy :
    ∃ s rets₀, exec (State.initial none)
        [(.malloc 1 4096 8, .grant 16), (.malloc 1 4096 8, .grant 8192)] = .ok (s, rets₀) ∧
      ∃ s' rets, exec s
          [(.resetStats 1, .grant 0), (.statsUpdate .read 4096 .success, .grant 0),
            (.memcpy 1 8192 16 4096 0, .grant 0)] = .ok (s', rets) ∧
        gpuioGetStats s' 1 8 = .ok ⟨.success, s', [.lock .stats, .unlock .stats],
          some (.stats (expectedStats
            ([Call.statsUpdate .read 4096 .success, .memcpy 1 8192 16 4096 0].zip
              (rets.tail.map Ret.code))))⟩ ∧
        s'.ctx.stats.requestsSubmitted =
          s'.ctx.stats.requestsCompleted + s'.ctx.stats.requestsFailed ∧
        ∀ calls', calls'.Perm [(.statsUpdate .read 4096 .success, .grant 0),
            (.memcpy 1 8192 16 4096 0, .grant 0)] →
          ∃ s'' rets', exec s ((.resetStats 1, .grant 0) :: calls') = .ok (s'', rets') ∧
            s''.ctx.stats = s'.ctx.stats :=
  ⟨_, _, rfl, stats_snapshot rfl (by decide) (by decide) (.grant 0) _ (by decide)⟩

end Gpuio
