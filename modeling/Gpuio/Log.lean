import Gpuio.Basic

/-!
# `log.c`: error strings and statistics

`gpuio_error_string` looks a code up in a table indexed by its negation. `stats_update` is what
request completion calls; `gpuio_get_stats` copies the counters out and `gpuio_reset_stats` zeroes
them, each under `stats_lock`. The counters are `uint64_t` and wrap.
-/

namespace Gpuio

/-! ### Error strings -/

/-- `error_strings`: `"Success"` at `0` and each error's text at the negation of its code, by the
designated initializers `[-GPUIO_ERROR_X]`. The codes are in `gpuio.h`, which is not in src; the
texts are placed at `1` to `14` in the order the initializers list them. -/
def errorStrings : List String :=
  ["Success", "General error", "Out of memory", "Invalid argument", "Not found", "Timeout",
    "I/O error", "Network error", "Unsupported operation", "Permission denied", "Resource busy",
    "Operation cancelled", "Device lost", "Already initialized", "Not initialized"]

/-- `gpuio_error_string`. -/
def gpuioErrorString (error : Int) : String :=
  let error := if error > 0 then -error else error
  if error ≥ 0 ∧ error < errorStrings.length then errorStrings.getD error.toNat ""
  else "Unknown error"

/-! ### Statistics -/

/-- The counters after one request outcome. -/
def GpuioStats.update (st : GpuioStats) (type : GpuioRequestType) (bytes : UInt64)
    (status : GpuioError) : GpuioStats :=
  let st := { st with requestsSubmitted := st.requestsSubmitted + 1 }
  if status = .success then
    { st with
      requestsCompleted := st.requestsCompleted + 1
      bytesRead := if type = .read ∨ type = .copy then st.bytesRead + bytes else st.bytesRead
      bytesWritten :=
        if type = .write ∨ type = .copy then st.bytesWritten + bytes else st.bytesWritten }
  else { st with requestsFailed := st.requestsFailed + 1 }

/-- `stats_update`. It returns nothing; the model reports `GPUIO_SUCCESS`. -/
def statsUpdate (s : State) (type : GpuioRequestType) (bytes : UInt64) (status : GpuioError) :
    Ret :=
  ⟨.success, { s with ctx := { s.ctx with stats := s.ctx.stats.update type bytes status } },
    [.lock .stats, .unlock .stats], none⟩

/-- `gpuio_get_stats`. -/
def gpuioGetStats (s : State) (ctx stats : Ptr) : Except Fault Ret :=
  guarded s [ctx, stats] <|
    .ok ⟨.success, s, [.lock .stats, .unlock .stats], some (.stats s.ctx.stats)⟩

/-- `gpuio_reset_stats`. -/
def gpuioResetStats (s : State) (ctx : Ptr) : Except Fault Ret :=
  guarded s [ctx] <|
    .ok ⟨.success, { s with ctx := { s.ctx with stats := .zero } },
      [.lock .stats, .unlock .stats], none⟩

end Gpuio
