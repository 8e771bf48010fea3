import Gpuio.Basic
import Gpuio.RegionList
import Gpuio.Memory
import Gpuio.Stream
import Gpuio.Log
import Gpuio.Api
import Gpuio.Proof.Cases
import Gpuio.Proof.Live
import Gpuio.Proof.Registry
import Gpuio.Proof.Frame
import Gpuio.Proof.Streams
import Gpuio.Proof.Stats
import Gpuio.Proof.Locks
import Gpuio.Proof.Free
import Gpuio.Proof.System
import Gpuio.Proof.Records
