import OpenPair.Codec
import OpenPair.NodeInfo.Detect

/-! What a node tells of its hardware (`telemetry.rs`, `pair-nodeinfo`, `nodeinfo_server.rs`).

A GPU's vendor and its ids are not written: whoever reads the answer sees the same
of a card whichever tool has reported it.
-/

set_option autoImplicit false

namespace OpenPair

variable {F : Type}

/-! ## Records -/

structure Cpu where
  name : String
  cores : Option UInt32
  totalThreads : Option UInt32
  utilizationPercent : Option UInt32
  deriving DecidableEq

structure MemoryInfo where
  totalBytes : UInt64
  usedBytes : Option UInt64
  deriving DecidableEq

-- The answer of `/v1/node-info`.
structure NodeInfoReport extends NodeInfo where
  cpu : Option Cpu
  memory : Option MemoryInfo
  telemetryValid : Bool
  msSince : UInt64
  hostUuid : Option String
  nodeUuid : Option String
  clusterUuid : Option String

namespace Gpu

def onWire (g : Gpu) : Gpu := { g with uuid := "", vendor := .other, vendorId := none }

def fieldNames : List String := ["name", "vram_bytes", "vram_used_bytes", "utilization_percent"]

def fields (g : Gpu) : List (Option (Json.Tree F)) :=
  [Codec.string.required g.name, Codec.u64.optional g.vramBytes,
    Codec.u64.optional g.vramUsedBytes, Codec.u32.optional g.utilizationPercent]

def ofFields : List (Option (Json.Tree F)) → Option Gpu
  | [name, vramBytes, vramUsedBytes, utilizationPercent] => do
    return { name := ← Codec.string.readRequired name
             vramBytes := ← readOption Codec.u64.ofTree vramBytes
             vramUsedBytes := ← readOption Codec.u64.ofTree vramUsedBytes
             utilizationPercent := ← readOption Codec.u32.ofTree utilizationPercent
             uuid := ""
             vendor := .other
             vendorId := none }
  | _ => none

theorem ofFields_fields (g : Gpu) : ofFields (g.fields (F := F)) = some g.onWire := by
  have text (s : String) : (Codec.string (F := F)).readBack s = s := rfl
  have size (n : Option UInt64) : n.map (Codec.u64 (F := F)).readBack = n := Option.map_id'
  have percent (n : Option UInt32) : n.map (Codec.u32 (F := F)).readBack = n := Option.map_id'
  simp [ofFields, fields, text, size, percent, onWire]

theorem integral_fields (g : Gpu) :
    ∀ field ∈ g.fields (F := F), Codec.Integral field := by
  simp [fields]

def codec : Codec F Gpu :=
  .struct fieldNames fields ofFields onWire (by decide) (fun _ => rfl) ofFields_fields integral_fields

end Gpu

namespace Cpu

def fieldNames : List String := ["name", "cores", "total_threads", "utilization_percent"]

def fields (cpu : Cpu) : List (Option (Json.Tree F)) :=
  [Codec.string.required cpu.name, Codec.u32.optional cpu.cores,
    Codec.u32.optional cpu.totalThreads, Codec.u32.optional cpu.utilizationPercent]

def ofFields : List (Option (Json.Tree F)) → Option Cpu
  | [name, cores, totalThreads, utilizationPercent] => do
    return { name := ← Codec.string.readRequired name
             cores := ← readOption Codec.u32.ofTree cores
             totalThreads := ← readOption Codec.u32.ofTree totalThreads
             utilizationPercent := ← readOption Codec.u32.ofTree utilizationPercent }
  | _ => none

theorem ofFields_fields (cpu : Cpu) : ofFields (cpu.fields (F := F)) = some cpu := by
  have text (s : String) : (Codec.string (F := F)).readBack s = s := rfl
  have count (n : Option UInt32) : n.map (Codec.u32 (F := F)).readBack = n := Option.map_id'
  simp [ofFields, fields, text, count]

theorem integral_fields (cpu : Cpu) :
    ∀ field ∈ cpu.fields (F := F), Codec.Integral field := by
  simp [fields]

def codec : Codec F Cpu :=
  .struct fieldNames fields ofFields id (by decide) (fun _ => rfl) ofFields_fields integral_fields

end Cpu

namespace MemoryInfo

def fieldNames : List String := ["total_bytes", "used_bytes"]

def fields (memory : MemoryInfo) : List (Option (Json.Tree F)) :=
  [Codec.u64.required memory.totalBytes, Codec.u64.optional memory.usedBytes]

def ofFields : List (Option (Json.Tree F)) → Option MemoryInfo
  | [totalBytes, usedBytes] => do
    return { totalBytes := ← Codec.u64.readRequired totalBytes
             usedBytes := ← readOption Codec.u64.ofTree usedBytes }
  | _ => none

theorem ofFields_fields (memory : MemoryInfo) : ofFields (memory.fields (F := F)) = some memory := by
  have total (n : UInt64) : (Codec.u64 (F := F)).readBack n = n := rfl
  have used (n : Option UInt64) : n.map (Codec.u64 (F := F)).readBack = n := Option.map_id'
  simp [ofFields, fields, total, used]

theorem integral_fields (memory : MemoryInfo) :
    ∀ field ∈ memory.fields (F := F), Codec.Integral field := by
  simp [fields]

def codec : Codec F MemoryInfo :=
  .struct fieldNames fields ofFields id (by decide) (fun _ => rfl) ofFields_fields integral_fields

end MemoryInfo

namespace NodeInfoReport

def onWire (ni : NodeInfoReport) : NodeInfoReport := { ni with gpus := ni.gpus.map Gpu.onWire }

def fieldNames : List String :=
  ["GPUs", "cpu", "memory", "telemetryValid", "msSince", "hostUuid", "nodeUuid", "clusterUuid"]

def fields (ni : NodeInfoReport) : List (Option (Json.Tree F)) :=
  [(Codec.list Gpu.codec).required ni.gpus, Cpu.codec.optional ni.cpu,
    MemoryInfo.codec.optional ni.memory, Codec.bool.required ni.telemetryValid,
    Codec.u64.required ni.msSince, Codec.string.optional ni.hostUuid,
    Codec.string.optional ni.nodeUuid, Codec.string.optional ni.clusterUuid]

def ofFields : List (Option (Json.Tree F)) → Option NodeInfoReport
  | [gpus, cpu, memory, telemetryValid, msSince, hostUuid, nodeUuid, clusterUuid] => do
    return { gpus := ← readDefault (Codec.list Gpu.codec).ofTree [] gpus
             cpu := ← readOption Cpu.codec.ofTree cpu
             memory := ← readOption MemoryInfo.codec.ofTree memory
             telemetryValid := ← readDefault Codec.bool.ofTree false telemetryValid
             msSince := ← readDefault Codec.u64.ofTree 0 msSince
             hostUuid := ← readOption Codec.string.ofTree hostUuid
             nodeUuid := ← readOption Codec.string.ofTree nodeUuid
             clusterUuid := ← readOption Codec.string.ofTree clusterUuid }
  | _ => none

theorem ofFields_fields (ni : NodeInfoReport) : ofFields (ni.fields (F := F)) = some ni.onWire := by
  have cards (gpus : List Gpu) : (Codec.list (Gpu.codec (F := F))).readBack gpus = gpus.map Gpu.onWire := rfl
  have cpu (cpu : Option Cpu) : cpu.map (Cpu.codec (F := F)).readBack = cpu := Option.map_id'
  have memory (memory : Option MemoryInfo) : memory.map (MemoryInfo.codec (F := F)).readBack = memory :=
    Option.map_id'
  have flag (b : Bool) : (Codec.bool (F := F)).readBack b = b := rfl
  have since (n : UInt64) : (Codec.u64 (F := F)).readBack n = n := rfl
  have text (s : Option String) : s.map (Codec.string (F := F)).readBack = s := Option.map_id'
  simp [ofFields, fields, cards, cpu, memory, flag, since, text, onWire]

theorem integral_fields (ni : NodeInfoReport) :
    ∀ field ∈ ni.fields (F := F), Codec.Integral field := by
  simp [fields]

def codec : Codec F NodeInfoReport :=
  .struct fieldNames fields ofFields onWire (by decide) (fun _ => rfl) ofFields_fields integral_fields

end NodeInfoReport

/-! ## The server -/

variable {G : Type} (j : JsonCrate F) (v : DocCrate G)

-- What `sysinfo` tells of a processor.
structure HostCpu where
  brand : String
  vendorId : String

structure Host where
  gpus : GpuHost
  cpus : List HostCpu
  physicalCoreCount : Option Nat
  totalMemory : UInt64
  usedMemory : UInt64
  /-- The files that can be read. -/
  file : String → Option String

namespace Host

def hostUuid (host : Host) : Option String :=
  ["/etc/machine-id", "/var/lib/dbus/machine-id"].findSome? fun p =>
    (host.file p).bind fun s => if trimmed s = "" then none else some (trimmed s)

def cpu (host : Host) : Option Cpu :=
  match host.cpus with
  | [] => none
  | first :: _ =>
    let name := trimmed first.brand
    let name := if name = "" then trimmed first.vendorId else name
    some
      { name := if name = "" then "unknown" else name
        cores := host.physicalCoreCount.map UInt32.ofNat
        totalThreads := some (.ofNat host.cpus.length)
        utilizationPercent := none }

def memory (host : Host) : Option MemoryInfo :=
  if host.totalMemory = 0 then none else some ⟨host.totalMemory, some host.usedMemory⟩

end Host

def Gpu.isSampled (g : Gpu) : Bool := g.vramUsedBytes.isSome || g.utilizationPercent.isSome

def collect (checks : Bool) (host : Host) (nodeUuid clusterUuid : Option String) :
    Attempt NodeInfoReport := do
  let gpus ← detectGpus v checks host.gpus
  return {
    gpus := gpus
    cpu := host.cpu
    memory := host.memory
    telemetryValid := gpus.any Gpu.isSampled
    msSince := 0
    hostUuid := host.hostUuid
    nodeUuid := nodeUuid
    clusterUuid := clusterUuid }

structure InfoResponse where
  status : Nat
  contentType : Option String
  body : Bytes
  deriving DecidableEq

def nodeInfoPath : String := "/v1/node-info"

namespace NodeInfoServer

def handle (checks : Bool) (host : Host) (nodeId path : String) : Attempt InfoResponse :=
  if path ≠ nodeInfoPath then return ⟨404, none, utf8 "not found"⟩
  else do
    let ni ← collect v checks host (some nodeId) none
    let ni := { ni with hostUuid := some nodeId, nodeUuid := none }
    return ⟨200, some "application/json", NodeInfoReport.codec.toVec j ni⟩

/-! ## What is served -/

def told (host : Host) (nodeId : String) (gpus : List Gpu) : NodeInfoReport where
  gpus := gpus
  cpu := host.cpu
  memory := host.memory
  telemetryValid := gpus.any Gpu.isSampled
  msSince := 0
  hostUuid := some nodeId
  nodeUuid := none
  clusterUuid := none

variable {checks : Bool} {host : Host} {nodeId : String} {gpus : List Gpu}

theorem handle_returned (detected : detectGpus v checks host.gpus = .returned gpus) :
    handle j v checks host nodeId nodeInfoPath = .returned
      ⟨200, some "application/json", NodeInfoReport.codec.toVec j (told host nodeId gpus)⟩ := by
  rw [handle, if_neg (not_not_intro rfl), collect, detected]
  rfl

theorem handle_panicked (panics : detectGpus v checks host.gpus = .panicked) :
    handle j v checks host nodeId nodeInfoPath = .panicked := by
  rw [handle, if_neg (not_not_intro rfl), collect, panics]
  rfl

/-- What is read of an answer about these GPUs. -/
structure Tells (nodeId : String) (gpus : List Gpu) (read : NodeInfoReport) : Prop where
  host : read.hostUuid = some nodeId
  node : read.nodeUuid = none
  cards : read.gpus = gpus.map Gpu.onWire
  valid : read.telemetryValid = true ↔
    ∃ g ∈ read.gpus, g.vramUsedBytes.isSome ∨ g.utilizationPercent.isSome
  free (checks : Bool) : read.toNodeInfo.freeVramBytes checks = NodeInfo.freeVramBytes checks ⟨gpus⟩

theorem tells_told : Tells nodeId gpus (told host nodeId gpus).onWire where
  host := rfl
  node := rfl
  cards := rfl
  valid := by
    simp [told, NodeInfoReport.onWire, Gpu.onWire, Gpu.isSampled]
  free checks := by
    have same : (gpus.map Gpu.onWire).filterMap Gpu.free = gpus.filterMap Gpu.free := by
      rw [List.filterMap_map]
      rfl
    exact congrArg (Attempt.sum checks) same

/-- Whoever reads the answer learns of every GPU what the tools have reported, and
adds up the same free memory; it is told that telemetry is valid exactly when some
GPU it sees has some. The server panics only where the detection does. -/
theorem node_info_told (lawful : j.Lawful) (checks : Bool) (host : Host) (nodeId : String) :
    (handle j v checks host nodeId nodeInfoPath = .panicked ∧
        detectGpus v checks host.gpus = .panicked) ∨
      ∃ gpus response read, detectGpus v checks host.gpus = .returned gpus ∧
        handle j v checks host nodeId nodeInfoPath = .returned response ∧ response.status = 200 ∧
        NodeInfoReport.codec.fromSlice j response.body = some read ∧ Tells nodeId gpus read := by
  cases detected : detectGpus v checks host.gpus with
  | panicked => exact .inl ⟨handle_panicked j v detected, rfl⟩
  | returned gpus =>
    have read := NodeInfoReport.codec.fromSlice_toVec lawful (told host nodeId gpus)
    exact .inr ⟨gpus, _, _, rfl, handle_returned j v detected, rfl, read, tells_told⟩

end NodeInfoServer

namespace Reference

/-- A machine with a Radeon that is read from the kernel's files, with or without an id. -/
def kernelHost (unique : Option String) : Host where
  gpus := ⟨none, none, ⟨some [⟨"card0", fun f =>
    if f = "vendor" then some "0x1002\n"
    else if f = "device" then some "0x744c\n"
    else if f = "mem_info_vram_total" then some "25753026560\n"
    else if f = "unique_id" then unique
    else none⟩], none, none, none⟩, .other⟩
  cpus := [⟨"AMD Ryzen 7 9700X 8-Core Processor", "AuthenticAMD"⟩]
  physicalCoreCount := some 8
  totalMemory := 34359738368
  usedMemory := 8589934592
  file _ := none

def kernelGpu (uuid : String) : Gpu where
  name := "AMD GPU (amdgpu 0x744c)"
  vramBytes := some 25753026560
  vramUsedBytes := none
  utilizationPercent := none
  uuid := uuid
  vendor := .amd
  vendorId := some 0x1002

theorem kernelGpu_detected :
    detectGpus docCrate true (kernelHost none).gpus = .returned [kernelGpu "card0"] ∧
      detectGpus docCrate true (kernelHost (some "0x2f1c")).gpus = .returned [kernelGpu "0x2f1c"] := by
  decide

end Reference

theorem NodeInfoServer.node_info_told_reference : ∃ response read,
    handle Reference.jsonCrate Reference.docCrate true (Reference.kernelHost none) "demo-1234"
        nodeInfoPath = .returned response ∧
      NodeInfoReport.codec.fromSlice Reference.jsonCrate response.body = some read ∧
      read.hostUuid = some "demo-1234" := by
  rcases node_info_told Reference.jsonCrate Reference.docCrate Reference.jsonCrate_lawful true
    (Reference.kernelHost none) "demo-1234" with ⟨-, panics⟩ |
      ⟨gpus, response, read, -, answered, -, decoded, tells⟩
  · cases Reference.kernelGpu_detected.1.symm.trans panics
  · exact ⟨response, read, answered, decoded, tells.host⟩

end OpenPair
