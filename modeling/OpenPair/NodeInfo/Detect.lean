import OpenPair.Library.Fields
import OpenPair.NodeInfo.Amd
import OpenPair.NodeInfo.Nvidia
import OpenPair.SerdeJson

/-! Every GPU of a node (`pair-nodeinfo`: `lib.rs`, `amd.rs`, `gpu_os.rs`): those that the
tools of their vendors report, and those that the operating system lists of the
vendors without one.
-/

set_option autoImplicit false

namespace OpenPair

open Json

def GpuVendor.fromPciId (id : UInt16) : GpuVendor :=
  if id = 0x10de then .nvidia
  else if id = 0x1002 then .amd
  else if id = 0x8086 then .intel
  else .other

/-- `serde_json` on any value, what is done with an `f64`, and the letters of Unicode. -/
structure DocCrate (F : Type) where
  parse : String → Option (Json.Tree F)
  ofInt : Whole → F
  mul : F → F → F
  toU32 : F → UInt32
  toU64 : F → UInt64
  toUppercase : Char → List Char
  toLowercase : String → String

def asU64 {F : Type} : Json.Tree F → Option UInt64
  | .num n => if 0 ≤ n.value then some (.ofNat n.value.toNat) else none
  | _ => none

def trimmed (text : String) : String := String.ofList (trim text.toList)

variable {F : Type} (v : DocCrate F)

namespace Amd

-- `amd-smi` reports decimal megabytes.
def megabyte : Whole := ⟨1000000, by decide, by decide⟩

def mbToBytes (mb : F) : UInt64 := v.toU64 (v.mul mb (v.ofInt megabyte))

/-! ## The kernel's files -/

/-- An entry of `/sys/class/drm`, and the files of its device that can be read. -/
structure DrmEntry where
  name : String
  file : String → Option String

def DrmEntry.read (entry : DrmEntry) (f : String) : Option String := (entry.file f).map trimmed

-- The body of the loop of `detect_sysfs`.
def DrmEntry.gpu (entry : DrmEntry) : Option Gpu :=
  if !"card".toList.isPrefixOf entry.name.toList || entry.name.toList.contains '-' then none
  else if entry.read "vendor" ≠ some "0x1002" then none
  else
    let deviceId := (entry.read "device").getD ""
    some
      { uuid := (entry.read "unique_id").getD entry.name
        name := s!"AMD GPU (amdgpu {deviceId})"
        vendor := .amd
        vendorId := some 0x1002
        vramBytes := (entry.read "mem_info_vram_total").bind Nvidia.parseU64
        vramUsedBytes := (entry.read "mem_info_vram_used").bind Nvidia.parseU64
        utilizationPercent := (entry.read "gpu_busy_percent").bind Nvidia.parseU32 }

-- `detect_sysfs`, of a directory that is missing or has these entries.
def detectSysfs (entries : Option (List DrmEntry)) : List Gpu :=
  (entries.getD []).filterMap DrmEntry.gpu

/-! ## `amd-smi` -/

def asArray : Json.Tree F → Option (List (Json.Tree F))
  | .arr items => some items
  | _ => none

def gpuIndex (e : Json.Tree F) : Option UInt64 := (get "gpu" e).bind asU64

def smiGpu (metrics : List (Json.Tree F)) (e : Json.Tree F) : Gpu :=
  let idx := gpuIndex e
  let metric := idx.bind fun i => metrics.find? fun m => gpuIndex m == some i
  { uuid := (findStr e ["uuid", "serial", "bdf", "market_name"]).getD s!"amd-gpu-{idx.getD 0}"
    name := (findStr e ["market_name", "product_name", "name"]).getD "AMD GPU"
    vendor := .amd
    vendorId := some 0x1002
    vramBytes := (findNum v.ofInt e ["size", "total", "vram_total", "total_vram"]).map (mbToBytes v)
    vramUsedBytes := metric.bind fun m =>
      (findNum v.ofInt m ["used_vram", "vram_used", "used"]).map (mbToBytes v)
    utilizationPercent := metric.bind fun m =>
      (findNum v.ofInt m ["gfx_activity", "gfx", "gpu_activity", "usage"]).map v.toU32 }

def parseAmdSmi (static : String) (metric : Option String) : List Gpu :=
  match (v.parse static).bind asArray with
  | none => []
  | some entries =>
    entries.map (smiGpu v (((metric.bind v.parse).bind asArray).getD []))

/-! ## `rocm-smi` -/

def findStrNum (e : Json.Tree F) (key : String) : Option UInt64 :=
  (deepFind key e).bind fun f =>
    ((asStr f).bind fun s => Nvidia.parseU64 (trimmed s)).or (asU64 f)

def rocmGpu (card : String × Json.Tree F) : Gpu where
  uuid := (findStr card.2 ["Unique ID", "Serial Number", "PCI Bus"]).getD card.1
  name := (findStr card.2 ["Card Series", "Device Name", "Market Name", "Card Model"]).getD "AMD GPU"
  vendor := .amd
  vendorId := some 0x1002
  vramBytes := findStrNum card.2 "VRAM Total Memory (B)"
  vramUsedBytes := findStrNum card.2 "VRAM Total Used Memory (B)"
  utilizationPercent := (findStr card.2 ["GPU use (%)"]).bind fun s => Nvidia.parseU32 (trimmed s)

def parseRocmSmiJson (json : String) : List Gpu :=
  match v.parse json with
  | some (.obj members) =>
    ((members.filter fun member => "card".toList.isPrefixOf member.1.toList).mergeSort
      fun first second => first.1 ≤ second.1).map rocmGpu
  | _ => []

/-- What the kernel and the tools for AMD's cards say. -/
structure Tools where
  entries : Option (List DrmEntry)
  smiStatic : Option String
  smiMetric : Option String
  rocm : Option String

def detectRocm (tools : Tools) : List Gpu := (tools.rocm.map (parseRocmSmiJson v)).getD []

def detectTools (tools : Tools) : List Gpu :=
  match tools.smiStatic with
  | none => detectRocm v tools
  | some stat =>
    let gpus := parseAmdSmi v stat tools.smiMetric
    if gpus.isEmpty then detectRocm v tools else gpus

def detect (tools : Tools) : List Gpu :=
  let sysfs := detectSysfs tools.entries
  if sysfs.isEmpty then detectTools v tools else sysfs

end Amd

/-! ## The operating system -/

namespace GpuOs

open Amd (asStr asArray)

-- `u16::from_str_radix`, in base 16.
def parseHexU16 (text : List Char) : Option UInt16 :=
  let digits := if text.head? = some '+' then text.tail else text
  if digits.isEmpty then none
  else
    (digits.mapM hexValue).bind fun values =>
      let n := values.foldl (fun n value => 16 * n + value) 0
      if n < 2 ^ 16 then some (.ofNat n) else none

def vendorIdFromPnp (pnp : String) : Option UInt16 :=
  ((pnp.toList.flatMap v.toUppercase).dropInfix? "VEN_".toList).bind fun around =>
    parseHexU16 (around.2.take 4)

def vendorFromPnp (pnp : String) : GpuVendor :=
  ((vendorIdFromPnp v pnp).map GpuVendor.fromPciId).getD .other

def win32Gpu (it : Json.Tree F) : Option Gpu := do
  let name ← (Amd.get "Name" it).bind asStr
  let pnp := ((Amd.get "PNPDeviceID" it).bind asStr).getD ""
  return {
    uuid := pnp
    name := trimmed name
    vendor := vendorFromPnp v pnp
    vendorId := vendorIdFromPnp v pnp
    vramBytes := ((Amd.get "AdapterRAM" it).bind asU64).filter (0 < ·)
    vramUsedBytes := none
    utilizationPercent := none }

def parseWin32Video (json : String) : List Gpu :=
  match v.parse (trimmed json) with
  | some (.arr items) => items.filterMap (win32Gpu v)
  | some (.obj members) => [Json.Tree.obj members].filterMap (win32Gpu v)
  | _ => []

-- `str::contains`.
def contains (text pattern : String) : Bool := (text.toList.dropInfix? pattern.toList).isSome

def vendorFromName (name : String) : GpuVendor :=
  if contains (v.toLowercase name) "amd" || contains (v.toLowercase name) "radeon" then .amd
  else if contains (v.toLowercase name) "nvidia" then .nvidia
  else if contains (v.toLowercase name) "apple" || contains (v.toLowercase name) "intel" then .intel
  else .other

def macosGpu (g : Json.Tree F) : Option Gpu := do
  let name ← ((Amd.get "sppci_model" g).or (Amd.get "_name" g)).bind asStr
  return {
    uuid := name
    name := name
    vendor := vendorFromName v name
    vendorId := none
    vramBytes := none
    vramUsedBytes := none
    utilizationPercent := none }

def parseMacosDisplays (json : String) : List Gpu :=
  match ((v.parse json).bind (Amd.get "SPDisplaysDataType")).bind asArray with
  | some items => items.filterMap (macosGpu v)
  | none => []

/-- The system that the node was built for, with what its command prints. -/
inductive Os where
  | windows (powershell : Option String)
  | macos (systemProfiler : Option String)
  | other

def osGpus : Os → List Gpu
  | .windows output => (output.map (parseWin32Video v)).getD []
  | .macos output => (output.map (parseMacosDisplays v)).getD []
  | .other => []

end GpuOs

/-! ## All of them -/

/-- What a node's tools and its system say of its GPUs. -/
structure GpuHost where
  nvidiaStatic : Option String
  nvidiaDynamic : Option String
  amd : Amd.Tools
  os : GpuOs.Os

def detectGpus (checks : Bool) (host : GpuHost) : Attempt (List Gpu) := do
  let nvidia ← Nvidia.detect checks host.nvidiaStatic host.nvidiaDynamic
  let gpus := nvidia ++ Amd.detect v host.amd
  let covered := gpus.map Gpu.vendor
  return gpus ++ (GpuOs.osGpus v host.os).filter fun g => !covered.contains g.vendor

/-! ## Where a GPU comes from -/

namespace Nvidia

variable {checks : Bool} {line : List Char} {g : Gpu} {gpus : List Gpu}

theorem readStatic_vendor (read : readStatic checks line = .returned (some g)) :
    g.vendor = .nvidia := by
  unfold readStatic at read
  split at read
  · obtain ⟨vram, -, same⟩ := Attempt.bind_returned_iff.mp read
    cases same
    rfl
  · cases read

theorem sampled_vendor (m : Table (Option UInt32 × Option UInt64)) (g : Gpu) :
    (sampled m g).vendor = g.vendor := by
  unfold sampled
  split <;> rfl

theorem merge_vendor {m : Table (Option UInt32 × Option UInt64)}
    (every : ∀ g ∈ gpus, g.vendor = .nvidia) : ∀ g ∈ merge gpus m, g.vendor = .nvidia := by
  intro g member
  obtain ⟨before, within, rfl⟩ := List.mem_map.mp member
  rw [sampled_vendor]
  exact every before within

theorem detect_vendor {statik dynamic : Option String}
    (detected : detect checks statik dynamic = .returned gpus) : ∀ g ∈ gpus, g.vendor = .nvidia := by
  unfold detect at detected
  split at detected
  · cases detected
    exact fun g member => by cases member
  · obtain ⟨parsed, read, merged⟩ := Attempt.bind_returned_iff.mp detected
    have every : ∀ g ∈ parsed, g.vendor = .nvidia := by
      intro g member
      obtain ⟨line, -, here⟩ := Attempt.mem_of_filterMap read member
      exact readStatic_vendor here
    split at merged
    · cases merged
      exact merge_vendor every
    · obtain ⟨m, -, same⟩ := Attempt.bind_returned_iff.mp merged
      cases same
      exact merge_vendor every

end Nvidia

namespace Amd

theorem DrmEntry.gpu_vendor {entry : DrmEntry} {g : Gpu} (found : entry.gpu = some g) :
    g.vendor = .amd := by
  unfold DrmEntry.gpu at found
  split at found
  · cases found
  split at found
  · cases found
  · cases found
    rfl

theorem detectSysfs_vendor {entries : Option (List DrmEntry)} :
    ∀ g ∈ detectSysfs entries, g.vendor = .amd := by
  intro g member
  obtain ⟨entry, -, found⟩ := List.mem_filterMap.mp member
  exact entry.gpu_vendor found

theorem parseAmdSmi_vendor {static : String} {metric : Option String} :
    ∀ g ∈ parseAmdSmi v static metric, g.vendor = .amd := by
  intro g member
  unfold parseAmdSmi at member
  split at member
  · cases member
  · obtain ⟨e, -, rfl⟩ := List.mem_map.mp member
    rfl

theorem detectRocm_vendor {tools : Tools} : ∀ g ∈ detectRocm v tools, g.vendor = .amd := by
  intro g member
  unfold detectRocm parseRocmSmiJson at member
  cases rocm : tools.rocm with
  | none =>
    rw [rocm] at member
    cases member
  | some json =>
    rw [rocm, Option.map_some, Option.getD_some] at member
    split at member
    · obtain ⟨card, -, rfl⟩ := List.mem_map.mp member
      rfl
    · cases member

theorem detect_vendor {tools : Tools} : ∀ g ∈ detect v tools, g.vendor = .amd := by
  unfold detect detectTools
  dsimp only
  split
  · split
    · exact detectRocm_vendor v
    · split
      · exact detectRocm_vendor v
      · exact parseAmdSmi_vendor v
  · exact detectSysfs_vendor

/-- What the kernel, `amd-smi` and `rocm-smi` report, in the order they are asked. -/
def sources (tools : Tools) : List (List Gpu) :=
  [detectSysfs tools.entries,
    (tools.smiStatic.map fun stat => parseAmdSmi v stat tools.smiMetric).getD [],
    detectRocm v tools]

theorem detect_first (tools : Tools) :
    detect v tools = ((sources v tools).find? fun gpus => !gpus.isEmpty).getD [] := by
  have last : detectRocm v tools =
      ([detectRocm v tools].find? fun gpus => !gpus.isEmpty).getD [] := by
    cases rocm : detectRocm v tools <;> rfl
  have later : detectTools v tools = ([(tools.smiStatic.map fun stat =>
      parseAmdSmi v stat tools.smiMetric).getD [], detectRocm v tools].find? fun gpus =>
        !gpus.isEmpty).getD [] := by
    unfold detectTools
    cases tools.smiStatic with
    | none => exact last
    | some stat =>
      rw [Option.map_some, Option.getD_some]
      dsimp only
      cases parseAmdSmi v stat tools.smiMetric with
      | nil => exact last
      | cons g rest => rfl
  unfold detect sources
  dsimp only
  cases detectSysfs tools.entries with
  | nil => exact later
  | cons g rest => rfl

end Amd

/-- What the tools of a vendor report; only two vendors have any. -/
def vendorTools (host : GpuHost) (nvidia : List Gpu) : GpuVendor → List Gpu
  | .nvidia => nvidia
  | .amd => Amd.detect v host.amd
  | .intel | .other => []

theorem filter_vendor {gpus : List Gpu} {own : GpuVendor} (every : ∀ g ∈ gpus, g.vendor = own)
    (vendor : GpuVendor) :
    gpus.filter (fun g => g.vendor = vendor) = if own = vendor then gpus else [] := by
  split
  · next same =>
    apply List.filter_eq_self.mpr
    intro g member
    exact decide_eq_true ((every g member).trans same)
  · next differs =>
    apply List.filter_eq_nil_iff.mpr
    intro g member
    rw [every g member, decide_eq_true_eq]
    exact differs

theorem filter_vendorTools {host : GpuHost} {nvidia : List Gpu}
    (every : ∀ g ∈ nvidia, g.vendor = .nvidia) (vendor : GpuVendor) :
    (nvidia ++ Amd.detect v host.amd).filter (fun g => g.vendor = vendor) =
      vendorTools v host nvidia vendor := by
  rw [List.filter_append, filter_vendor every, filter_vendor (Amd.detect_vendor v)]
  cases vendor <;> simp [vendorTools]

theorem mem_map_vendor {gpus : List Gpu} {vendor : GpuVendor} :
    vendor ∈ gpus.map Gpu.vendor ↔ gpus.filter (fun g => g.vendor = vendor) ≠ [] := by
  simp [List.filter_eq_nil_iff]

/-- GPUs of a vendor are added exactly when it has none. -/
theorem filter_extend (gpus extra : List Gpu) (vendor : GpuVendor) :
    (gpus ++ extra.filter fun g => !(gpus.map Gpu.vendor).contains g.vendor).filter
        (fun g => g.vendor = vendor) =
      if gpus.filter (fun g => g.vendor = vendor) = [] then extra.filter fun g => g.vendor = vendor
      else gpus.filter fun g => g.vendor = vendor := by
  have added : (extra.filter fun g => !(gpus.map Gpu.vendor).contains g.vendor).filter
      (fun g => g.vendor = vendor) =
        if vendor ∈ gpus.map Gpu.vendor then [] else extra.filter fun g => g.vendor = vendor := by
    rw [List.filter_filter]
    split
    · next covered =>
      apply List.filter_eq_nil_iff.mpr
      rintro g - both
      simp only [Bool.and_eq_true, decide_eq_true_eq, Bool.not_eq_true', List.contains_eq_mem,
        decide_eq_false_iff_not] at both
      exact both.2 (both.1 ▸ covered)
    · next free =>
      apply List.filter_congr
      intro g _
      by_cases same : g.vendor = vendor
      · simp [same, free]
      · simp [same]
  rw [List.filter_append, added]
  by_cases none : gpus.filter (fun g => g.vendor = vendor) = []
  · rw [if_pos none, none, if_neg (fun covered => mem_map_vendor.mp covered none), List.nil_append]
  · rw [if_neg none, if_pos (mem_map_vendor.mpr none), List.append_nil]

/-- The GPUs of each vendor have one source: the vendor's tools where these report
any, and the operating system's list where they do not. Of AMD's tools it is the
first that reports any, the kernel before `amd-smi` and that before `rocm-smi`. -/
theorem detectGpus_source {checks : Bool} {host : GpuHost} {gpus : List Gpu}
    (detected : detectGpus v checks host = .returned gpus) :
    ∃ nvidia, Nvidia.detect checks host.nvidiaStatic host.nvidiaDynamic = .returned nvidia ∧
      (vendorTools v host nvidia .amd =
        ((Amd.sources v host.amd).find? fun gpus => !gpus.isEmpty).getD []) ∧
      ∀ vendor, gpus.filter (fun g => g.vendor = vendor) =
        if vendorTools v host nvidia vendor = [] then
          (GpuOs.osGpus v host.os).filter fun g => g.vendor = vendor
        else vendorTools v host nvidia vendor := by
  obtain ⟨nvidia, found, rest⟩ := Attempt.bind_returned_iff.mp detected
  cases rest
  refine ⟨nvidia, found, Amd.detect_first v host.amd, fun vendor => ?_⟩
  rw [filter_extend, filter_vendorTools v (Nvidia.detect_vendor found)]

/-! ## The vendor that a device names -/

namespace GpuOs

open Amd (asStr)

/-- `{:04X}`. -/
def pnpDigits (id : UInt16) : List Char :=
  [id.toNat / 4096, id.toNat / 256 % 16, id.toNat / 16 % 16, id.toNat % 16].map fun digit =>
    (hexDigit digit).toUpper

theorem hexValue_upper : ∀ digit < 16, hexValue (hexDigit digit).toUpper = some digit := by
  decide

theorem plain_upper : ∀ digit < 16, (hexDigit digit).toUpper ≠ '+' := by
  decide

theorem parseHexU16_pnpDigits (id : UInt16) : parseHexU16 (pnpDigits id) = some id := by
  have small : id.toNat < 2 ^ 16 := id.toNat_lt
  have first := hexValue_upper (id.toNat / 4096) (by omega)
  have second := hexValue_upper (id.toNat / 256 % 16) (by omega)
  have third := hexValue_upper (id.toNat / 16 % 16) (by omega)
  have fourth := hexValue_upper (id.toNat % 16) (by omega)
  have plain := plain_upper (id.toNat / 4096) (by omega)
  have value : 16 * (16 * (16 * (16 * 0 + id.toNat / 4096) + id.toNat / 256 % 16) +
      id.toNat / 16 % 16) + id.toNat % 16 = id.toNat := by omega
  simp only [parseHexU16, pnpDigits, List.map_cons, List.map_nil, List.head?_cons, Option.some.injEq,
    if_neg plain, List.isEmpty_cons, Bool.false_eq_true, if_false, List.mapM_cons, List.mapM_nil,
    first, second, third, fourth, Option.bind_eq_bind, Option.bind_some, Option.pure_def,
    List.foldl_cons, List.foldl_nil, value]
  rw [if_pos small, UInt16.ofNat_toNat]

theorem flatMap_plain (ascii : ∀ ch : Char, ch.toNat < 128 → v.toUppercase ch = [ch.toUpper])
    {text : List Char} (plain : ∀ ch ∈ text, ch.toNat < 128) :
    text.flatMap v.toUppercase = text.map Char.toUpper := by
  induction text with
  | nil => rfl
  | cons ch text ih =>
    obtain ⟨here, later⟩ := List.forall_mem_cons.mp plain
    rw [List.flatMap_cons, ascii ch here, ih later, List.map_cons, List.singleton_append]

theorem vendorIdFromPnp_marked
    (ascii : ∀ ch : Char, ch.toNat < 128 → v.toUppercase ch = [ch.toUpper]) (id : UInt16)
    {before marked : List Char} (after : List Char)
    (free : ¬ "VEN_".toList <:+: before.flatMap v.toUppercase)
    (plain : ∀ ch ∈ marked, ch.toNat < 128)
    (spelled : marked.map Char.toUpper = "VEN_".toList ++ pnpDigits id) :
    vendorIdFromPnp v (String.ofList (before ++ marked ++ after)) = some id := by
  have upper : (before ++ marked ++ after).flatMap v.toUppercase =
      before.flatMap v.toUppercase ++ "VEN_".toList ++
        (pnpDigits id ++ after.flatMap v.toUppercase) := by
    rw [List.flatMap_append, List.flatMap_append, flatMap_plain v ascii plain, spelled]
    simp only [List.append_assoc]
  have found : (before.flatMap v.toUppercase ++ "VEN_".toList ++
      (pnpDigits id ++ after.flatMap v.toUppercase)).dropInfix? "VEN_".toList =
        some (before.flatMap v.toUppercase, pnpDigits id ++ after.flatMap v.toUppercase) :=
    Fields.dropInfix?_mark _ (by decide : 'V' ∉ ['E', 'N', '_']) free
  have four : (pnpDigits id).length = 4 := rfl
  rw [vendorIdFromPnp, String.toList_ofList, upper, found, Option.bind_some, List.take_left' four,
    parseHexU16_pnpDigits]

def Lists (json : String) (items : List (Json.Tree F)) : Prop :=
  v.parse (trimmed json) = some (.arr items) ∨
    ∃ members, v.parse (trimmed json) = some (.obj members) ∧ items = [.obj members]

theorem mem_parseWin32Video {json : String} {items : List (Json.Tree F)} (lists : Lists v json items)
    {it : Json.Tree F} (member : it ∈ items) {g : Gpu} (read : win32Gpu v it = some g) :
    g ∈ parseWin32Video v json := by
  unfold parseWin32Video
  rcases lists with parsed | ⟨members, parsed, rfl⟩
  · rw [parsed]
    exact List.mem_filterMap.mpr ⟨it, member, read⟩
  · rw [parsed]
    exact List.mem_filterMap.mpr ⟨it, member, read⟩

/-- A device is listed with the vendor that its id names, in whichever case of
letters, and whatever else stands before and after. -/
theorem win32_vendor_named
    (ascii : ∀ ch : Char, ch.toNat < 128 → v.toUppercase ch = [ch.toUpper]) (id : UInt16)
    {json : String} {items : List (Json.Tree F)} (lists : Lists v json items) {it : Json.Tree F}
    (member : it ∈ items) {name : String} {before marked after : List Char}
    (named : Amd.get "Name" it = some (.str name))
    (device : Amd.get "PNPDeviceID" it = some (.str (String.ofList (before ++ marked ++ after))))
    (free : ¬ "VEN_".toList <:+: before.flatMap v.toUppercase)
    (plain : ∀ ch ∈ marked, ch.toNat < 128)
    (spelled : marked.map Char.toUpper = "VEN_".toList ++ pnpDigits id) :
    ∃ g ∈ parseWin32Video v json, g.name = trimmed name ∧
      g.uuid = String.ofList (before ++ marked ++ after) ∧
      g.vendorId = some id ∧ g.vendor = .fromPciId id := by
  have vendor := vendorIdFromPnp_marked v ascii id after free plain spelled
  have read : ∃ g, win32Gpu v it = some g ∧ g.name = trimmed name ∧
      g.uuid = String.ofList (before ++ marked ++ after) ∧
      g.vendorId = some id ∧ g.vendor = .fromPciId id := by
    simp only [win32Gpu, named, device, vendorFromPnp, Option.bind_some, asStr, Option.bind_eq_bind,
      Option.getD_some, vendor, Option.map_some]
    exact ⟨_, rfl, rfl, rfl, rfl, rfl⟩
  obtain ⟨g, found, rest⟩ := read
  exact ⟨g, mem_parseWin32Video v lists member found, rest⟩

end GpuOs

/-! ## A reference machine -/

namespace Reference

-- `serde_json` on values without fractions, and the letters of ASCII.
def docCrate : DocCrate Int where
  parse text := (jsonCrate.value (utf8 text)).map fun value => value.tree.widen
  ofInt n := n.value
  mul x y := x * y
  toU32 x := .ofNat (min x.toNat (2 ^ 32 - 1))
  toU64 x := .ofNat (min x.toNat (2 ^ 64 - 1))
  toUppercase ch := [ch.toUpper]
  toLowercase text := String.ofList (text.toList.map Char.toLower)

def radeon : Json.Tree Empty :=
  .obj [("AdapterRAM", .num ⟨536870912, by decide, by decide⟩),
    ("Name", .str "AMD Radeon(TM) Graphics"), ("PNPDeviceID", .str "PCI\\VEN_1002&DEV_164E")]

def radeonText : String := String.ofList radeon.write

theorem docCrate_parse (value : Value Empty) (shallow : value.tree.depth ≤ maxDepth)
    (free : RawFree value.tree) :
    docCrate.parse (String.ofList value.tree.write) = some value.tree.widen := by
  have parsed : docCrate.parse (String.ofList value.tree.write) =
      (jsonCrate.value (jsonCrate.write value.tree)).map fun value => value.tree.widen := rfl
  rw [parsed, jsonCrate.value_write jsonCrate_lawful value.tree.integral_empty shallow free,
    Option.map_some]

theorem radeon_ordered : radeon.Ordered := by
  have sorted : ("AdapterRAM" < "Name" ∧ "AdapterRAM" < "PNPDeviceID") ∧ "Name" < "PNPDeviceID" := by
    decide
  exact ⟨by simpa [SortedMap.Sorted] using sorted, trivial, trivial, trivial, trivial⟩

theorem radeon_parsed : docCrate.parse (trimmed radeonText) = some radeon.widen := by
  have plain : trimmed radeonText = String.ofList radeon.write := by decide
  have free : RawFree radeon := by
    refine rawFree_obj.mpr ⟨by decide, fun entry member => rawFree_iff.mpr (rawTexts_leaf ?_)⟩
    simp only [List.mem_cons, List.not_mem_nil, or_false] at member
    rcases member with rfl | rfl | rfl <;> rfl
  rw [plain]
  exact docCrate_parse ⟨radeon, radeon_ordered⟩ (by decide) free

/-- A card that `nvidia-smi` reports, and a controller that no tool does. -/
def gpuHost : GpuHost where
  nvidiaStatic := some "GPU-1, RTX 5070, 12227"
  nvidiaDynamic := none
  amd := ⟨none, none, none, none⟩
  os := .windows (some radeonText)

def rtx : Gpu where
  name := "RTX 5070"
  vramBytes := some 12820938752
  vramUsedBytes := none
  utilizationPercent := none
  uuid := "GPU-1"
  vendor := .nvidia
  vendorId := some 0x10de

theorem rtx_detected : Nvidia.detect true gpuHost.nvidiaStatic gpuHost.nvidiaDynamic =
    .returned [rtx] := by
  decide

end Reference

/-- The reference controller is one of AMD's. -/
theorem GpuOs.win32_vendor_named_radeon :
    ∃ g ∈ parseWin32Video Reference.docCrate Reference.radeonText,
      g.vendorId = some 0x1002 ∧ g.vendor = .amd := by
  have named : Amd.get "Name" Reference.radeon.widen =
      some (Json.Tree.str (F := Int) "AMD Radeon(TM) Graphics") := by
    simp [Reference.radeon, Json.Tree.widen, Json.Tree.widenMembers, Amd.get, List.lookup_cons]
  have device : Amd.get "PNPDeviceID" Reference.radeon.widen = some (Json.Tree.str (F := Int)
      (String.ofList ("PCI\\".toList ++ "VEN_1002".toList ++ "&DEV_164E".toList))) := by
    simp [Reference.radeon, Json.Tree.widen, Json.Tree.widenMembers, Amd.get, List.lookup_cons]
  obtain ⟨g, member, -, -, vendorId, vendor⟩ := win32_vendor_named Reference.docCrate
    (fun _ _ => rfl) 0x1002 (.inr ⟨_, Reference.radeon_parsed, rfl⟩) List.mem_cons_self
    named device (by decide) (by simp) (by decide)
  exact ⟨g, member, vendorId, vendor⟩

theorem detectGpus_source_reference : ∃ gpus,
    detectGpus Reference.docCrate true Reference.gpuHost = .returned gpus ∧
      gpus.filter (fun g => g.vendor = .nvidia) = [Reference.rtx] ∧
      gpus.filter (fun g => g.vendor = .amd) =
        (GpuOs.osGpus Reference.docCrate Reference.gpuHost.os).filter fun g => g.vendor = .amd := by
  have detected : ∃ gpus, detectGpus Reference.docCrate true Reference.gpuHost = .returned gpus := by
    rw [detectGpus, Reference.rtx_detected]
    exact ⟨_, rfl⟩
  obtain ⟨gpus, returns⟩ := detected
  obtain ⟨nvidia, found, -, source⟩ := detectGpus_source Reference.docCrate returns
  cases Reference.rtx_detected.symm.trans found
  exact ⟨gpus, returns, source .nvidia, source .amd⟩

end OpenPair
