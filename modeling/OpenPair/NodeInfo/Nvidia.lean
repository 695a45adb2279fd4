import OpenPair.Library.Attempt
import OpenPair.Library.LastWrite
import OpenPair.Rpc.Framing
import OpenPair.Trust.PinStore

/-! The GPUs that `nvidia-smi` reports, with the arithmetic of their sizes
(`nvidia.rs`, `telemetry.rs`).

The sizes come in MiB, as large as 64 bits allow, and are multiplied without a
check; the free total is summed without one.
-/

set_option autoImplicit false

namespace OpenPair

open LastWrite

/-! ## Records -/

inductive GpuVendor where
  | nvidia
  | amd
  | intel
  | other
  deriving DecidableEq

structure Gpu where
  name : String
  vramBytes : Option UInt64
  vramUsedBytes : Option UInt64
  utilizationPercent : Option UInt32
  uuid : String
  vendor : GpuVendor
  vendorId : Option UInt16
  deriving DecidableEq

/-- What `free_vram_bytes` reads of a node's telemetry. -/
structure NodeInfo where
  gpus : List Gpu

def saturatingSub (a b : UInt64) : UInt64 := if b ≤ a then a - b else 0

def Gpu.free (g : Gpu) : Option UInt64 :=
  match g.vramBytes, g.vramUsedBytes with
  | some total, some used => some (saturatingSub total used)
  | _, _ => none

def NodeInfo.freeVramBytes (checks : Bool) (info : NodeInfo) : Attempt UInt64 :=
  Attempt.sum checks (info.gpus.filterMap Gpu.free)

namespace Nvidia

/-! ## Rows -/

def mib : UInt64 := (1 : UInt64) <<< (20 : UInt64)

-- `parse::<u64>`, of the width of `usize`.
def parseU64 (text : String) : Option UInt64 := (parseUsize text.toList).map UInt64.ofNat

-- `parse::<u32>`.
def parseU32 (text : String) : Option UInt32 :=
  (parseUsize text.toList).bind fun n => if n < 2 ^ 32 then some (.ofNat n) else none

/-- One row; a blank one has no fields. -/
def splitCsv (line : List Char) : List String :=
  ((line.splitOn ',').map fun s => String.ofList (trim s)).filter fun _ => !(trim line).isEmpty

def toBytes (checks : Bool) (size : String) : Attempt (Option UInt64) :=
  match parseU64 size with
  | some n => (Attempt.mul checks n mib).map some
  | none => .returned none

-- The body of the loop of `parse_static`.
def readStatic (checks : Bool) (line : List Char) : Attempt (Option Gpu) :=
  match splitCsv line with
  | uuid :: name :: memory :: _ => do
    let vram ← toBytes checks memory
    return some
      { uuid := uuid
        name := name
        vendor := .nvidia
        vendorId := some 0x10de
        vramBytes := vram
        vramUsedBytes := none
        utilizationPercent := none }
  | _ => return none

def parseStatic (checks : Bool) (csv : String) : Attempt (List Gpu) :=
  Attempt.filterMap (readStatic checks) (lines csv)

-- The body of the loop of `parse_dynamic`.
def readDynamic (checks : Bool) (m : Table (Option UInt32 × Option UInt64)) (line : List Char) :
    Attempt (Table (Option UInt32 × Option UInt64)) :=
  match splitCsv line with
  | uuid :: util :: memory :: _ => do
    let used ← toBytes checks memory
    return m.insert uuid (parseU32 util, used)
  | _ => return m

def parseDynamic (checks : Bool) (csv : String) :
    Attempt (Table (Option UInt32 × Option UInt64)) :=
  (lines csv).foldlM (readDynamic checks) ∅

-- The body of the loop of `merge`.
def sampled (dynamic : Table (Option UInt32 × Option UInt64)) (g : Gpu) : Gpu :=
  match dynamic.lookup g.uuid with
  | some (util, used) => { g with utilizationPercent := util, vramUsedBytes := used }
  | none => g

def merge (statik : List Gpu) (dynamic : Table (Option UInt32 × Option UInt64)) : List Gpu :=
  statik.map (sampled dynamic)

-- `detect`, by what the two calls of `nvidia-smi` print.
def detect (checks : Bool) (statik dynamic : Option String) : Attempt (List Gpu) :=
  match statik with
  | none => return []
  | some out => do
    let gpus ← parseStatic checks out
    match dynamic with
    | none => return merge gpus ∅
    | some out => return merge gpus (← parseDynamic checks out)

/-! ## What the rows say -/

def row (line : List Char) : Option (String × String × String) :=
  match splitCsv line with
  | first :: second :: third :: _ => some (first, second, third)
  | _ => none

def rows (csv : String) : List (String × String × String) := (lines csv).filterMap row

def exactBytes (size : String) : Option Nat := (parseU64 size).map fun n => n.toNat * 2 ^ 20

def sizes (csv : String) : List (String × Option Nat) :=
  (rows csv).map fun r => (r.1, exactBytes r.2.2)

def SizeFits (size : String) : Prop := ∀ n ∈ parseU64 size, n.toNat < 2 ^ 44

def Fits (csv : String) : Prop := ∀ r ∈ rows csv, SizeFits r.2.2

instance : DecidablePred SizeFits := fun size =>
  decidable_of_iff ((parseU64 size).all (fun n => n.toNat < 2 ^ 44) = true) <| by
    simp only [SizeFits, Option.all_eq_true, decide_eq_true_eq, Option.mem_def]

instance : DecidablePred Fits := fun csv =>
  inferInstanceAs (Decidable (∀ r ∈ rows csv, SizeFits r.2.2))

/-- One GPU for each row, of the size that the row says. -/
def StaticExact (csv : String) (attempt : Attempt (List Gpu)) : Prop :=
  ∃ gpus, attempt = .returned gpus ∧
    (gpus.map fun g => (g.uuid, g.vramBytes.map UInt64.toNat)) = sizes csv

def DynamicExact (csv : String) (attempt : Attempt (Table (Option UInt32 × Option UInt64))) :
    Prop :=
  ∃ m, attempt = .returned m ∧
    ∀ uuid, ((m.lookup uuid).map fun entry => entry.2.map UInt64.toNat) = last uuid (sizes csv)

/-! ## Sizes -/

section

variable {checks : Bool} {size csv : String} {line : List Char} {r : String × String × String}

theorem toBytes_returned (fits : SizeFits size) :
    toBytes checks size = .returned ((parseU64 size).map (· * mib)) := by
  unfold toBytes
  cases parsed : parseU64 size with
  | none => rfl
  | some n =>
    have short : n.toNat * mib.toNat < 2 ^ 64 := by
      have bound := fits n parsed
      change n.toNat * 2 ^ 20 < 2 ^ 64
      omega
    have wraps : UInt64.ofNat (n.toNat * mib.toNat) = n * mib := by
      rw [UInt64.ofNat_mul, UInt64.ofNat_toNat, UInt64.ofNat_toNat]
    dsimp only
    rw [Attempt.mul, Attempt.number_returned short, wraps]
    rfl

theorem toNat_bytes (fits : SizeFits size) :
    ((parseU64 size).map (· * mib)).map UInt64.toNat = exactBytes size := by
  unfold exactBytes
  cases parsed : parseU64 size with
  | none => rfl
  | some n =>
    have bound := fits n parsed
    have bytes : (n * mib).toNat = n.toNat * 2 ^ 20 := by
      rw [UInt64.toNat_mul]
      change n.toNat * 2 ^ 20 % 2 ^ 64 = n.toNat * 2 ^ 20
      omega
    simp only [Option.map_some, bytes]

theorem toBytes_panicked (long : ¬ SizeFits size) : toBytes true size = .panicked := by
  simp only [SizeFits, not_forall] at long
  obtain ⟨n, parsed, long⟩ := long
  have tooLong : 2 ^ 64 ≤ n.toNat * mib.toNat := by
    change 2 ^ 64 ≤ n.toNat * 2 ^ 20
    omega
  rw [toBytes, Option.mem_def.mp parsed]
  dsimp only
  rw [Attempt.mul, Attempt.number_panicked tooLong]
  rfl

theorem exists_long (long : ¬ Fits csv) :
    ∃ line ∈ lines csv, ∃ r, row line = some r ∧ ¬ SizeFits r.2.2 := by
  simp only [Fits, rows, List.mem_filterMap, not_forall] at long
  obtain ⟨r, ⟨line, member, read⟩, long⟩ := long
  exact ⟨line, member, r, read, long⟩

theorem Fits.row (fits : Fits csv) (member : line ∈ lines csv) (read : row line = some r) :
    SizeFits r.2.2 :=
  fits r (List.mem_filterMap.mpr ⟨line, member, read⟩)

/-! ## Static rows -/

def gpu (r : String × String × String) (vram : Option UInt64) : Gpu :=
  { uuid := r.1
    name := r.2.1
    vendor := .nvidia
    vendorId := some 0x10de
    vramBytes := vram
    vramUsedBytes := none
    utilizationPercent := none }

theorem readStatic_some (read : row line = some r) :
    readStatic checks line = (toBytes checks r.2.2).map fun vram => some (gpu r vram) := by
  unfold row at read
  unfold readStatic
  split at read
  · cases read
    rfl
  · cases read

theorem readStatic_none (read : row line = none) : readStatic checks line = .returned none := by
  unfold row at read
  unfold readStatic
  split at read
  · cases read
  · rfl

theorem parseStatic_returned (fits : Fits csv) : parseStatic checks csv =
    .returned ((rows csv).map fun r => gpu r ((parseU64 r.2.2).map (· * mib))) := by
  have each : ∀ line ∈ lines csv, readStatic checks line = .returned
      ((row line).map fun r => gpu r ((parseU64 r.2.2).map (· * mib))) := by
    intro line member
    cases read : row line with
    | none => exact readStatic_none read
    | some r =>
      rw [readStatic_some read, toBytes_returned (fits.row member read)]
      rfl
  rw [parseStatic, Attempt.filterMap_returned each, rows, List.map_filterMap]

theorem parseStatic_panicked (long : ¬ Fits csv) : parseStatic true csv = .panicked := by
  obtain ⟨line, member, r, read, long⟩ := exists_long long
  apply Attempt.filterMap_panicked member
  rw [readStatic_some read, toBytes_panicked long]
  rfl

theorem static_sizes (fits : Fits csv) :
    (((rows csv).map fun r => gpu r ((parseU64 r.2.2).map (· * mib))).map fun g =>
      (g.uuid, g.vramBytes.map UInt64.toNat)) = sizes csv := by
  rw [List.map_map, sizes]
  apply List.map_congr_left
  intro r member
  exact Prod.ext rfl (toNat_bytes (fits r member))

theorem static_exact_iff :
    (∀ checks, StaticExact csv (parseStatic checks csv)) ↔ Fits csv := by
  constructor
  · intro every
    by_contra long
    obtain ⟨gpus, returns, -⟩ := every true
    rw [parseStatic_panicked long] at returns
    cases returns
  · intro fits checks
    exact ⟨_, parseStatic_returned fits, static_sizes fits⟩

/-! ## Dynamic rows -/

def entry (r : String × String × String) : String × Option UInt32 × Option UInt64 :=
  (r.1, parseU32 r.2.1, (parseU64 r.2.2).map (· * mib))

theorem readDynamic_some {m : Table (Option UInt32 × Option UInt64)} (read : row line = some r) :
    readDynamic checks m line =
      (toBytes checks r.2.2).map fun memory => m.insert r.1 (parseU32 r.2.1, memory) := by
  unfold row at read
  unfold readDynamic
  split at read
  · cases read
    rfl
  · cases read

theorem readDynamic_none {m : Table (Option UInt32 × Option UInt64)} (read : row line = none) :
    readDynamic checks m line = .returned m := by
  unfold row at read
  unfold readDynamic
  split at read
  · cases read
  · rfl

theorem parseDynamic_returned (fits : Fits csv) : parseDynamic checks csv =
    .returned (((rows csv).map entry).foldl (fun m write => m.insert write.1 write.2) ∅) := by
  have each : ∀ m : Table (Option UInt32 × Option UInt64), ∀ line ∈ lines csv,
      readDynamic checks m line = .returned (match row line with
        | some r => m.insert (entry r).1 (entry r).2
        | none => m) := by
    intro m line member
    cases read : row line with
    | none => exact readDynamic_none read
    | some r =>
      rw [readDynamic_some read, toBytes_returned (fits.row member read)]
      rfl
  rw [parseDynamic, Attempt.foldlM_returned each, List.foldl_map, rows, List.foldl_filterMap]
  congr 2
  funext m line
  cases row line <;> rfl

theorem parseDynamic_panicked (long : ¬ Fits csv) : parseDynamic true csv = .panicked := by
  obtain ⟨line, member, r, read, long⟩ := exists_long long
  apply Attempt.foldlM_panicked member
  intro m
  rw [readDynamic_some read, toBytes_panicked long]
  rfl

theorem dynamic_exact_iff :
    (∀ checks, DynamicExact csv (parseDynamic checks csv)) ↔ Fits csv := by
  constructor
  · intro every
    by_contra long
    obtain ⟨m, returns, -⟩ := every true
    rw [parseDynamic_panicked long] at returns
    cases returns
  · intro fits checks
    refine ⟨_, parseDynamic_returned fits, fun uuid => ?_⟩
    rw [lookup_foldl_insert, AList.lookup_empty, Option.or_none,
      ← last_map (fun sample : Option UInt32 × Option UInt64 => sample.2.map UInt64.toNat),
      List.map_map, sizes]
    congr 1
    apply List.map_congr_left
    intro r member
    exact Prod.ext rfl (toNat_bytes (fits r member))

end

/-! ## Both calls -/

/-- A GPU for each static row, with the memory in use of its last dynamic row. -/
def DetectedExact (statik dynamic : String) (attempt : Attempt (List Gpu)) : Prop :=
  ∃ gpus, attempt = .returned gpus ∧
    (gpus.map fun g => (g.uuid, g.vramBytes.map UInt64.toNat, g.vramUsedBytes.map UInt64.toNat)) =
      (sizes statik).map fun size => (size.1, size.2, (last size.1 (sizes dynamic)).join)

theorem merged_sizes {m : Table (Option UInt32 × Option UInt64)} {csv : String} {g : Gpu}
    (memory : ∀ uuid, ((m.lookup uuid).map fun sample => sample.2.map UInt64.toNat) =
      last uuid (sizes csv))
    (unused : g.vramUsedBytes = none) :
    ((sampled m g).uuid, (sampled m g).vramBytes.map UInt64.toNat,
        (sampled m g).vramUsedBytes.map UInt64.toNat) =
      (g.uuid, g.vramBytes.map UInt64.toNat, (last g.uuid (sizes csv)).join) := by
  rw [← memory g.uuid, sampled]
  cases m.lookup g.uuid with
  | none =>
    dsimp only
    rw [unused]
    rfl
  | some sample => rfl

theorem detect_eq (checks : Bool) (statik dynamic : String) :
    detect checks (some statik) (some dynamic) = (parseStatic checks statik).bind fun gpus =>
      (parseDynamic checks dynamic).bind fun m => .returned (merge gpus m) :=
  rfl

theorem detect_exact_iff (statik dynamic : String) :
    (∀ checks, DetectedExact statik dynamic (detect checks (some statik) (some dynamic))) ↔
      Fits statik ∧ Fits dynamic := by
  constructor
  · intro every
    obtain ⟨gpus, returns, -⟩ := every true
    rw [detect_eq] at returns
    have fits : Fits statik := by
      by_contra long
      rw [parseStatic_panicked long] at returns
      cases returns
    refine ⟨fits, ?_⟩
    by_contra long
    rw [parseStatic_returned fits, parseDynamic_panicked long] at returns
    cases returns
  · rintro ⟨fits, fits'⟩ checks
    obtain ⟨m, returns, memory⟩ := dynamic_exact_iff.mpr fits' checks
    rw [detect_eq, parseStatic_returned fits, returns]
    refine ⟨_, rfl, ?_⟩
    rw [← static_sizes fits, merge, List.map_map, List.map_map, List.map_map, List.map_map]
    apply List.map_congr_left
    intro r member
    exact merged_sizes memory rfl

end Nvidia

/-! ## The free total -/

def Gpu.exactFree (g : Gpu) : Option Nat :=
  match g.vramBytes, g.vramUsedBytes with
  | some total, some used => some (total.toNat - used.toNat)
  | _, _ => none

def NodeInfo.exactFree (info : NodeInfo) : Nat := (info.gpus.filterMap Gpu.exactFree).sum

theorem toNat_saturatingSub (a b : UInt64) : (saturatingSub a b).toNat = a.toNat - b.toNat := by
  unfold saturatingSub
  split
  · next le => exact UInt64.toNat_sub_of_le _ _ le
  · next gt =>
    have less : a.toNat < b.toNat := by
      rw [← UInt64.lt_iff_toNat_lt]
      exact UInt64.not_le.mp gt
    rw [Nat.sub_eq_zero_of_le (Nat.le_of_lt less)]
    rfl

theorem Gpu.exactFree_eq (g : Gpu) : g.exactFree = g.free.map UInt64.toNat := by
  unfold exactFree free
  split
  · next total used _ _ => rw [Option.map_some, toNat_saturatingSub]
  · rfl

theorem NodeInfo.exactFree_eq (info : NodeInfo) :
    info.exactFree = ((info.gpus.filterMap Gpu.free).map UInt64.toNat).sum := by
  rw [exactFree, List.map_filterMap, funext Gpu.exactFree_eq]

theorem NodeInfo.free_exact_iff {info : NodeInfo} :
    (∀ checks, Attempt.Exact (info.freeVramBytes checks) info.exactFree) ↔
      info.exactFree < 2 ^ 64 := by
  rw [exactFree_eq]
  constructor
  · intro every
    exact Attempt.sum_exact_iff.mp (every true)
  · intro fits checks
    exact Attempt.sum_exact_iff.mpr fits

/-- In every build the sizes and the free total are exact exactly when no row says
2^44 MiB or more and the exact total is below 2^64.
-/
theorem telemetry_exact_iff (csv : String) (info : NodeInfo) :
    ((∀ checks, Nvidia.StaticExact csv (Nvidia.parseStatic checks csv)) ↔ Nvidia.Fits csv) ∧
      ((∀ checks, Nvidia.DynamicExact csv (Nvidia.parseDynamic checks csv)) ↔ Nvidia.Fits csv) ∧
      ((∀ checks, Attempt.Exact (info.freeVramBytes checks) info.exactFree) ↔
        info.exactFree < 2 ^ 64) :=
  ⟨Nvidia.static_exact_iff, Nvidia.dynamic_exact_iff, NodeInfo.free_exact_iff⟩

def Nvidia.hugeRow : String := "GPU-1, 0, 17592186044416"

def NodeInfo.twoHuge : NodeInfo :=
  { gpus := ["GPU-1", "GPU-2"].map fun uuid =>
      { name := "GPU"
        vramBytes := some 0x8000000000000000
        vramUsedBytes := some 0
        utilizationPercent := none
        uuid := uuid
        vendor := .nvidia
        vendorId := some 0x10de } }

/-- With overflow checks each of the three panics, and without them each gives 0. -/
theorem telemetry_overflows :
    (Nvidia.parseStatic true Nvidia.hugeRow = .panicked ∧
      (Nvidia.parseStatic false Nvidia.hugeRow).map (·.map Gpu.vramBytes) = .returned [some 0] ∧
      ¬ ∀ checks, Nvidia.StaticExact Nvidia.hugeRow (Nvidia.parseStatic checks Nvidia.hugeRow)) ∧
    ((Nvidia.parseDynamic true Nvidia.hugeRow).map (·.lookup "GPU-1") = .panicked ∧
      (Nvidia.parseDynamic false Nvidia.hugeRow).map (·.lookup "GPU-1") =
        .returned (some (some 0, some 0)) ∧
      ¬ ∀ checks, Nvidia.DynamicExact Nvidia.hugeRow (Nvidia.parseDynamic checks Nvidia.hugeRow)) ∧
    (NodeInfo.twoHuge.freeVramBytes true = .panicked ∧
      NodeInfo.twoHuge.freeVramBytes false = .returned 0 ∧
      ¬ ∀ checks, Attempt.Exact (NodeInfo.twoHuge.freeVramBytes checks)
        NodeInfo.twoHuge.exactFree) := by
  have long : ¬ Nvidia.Fits Nvidia.hugeRow := by decide
  have total : ¬ NodeInfo.twoHuge.exactFree < 2 ^ 64 := by decide
  refine ⟨⟨by decide, by decide, ?_⟩, ⟨by decide, by decide, ?_⟩, ⟨by decide, by decide, ?_⟩⟩
  · exact fun every => long (Nvidia.static_exact_iff.mp every)
  · exact fun every => long (Nvidia.dynamic_exact_iff.mp every)
  · exact fun every => total (NodeInfo.free_exact_iff.mp every)

end OpenPair
