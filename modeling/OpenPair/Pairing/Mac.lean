import OpenPair.Crates

/-! The confirmation MACs and fingerprints of `mac.rs` over the association array. -/

set_option autoImplicit false

namespace OpenPair

variable (c : Crates)

-- The loop of `mac_equal`: the bits in which the two slices differ.
def macDiff : Bytes → Bytes → UInt8
  | x :: xs, y :: ys => (x ^^^ y) ||| macDiff xs ys
  | _, _ => 0

def macEqual (a b : Bytes) : Bool :=
  if a.length ≠ b.length then false else macDiff a b == 0

theorem macDiff_eq_zero {a b : Bytes} (sameLength : a.length = b.length) :
    macDiff a b = 0 ↔ a = b := by
  induction a generalizing b with
  | nil =>
    cases b with
    | nil => simp [macDiff]
    | cons y ys => simp at sameLength
  | cons x xs ih =>
    cases b with
    | nil => simp at sameLength
    | cons y ys =>
      have tail := ih (b := ys) (by simpa using sameLength)
      rw [macDiff, UInt8.or_eq_zero_iff, UInt8.xor_eq_zero_iff, tail, List.cons.injEq]

@[simp] theorem macEqual_iff (a b : Bytes) : macEqual a b = true ↔ a = b := by
  unfold macEqual
  by_cases sameLength : a.length = b.length
  · simp [sameLength, macDiff_eq_zero sameLength]
  · simp only [ne_eq, sameLength, not_false_eq_true, ↓reduceIte, Bool.false_eq_true, false_iff]
    exact fun same => sameLength (congrArg List.length same)

@[simp] theorem macEqual_eq_false (a b : Bytes) : macEqual a b = false ↔ a ≠ b := by
  rw [← Bool.not_eq_true, macEqual_iff]

/-- The exchanged fields of the MAC input, each the JSON text of the field. -/
@[ext]
structure MacInputs where
  vers : String := ""
  verp : String := ""
  peerId : String := ""
  cryptosuites : String := ""
  dirs : String := ""
  serverInfo : String := ""
  cryptosuitep : String := ""
  dirp : String := ""
  nai : String := ""
  peerInfo : String := ""
  pks : String := ""
  ns : String := ""
  pkp : String := ""
  np : String := ""
  noob : String := ""
  deriving DecidableEq, Repr

def el (s : String) : String :=
  if s.isEmpty then "\"\"" else s

-- The seventeen elements, with the KeyingMode literal at index eleven.
def noobParts (lead : String) (m : MacInputs) : List String :=
  [lead, el m.vers, el m.verp, el m.peerId, el m.cryptosuites, el m.dirs, el m.serverInfo,
    el m.cryptosuitep, el m.dirp, el m.nai, el m.peerInfo, "0", el m.pks, el m.ns, el m.pkp,
    el m.np, el m.noob]

def noobArray (lead : String) (m : MacInputs) : Bytes :=
  utf8 ("[" ++ ",".intercalate (noobParts lead m) ++ "]")

def computeMac (key : Bytes) (lead : Int64) (m : MacInputs) : ByteArr 32 :=
  c.hmacSha256 key (noobArray (toString lead) m)

def truncate16 (full : ByteArr 32) : ByteArr 16 :=
  ByteArr.slice full.bytes 0 16 (by rw [full.length_eq]; decide)

def computeNoobId (noobJson : String) : ByteArr 16 :=
  truncate16 (c.sha256 (utf8 ("[\"NoobId\"," ++ noobJson ++ "]")))

end OpenPair
