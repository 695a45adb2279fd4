import Mathlib.Data.List.TakeWhile
import OpenPair.Library.Attempt
import OpenPair.Rpc.Framing

/-! What the readers that go by a length make of every stream (`framing.rs`),
with the memory their bodies take.

A frame is a full header that announces a length, and so many bytes after it.
A stream that ends inside its header is taken for a clean end or an empty body,
and a length is believed before any byte of its body has come.
-/

set_option autoImplicit false

namespace OpenPair

open ByteReader

/-- The memory there is: whether `vec![0u8; n]` gets its bytes. No vector has more
than `isize::MAX` of them, and an empty one takes none. -/
structure Memory where
  grants : Nat → Bool
  empty : grants 0 = true
  limit : ∀ n, grants n = true → n < 2 ^ 63

/-! ## The readers -/

-- `read_exact` into the body.
def takeBody (len : Nat) (r : Reader) : Frame × Reader :=
  match r.readExact len with
  | (none, r) => (.error .unexpectedEof, r)
  | (some body, r) => (.ok (some body), r)

/-- `vec![0u8; len]`, which panics or aborts without memory, and the bytes read into it. -/
def readBody (memory : Memory) (len : Nat) (r : Reader) : Attempt (Frame × Reader) :=
  if memory.grants len then .returned (takeBody len r) else .panicked

def readLenPrefixedIn (memory : Memory) (r : Reader) : Attempt (Frame × Reader) :=
  match r.readExact 4 with
  | (none, r) => .returned (.ok none, r)
  | (some lenBuf, r) => readBody memory (fromBeBytes lenBuf) r

/-- How the loop of `read_content_length` is left. -/
inductive HeaderRead where
  | returned (frame : Frame)
  | header (bytes : Bytes)

-- The loop of `read_content_length`.
def readHeader (r : Reader) (header : Bytes) : HeaderRead × Reader :=
  match _got : (r.read 1).1 with
  | [] => (.returned (.ok (if header.isEmpty then none else some [])), (r.read 1).2)
  | byte :: _ =>
    let read := header ++ [byte]
    if blankLine.isSuffixOf read then (.header read, (r.read 1).2)
    else if maxHeader < read.length then
      (.returned (.error (.message "content-length header too large")), (r.read 1).2)
    else readHeader (r.read 1).2 read
termination_by r.bytes.length
decreasing_by
  have split := congrArg List.length (r.read_bytes 1)
  simp only [_got, List.length_append, List.length_cons] at split
  omega

def readContentLengthIn (memory : Memory) (r : Reader) : Attempt (Frame × Reader) :=
  match readHeader r [] with
  | (.returned frame, r) => .returned (frame, r)
  | (.header header, r) =>
    match headerLength header with
    | none => .returned (.error (.message "missing Content-Length"), r)
    | some len => readBody memory len r

def Framing.readFrameIn (memory : Memory) (framing : Framing) (r : Reader) :
    Attempt (Frame × Reader) :=
  match framing with
  | .jsonLines => .returned (readLine r [])
  | .lengthPrefixedBE => readLenPrefixedIn memory r
  | .contentLength => readContentLengthIn memory r

/-! ## The grammar -/

/-- Decimal digits and the number they stand for. -/
inductive Digits : List Char → Nat → Prop where
  | one (ch : Char) : ch.isDigit → Digits [ch] (ch.toNat - '0'.toNat)
  | more (ch : Char) (text : List Char) (n : Nat) : ch.isDigit → Digits text n →
      Digits (text ++ [ch]) (10 * n + (ch.toNat - '0'.toNat))

/-- A number that a length can have, in digits after a plus sign or without one. -/
structure Decimal (text : List Char) (n : Nat) : Prop where
  digits : Digits text n ∨ ∃ rest, text = '+' :: rest ∧ Digits rest n
  fits : n < 2 ^ 64

def lineEnd : List Char := ['\r', '\n']

inductive Lines : List Char → List (List Char) → Prop where
  | last (line : List Char) : ¬ lineEnd <:+: line → Lines line [line]
  | more (line text : List Char) (lines : List (List Char)) : ¬ lineEnd <:+: line →
      Lines text lines → Lines (line ++ lineEnd ++ text) (line :: lines)

def Spaced (text : List Char) (n : Nat) : Prop :=
  ∃ left digits right, text = left ++ digits ++ right ∧
    (∀ ch ∈ left ++ right, isWhitespace ch = true) ∧ Decimal digits n

/-- The last line that names a length gives this one. -/
def LastLength (lines : List (List Char)) (len : Nat) : Prop :=
  ∃ before value after, lines = before ++ (contentLengthName.toList ++ value) :: after ∧
    Spaced value len ∧ ∀ other ∈ after, ¬ contentLengthName.toList <+: other

namespace Framing

/-- A header from its first byte to its last. -/
def FullHeader (framing : Framing) (header : Bytes) : Prop :=
  match framing with
  | .jsonLines => False
  | .lengthPrefixedBE => header.length = 4
  | .contentLength => blankLine <:+ header ∧
      (∀ first, first <+: header → blankLine <:+ first → first = header) ∧
      header.length ≤ maxHeader + 1

def TooLong (framing : Framing) (s : Bytes) : Prop := framing = .contentLength ∧ maxHeader < s.length

def Announces (framing : Framing) (header : Bytes) (len : Nat) : Prop :=
  match framing with
  | .jsonLines => False
  | .lengthPrefixedBE => len < 2 ^ 32 ∧ header = toBeBytes len
  | .contentLength => ∃ lines, Lines (Utf8.lossy header).toList lines ∧ LastLength lines len

def Begins (framing : Framing) (s body : Bytes) : Prop :=
  ∃ header rest, s = header ++ (body ++ rest) ∧ framing.FullHeader header ∧
    framing.Announces header body.length

def cutFrame : Framing → Option Bytes
  | .contentLength => some []
  | _ => none

/-- What a call on a stream comes to, by how the stream begins. -/
inductive Reading (memory : Memory) (framing : Framing) (s : Bytes) : Attempt Frame → Prop where
  | ended : s = [] → Reading memory framing s (.returned (.ok none))
  | cut : s ≠ [] → (∀ header, header <+: s → ¬ framing.FullHeader header) → ¬ framing.TooLong s →
      Reading memory framing s (.returned (.ok framing.cutFrame))
  | tooLong (error : FrameError) : (∀ header, header <+: s → ¬ framing.FullHeader header) →
      framing.TooLong s → Reading memory framing s (.returned (.error error))
  | unnamed (header rest : Bytes) (error : FrameError) : s = header ++ rest →
      framing.FullHeader header → (∀ len, ¬ framing.Announces header len) →
      Reading memory framing s (.returned (.error error))
  | refused (header rest : Bytes) (len : Nat) : s = header ++ rest → framing.FullHeader header →
      framing.Announces header len → memory.grants len = false →
      Reading memory framing s .panicked
  | short (header rest : Bytes) (len : Nat) (error : FrameError) : s = header ++ rest →
      framing.FullHeader header → framing.Announces header len →
      memory.grants len = true → rest.length < len →
      Reading memory framing s (.returned (.error error))
  | whole (header body rest : Bytes) : s = header ++ (body ++ rest) → framing.FullHeader header →
      framing.Announces header body.length → memory.grants body.length = true →
      Reading memory framing s (.returned (.ok (some body)))

end Framing

section

variable {memory : Memory} {framing : Framing} {r : Reader} {s header rest : Bytes}

/-! ## The length in a header -/

section

variable {text digits line : List Char} {lines : List (List Char)} {n len : Nat}

theorem digits_iff : Digits text n ↔
    text ≠ [] ∧ (∀ ch ∈ text, ch.isDigit = true) ∧ n = Nat.ofDigitChars 10 text 0 := by
  induction text using List.reverseRecOn generalizing n with
  | nil =>
    refine iff_of_false (fun digits => ?_) fun some => some.1 rfl
    generalize empty : ([] : List Char) = text at digits
    cases digits with
    | one => cases empty
    | more => exact List.append_ne_nil_of_right_ne_nil _ (List.cons_ne_nil _ _) empty.symm
  | append_singleton text ch ih =>
    rw [Nat.ofDigitChars_append, Nat.ofDigitChars_cons, Nat.ofDigitChars_nil]
    constructor
    · intro digits
      generalize same : text ++ [ch] = whole at digits
      cases digits with
      | one digit isDigit =>
        have ends : text ++ [ch] = [] ++ [digit] := same
        obtain ⟨rfl, tail⟩ := List.append_inj' ends rfl
        obtain ⟨rfl, -⟩ := List.cons.inj tail
        exact ⟨List.cons_ne_nil _ _, fun other member => List.mem_singleton.mp member ▸ isDigit, by simp⟩
      | more digit front m isDigit digits =>
        obtain ⟨rfl, tail⟩ := List.append_inj' same rfl
        obtain ⟨rfl, -⟩ := List.cons.inj tail
        obtain ⟨-, plain, rfl⟩ := ih.mp digits
        refine ⟨by simp, fun other member => ?_, rfl⟩
        rcases List.mem_append.mp member with old | new
        · exact plain other old
        · rw [List.mem_singleton.mp new]
          exact isDigit
    · rintro ⟨-, plain, rfl⟩
      have isDigit := plain ch (by simp)
      cases text with
      | nil => simpa using Digits.one ch isDigit
      | cons first text =>
        refine .more ch _ _ isDigit (ih.mpr ⟨List.cons_ne_nil _ _, fun other member => ?_, rfl⟩)
        exact plain other (List.mem_append_left _ member)

theorem Digits.plain (digits : Digits text n) {ch : Char} (member : ch ∈ text) :
    isWhitespace ch = false ∧ ch ≠ '+' := by
  have isDigit := (digits_iff.mp digits).2.1 ch member
  simp only [Char.isDigit, Bool.and_eq_true, decide_eq_true_eq, ge_iff_le, UInt32.le_iff_toNat_le] at isDigit
  have low : 48 ≤ ch.toNat := isDigit.1
  have high : ch.toNat ≤ 57 := isDigit.2
  refine ⟨?_, fun plus => ?_⟩
  · simp [isWhitespace]
    omega
  · rw [plus] at low
    exact absurd low (by decide)

theorem Decimal.plain (decimal : Decimal text n) : ∀ ch ∈ text, isWhitespace ch = false := by
  intro ch member
  rcases decimal.digits with digits | ⟨rest, rfl, digits⟩
  · exact (digits.plain member).1
  · rcases List.mem_cons.mp member with rfl | member
    · rfl
    · exact (digits.plain member).1

theorem parseUsize_eq_some_iff : parseUsize text = some n ↔ Decimal text n := by
  have unsigned {rest : List Char} (digits : Digits rest n) : rest.head? ≠ some '+' :=
    fun plus => (digits.plain (List.mem_of_mem_head? plus)).2 rfl
  have read (rest : List Char) : (if rest ≠ [] ∧ rest.all Char.isDigit = true ∧
      Nat.ofDigitChars 10 rest 0 < 2 ^ 64 then some (Nat.ofDigitChars 10 rest 0) else none) =
        some n ↔ Digits rest n ∧ n < 2 ^ 64 := by
    rw [digits_iff, Option.ite_none_right_eq_some, List.all_eq_true, Option.some.injEq]
    constructor
    · rintro ⟨⟨some, plain, fits⟩, rfl⟩
      exact ⟨⟨some, plain, rfl⟩, fits⟩
    · rintro ⟨⟨some, plain, rfl⟩, fits⟩
      exact ⟨⟨some, plain, fits⟩, rfl⟩
  rw [parseUsize]
  by_cases plus : text.head? = some '+'
  · obtain ⟨rest, rfl⟩ := List.head?_eq_some_iff.mp plus
    rw [if_pos plus, List.tail_cons, read]
    constructor
    · rintro ⟨digits, fits⟩
      exact ⟨.inr ⟨rest, rfl, digits⟩, fits⟩
    · rintro ⟨digits | ⟨other, same, digits⟩, fits⟩
      · exact absurd plus (unsigned digits)
      · exact ⟨(List.cons.inj same).2 ▸ digits, fits⟩
  · rw [if_neg plus, read]
    constructor
    · rintro ⟨digits, fits⟩
      exact ⟨.inl digits, fits⟩
    · rintro ⟨digits | ⟨rest, rfl, -⟩, fits⟩
      · exact ⟨digits, fits⟩
      · exact absurd rfl plus

theorem splitCrLf_cons {ch : Char} (inside : ¬ lineEnd <+: ch :: text) :
    splitCrLf (ch :: text) =
      match splitCrLf text with
      | [] => [[ch]]
      | line :: lines => (ch :: line) :: lines := by
  have unended : ∀ rest, ch = '\r' → text = '\n' :: rest → False := by
    rintro rest rfl rfl
    exact inside ⟨rest, rfl⟩
  exact splitCrLf.eq_3 ch text unended

theorem splitCrLf_last (inside : ¬ lineEnd <:+: line) : splitCrLf line = [line] := by
  induction line with
  | nil => rfl
  | cons ch line ih =>
    rw [List.infix_cons_iff, not_or] at inside
    rw [splitCrLf_cons inside.1, ih inside.2]

theorem splitCrLf_more (inside : ¬ lineEnd <:+: line) (text : List Char) :
    splitCrLf (line ++ lineEnd ++ text) = line :: splitCrLf text := by
  induction line with
  | nil => rfl
  | cons ch line ih =>
    rw [List.infix_cons_iff, not_or] at inside
    have first : ¬ lineEnd <+: ch :: (line ++ lineEnd ++ text) := by
      rintro ⟨rest, same⟩
      -- The line feed would end the line, or it would be the first character of a line end.
      cases line with
      | nil => cases same
      | cons other line =>
        obtain ⟨rfl, tail⟩ := List.cons.inj same
        obtain ⟨rfl, -⟩ := List.cons.inj tail
        exact inside.1 ⟨line, rfl⟩
    have step := splitCrLf_cons first
    rw [ih inside.2] at step
    exact step

theorem lines_splitCrLf (text : List Char) : Lines text (splitCrLf text) := by
  have shorter {ch : Char} {rest : List Char}
      (whole : ∀ tail, ch = '\r' → rest = '\n' :: tail → False) {line after : List Char}
      (starts : rest = line ++ after) (inside : ¬ lineEnd <:+: line) :
      ¬ lineEnd <:+: ch :: line := by
    rw [List.infix_cons_iff, not_or]
    refine ⟨?_, inside⟩
    rintro ⟨tail, same⟩
    obtain ⟨rfl, rfl⟩ := List.cons.inj same
    exact whole _ rfl starts
  induction text using splitCrLf.induct with
  | case1 => exact .last [] (by decide)
  | case2 rest ih => exact .more [] rest _ (by decide) ih
  | case3 ch rest whole none ih =>
    rw [none] at ih
    cases ih
  | case4 ch rest whole line lines split ih =>
    have step : splitCrLf (ch :: rest) = (ch :: line) :: lines := by
      rw [splitCrLf, split]
      exact whole
    rw [step]
    rw [split] at ih
    cases ih with
    | last _ inside => exact .last _ (shorter whole (List.append_nil _).symm inside)
    | more _ text _ inside below =>
      exact .more (ch :: line) text lines (shorter whole (List.append_assoc _ _ _) inside) below

theorem lines_iff : Lines text lines ↔ splitCrLf text = lines := by
  constructor
  · intro cut
    induction cut with
    | last line inside => exact splitCrLf_last inside
    | more line text lines inside _ ih => rw [splitCrLf_more inside, ih]
  · rintro rfl
    exact lines_splitCrLf text

theorem spaced_iff {value : List Char} : parseUsize (trim value) = some len ↔ Spaced value len := by
  constructor
  · intro parsed
    refine ⟨value.takeWhile isWhitespace, trim value,
      ((value.dropWhile isWhitespace).reverse.takeWhile isWhitespace).reverse, ?_, ?_,
      parseUsize_eq_some_iff.mp parsed⟩
    · rw [trim, List.append_assoc, ← List.reverse_append, List.takeWhile_append_dropWhile,
        List.reverse_reverse, List.takeWhile_append_dropWhile]
    · intro ch member
      rcases List.mem_append.mp member with before | after
      · exact List.mem_takeWhile_imp before
      · exact List.mem_takeWhile_imp (List.mem_reverse.mp after)
  · rintro ⟨left, digits, right, rfl, spaces, decimal⟩
    rw [trim_padded (fun ch member => spaces ch (List.mem_append_left _ member)) decimal.plain
      fun ch member => spaces ch (List.mem_append_right _ member)]
    exact parseUsize_eq_some_iff.mpr decimal

end

/-- The code reads the length that the header announces. -/
theorem headerLength_eq_some_iff {len : Nat} :
    headerLength header = some len ↔ Framing.contentLength.Announces header len := by
  have announces : Framing.contentLength.Announces header len ↔
      LastLength (splitCrLf (Utf8.lossy header).toList) len := by
    simp only [Framing.Announces, lines_iff, exists_eq_left']
  rw [announces, headerLength]
  generalize splitCrLf (Utf8.lossy header).toList = lines
  -- The reader folds from the first line on, so the last line decides: induction from the end.
  induction lines using List.reverseRecOn with
  | nil => simp [LastLength]
  | append_singleton lines line ih =>
    rw [List.foldl_append, List.foldl_cons, List.foldl_nil]
    split
    · next named =>
      obtain ⟨value, rfl⟩ := List.isPrefixOf_iff_prefix.mp named
      rw [List.drop_left, spaced_iff]
      constructor
      · exact fun spaced => ⟨lines, value, [], rfl, spaced, fun _ member => by cases member⟩
      · rintro ⟨before, other, after, split, spaced, unnamed⟩
        rcases List.eq_nil_or_concat after with rfl | ⟨front, last, rfl⟩
        · have same := (List.cons.inj (List.append_inj' split rfl).2).1
          rwa [List.append_cancel_left same]
        · rw [List.concat_eq_append, ← List.cons_append, ← List.append_assoc] at split
          have same := (List.cons.inj (List.append_inj' split rfl).2).1
          exact absurd ⟨value, same⟩ (unnamed last (by simp))
    · next unnamed =>
      rw [List.isPrefixOf_iff_prefix] at unnamed
      refine ih.trans ⟨?_, ?_⟩
      · rintro ⟨before, value, after, rfl, spaced, later⟩
        refine ⟨before, value, after ++ [line], by simp, spaced, fun other member => ?_⟩
        rcases List.mem_append.mp member with old | new
        · exact later other old
        · rw [List.mem_singleton.mp new]
          exact unnamed
      · rintro ⟨before, value, after, split, spaced, later⟩
        rcases List.eq_nil_or_concat after with rfl | ⟨front, last, rfl⟩
        · have same := (List.cons.inj (List.append_inj' split rfl).2).1
          exact absurd ⟨value, same.symm⟩ unnamed
        · rw [List.concat_eq_append, ← List.cons_append, ← List.append_assoc] at split
          exact ⟨before, value, front, (List.append_inj' split rfl).1, spaced,
            fun other member => later other (by simp [member])⟩

theorem announces_length (long : header.length = 4) :
    Framing.lengthPrefixedBE.Announces header (fromBeBytes header) := by
  obtain ⟨a, b, c, d, rfl⟩ : ∃ a b c d, header = [a, b, c, d] := by
    match header, long with
    | [a, b, c, d], _ => exact ⟨a, b, c, d, rfl⟩
  have values := And.intro a.toNat_lt (And.intro b.toNat_lt (And.intro c.toNat_lt d.toNat_lt))
  have read : fromBeBytes [a, b, c, d] =
      a.toNat * 2 ^ 24 + b.toNat * 2 ^ 16 + c.toNat * 2 ^ 8 + d.toNat := by
    simp only [fromBeBytes, List.foldl_cons, List.foldl_nil]
    omega
  refine ⟨by omega, ?_⟩
  simp only [read, toBeBytes, List.cons.injEq, ← UInt8.toNat_inj, UInt8.toNat_ofNat', and_true]
  omega

theorem Framing.Announces.unique {len other : Nat} (announces : framing.Announces header len)
    (announces' : framing.Announces header other) : len = other := by
  cases framing with
  | jsonLines => exact announces.elim
  | lengthPrefixedBE =>
    obtain ⟨fits, written⟩ := announces
    obtain ⟨fits', written'⟩ := announces'
    rw [← fromBeBytes_toBeBytes fits, ← fromBeBytes_toBeBytes fits', ← written, ← written']
  | contentLength =>
    have read := headerLength_eq_some_iff.mpr announces
    rw [headerLength_eq_some_iff.mpr announces'] at read
    exact (Option.some.inj read).symm

/-! ## Bodies -/

theorem readBody_reading {len : Nat} (split : s = header ++ r.bytes)
    (full : framing.FullHeader header) (announces : framing.Announces header len) :
    framing.Reading memory s ((readBody memory len r).map (·.1)) := by
  unfold readBody
  split
  · next granted =>
    unfold takeBody
    rcases r.readExact_cases len with ⟨after, read, -, enough⟩ | ⟨after, read, short⟩
    · have long : (r.bytes.take len).length = len := List.length_take_of_le enough
      rw [read]
      refine .whole header (r.bytes.take len) (r.bytes.drop len) ?_ full ?_ ?_
      · rw [List.take_append_drop, split]
      · rwa [long]
      · rw [long, granted]
    · rw [read]
      exact .short header r.bytes len _ split full announces granted short
  · next refused =>
    exact .refused header r.bytes len split full announces (eq_false_of_ne_true refused)

/-! ## Length prefixes -/

theorem readLenPrefixedIn_reading (memory : Memory) (r : Reader) :
    Framing.lengthPrefixedBE.Reading memory r.bytes ((readLenPrefixedIn memory r).map (·.1)) := by
  unfold readLenPrefixedIn
  rcases r.readExact_cases 4 with ⟨after, read, left, enough⟩ | ⟨after, read, short⟩
  · have long : (r.bytes.take 4).length = 4 := List.length_take_of_le enough
    have split : r.bytes = r.bytes.take 4 ++ after.bytes := by rw [left, List.take_append_drop]
    rw [read]
    exact readBody_reading split long (announces_length long)
  · rw [read]
    by_cases empty : r.bytes = []
    · exact .ended empty
    · refine .cut empty (fun header starts full => ?_) (fun long => absurd long.1 (by decide))
      have longer := starts.length_le
      change header.length = 4 at full
      omega

/-! ## Headers -/

def scanHeader (header : Bytes) : Bytes → HeaderRead × Bytes
  | [] => (.returned (.ok (if header.isEmpty then none else some [])), [])
  | byte :: rest =>
    let read := header ++ [byte]
    if blankLine.isSuffixOf read then (.header read, rest)
    else if maxHeader < read.length then
      (.returned (.error (.message "content-length header too large")), rest)
    else scanHeader read rest

theorem readHeader_end (ended : r.bytes = []) (header : Bytes) : readHeader r header =
    (.returned (.ok (if header.isEmpty then none else some [])), (r.read 1).2) := by
  obtain ⟨nothing, -⟩ := Reader.read_end ended 1
  rw [readHeader]
  split
  · rfl
  · next got =>
    rw [nothing] at got
    cases got

theorem readHeader_byte {byte : UInt8} (held : r.bytes = byte :: s) (header : Bytes) :
    readHeader r header =
      if blankLine.isSuffixOf (header ++ [byte]) then (.header (header ++ [byte]), (r.read 1).2)
      else if maxHeader < (header ++ [byte]).length then
        (.returned (.error (.message "content-length header too large")), (r.read 1).2)
      else readHeader (r.read 1).2 (header ++ [byte]) := by
  obtain ⟨one, -⟩ := Reader.read_one held
  rw [readHeader]
  split
  · next got =>
    rw [one] at got
    cases got
  · next got =>
    rw [one] at got
    cases got
    rfl

theorem readHeader_eq (held : r.bytes = s) (header : Bytes) :
    ∃ after : Reader, after.bytes = (scanHeader header s).2 ∧
      readHeader r header = ((scanHeader header s).1, after) := by
  induction s generalizing r header with
  | nil =>
    rw [readHeader_end held]
    exact ⟨_, (Reader.read_end held 1).2, rfl⟩
  | cons byte s ih =>
    obtain ⟨-, left⟩ := Reader.read_one held
    rw [readHeader_byte held, scanHeader]
    by_cases ends : blankLine.isSuffixOf (header ++ [byte]) = true
    · simp only [ends, if_true]
      exact ⟨_, left, rfl⟩
    · by_cases long : maxHeader < (header ++ [byte]).length
      · simp only [ends, long, if_true]
        exact ⟨_, left, rfl⟩
      · simp only [ends, long, if_false]
        exact ih left _

def Unended (read : Bytes) : Prop := ∀ first, first <+: read → ¬ blankLine <:+ first

theorem Unended.concat {byte : UInt8} (unended : Unended header)
    (more : ¬ blankLine <:+ header ++ [byte]) : Unended (header ++ [byte]) := by
  intro first starts
  rcases List.prefix_concat_iff.mp starts with rfl | shorter
  · exact more
  · exact unended first shorter

theorem Unended.fullHeader {byte : UInt8} (unended : Unended header)
    (ends : blankLine <:+ header ++ [byte]) (short : header.length ≤ maxHeader) :
    Framing.contentLength.FullHeader (header ++ [byte]) := by
  refine ⟨ends, fun first starts ended => ?_, by simpa using short⟩
  rcases List.prefix_concat_iff.mp starts with same | shorter
  · exact same
  · exact absurd ended (unended first shorter)

/-- The loop ends with the stream, with a header or with too many bytes. -/
theorem scanHeader_cases (unended : Unended header) (short : header.length ≤ maxHeader) (s : Bytes) :
    (scanHeader header s = (.returned (.ok (if (header ++ s).isEmpty then none else some [])), []) ∧
      Unended (header ++ s) ∧ (header ++ s).length ≤ maxHeader) ∨
    (∃ full rest, scanHeader header s = (.header full, rest) ∧ header ++ s = full ++ rest ∧
      Framing.contentLength.FullHeader full) ∨
    (∃ read rest error, scanHeader header s = (.returned (.error error), rest) ∧
      header ++ s = read ++ rest ∧ Unended read ∧ maxHeader < read.length) := by
  induction s generalizing header with
  | nil =>
    rw [List.append_nil]
    exact .inl ⟨rfl, unended, short⟩
  | cons byte s ih =>
    have follows : header ++ byte :: s = header ++ [byte] ++ s := by simp
    rw [scanHeader, follows]
    split
    · next ends =>
      rw [List.isSuffixOf_iff_suffix] at ends
      exact .inr (.inl ⟨_, s, rfl, rfl, unended.fullHeader ends short⟩)
    · next more =>
      rw [List.isSuffixOf_iff_suffix] at more
      split
      · next long => exact .inr (.inr ⟨_, s, _, rfl, rfl, unended.concat more, long⟩)
      · next fits => exact ih (unended.concat more) (Nat.le_of_not_lt fits)

theorem not_fullHeader {read : Bytes} (unended : Unended read)
    (whole : s = read ∨ (read <+: s ∧ maxHeader < read.length)) :
    ∀ header, header <+: s → ¬ Framing.contentLength.FullHeader header := by
  rintro header starts ⟨ends, -, short⟩
  apply unended header _ ends
  rcases whole with rfl | ⟨begins, long⟩
  · exact starts
  · exact List.prefix_of_prefix_length_le starts begins (by omega)

theorem readContentLengthIn_reading (memory : Memory) (r : Reader) :
    Framing.contentLength.Reading memory r.bytes ((readContentLengthIn memory r).map (·.1)) := by
  obtain ⟨after, left, same⟩ := readHeader_eq (r := r) rfl []
  have start : Unended [] := by
    intro first starts ends
    rw [List.prefix_nil.mp starts] at ends
    exact absurd ends (by decide)
  unfold readContentLengthIn
  rw [same]
  rcases scanHeader_cases start (Nat.zero_le _) r.bytes with
    ⟨scanned, unended, short⟩ | ⟨full, rest, scanned, split, header⟩ |
      ⟨read, rest, error, scanned, split, unended, long⟩
  · rw [List.nil_append] at scanned unended short
    rw [scanned]
    by_cases empty : r.bytes = []
    · rw [empty]
      exact .ended rfl
    · rw [if_neg (by simpa using empty)]
      refine .cut empty (not_fullHeader unended (.inl rfl)) fun long => ?_
      have more := long.2
      omega
  · rw [List.nil_append] at split
    rw [scanned] at left ⊢
    dsimp only at left ⊢
    cases announces : headerLength full with
    | none =>
      refine .unnamed full rest _ split header fun len named => ?_
      rw [headerLength_eq_some_iff.mpr named] at announces
      cases announces
    | some len =>
      exact readBody_reading (by rw [left, split]) header (headerLength_eq_some_iff.mp announces)
  · rw [List.nil_append] at split
    rw [scanned]
    have begins : read <+: r.bytes := ⟨rest, split.symm⟩
    refine .tooLong _ (not_fullHeader unended (.inr ⟨begins, long⟩)) ⟨rfl, ?_⟩
    exact Nat.lt_of_lt_of_le long begins.length_le

theorem readFrameIn_reading (memory : Memory) (sized : framing ≠ .jsonLines) (r : Reader) :
    framing.Reading memory r.bytes ((framing.readFrameIn memory r).map (·.1)) := by
  cases framing with
  | jsonLines => exact absurd rfl sized
  | lengthPrefixedBE => exact readLenPrefixedIn_reading memory r
  | contentLength => exact readContentLengthIn_reading memory r

theorem written_fullHeader {n : Nat} (fits : n < 2 ^ 64) :
    Framing.contentLength.FullHeader (headerBytes n ++ blankLine) := by
  have parts : headerBytes n ++ blankLine = (headerBytes n ++ [cr, lf, cr]) ++ [lf] := by
    simp [blankLine]
  have long := headerBytes_length fits
  rw [parts]
  refine Unended.fullHeader (fun first starts => inside_headerBytes n starts) ?_ ?_
  · rw [← parts]
    exact List.suffix_append _ _
  · simp only [List.length_append, List.length_cons, List.length_nil, maxHeader]
    omega

/-! ## With memory enough -/

theorem readContentLength_eq (r : Reader) (header : Bytes) :
    readContentLength r header =
      match readHeader r header with
      | (.returned frame, r) => (frame, r)
      | (.header header, r) =>
        match headerLength header with
        | none => (.error (.message "missing Content-Length"), r)
        | some len => takeBody len r := by
  induction held : r.bytes generalizing r header with
  | nil =>
    obtain ⟨nothing, -⟩ := Reader.read_end held 1
    rw [readHeader_end held, readContentLength]
    split
    · rfl
    · next got =>
      rw [nothing] at got
      cases got
  | cons byte s ih =>
    obtain ⟨one, left⟩ := Reader.read_one held
    rw [readHeader_byte held, readContentLength]
    split
    · next got =>
      rw [one] at got
      cases got
    · next got =>
      rw [one] at got
      cases got
      by_cases ends : blankLine.isSuffixOf (header ++ [byte]) = true
      · simp only [ends, if_true]
        rfl
      · by_cases long : maxHeader < (header ++ [byte]).length
        · simp only [ends, long, if_true]
          rfl
        · simp only [ends, long, if_false]
          exact ih _ _ left

theorem readBody_returned {len : Nat} {read : Frame × Reader}
    (returns : readBody memory len r = .returned read) : read = takeBody len r := by
  unfold readBody at returns
  split at returns
  · exact (Attempt.returned.inj returns).symm
  · cases returns

/-- A call that returns does so as if there were memory for everything. -/
theorem readFrameIn_returned {read : Frame × Reader}
    (returns : framing.readFrameIn memory r = .returned read) : read = framing.readFrame r := by
  cases framing with
  | jsonLines => exact (Attempt.returned.inj returns).symm
  | lengthPrefixedBE =>
    simp only [Framing.readFrameIn, readLenPrefixedIn] at returns
    simp only [Framing.readFrame, readLenPrefixed]
    generalize r.readExact 4 = got at returns ⊢
    obtain ⟨_ | lenBuf, after⟩ := got
    · exact (Attempt.returned.inj returns).symm
    · exact readBody_returned returns
  | contentLength =>
    simp only [Framing.readFrameIn, readContentLengthIn] at returns
    simp only [Framing.readFrame, readContentLength_eq]
    generalize readHeader r [] = got at returns ⊢
    obtain ⟨frame | header, after⟩ := got
    · exact (Attempt.returned.inj returns).symm
    · dsimp only at returns ⊢
      cases announces : headerLength header with
      | none =>
        rw [announces] at returns
        exact (Attempt.returned.inj returns).symm
      | some len =>
        rw [announces] at returns
        exact readBody_returned returns

/-! ## Frames and nothing else -/

namespace Framing

theorem FullHeader.ne_nil (full : framing.FullHeader header) : header ≠ [] := by
  rintro rfl
  cases framing with
  | jsonLines => exact full
  | lengthPrefixedBE => cases full
  | contentLength => exact absurd full.1 (by decide)

theorem FullHeader.unique {other : Bytes} (full : framing.FullHeader header)
    (full' : framing.FullHeader other) (starts : header <+: s) (starts' : other <+: s) :
    other = header := by
  cases framing with
  | jsonLines => exact full.elim
  | lengthPrefixedBE =>
    have long : header.length = 4 := full
    have long' : other.length = 4 := full'
    exact (List.prefix_of_prefix_length_le starts' starts (by omega)).eq_of_length (by omega)
  | contentLength =>
    rcases List.prefix_or_prefix_of_prefix starts' starts with shorter | longer
    · exact full.2.1 other shorter full'.1
    · exact (full'.2.1 header longer full.1).symm

/-- Nothing is returned for an empty stream only, a body only where the stream
begins with its frame, and nothing panics: in all other cases there is an error. -/
def Meets (framing : Framing) (s : Bytes) : Attempt Frame → Prop
  | .panicked => False
  | .returned (.error _) => True
  | .returned (.ok none) => s = []
  | .returned (.ok (some body)) => framing.Begins s body

/-- A stream that does not end inside its header, and memory for the length that it gives. -/
def Served (memory : Memory) (framing : Framing) (s : Bytes) : Prop :=
  (s = [] ∨ (∃ header, header <+: s ∧ framing.FullHeader header) ∨ framing.TooLong s) ∧
    ∀ header len, header <+: s → framing.FullHeader header → framing.Announces header len →
      memory.grants len = true

theorem Reading.meets_iff {attempt : Attempt Frame} (reading : framing.Reading memory s attempt) :
    framing.Meets s attempt ↔ framing.Served memory s := by
  have served {header rest : Bytes} (split : s = header ++ rest) (full : framing.FullHeader header)
      (granted : ∀ len, framing.Announces header len → memory.grants len = true) :
      framing.Served memory s := by
    have starts : header <+: s := ⟨rest, split.symm⟩
    refine ⟨.inr (.inl ⟨header, starts, full⟩), fun other len starts' full' announces => ?_⟩
    rw [full.unique full' starts starts'] at announces
    exact granted len announces
  -- How the reading ended says which of the two sides can hold. A stream that is cut inside
  -- its header is the one that the reader takes for an end.
  cases reading with
  | ended empty =>
    refine iff_of_true empty ⟨.inl empty, fun header len starts full _ => ?_⟩
    rw [empty] at starts
    exact absurd (List.prefix_nil.mp starts) full.ne_nil
  | cut some headless short =>
    apply iff_of_false
    · intro meets
      cases framing with
      | jsonLines => exact some meets
      | lengthPrefixedBE => exact some meets
      | contentLength =>
        obtain ⟨header, rest, split, full, -⟩ := meets
        exact headless header ⟨_, split.symm⟩ full
    · rintro ⟨empty | ⟨header, starts, full⟩ | long, -⟩
      · exact some empty
      · exact headless header starts full
      · exact short long
  | tooLong error headless long =>
    exact iff_of_true trivial
      ⟨.inr (.inr long), fun header _ starts full _ => absurd full (headless header starts)⟩
  | unnamed header rest error split full nothing =>
    exact iff_of_true trivial (served split full fun len announces => absurd announces (nothing len))
  | refused header rest len split full announces refused =>
    apply iff_of_false id
    rintro ⟨-, granted⟩
    rw [granted header len ⟨rest, split.symm⟩ full announces] at refused
    cases refused
  | short header rest len error split full announces granted less =>
    refine iff_of_true trivial (served split full fun other same => ?_)
    rwa [same.unique announces]
  | whole header body rest split full announces granted =>
    refine iff_of_true ⟨header, rest, split, full, announces⟩ (served split full fun other same => ?_)
    rwa [same.unique announces]

/-- A frame that there is memory for is read, whatever follows it. -/
theorem Reading.of_begins {attempt : Attempt Frame} {body : Bytes}
    (reading : framing.Reading memory s attempt) (begins : framing.Begins s body)
    (granted : memory.grants body.length = true) : attempt = .returned (.ok (some body)) := by
  obtain ⟨header, rest, split, full, announces⟩ := begins
  have starts : header <+: s := ⟨body ++ rest, split.symm⟩
  have only {other more : Bytes} (split' : s = other ++ more) (full' : framing.FullHeader other) :
      other = header ∧ more = body ++ rest := by
    have same := full.unique full' starts ⟨more, split'.symm⟩
    rw [same, split] at split'
    exact ⟨same, (List.append_cancel_left split').symm⟩
  cases reading with
  | ended empty =>
    rw [empty] at starts
    exact absurd (List.prefix_nil.mp starts) full.ne_nil
  | cut _ headless => exact absurd full (headless header starts)
  | tooLong _ headless => exact absurd full (headless header starts)
  | unnamed other more _ split' full' nothing =>
    rw [(only split' full').1] at nothing
    exact absurd announces (nothing _)
  | refused other more len split' full' announces' refused =>
    rw [(only split' full').1] at announces'
    rw [announces'.unique announces, granted] at refused
    cases refused
  | short other more len _ split' full' announces' _ less =>
    rw [(only split' full').1] at announces'
    rw [(only split' full').2, List.length_append, announces'.unique announces] at less
    omega
  | whole other body' more split' full' announces' =>
    obtain ⟨same, rests⟩ := only split' full'
    rw [same] at announces'
    obtain ⟨rfl, -⟩ := List.append_inj rests (announces'.unique announces)
    rfl

end Framing

/-- A reader that goes by a length makes frames, errors and the end of a stream
what they are exactly where the stream does not end inside its header and there
is memory for the length that its header gives. -/
theorem read_frame_meets_iff (memory : Memory) (framing : Framing) (sized : framing ≠ .jsonLines)
    (r : Reader) :
    (framing.Meets r.bytes ((framing.readFrameIn memory r).map (·.1)) ↔
      framing.Served memory r.bytes) ∧
    ∀ body, framing.Begins r.bytes body → memory.grants body.length = true →
      (framing.readFrameIn memory r).map (·.1) = .returned (.ok (some body)) ∧
        (framing.readFrame r).1 = .ok (some body) := by
  have reading := readFrameIn_reading memory sized r
  refine ⟨reading.meets_iff, fun body begins granted => ?_⟩
  have whole := reading.of_begins begins granted
  cases returns : framing.readFrameIn memory r with
  | panicked =>
    rw [returns] at whole
    cases whole
  | returned read =>
    rw [returns] at whole
    refine ⟨whole, ?_⟩
    rw [← readFrameIn_returned returns]
    exact Attempt.returned.inj whole

end

namespace Reference

def memory : Memory where
  grants n := n < 2 ^ 63
  empty := rfl
  limit _ granted := of_decide_eq_true granted

def oneChunk (bytes : Bytes) : Reader where
  chunks := if bytes = [] then [] else [bytes]
  nonempty := by
    intro chunk member
    split at member
    · cases member
    · next some =>
      rw [List.mem_singleton.mp member]
      exact some

theorem oneChunk_bytes (bytes : Bytes) : (oneChunk bytes).bytes = bytes := by
  unfold oneChunk Reader.bytes
  split
  · next empty => exact empty.symm
  · exact List.append_nil bytes

end Reference

/-- `{}` behind its length, and behind a header that gives it. -/
theorem read_frame_meets_iff_object :
    Framing.lengthPrefixedBE.Meets (toBeBytes 2 ++ utf8 "{}")
      ((Framing.lengthPrefixedBE.readFrameIn Reference.memory
        (Reference.oneChunk (toBeBytes 2 ++ utf8 "{}"))).map (·.1)) ∧
    Framing.contentLength.Meets (headerBytes 2 ++ blankLine ++ utf8 "{}")
      ((Framing.contentLength.readFrameIn Reference.memory
        (Reference.oneChunk (headerBytes 2 ++ blankLine ++ utf8 "{}"))).map (·.1)) := by
  have served {framing : Framing} {header : Bytes} (full : framing.FullHeader header)
      (announces : framing.Announces header 2) :
      framing.Served Reference.memory (Reference.oneChunk (header ++ utf8 "{}")).bytes := by
    rw [Reference.oneChunk_bytes]
    have starts : header <+: header ++ utf8 "{}" := List.prefix_append _ _
    refine ⟨.inr (.inl ⟨header, starts, full⟩), fun other len starts' full' announces' => ?_⟩
    rw [full.unique full' starts starts'] at announces'
    rw [announces'.unique announces]
    rfl
  have header := headerLength_eq_some_iff.mp (headerLength_written (by decide : 2 < 2 ^ 64))
  have behindLength := (read_frame_meets_iff Reference.memory .lengthPrefixedBE (by decide)
    (Reference.oneChunk (toBeBytes 2 ++ utf8 "{}"))).1.mpr (served rfl (announces_length rfl))
  have behindHeader := (read_frame_meets_iff Reference.memory .contentLength (by decide)
    (Reference.oneChunk (headerBytes 2 ++ blankLine ++ utf8 "{}"))).1.mpr
      (served (written_fullHeader (by decide)) header)
  rw [Reference.oneChunk_bytes] at behindLength behindHeader
  exact ⟨behindLength, behindHeader⟩

theorem Reference.not_meets {framing : Framing} (sized : framing ≠ .jsonLines) {bytes : Bytes}
    (unserved : ¬ framing.Served Reference.memory bytes) : ¬ framing.Meets bytes
      ((framing.readFrameIn Reference.memory (Reference.oneChunk bytes)).map (·.1)) := by
  have reading := readFrameIn_reading Reference.memory sized (Reference.oneChunk bytes)
  rw [Reference.oneChunk_bytes] at reading
  exact fun meets => unserved (reading.meets_iff.mp meets)

/-- Half a length, half a header, and a length that no vector has. -/
theorem read_frame_misread :
    (¬ Framing.lengthPrefixedBE.Meets [0, 0]
      ((Framing.lengthPrefixedBE.readFrameIn Reference.memory (Reference.oneChunk [0, 0])).map (·.1))) ∧
    (¬ Framing.contentLength.Meets [0x43, 0x6F]
      ((Framing.contentLength.readFrameIn Reference.memory
        (Reference.oneChunk [0x43, 0x6F])).map (·.1))) ∧
    ¬ Framing.contentLength.Meets (headerBytes (2 ^ 63) ++ blankLine)
      ((Framing.contentLength.readFrameIn Reference.memory
        (Reference.oneChunk (headerBytes (2 ^ 63) ++ blankLine))).map (·.1)) := by
  refine ⟨Reference.not_meets (by decide) ?_, Reference.not_meets (by decide) ?_,
    Reference.not_meets (by decide) ?_⟩
  · rintro ⟨empty | ⟨header, starts, full⟩ | long, -⟩
    · cases empty
    · have four : header.length = 4 := full
      have two := starts.length_le
      rw [four] at two
      exact absurd two (by decide)
    · exact absurd long.1 (by decide)
  · rintro ⟨empty | ⟨header, starts, full⟩ | long, -⟩
    · cases empty
    · have two := Nat.le_trans full.1.length_le starts.length_le
      exact absurd two (by decide)
    · exact absurd long.2 (by decide)
  · rintro ⟨-, granted⟩
    have huge := Reference.memory.limit (2 ^ 63) (granted _ _ List.prefix_rfl
      (written_fullHeader (by decide))
      (headerLength_eq_some_iff.mp (headerLength_written (by decide))))
    omega

end OpenPair
