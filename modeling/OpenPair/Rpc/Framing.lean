import OpenPair.Library.ByteReader
import OpenPair.Library.Utf8
import OpenPair.Trust.Pem

/-! Message framing over a byte stream (`framing.rs`), and that what is written
is read back.

There are three schemes: a line, a length before the body, and a header before
the body. Each reader takes the stream as it comes, in pieces of any size.
-/

set_option autoImplicit false

namespace OpenPair

open ByteReader

inductive Framing where
  | jsonLines
  | lengthPrefixedBE
  | contentLength
  deriving DecidableEq

inductive FrameError where
  | message (text : String)
  | unexpectedEof
  deriving DecidableEq

def lf : UInt8 := 0x0A

def cr : UInt8 := 0x0D

/-- `(n as u32).to_be_bytes()`. -/
def toBeBytes (n : Nat) : Bytes :=
  [.ofNat (n / 2 ^ 24), .ofNat (n / 2 ^ 16), .ofNat (n / 2 ^ 8), .ofNat n]

-- `u32::from_be_bytes`.
def fromBeBytes (bytes : Bytes) : Nat := bytes.foldl (fun n byte => 256 * n + byte.toNat) 0

def contentLengthName : String := "Content-Length:"

def blankLine : Bytes := [cr, lf, cr, lf]

namespace Framing

def encode (framing : Framing) (body : Bytes) : Bytes :=
  match framing with
  | .jsonLines => body ++ [lf]
  | .lengthPrefixedBE => toBeBytes body.length ++ body
  | .contentLength =>
    utf8 (contentLengthName ++ " " ++ toString body.length) ++ blankLine ++ body

end Framing

/-! ## The readers -/

/-- What a call returns: a body, nothing at the end, or an error. -/
abbrev Frame := Except FrameError (Option Bytes)

-- The loop of `read_line`, which skips blank lines.
def readLine (r : Reader) (buf : Bytes) : Frame × Reader :=
  match _got : (r.read 1).1 with
  | [] => (.ok (if buf.isEmpty then none else some buf), (r.read 1).2)
  | byte :: _ =>
    if byte = lf then
      let line := if buf.getLast? = some cr then buf.dropLast else buf
      if line.isEmpty then readLine (r.read 1).2 line else (.ok (some line), (r.read 1).2)
    else readLine (r.read 1).2 (buf ++ [byte])
termination_by r.bytes.length
decreasing_by
  all_goals
    have split := congrArg List.length (r.read_bytes 1)
    simp only [_got, List.length_append, List.length_cons] at split
    omega

def readLenPrefixed (r : Reader) : Frame × Reader :=
  match r.readExact 4 with
  | (none, r) => (.ok none, r)
  | (some lenBuf, r) =>
    match r.readExact (fromBeBytes lenBuf) with
    | (none, r) => (.error .unexpectedEof, r)
    | (some body, r) => (.ok (some body), r)

-- `str::split` at each line end.
def splitCrLf : List Char → List (List Char)
  | [] => [[]]
  | '\r' :: '\n' :: rest => [] :: splitCrLf rest
  | ch :: rest =>
    match splitCrLf rest with
    | [] => [[ch]]
    | line :: lines => (ch :: line) :: lines

/-- `str::parse::<usize>`. -/
def parseUsize (text : List Char) : Option Nat :=
  let digits := if text.head? = some '+' then text.tail else text
  let n := Nat.ofDigitChars 10 digits 0
  if digits ≠ [] ∧ digits.all Char.isDigit ∧ n < 2 ^ 64 then some n else none

/-- The length a header gives; the last line that names one counts. -/
def headerLength (header : Bytes) : Option Nat :=
  (splitCrLf (Utf8.lossy header).toList).foldl (fun len line =>
    if contentLengthName.toList.isPrefixOf line then
      parseUsize (trim (line.drop contentLengthName.toList.length))
    else len) none

def maxHeader : Nat := 8192

-- The loop of `read_content_length`, and what follows it.
def readContentLength (r : Reader) (header : Bytes) : Frame × Reader :=
  match _got : (r.read 1).1 with
  | [] => (.ok (if header.isEmpty then none else some []), (r.read 1).2)
  | byte :: _ =>
    let read := header ++ [byte]
    if blankLine.isSuffixOf read then
      match headerLength read with
      | none => (.error (.message "missing Content-Length"), (r.read 1).2)
      | some len =>
        match (r.read 1).2.readExact len with
        | (none, r) => (.error .unexpectedEof, r)
        | (some body, r) => (.ok (some body), r)
    else if maxHeader < read.length then
      (.error (.message "content-length header too large"), (r.read 1).2)
    else readContentLength (r.read 1).2 read
termination_by r.bytes.length
decreasing_by
  have split := congrArg List.length (r.read_bytes 1)
  simp only [_got, List.length_append, List.length_cons] at split
  omega

def Framing.readFrame (framing : Framing) (r : Reader) : Frame × Reader :=
  match framing with
  | .jsonLines => readLine r []
  | .lengthPrefixedBE => readLenPrefixed r
  | .contentLength => readContentLength r []

-- `read_frame` so many times.
def Framing.readFrames (framing : Framing) : Nat → Reader → List Frame
  | 0, _ => []
  | n + 1, r => (framing.readFrame r).1 :: framing.readFrames n (framing.readFrame r).2

/-- A body as a message is written: some bytes on one line, whose number fits the
length field. -/
structure Body (body : Bytes) : Prop where
  some : body ≠ []
  lf : lf ∉ body
  cr : cr ∉ body
  short : body.length < 2 ^ 32

/-- What a reader makes of the bytes to come: the body, and the bytes after it. -/
def Reads (read : Frame × Reader) (body : Option Bytes) (rest : Bytes) : Prop :=
  read.1 = .ok body ∧ read.2.bytes = rest

section

variable {r : Reader} {buf body rest : Bytes} {b : UInt8}

/-! ## Lines -/

theorem readLine_end (ended : r.bytes = []) : Reads (readLine r []) none [] := by
  obtain ⟨nothing, left⟩ := Reader.read_end ended 1
  rw [readLine]
  split
  · exact ⟨rfl, left⟩
  · next got =>
    rw [nothing] at got
    cases got

theorem readLine_byte (held : r.bytes = b :: rest) (inside : b ≠ lf) :
    readLine r buf = readLine (r.read 1).2 (buf ++ [b]) := by
  obtain ⟨one, -⟩ := Reader.read_one held
  rw [readLine]
  split
  · next got =>
    rw [one] at got
    cases got
  · next got =>
    rw [one] at got
    cases got
    rw [if_neg inside]

theorem readLine_lf (held : r.bytes = lf :: rest) (some : buf ≠ [])
    (plain : buf.getLast? ≠ .some cr) : Reads (readLine r buf) (.some buf) rest := by
  obtain ⟨one, left⟩ := Reader.read_one held
  rw [readLine]
  split
  · next got =>
    rw [one] at got
    cases got
  · next got =>
    rw [one] at got
    cases got
    simp only [if_true, if_neg plain]
    rw [if_neg (by simpa using some)]
    exact ⟨rfl, left⟩

theorem readLine_append (held : r.bytes = body ++ lf :: rest) (lf' : lf ∉ body)
    (some : buf ++ body ≠ []) (plain : (buf ++ body).getLast? ≠ .some cr) :
    Reads (readLine r buf) (.some (buf ++ body)) rest := by
  induction body generalizing r buf with
  | nil =>
    rw [List.append_nil] at some plain ⊢
    exact readLine_lf held some plain
  | cons b body ih =>
    rw [List.mem_cons, not_or] at lf'
    have follows : buf ++ b :: body = buf ++ [b] ++ body := by simp
    rw [readLine_byte held (Ne.symm lf'.1), follows]
    rw [follows] at some plain
    exact ih (Reader.read_one held).2 lf'.2 some plain

/-! ## Lengths -/

theorem fromBeBytes_toBeBytes {n : Nat} (fits : n < 2 ^ 32) : fromBeBytes (toBeBytes n) = n := by
  simp only [fromBeBytes, toBeBytes, List.foldl_cons, List.foldl_nil, UInt8.toNat_ofNat']
  omega

theorem readLenPrefixed_append (held : r.bytes = toBeBytes body.length ++ (body ++ rest))
    (fits : body.length < 2 ^ 32) : Reads (readLenPrefixed r) (some body) rest := by
  have long : (toBeBytes body.length).length = 4 := rfl
  obtain ⟨first, after⟩ := r.readExact_append held
  rw [long] at first after
  obtain ⟨second, left⟩ := Reader.readExact_append _ after
  unfold readLenPrefixed
  generalize r.readExact 4 = read at first second left ⊢
  obtain ⟨lenBuf, r'⟩ := read
  dsimp only at first second left ⊢
  subst first
  dsimp only
  rw [fromBeBytes_toBeBytes fits]
  generalize r'.readExact body.length = read at second left ⊢
  obtain ⟨got, r''⟩ := read
  dsimp only at second left
  subst second
  exact ⟨rfl, left⟩

theorem readLenPrefixed_end (ended : r.bytes = []) : Reads (readLenPrefixed r) none [] := by
  obtain ⟨nothing, left⟩ := Reader.readExact_end ended (by decide : 0 < 4)
  unfold readLenPrefixed
  generalize r.readExact 4 = read at nothing left ⊢
  obtain ⟨lenBuf, r'⟩ := read
  dsimp only at nothing left
  subst nothing
  exact ⟨rfl, left⟩

/-! ## Headers -/

theorem parseUsize_toString {n : Nat} (fits : n < 2 ^ 64) :
    parseUsize (toString n).toList = some n := by
  have digits : (toString n).toList = Nat.toDigits 10 n := Nat.toList_repr
  have plain : ∀ ch ∈ Nat.toDigits 10 n, ch.isDigit = true := fun ch member =>
    Nat.isDigit_of_mem_toDigits (by decide) (by decide) member
  have unsigned : (Nat.toDigits 10 n).head? ≠ some '+' := by
    intro signed
    have digit := plain '+' (List.mem_of_mem_head? signed)
    cases digit
  rw [digits, parseUsize, if_neg unsigned]
  simp only [Nat.ofDigitChars_ten_toDigits]
  rw [if_pos ⟨Nat.toDigits_ne_nil, List.all_eq_true.mpr plain, fits⟩]

theorem splitCrLf_line {line : List Char} (plain : '\r' ∉ line) (rest : List Char) :
    splitCrLf (line ++ '\r' :: '\n' :: rest) = line :: splitCrLf rest := by
  induction line with
  | nil => rfl
  | cons ch line ih =>
    rw [List.mem_cons, not_or] at plain
    have step : splitCrLf (ch :: (line ++ '\r' :: '\n' :: rest)) =
        match splitCrLf (line ++ '\r' :: '\n' :: rest) with
        | [] => [[ch]]
        | line :: lines => (ch :: line) :: lines := by
      rw [splitCrLf]
      intro tail same
      exact absurd same (Ne.symm plain.1)
    rw [List.cons_append, step, ih plain.2]

def headerText (n : Nat) : List Char := contentLengthName.toList ++ ' ' :: (toString n).toList

def headerBytes (n : Nat) : Bytes := utf8 (contentLengthName ++ " " ++ toString n)

theorem digit_range {n : Nat} {ch : Char} (member : ch ∈ (toString n).toList) :
    48 ≤ ch.toNat ∧ ch.toNat ≤ 57 := by
  have digits : (toString n).toList = Nat.toDigits 10 n := Nat.toList_repr
  rw [digits] at member
  have digit := Nat.isDigit_of_mem_toDigits (by decide) (by decide) member
  simp only [Char.isDigit, Bool.and_eq_true, decide_eq_true_eq] at digit
  exact ⟨UInt32.le_iff_toNat_le.mp digit.1, UInt32.le_iff_toNat_le.mp digit.2⟩

theorem headerText_range {n : Nat} {ch : Char} (member : ch ∈ headerText n) :
    32 ≤ ch.toNat ∧ ch.toNat < 128 := by
  have name : contentLengthName.toList.all fun ch => 32 ≤ ch.toNat && ch.toNat < 128 := by decide
  rcases List.mem_append.mp member with first | last
  · have range := List.all_eq_true.mp name ch first
    simpa using range
  · rcases List.mem_cons.mp last with rfl | digit
    · decide
    · have range := digit_range digit
      omega

theorem headerText_eq (n : Nat) :
    contentLengthName ++ " " ++ toString n = String.ofList (headerText n) := by
  rw [← String.toList_inj, String.toList_ofList]
  simp [headerText]

theorem headerBytes_eq (n : Nat) : headerBytes n = (headerText n).map Char.toUInt8 := by
  rw [headerBytes, headerText_eq, utf8_ascii fun ch member => (headerText_range member).2]

theorem lf_not_mem_headerBytes (n : Nat) : lf ∉ headerBytes n := by
  rw [headerBytes_eq, List.mem_map]
  rintro ⟨ch, member, same⟩
  have range := headerText_range member
  have value : ch.toUInt8.toNat = ch.toNat % 256 := UInt32.toNat_toUInt8 ch.val
  rw [same] at value
  have small : lf.toNat = 10 := rfl
  omega

theorem headerBytes_length {n : Nat} (fits : n < 2 ^ 64) : (headerBytes n).length ≤ 36 := by
  have digits : (toString n).toList.length ≤ 20 := by
    have same : (toString n).toList = Nat.toDigits 10 n := Nat.toList_repr
    rw [same, Nat.length_toDigits_le_iff (by decide) (by decide)]
    omega
  have name : contentLengthName.toList.length = 15 := by decide
  rw [headerBytes_eq, List.length_map, headerText, List.length_append, List.length_cons, name]
  omega

theorem trim_number (n : Nat) : trim (' ' :: (toString n).toList) = (toString n).toList := by
  have plain : ∀ ch ∈ (toString n).toList, isWhitespace ch = false := by
    intro ch member
    have range := digit_range member
    simp [isWhitespace]
    omega
  have space : isWhitespace ' ' = true := rfl
  rw [trim, List.dropWhile_cons_of_pos space]
  exact trim_eq plain

theorem headerLength_written {n : Nat} (fits : n < 2 ^ 64) :
    headerLength (headerBytes n ++ blankLine) = some n := by
  have blank : blankLine = utf8 "\r\n\r\n" := by decide
  have text : (Utf8.lossy (headerBytes n ++ blankLine)).toList =
      headerText n ++ '\r' :: '\n' :: ([] ++ '\r' :: '\n' :: []) := by
    have same : Utf8.lossy (headerBytes n ++ blankLine) =
        contentLengthName ++ " " ++ toString n ++ "\r\n\r\n" := by
      rw [headerBytes, blank, ← utf8_append]
      exact Utf8.lossy_utf8 _
    rw [same, headerText_eq, String.toList_append, String.toList_ofList]
    rfl
  have plain : '\r' ∉ headerText n := by
    intro member
    exact absurd (headerText_range member).1 (by decide)
  rw [headerLength, text, splitCrLf_line plain, splitCrLf_line List.not_mem_nil, splitCrLf]
  have named : contentLengthName.toList.isPrefixOf (headerText n) = true :=
    List.isPrefixOf_iff_prefix.mpr (List.prefix_append _ _)
  have blank : contentLengthName.toList.isPrefixOf [] = false := by decide
  have number : (headerText n).drop contentLengthName.toList.length = ' ' :: (toString n).toList :=
    List.drop_left
  simp only [List.foldl_cons, List.foldl_nil, named, blank, if_true, Bool.false_eq_true, if_false,
    number, trim_number, parseUsize_toString fits]

theorem readContentLength_byte {header : Bytes} (held : r.bytes = b :: rest)
    (inside : ¬ blankLine <:+ header ++ [b]) (short : (header ++ [b]).length ≤ maxHeader) :
    readContentLength r header = readContentLength (r.read 1).2 (header ++ [b]) := by
  obtain ⟨one, -⟩ := Reader.read_one held
  rw [readContentLength]
  split
  · next got =>
    rw [one] at got
    cases got
  · next got =>
    rw [one] at got
    cases got
    dsimp only
    rw [if_neg (by rwa [List.isSuffixOf_iff_suffix]), if_neg (Nat.not_lt.mpr short)]

theorem readContentLength_bytes {header text : Bytes} (held : r.bytes = text ++ rest)
    (inside : ∀ read, read <+: header ++ text → ¬ blankLine <:+ read)
    (short : (header ++ text).length ≤ maxHeader) :
    ∃ after : Reader, after.bytes = rest ∧
      readContentLength r header = readContentLength after (header ++ text) := by
  induction text generalizing r header with
  | nil => exact ⟨r, held, by rw [List.append_nil]⟩
  | cons b text ih =>
    have follows : header ++ b :: text = header ++ [b] ++ text := by simp
    rw [follows] at inside short ⊢
    have first : (header ++ [b]).length ≤ maxHeader := by
      rw [List.length_append] at short
      omega
    rw [readContentLength_byte held (inside _ (List.prefix_append _ _)) first]
    exact ih (Reader.read_one held).2 inside short

theorem readContentLength_last {header : Bytes} (held : r.bytes = lf :: (body ++ rest))
    (ends : blankLine <:+ header ++ [lf])
    (long : headerLength (header ++ [lf]) = some body.length) :
    Reads (readContentLength r header) (some body) rest := by
  obtain ⟨one, left⟩ := Reader.read_one held
  obtain ⟨filled, after⟩ := Reader.readExact_append _ left
  rw [readContentLength]
  split
  · next got =>
    rw [one] at got
    cases got
  · next got =>
    rw [one] at got
    cases got
    dsimp only
    rw [if_pos (List.isSuffixOf_iff_suffix.mpr ends), long]
    dsimp only
    generalize (r.read 1).2.readExact body.length = read at filled after ⊢
    obtain ⟨got, r'⟩ := read
    dsimp only at filled after
    subst filled
    exact ⟨rfl, after⟩

/-- The end of a header is not in the middle of one that is written. -/
theorem inside_headerBytes (n : Nat) {read : Bytes}
    (part : read <+: headerBytes n ++ [cr, lf, cr]) : ¬ blankLine <:+ read := by
  intro ends
  have none : (headerBytes n).count lf = 0 := List.count_eq_zero.mpr (lf_not_mem_headerBytes n)
  have few : (headerBytes n ++ [cr, lf, cr]).count lf = 1 := by
    rw [List.count_append, none]
    rfl
  have many : blankLine.count lf = 2 := rfl
  have inner := ends.sublist.count_le lf
  have outer := part.sublist.count_le lf
  omega

theorem readContentLength_append (held : r.bytes = headerBytes body.length ++ blankLine ++ body ++ rest)
    (fits : body.length < 2 ^ 32) : Reads (readContentLength r []) (some body) rest := by
  have parts : headerBytes body.length ++ blankLine ++ body ++ rest =
      headerBytes body.length ++ [cr, lf, cr] ++ lf :: (body ++ rest) := by simp [blankLine]
  have short : ([] ++ (headerBytes body.length ++ [cr, lf, cr])).length ≤ maxHeader := by
    have long := headerBytes_length (n := body.length) (by omega)
    simp only [List.nil_append, List.length_append, List.length_cons, List.length_nil, maxHeader]
    omega
  rw [parts] at held
  obtain ⟨after, left, same⟩ := readContentLength_bytes held
    (fun read part => inside_headerBytes _ part) short
  have whole : [] ++ (headerBytes body.length ++ [cr, lf, cr]) ++ [lf] =
      headerBytes body.length ++ blankLine := by simp [blankLine]
  rw [same]
  apply readContentLength_last left
  · rw [whole]
    exact List.suffix_append _ _
  · rw [whole]
    exact headerLength_written (by omega)

theorem readContentLength_end (ended : r.bytes = []) : Reads (readContentLength r []) none [] := by
  obtain ⟨nothing, left⟩ := Reader.read_end ended 1
  rw [readContentLength]
  split
  · exact ⟨rfl, left⟩
  · next got =>
    rw [nothing] at got
    cases got

/-! ## Frames -/

namespace Framing

/-- What was written for a body is read as that body, and nothing after it. -/
theorem readFrame_append (framing : Framing) (valid : Body body)
    (held : r.bytes = framing.encode body ++ rest) : Reads (framing.readFrame r) (some body) rest := by
  cases framing with
  | jsonLines =>
    have plain : ([] ++ body).getLast? ≠ some cr := by
      intro last
      exact valid.cr (List.mem_of_getLast? last)
    rw [encode, List.append_assoc] at held
    exact readLine_append held valid.lf valid.some plain
  | lengthPrefixedBE =>
    rw [encode, List.append_assoc] at held
    exact readLenPrefixed_append held valid.short
  | contentLength => exact readContentLength_append held valid.short

theorem readFrame_end (framing : Framing) (ended : r.bytes = []) :
    Reads (framing.readFrame r) none [] := by
  cases framing with
  | jsonLines => exact readLine_end ended
  | lengthPrefixedBE => exact readLenPrefixed_end ended
  | contentLength => exact readContentLength_end ended

theorem readFrames_end (framing : Framing) (ended : r.bytes = []) (n : Nat) :
    framing.readFrames n r = List.replicate n (.ok none) := by
  induction n generalizing r with
  | zero => rfl
  | succ n ih =>
    obtain ⟨nothing, left⟩ := framing.readFrame_end ended
    rw [readFrames, nothing, ih left, List.replicate_succ]

end Framing

end

/-- Reading what was written for a list of bodies, however it arrives, returns
these bodies in order, and from then on nothing. -/
theorem frames_round_trip (framing : Framing) (bodies : List Bytes)
    (valid : ∀ body ∈ bodies, Body body) (r : Reader)
    (held : r.bytes = (bodies.map framing.encode).flatten) (more : Nat) :
    framing.readFrames (bodies.length + more) r =
      bodies.map (fun body => .ok (some body)) ++ List.replicate more (.ok none) := by
  induction bodies generalizing r with
  | nil =>
    rw [List.length_nil, Nat.zero_add]
    exact framing.readFrames_end held more
  | cons body rest ih =>
    rw [List.map_cons, List.flatten_cons] at held
    obtain ⟨first, left⟩ := framing.readFrame_append (valid body List.mem_cons_self) held
    have succ : (body :: rest).length + more = rest.length + more + 1 := by
      rw [List.length_cons]
      omega
    rw [succ, Framing.readFrames, first,
      ih (fun other member => valid other (List.mem_cons_of_mem _ member)) _ left]
    rfl

namespace Reference

-- `{}` and `[]` on two lines, in three pieces.
def linesReader : Reader where
  chunks := [[0x7B], [0x7D, 0x0A, 0x5B], [0x5D, 0x0A]]
  nonempty := by decide

end Reference

theorem frames_round_trip_reference :
    Framing.jsonLines.readFrames 3 Reference.linesReader =
      [.ok (some [0x7B, 0x7D]), .ok (some [0x5B, 0x5D]), .ok none] := by
  have valid : ∀ body ∈ [[0x7B, 0x7D], [0x5B, 0x5D]], Body body := by
    intro body member
    rcases List.mem_pair.mp member with rfl | rfl
    · constructor <;> decide
    · constructor <;> decide
  exact frames_round_trip .jsonLines _ valid Reference.linesReader rfl 1

end OpenPair
