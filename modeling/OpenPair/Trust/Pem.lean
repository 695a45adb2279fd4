import Mathlib.Data.List.Induction
import OpenPair.Library.Base64
import OpenPair.Trust.Identity

/-! The PEM reader of `identity.rs` on a text that carries a certificate. -/

set_option autoImplicit false

namespace OpenPair

/-! ## Base64 -/

theorem utf8_ascii {text : List Char} (ascii : ∀ ch ∈ text, ch.toNat < 128) :
    utf8 (String.ofList text) = text.map Char.toUInt8 := by
  induction text with
  | nil => rfl
  | cons ch text ih =>
    have one : ch.utf8Size = 1 := by
      have small := ascii ch List.mem_cons_self
      rw [Char.utf8Size_eq_one_iff]
      exact UInt32.le_iff_toNat_le.mpr (Nat.le_of_lt_succ small)
    have rest := ih fun other member => ascii other (List.mem_cons_of_mem _ member)
    have first : utf8 (String.ofList [ch]) = [ch.toUInt8] := by
      simp [utf8, List.utf8Encode, String.utf8EncodeChar_eq_singleton one]
    rw [← List.singleton_append, String.ofList_append, utf8_append, first, rest]
    rfl

def base64Digit (n : Nat) : UInt8 := (Base64.standard.char n).toUInt8

theorem base64Table_eq : base64Table = (List.range' 0x41 26 ++ List.range' 0x61 26 ++
    List.range' 0x30 10 ++ [0x2B, 0x2F]).map UInt8.ofNat := by
  decide

theorem base64Value_digit : ∀ n < 64, base64Value (base64Digit n) = UInt8.ofNat n := by
  simp only [base64Value, base64Table_eq]
  decide

theorem base64Digit_read : ∀ n < 64, (base64Digit n == 0x3D || isAsciiWhitespace (base64Digit n)) =
    false ∧ UInt8.ofNat n ≠ 255 := by
  decide

theorem standard_ascii : ∀ n < 64, (Base64.standard.char n).toNat < 128 := by decide

def pushed (buf : UInt32) (n : Nat) : UInt32 := (buf <<< 6) ||| (UInt8.ofNat n).toUInt32

theorem pushed_toNat (buf : UInt32) {n : Nat} (small : n < 64) :
    (pushed buf n).toNat = buf.toNat % 2 ^ 26 * 64 + n := by
  have digit : n % 256 = n := Nat.mod_eq_of_lt (by omega)
  have shifted : buf.toNat * 64 % 2 ^ 32 = buf.toNat % 2 ^ 26 * 2 ^ 6 := by omega
  have bits : (pushed buf n).toNat = buf.toNat <<< 6 % 2 ^ 32 ||| n := by
    simp [pushed, digit]
  rw [bits, Nat.shiftLeft_eq, shifted, Nat.mul_comm _ (2 ^ 6),
    ← Nat.two_pow_add_eq_or_of_lt (by omega)]
  omega

theorem base64Loop_digit (buf bits : UInt32) {n : Nat} (small : n < 64) (rest : Bytes) :
    base64Loop buf bits (base64Digit n :: rest) =
      if 8 ≤ bits + 6 then
        (base64Loop (pushed buf n) (bits + 6 - 8) rest).map
          ((pushed buf n >>> (bits + 6 - 8)).toUInt8 :: ·)
      else base64Loop (pushed buf n) (bits + 6) rest := by
  obtain ⟨read, digit⟩ := base64Digit_read n small
  rw [base64Loop, read, base64Value_digit n small]
  simp only [Bool.false_eq_true, if_false, digit]
  rfl

theorem emitted (buf : UInt32) {shift : UInt32} {byte : Nat} (inside : shift.toNat < 32)
    (value : buf.toNat / 2 ^ shift.toNat % 256 = byte) : (buf >>> shift).toUInt8 = UInt8.ofNat byte := by
  apply UInt8.toNat_inj.mp
  simp [Nat.mod_eq_of_lt inside, Nat.shiftRight_eq_div_pow, ← value]

theorem first_emitted (buf : UInt32) {v w : Nat} (hv : v < 64) (hw : w < 64) :
    (pushed (pushed buf v) w >>> 4).toUInt8 = UInt8.ofNat (v * 4 + w / 16) := by
  refine emitted _ (by decide) ?_
  rw [pushed_toNat _ hw, pushed_toNat _ hv, show (4 : UInt32).toNat = 4 from rfl]
  omega

theorem second_emitted (buf : UInt32) {w x : Nat} (hw : w < 64) (hx : x < 64) :
    (pushed (pushed buf w) x >>> 2).toUInt8 = UInt8.ofNat (w % 16 * 16 + x / 4) := by
  refine emitted _ (by decide) ?_
  rw [pushed_toNat _ hx, pushed_toNat _ hw, show (2 : UInt32).toNat = 2 from rfl]
  omega

theorem third_emitted (buf : UInt32) {x y : Nat} (hx : x < 64) (hy : y < 64) :
    (pushed (pushed buf x) y >>> 0).toUInt8 = UInt8.ofNat (x % 4 * 64 + y) := by
  refine emitted _ (by decide) ?_
  rw [pushed_toNat _ hy, pushed_toNat _ hx, show (0 : UInt32).toNat = 0 from rfl]
  omega

theorem base64Loop_first (buf : UInt32) {v w : Nat} (hv : v < 64) (hw : w < 64) (rest : Bytes) :
    base64Loop buf 0 (base64Digit v :: base64Digit w :: rest) =
      (base64Loop (pushed (pushed buf v) w) 4 rest).map (UInt8.ofNat (v * 4 + w / 16) :: ·) := by
  rw [base64Loop_digit _ _ hv, if_neg (by decide), base64Loop_digit _ _ hw, if_pos (by decide),
    ← first_emitted buf hv hw]
  rfl

theorem base64Loop_second (buf : UInt32) {w x : Nat} (hw : w < 64) (hx : x < 64) (rest : Bytes) :
    base64Loop (pushed buf w) 4 (base64Digit x :: rest) =
      (base64Loop (pushed (pushed buf w) x) 2 rest).map
        (UInt8.ofNat (w % 16 * 16 + x / 4) :: ·) := by
  rw [base64Loop_digit _ _ hx, if_pos (by decide), ← second_emitted buf hw hx]
  rfl

theorem base64Loop_third (buf : UInt32) {x y : Nat} (hx : x < 64) (hy : y < 64) (rest : Bytes) :
    base64Loop (pushed buf x) 2 (base64Digit y :: rest) =
      (base64Loop (pushed (pushed buf x) y) 0 rest).map (UInt8.ofNat (x % 4 * 64 + y) :: ·) := by
  rw [base64Loop_digit _ _ hy, if_pos (by decide), ← third_emitted buf hx hy]
  rfl

theorem base64Loop_padding (buf bits : UInt32) (pad : Nat) :
    base64Loop buf bits (List.replicate pad 0x3D) = some [] := by
  induction pad with
  | zero => rfl
  | succ pad ih => exact ih

theorem base64Loop_digits {values : List Nat} (small : ∀ n ∈ values, n < 64) (pad : Nat)
    (buf : UInt32) :
    base64Loop buf 0 (values.map base64Digit ++ List.replicate pad 0x3D) =
      some (Base64.octets values) := by
  induction values using Base64.octets.induct generalizing buf with
  | case1 v w x y rest ih =>
    simp only [List.forall_mem_cons] at small
    obtain ⟨hv, hw, hx, hy, rest⟩ := small
    simp only [List.map_cons, List.cons_append, base64Loop_first _ hv hw,
      base64Loop_second _ hw hx, base64Loop_third _ hx hy, ih rest, Option.map_some, Base64.octets]
  | case2 v w x =>
    simp only [List.forall_mem_cons] at small
    obtain ⟨hv, hw, hx, -⟩ := small
    simp only [List.map_cons, List.map_nil, List.cons_append, List.nil_append,
      base64Loop_first _ hv hw, base64Loop_second _ hw hx, base64Loop_padding, Option.map_some,
      Base64.octets]
  | case3 v w =>
    simp only [List.forall_mem_cons] at small
    obtain ⟨hv, hw, -⟩ := small
    simp only [List.map_cons, List.map_nil, List.cons_append, List.nil_append,
      base64Loop_first _ hv hw, base64Loop_padding, Option.map_some, Base64.octets]
  | case4 values not4 not3 not2 =>
    -- One digit alone completes no byte.
    rcases values with _ | ⟨v, _ | ⟨w, _ | ⟨x, _ | ⟨y, rest⟩⟩⟩⟩
    · exact base64Loop_padding _ _ _
    · have hv := small v List.mem_cons_self
      rw [List.map_singleton, List.singleton_append, base64Loop_digit _ _ hv, if_neg (by decide)]
      exact base64Loop_padding _ _ _
    · exact absurd rfl (not2 v w)
    · exact absurd rfl (not3 v w x)
    · exact absurd rfl (not4 v w x y rest)

/-- The decoder inverts the standard encoding, with its padding or without. -/
theorem base64Decode_encode (padded : Bool) (bytes : Bytes) :
    base64Decode (Base64.encode Base64.standard padded bytes) = some bytes := by
  have digits := Base64.sextets_lt bytes
  have read (pad : Nat) : base64Decode ((Base64.sextets bytes).map Base64.standard.char ++
      List.replicate pad '=') = some bytes := by
    have ascii : ∀ ch ∈ (Base64.sextets bytes).map Base64.standard.char ++ List.replicate pad '=',
        ch.toNat < 128 := by
      intro ch member
      rcases List.mem_append.mp member with digit | sign
      · obtain ⟨n, found, rfl⟩ := List.mem_map.mp digit
        exact standard_ascii n (digits n found)
      · rw [List.eq_of_mem_replicate sign]
        decide
    rw [base64Decode, utf8_ascii ascii, List.map_append, List.map_map, List.map_replicate]
    exact (base64Loop_digits digits pad 0).trans (congrArg some (Base64.octets_sextets bytes))
  unfold Base64.encode Base64.padding
  split
  · exact read _
  · exact read 0

/-! ## Lines -/

def IsBase64 (ch : Char) : Prop := ch = '=' ∨ ∃ n < 64, ch = Base64.standard.char n

theorem isBase64_of_mem_encode {bytes : Bytes} {ch : Char}
    (member : ch ∈ Base64.encode Base64.standard true bytes) : IsBase64 ch := by
  rcases List.mem_append.mp member with digit | sign
  · obtain ⟨n, found, rfl⟩ := List.mem_map.mp digit
    exact .inr ⟨n, Base64.sextets_lt bytes n found, rfl⟩
  · exact .inl (List.eq_of_mem_replicate sign)

theorem IsBase64.plain {ch : Char} (digit : IsBase64 ch) :
    ch ≠ '\n' ∧ ch ≠ '\r' ∧ ch ≠ '-' ∧ isWhitespace ch = false := by
  have all : ∀ n < 64, Base64.standard.char n ≠ '\n' ∧ Base64.standard.char n ≠ '\r' ∧
      Base64.standard.char n ≠ '-' ∧ isWhitespace (Base64.standard.char n) = false := by
    decide
  rcases digit with rfl | ⟨n, small, rfl⟩
  · decide
  · exact all n small

def withoutReturn (line : List Char) : List Char :=
  if line.getLast? = some '\r' then line.dropLast else line

theorem linesFrom_newline {line : List Char} (one : '\n' ∉ line) (started rest : List Char) :
    linesFrom started (line ++ '\n' :: rest) =
      withoutReturn (started.reverse ++ line) :: linesFrom [] rest := by
  induction line generalizing started with
  | nil =>
    rw [List.nil_append, linesFrom, if_pos rfl, List.append_nil, withoutReturn, List.getLast?_reverse,
      List.dropLast_reverse]
    split <;> rfl
  | cons ch line ih =>
    rw [List.mem_cons, not_or] at one
    rw [List.cons_append, linesFrom, if_neg (Ne.symm one.1), ih one.2, List.reverse_cons,
      List.append_assoc, List.singleton_append]

theorem linesFrom_last {line : List Char} (one : '\n' ∉ line) {started : List Char}
    (some : started ≠ []) : linesFrom started line = [started.reverse ++ line] := by
  induction line generalizing started with
  | nil =>
    rw [linesFrom, if_neg (by simpa using some), List.append_nil]
  | cons ch line ih =>
    rw [List.mem_cons, not_or] at one
    rw [linesFrom, if_neg (Ne.symm one.1), ih one.2 (List.cons_ne_nil _ _), List.reverse_cons,
      List.append_assoc, List.singleton_append]

theorem linesFrom_single {line : List Char} (one : '\n' ∉ line) (some : line ≠ []) :
    linesFrom [] line = [line] := by
  cases line with
  | nil => exact absurd rfl some
  | cons ch line =>
    rw [List.mem_cons, not_or] at one
    rw [linesFrom, if_neg (Ne.symm one.1), linesFrom_last one.2 (List.cons_ne_nil _ _)]
    rfl

/-- What stands before a newline does not change the lines after it. -/
theorem linesFrom_append (started first rest : List Char) :
    linesFrom started (first ++ '\n' :: rest) =
      linesFrom started (first ++ ['\n']) ++ linesFrom [] rest := by
  induction first generalizing started with
  | nil => simp [linesFrom]
  | cons ch first ih =>
    rw [List.cons_append, List.cons_append, linesFrom, linesFrom]
    split
    · rw [ih, List.cons_append]
    · rw [ih]

theorem lines_append {before : List Char} (ends : before = [] ∨ before.getLast? = some '\n')
    (rest : List Char) : linesFrom [] (before ++ rest) = linesFrom [] before ++ linesFrom [] rest := by
  rcases ends with rfl | ends
  · rfl
  · obtain ⟨first, rfl⟩ := List.getLast?_eq_some_iff.mp ends
    rw [List.append_assoc, List.singleton_append, linesFrom_append]

/-! ## Spaces -/

theorem trim_eq {line : List Char} (plain : ∀ ch ∈ line, isWhitespace ch = false) :
    trim line = line := by
  have keeps {text : List Char} (plain : ∀ ch ∈ text, isWhitespace ch = false) :
      text.dropWhile isWhitespace = text := by
    cases text with
    | nil => rfl
    | cons ch text => simp [plain ch List.mem_cons_self]
  rw [trim, keeps plain, keeps fun ch member => plain ch (List.mem_reverse.mp member),
    List.reverse_reverse]

theorem trim_concat (line : List Char) {ch : Char} (space : isWhitespace ch = true) :
    trim (line ++ [ch]) = trim line := by
  rw [trim, List.dropWhile_append]
  split
  · next blank => simp [trim, space, List.isEmpty_iff.mp blank]
  · rw [List.reverse_append, List.reverse_singleton, List.singleton_append,
      List.dropWhile_cons_of_pos space, trim]

theorem trim_withoutReturn (line : List Char) : trim (withoutReturn line) = trim line := by
  rw [withoutReturn]
  split
  · next last =>
    obtain ⟨front, rfl⟩ := List.getLast?_eq_some_iff.mp last
    rw [List.dropLast_concat, trim_concat front (by decide)]
  · rfl

theorem trim_padded {left text right : List Char} (before : ∀ ch ∈ left, isWhitespace ch = true)
    (plain : ∀ ch ∈ text, isWhitespace ch = false) (after : ∀ ch ∈ right, isWhitespace ch = true) :
    trim (left ++ text ++ right) = text := by
  induction right using List.reverseRecOn with
  | nil =>
    rw [List.append_nil, trim, List.dropWhile_append_of_pos before]
    exact trim_eq plain
  | append_singleton right ch ih =>
    rw [← List.append_assoc, trim_concat _ (after ch (by simp))]
    exact ih fun other member => after other (List.mem_append_left _ member)

/-! ## Markers -/

def IsMarker (line : List Char) : Prop := beginCertificate <+: line ∨ endCertificate <+: line

theorem begins_with_marker {mark : List Char} (ends : mark.getLast? = some '-') (rest : List Char) :
    mark <+: withoutReturn (mark ++ rest) := by
  rw [withoutReturn]
  split
  · next last =>
    rcases List.eq_nil_or_concat rest with rfl | ⟨front, ch, rfl⟩
    · rw [List.append_nil, ends] at last
      cases last
    · rw [List.concat_eq_append, ← List.append_assoc, List.dropLast_concat]
      exact List.prefix_append _ _
  · exact List.prefix_append _ _

theorem pemBody_before {before : List (List Char)} (unmarked : ∀ line ∈ before, ¬ IsMarker line)
    (rest : List (List Char)) : pemBody false (before ++ rest) = pemBody false rest := by
  induction before with
  | nil => rfl
  | cons line before ih =>
    obtain ⟨here, unmarked⟩ := List.forall_mem_cons.mp unmarked
    rw [IsMarker, not_or, ← List.isPrefixOf_iff_prefix, ← List.isPrefixOf_iff_prefix] at here
    rw [List.cons_append, pemBody, if_neg here.1, if_neg here.2, if_neg Bool.false_ne_true, ih unmarked]

theorem pemBody_line {line : List Char} (unmarked : ¬ IsMarker line) (rest : List (List Char)) :
    pemBody true (line :: rest) = trim line ++ pemBody true rest := by
  rw [IsMarker, not_or, ← List.isPrefixOf_iff_prefix, ← List.isPrefixOf_iff_prefix] at unmarked
  rw [pemBody, if_neg unmarked.1, if_neg unmarked.2, if_pos rfl]

theorem not_isMarker {line : List Char} (plain : ∀ ch ∈ line, ch ≠ '-') : ¬ IsMarker line := by
  have dashed {mark : List Char} (dash : '-' ∈ mark) : ¬ mark <+: line :=
    fun starts => plain '-' (starts.subset dash) rfl
  rintro (starts | starts)
  · exact dashed (by decide) starts
  · exact dashed (by decide) starts

/-! ## A certificate in a text -/

/-- A line of the base64 text, with spaces around it and either line ending. -/
structure PemLine where
  left : List Char
  text : List Char
  right : List Char
  crlf : Bool
  spaces : ∀ ch ∈ left ++ right, isWhitespace ch = true ∧ ch ≠ '\n'

def PemLine.line (l : PemLine) : List Char :=
  l.left ++ l.text ++ l.right ++ if l.crlf then ['\r'] else []

/-- A text that holds a certificate: a block whose lines carry its base64 text.
A marker may be followed by more on its line. -/
structure PemText (der : Bytes) where
  before : List Char
  trailer : List Char
  body : List PemLine
  after : List Char
  starts : before = [] ∨ before.getLast? = some '\n'
  unmarked : ∀ line ∈ lines (String.ofList before), ¬ IsMarker line
  one : '\n' ∉ trailer
  encodes : body.flatMap PemLine.text = Base64.encode Base64.standard true der

def PemText.text {der : Bytes} (file : PemText der) : String :=
  String.ofList (file.before ++ (beginCertificate ++ file.trailer ++ '\n' ::
    (file.body.flatMap (fun l => l.line ++ ['\n']) ++ (endCertificate ++ file.after))))

theorem PemLine.spaced (l : PemLine) : ∃ right : List Char, l.line = l.left ++ l.text ++ right ∧
    (∀ ch ∈ right, isWhitespace ch = true ∧ ch ≠ '\n') := by
  refine ⟨l.right ++ if l.crlf then ['\r'] else [], by simp [line], ?_⟩
  intro ch member
  rcases List.mem_append.mp member with inside | ending
  · exact l.spaces ch (List.mem_append_right _ inside)
  · split at ending
    · rw [List.mem_singleton.mp ending]
      decide
    · cases ending

theorem PemLine.trim_line {l : PemLine} (digits : ∀ ch ∈ l.text, IsBase64 ch) :
    trim (withoutReturn l.line) = l.text := by
  obtain ⟨right, same, spaces⟩ := l.spaced
  rw [trim_withoutReturn, same]
  exact trim_padded (fun ch member => (l.spaces ch (List.mem_append_left _ member)).1)
    (fun ch member => (digits ch member).plain.2.2.2) (fun ch member => (spaces ch member).1)

theorem PemLine.plain {l : PemLine} (digits : ∀ ch ∈ l.text, IsBase64 ch) :
    ∀ ch ∈ l.line, ch ≠ '\n' ∧ ch ≠ '-' := by
  obtain ⟨right, same, spaces⟩ := l.spaced
  have apart {ch : Char} (space : isWhitespace ch = true) : ch ≠ '-' := by
    rintro rfl
    cases space
  intro ch member
  rw [same, List.mem_append, List.mem_append] at member
  rcases member with (inside | inside) | inside
  · have space := l.spaces ch (List.mem_append_left _ inside)
    exact ⟨space.2, apart space.1⟩
  · exact ⟨(digits ch inside).plain.1, (digits ch inside).plain.2.2.1⟩
  · exact ⟨(spaces ch inside).2, apart (spaces ch inside).1⟩

theorem pemBody_lines {body : List PemLine} (digits : ∀ l ∈ body, ∀ ch ∈ l.text, IsBase64 ch)
    (rest : List Char) :
    pemBody true (linesFrom [] (body.flatMap (fun l => l.line ++ ['\n']) ++ rest)) =
      body.flatMap PemLine.text ++ pemBody true (linesFrom [] rest) := by
  induction body with
  | nil => rfl
  | cons l body ih =>
    obtain ⟨here, digits⟩ := List.forall_mem_cons.mp digits
    have plain := PemLine.plain here
    have unmarked : ¬ IsMarker (withoutReturn l.line) := by
      apply not_isMarker
      intro ch member
      rw [withoutReturn] at member
      split at member
      · exact (plain ch (List.dropLast_subset _ member)).2
      · exact (plain ch member).2
    rw [List.flatMap_cons, List.append_assoc, List.append_assoc, List.singleton_append,
      linesFrom_newline fun member => (plain _ member).1 rfl, List.reverse_nil, List.nil_append,
      pemBody_line unmarked, PemLine.trim_line here, ih digits, List.flatMap_cons, List.append_assoc]

theorem pemBody_end (after : List Char) : pemBody true (linesFrom [] (endCertificate ++ after)) = [] := by
  have closes {line : List Char} (starts : endCertificate <+: line) (rest : List (List Char)) :
      pemBody true (line :: rest) = [] := by
    have other : beginCertificate.isPrefixOf line = false := by
      obtain ⟨more, rfl⟩ := starts
      rfl
    rw [pemBody, other, if_neg Bool.false_ne_true, if_pos (List.isPrefixOf_iff_prefix.mpr starts)]
  have plain : '\n' ∉ endCertificate := by decide
  by_cases newline : '\n' ∈ after
  · obtain ⟨line, rest, rfl, one⟩ := List.eq_append_cons_of_mem newline
    rw [← List.append_assoc, linesFrom_newline (by simp [plain, one])]
    exact closes (begins_with_marker rfl line) _
  · have some : endCertificate ++ after ≠ [] :=
      fun empty => absurd (List.append_eq_nil_iff.mp empty).1 (by decide)
    rw [linesFrom_single (by simp [plain, newline]) some]
    exact closes (List.prefix_append _ _) []

theorem pemBody_text {der : Bytes} (file : PemText der) :
    pemBody false (lines file.text) = Base64.encode Base64.standard true der := by
  obtain ⟨before, trailer, body, after, starts, unmarked, one, encodes⟩ := file
  have digits : ∀ l ∈ body, ∀ ch ∈ l.text, IsBase64 ch := by
    intro l member ch inside
    have found : ch ∈ body.flatMap PemLine.text := List.mem_flatMap.mpr ⟨l, member, inside⟩
    rw [encodes] at found
    exact isBase64_of_mem_encode found
  have opens : '\n' ∉ beginCertificate ++ trailer := by
    rw [List.mem_append, not_or]
    exact ⟨by decide, one⟩
  rw [lines, String.toList_ofList] at unmarked
  rw [lines, PemText.text, String.toList_ofList, lines_append starts, pemBody_before unmarked,
    linesFrom_newline opens, List.reverse_nil, List.nil_append, pemBody,
    if_pos (List.isPrefixOf_iff_prefix.mpr (begins_with_marker rfl trailer)), pemBody_lines digits,
    pemBody_end, List.append_nil, encodes]

theorem encode_ne_nil {der : Bytes} (some : der ≠ []) :
    Base64.encode Base64.standard true der ≠ [] := by
  intro empty
  have decoded := base64Decode_encode true der
  rw [empty] at decoded
  exact some (Option.some.inj decoded).symm

/-- A certificate in PEM is read back, however its base64 text is laid out. -/
theorem pemCertToDer_text {der : Bytes} (some : der ≠ []) (file : PemText der) :
    pemCertToDer file.text = .some der := by
  have held : (Base64.encode Base64.standard true der).isEmpty = false :=
    List.isEmpty_eq_false_iff.mpr (encode_ne_nil some)
  simp only [pemCertToDer, pemBody_text, held, Bool.false_eq_true, if_false,
    base64Decode_encode true der]

theorem pemCertToDer_block {block : List (List Char)} {der : Bytes} (some : der ≠ [])
    (encodes : block.flatten = Base64.encode Base64.standard true der) :
    pemCertToDer (String.ofList (beginCertificate ++ '\n' :: (block.flatMap (· ++ ['\n']) ++
      (endCertificate ++ ['\n'])))) = .some der := by
  let bare (text : List Char) : PemLine :=
    { left := [], text := text, right := [], crlf := false, spaces := fun _ none => by cases none }
  let file : PemText der :=
    { before := [], trailer := [], body := block.map bare, after := ['\n'], starts := .inl rfl
      unmarked := fun _ none => by cases none
      one := fun none => by cases none
      encodes := by
        rw [List.flatMap_map, ← encodes]
        exact List.flatMap_id }
  have text : file.text = String.ofList (beginCertificate ++ '\n' :: (block.flatMap (· ++ ['\n']) ++
      (endCertificate ++ ['\n']))) := by
    simp [file, PemText.text, bare, PemLine.line, List.flatMap_map]
  rw [← text]
  exact pemCertToDer_text some file

end OpenPair
