import OpenPair.Library.JsonGrammar
import OpenPair.Pairing.Mac

/-! The association array determines the fields it is built from.

The fields are joined by bare commas. A field that is JSON closes its brackets
and strings, so that the array splits at the commas outside them only.
-/

set_option autoImplicit false

namespace OpenPair

theorem el_of_ne {t : String} (some : t ≠ "") : el t = t := by
  simp [el, some]

theorem el_empty : el "" = "\"\"" := rfl

def MacInputs.texts (m : MacInputs) : List String :=
  [m.vers, m.verp, m.peerId, m.cryptosuites, m.dirs, m.serverInfo, m.cryptosuitep, m.dirp, m.nai,
    m.peerInfo, m.pks, m.ns, m.pkp, m.np, m.noob]

def MacInputs.emitted (m : MacInputs) : MacInputs where
  vers := el m.vers
  verp := el m.verp
  peerId := el m.peerId
  cryptosuites := el m.cryptosuites
  dirs := el m.dirs
  serverInfo := el m.serverInfo
  cryptosuitep := el m.cryptosuitep
  dirp := el m.dirp
  nai := el m.nai
  peerInfo := el m.peerInfo
  pks := el m.pks
  ns := el m.ns
  pkp := el m.pkp
  np := el m.np
  noob := el m.noob

theorem noobParts_eq (lead : String) (m : MacInputs) :
    noobParts lead m = lead :: ((m.texts.take 10).map el ++ "0" :: (m.texts.drop 10).map el) := rfl

theorem noobParts_closed {lead : String} {m : MacInputs} (leads : Json.Closed lead.toList)
    (closed : ∀ t ∈ m.texts, Json.Closed (el t).toList) :
    ∀ part ∈ noobParts lead m, Json.Closed part.toList := by
  intro part member
  rw [noobParts_eq] at member
  simp only [List.mem_cons, List.mem_append, List.mem_map] at member
  rcases member with rfl | ⟨t, found, rfl⟩ | rfl | ⟨t, found, rfl⟩
  · exact leads
  · exact closed t (List.mem_of_mem_take found)
  · decide
  · exact closed t (List.mem_of_mem_drop found)

/-- The bytes of an array of closed elements determine the elements. -/
theorem noobParts_injective {lead lead' : String} {m n : MacInputs}
    (first : ∀ part ∈ noobParts lead m, Json.Closed part.toList)
    (second : ∀ part ∈ noobParts lead' n, Json.Closed part.toList)
    (same : noobArray lead m = noobArray lead' n) : noobParts lead m = noobParts lead' n := by
  have texts := congrArg String.toList (utf8_injective same)
  simp only [String.toList_append, String.toList_intercalate] at texts
  have joined := List.append_cancel_left (List.append_cancel_right texts)
  rw [show ",".toList = [','] from rfl, ← Json.join_eq_intercalate, ← Json.join_eq_intercalate]
    at joined
  have lists := Json.join_injective (by simp [noobParts]) (by simp [noobParts])
    (by simpa using first) (by simpa using second) joined
  exact List.map_injective_iff.mpr (fun _ _ => String.toList_inj.mp) lists

theorem emitted_of_noobParts {lead lead' : String} {m n : MacInputs}
    (same : noobParts lead m = noobParts lead' n) : lead = lead' ∧ m.emitted = n.emitted := by
  simp only [noobParts, List.cons.injEq, true_and, and_true] at same
  obtain ⟨leads, vers, verp, peerId, cryptosuites, dirs, serverInfo, cryptosuitep, dirp, nai,
    peerInfo, pks, ns, pkp, np, noob⟩ := same
  refine ⟨leads, ?_⟩
  apply MacInputs.ext <;> assumption

/-- Every field is absent or a complete JSON text. -/
def MacInputs.Complete (m : MacInputs) : Prop := ∀ t ∈ m.texts, t = "" ∨ Json.Text t.toList

theorem MacInputs.Complete.closed {m : MacInputs} (complete : m.Complete) :
    ∀ t ∈ m.texts, Json.Closed (el t).toList := by
  intro t member
  by_cases absent : t = ""
  · rw [absent]
    decide
  · rw [el_of_ne absent]
    exact ((complete t member).resolve_left absent).closed

/-- Equal arrays have the same lead and the same fifteen fields as emitted. -/
theorem noob_array_injective {lead lead' : String} {m n : MacInputs}
    (leads : Json.Integer lead.toList) (leads' : Json.Integer lead'.toList)
    (complete : m.Complete) (complete' : n.Complete)
    (same : noobArray lead m = noobArray lead' n) : lead = lead' ∧ m.emitted = n.emitted := by
  have first := noobParts_closed leads.closed complete.closed
  have second := noobParts_closed leads'.closed complete'.closed
  exact emitted_of_noobParts (noobParts_injective first second same)

namespace Reference

def someInputs : MacInputs :=
  { vers := "[1]", ns := "\"bnM\"", np := "\"bnA\"", noob := "\"Tm9vYg\"" }

/-- The same array with an empty string in place of an absent field. -/
def filledInputs : MacInputs := { someInputs with verp := "\"\"" }

theorem digits_one : Json.Digits ['1'] := by
  refine ⟨List.cons_ne_nil _ _, fun ch member => ?_⟩
  rw [List.mem_singleton.mp member]
  rfl

theorem integer_one : Json.Integer "1".toList := ⟨[], ['1'], rfl, .inl rfl, digits_one⟩

def isPlain (ch : Char) : Bool := ch != '"' && ch != '\\' && 0x20 ≤ ch.toNat

theorem text_ofPlain (text : List Char) (plain : text.all isPlain = true) :
    Json.Text ('"' :: text ++ ['"']) := by
  apply Json.Derives.string
  induction text with
  | nil => exact .nil
  | cons ch text ih =>
    rw [List.all_cons, Bool.and_eq_true] at plain
    have head := plain.1
    simp only [isPlain, Bool.and_eq_true, bne_iff_ne, decide_eq_true_eq] at head
    exact .plain head.1.1 head.1.2 head.2 (ih plain.2)

theorem text_versions : Json.Text "[1]".toList := by
  have one : Json.Text ['1'] := by
    apply Json.Derives.number
    refine ⟨['1'], [], [], rfl, integer_one, ?_, .inl rfl, .inl rfl⟩
    rintro sign rest same (rfl | rfl)
    · cases same
    · cases same
  have spaces : Json.Space [] := by simp [Json.Space]
  exact Json.Derives.array (.lastElement (Json.Derives.element spaces one spaces))

theorem complete_inputs {verp : String} (known : verp = "" ∨ verp = "\"\"") :
    MacInputs.Complete { someInputs with verp := verp } := by
  have empty : Json.Text "\"\"".toList := text_ofPlain [] rfl
  have ns : Json.Text "\"bnM\"".toList := text_ofPlain "bnM".toList rfl
  have np : Json.Text "\"bnA\"".toList := text_ofPlain "bnA".toList rfl
  have noob : Json.Text "\"Tm9vYg\"".toList := text_ofPlain "Tm9vYg".toList rfl
  intro t member
  simp only [MacInputs.texts, someInputs, List.mem_cons, List.not_mem_nil, or_false] at member
  rcases member with rfl | rfl | rfl | rfl | rfl | rfl | rfl | rfl | rfl | rfl | rfl | rfl | rfl |
    rfl | rfl
  · exact .inr text_versions
  · rcases known with rfl | rfl
    · exact .inl rfl
    · exact .inr empty
  · exact .inl rfl
  · exact .inl rfl
  · exact .inl rfl
  · exact .inl rfl
  · exact .inl rfl
  · exact .inl rfl
  · exact .inl rfl
  · exact .inl rfl
  · exact .inl rfl
  · exact .inr ns
  · exact .inl rfl
  · exact .inr np
  · exact .inr noob

end Reference

theorem noob_array_injective_reference :
    "1" = "1" ∧ Reference.someInputs.emitted = Reference.filledInputs.emitted :=
  noob_array_injective Reference.integer_one Reference.integer_one
    (Reference.complete_inputs (.inl rfl)) (Reference.complete_inputs (.inr rfl)) rfl

end OpenPair
