import DatrixOps.Terminal.Message

/-! Whether the agent can read what the hub passes on to it. Both read frames up to the same size, and the hub
    adds the session and escapes what the browser need not. -/

namespace DatrixOps
namespace Terminal
open Golang Host

/-! ### The size of a frame -/

/-- The bytes of a member with a text, which is left out when it is empty. -/
def textSize (key value : String) : Nat := if value = "" then 0 else key.length + 6 + escapedSize (textBytes value)

/-- The bytes of a member with a number, which is left out when it is 0. -/
def intSize (key : String) (value : Int) : Nat := if value = 0 then 0 else key.length + 4 + (toString value).length

/-- The bytes of the frame of a message. -/
def Message.size (m : Message) : Nat :=
  12 + escapedSize (textBytes m.type) + textSize "session_id" m.sessionId + textSize "data" m.data +
    intSize "cols" m.cols +
    intSize "rows" m.rows + textSize "reason" m.reason

theorem length_asciiBytes {s : String} : (asciiBytes s).length = s.length := by simp [asciiBytes, String.length_toList]

theorem length_textMember {key value : String} : (textMember key value).length = textSize key value := by
  unfold textMember textSize
  split
  · rfl
  · have open_ : (",\"" : String).length = 2 := by decide
    have close : ("\":" : String).length = 2 := by decide
    rw [List.length_append, length_asciiBytes, length_quote, String.length_append, String.length_append, open_, close]
    omega

theorem length_intMember {key : String} {value : Int} : (intMember key value).length = intSize key value := by
  unfold intMember intSize
  split
  · rfl
  · have open_ : (",\"" : String).length = 2 := by decide
    have close : ("\":" : String).length = 2 := by decide
    rw [length_asciiBytes, String.length_append, String.length_append, String.length_append, open_, close]
    omega

theorem length_frame {m : Message} : m.frame.length = m.size := by
  have first : (asciiBytes "\x7b\"type\":").length = 8 := by decide
  have last : (asciiBytes "\x7d\n").length = 2 := by decide
  simp only [Message.frame, Message.size, List.length_append, length_quote, length_textMember,
    length_intMember, first, last]
  omega

/-- The bytes of the frame that the hub sends for a message. -/
def Message.relayedSize (m : Message) (sessionId : String) : Nat :=
  12 + escapedSize (textBytes m.type) + textSize "session_id" sessionId + textSize "data" m.data +
    textSize "reason" m.reason +
    if m.type = "resize" then intSize "cols" (clamp m.cols 20 400) + intSize "rows" (clamp m.rows 5 200)
    else intSize "cols" m.cols + intSize "rows" m.rows

theorem size_of_relay {sessionId : String} {m out : Message} (sent : relay sessionId m = .send out) :
    out.size = m.relayedSize sessionId := by
  unfold relay at sent
  dsimp only at sent
  split at sent
  · rename_i input
    split at sent
    · cases sent
    · cases sent
      have other : ¬m.type = "resize" := by rw [show m.type = "input" from input]; decide
      simp only [Message.size, Message.relayedSize, if_neg other]
      omega
  · split at sent
    · rename_i resize
      cases sent
      simp only [Message.size, Message.relayedSize, if_pos (show m.type = "resize" from resize)]
      omega
    · split at sent
      · cases sent
      · cases sent

/-- The agent can read what it is sent for a message of the browser exactly when the message, written anew
    with its session, is not beyond the limit. -/
theorem relayed_readable_iff {sessionId : String} {frame : List UInt8} {m out : Message}
    (decoded : decodeMessage frame = some m)
    (sent : relayFrame sessionId frame = .send out) :
    out.frame.length ≤ maxMessageBytes ↔ m.relayedSize sessionId ≤ maxMessageBytes := by
  unfold relayFrame at sent
  rw [decoded] at sent
  split at sent
  · cases sent
  · rw [length_frame, size_of_relay sent]

/-! ### Input without escapes -/

theorem escapedSize_cons {b : UInt8} {s : List UInt8} (low : b < 0x80) :
    escapedSize (b :: s) = byteSize b + escapedSize s := by
  have rune : decodeRune b s = ⟨[b], some (charOf b.toNat)⟩ := if_pos low
  unfold escapedSize runes
  rw [runesFrom, rune]
  rfl

theorem escapedSize_replicate {n : Nat} : escapedSize (List.replicate n 0x41) = n := by
  induction n with
  | zero => rfl
  | succ n ih =>
    rw [List.replicate_succ, escapedSize_cons (by decide), ih, show byteSize 0x41 = 1 from by decide]
    omega

/-- Input of so many letters. -/
def letters (n : Nat) : Message := ⟨"input", "", String.ofList (List.replicate n 'A'), 0, 0, ""⟩

theorem textBytes_letters {n : Nat} : textBytes (letters n).data = List.replicate n 0x41 := by
  have letter : String.utf8EncodeChar 'A' = [0x41] := by decide
  rw [textBytes, letters, String.toList_ofList]
  induction n with
  | zero => rfl
  | succ n ih => rw [List.replicate_succ, List.flatMap_cons, ih, letter, List.replicate_succ, List.singleton_append]

theorem quoteBody_letters {n : Nat} : quoteBody (List.replicate n 0x41) = List.replicate n 0x41 := by
  unfold quoteBody runes
  induction n with
  | zero => rfl
  | succ n ih =>
    have rune : decodeRune 0x41 (List.replicate n 0x41) = ⟨[0x41], some 'A'⟩ := rfl
    rw [List.replicate_succ, runesFrom, rune, List.flatMap_cons]
    exact congrArg (0x41 :: ·) ih

theorem textOf_letters {n : Nat} : String.ofList (textOf (List.replicate n 0x41)) = (letters n).data := by
  have bytes : asciiBytes (letters n).data = List.replicate n 0x41 := by
    rw [asciiBytes, letters, String.toList_ofList, List.map_replicate]
    rfl
  rw [← bytes, textOf_asciiBytes, String.ofList_toList]
  intro c hc
  rw [letters, String.toList_ofList] at hc
  rw [List.eq_of_mem_replicate hc]
  decide

/-- The frame of a browser for it. -/
def lettersFrame (n : Nat) : List UInt8 :=
  asciiBytes "\x7b\"type\":\"input\",\"data\":\"" ++ (List.replicate n 0x41 ++ asciiBytes "\"\x7d")

theorem lettersFrame_eq {n : Nat} :
    lettersFrame n = 0x7B :: (Golang.quote (asciiBytes "type") ++ 0x3A :: (Golang.quote (asciiBytes "input") ++
    0x2C :: (Golang.quote (asciiBytes "data") ++ 0x3A :: (Golang.quote (List.replicate n 0x41) ++ [0x7D])))) := by
  have first : asciiBytes "\x7b\"type\":\"input\",\"data\":\"" = 0x7B :: (Golang.quote (asciiBytes "type") ++ 0x3A ::
      (Golang.quote (asciiBytes "input") ++ 0x2C :: (Golang.quote (asciiBytes "data") ++ [0x3A, 0x22]))) := by decide
  have last : asciiBytes "\"\x7d" = [0x22, 0x7D] := by decide
  have data : Golang.quote (List.replicate n 0x41) = 0x22 :: (List.replicate n 0x41 ++ [0x22]) := by
    rw [Golang.quote, quoteBody_letters, List.cons_append]
  rw [lettersFrame, first, last, data]
  simp only [List.cons_append, List.append_assoc, List.nil_append]

theorem decodeMessage_letters {n : Nat} : decodeMessage (lettersFrame n) = some (letters n) := by
  have low : ∀ key ∈ ["type", "input", "data"], ∀ c ∈ key.toList, c.toNat < 0x80 := by
    simp only [List.forall_mem_cons]
    exact ⟨List.all_iff_forall_prop.mp (by decide), List.all_iff_forall_prop.mp (by decide),
      List.all_iff_forall_prop.mp (by decide), nofun⟩
  have typed : textOf (asciiBytes "input") = "input".toList := textOf_asciiBytes (low "input" (by simp))
  have read : readStruct (lettersFrame n) = some [("type", .str "input"), ("data", .str (letters n).data)] := by
    obtain ⟨fuel, enough⟩ : ∃ fuel, 2 * (lettersFrame n).length = fuel + 4 := by
      refine ⟨2 * (lettersFrame n).length - 4, ?_⟩
      rw [lettersFrame_eq]
      simp only [List.length_cons, List.length_append]
      omega
    unfold readStruct
    rw [enough, lettersFrame_eq]
    change (readMoreFields (fuel + 1 + 2) _).map _ = _
    rw [readMoreFields_quote (low "type" (by simp))]
    change ((readMoreFields (fuel + 2) _).map _).map _ = _
    rw [readMoreFields_quote (low "data" (by simp)), typed, textOf_letters, String.ofList_toList]
    rfl
  have types : Json.names "type" "type" = true ∧ Json.names "data" "type" = false := by decide
  have datas : Json.names "type" "data" = false ∧ Json.names "data" "data" = true := by decide
  have sessions : Json.names "type" "session_id" = false ∧ Json.names "data" "session_id" = false := by decide
  have sizes : Json.names "type" "cols" = false ∧ Json.names "data" "cols" = false ∧ Json.names "type" "rows" = false ∧
      Json.names "data" "rows" = false := by decide
  have reasons : Json.names "type" "reason" = false ∧ Json.names "data" "reason" = false := by decide
  unfold decodeMessage
  rw [read]
  simp [fieldOf, decodeText, types, datas, sessions, sizes, reasons]
  rfl

/-- The identifier of a session. -/
def someSession : String := "6f1c1a52-8f57-4a53-9d0e-2f6a1f0f7c11"

theorem relayedSize_letters {n : Nat} (typed : 0 < n) : (letters n).relayedSize someSession = n + 79 := by
  have input : escapedSize (textBytes "input") = 5 := by decide
  have session : textSize "session_id" someSession = 52 := by decide
  have some_ : (letters n).data ≠ "" := by
    intro none_
    have bytes := textBytes_letters (n := n)
    rw [none_] at bytes
    have short := congrArg List.length bytes
    rw [List.length_replicate, show (textBytes "").length = 0 from rfl] at short
    omega
  have data : textSize "data" (letters n).data = n + 10 := by
    rw [textSize, if_neg some_, textBytes_letters, escapedSize_replicate,
      show ("data" : String).length = 4 from by decide]
    omega
  have reason : textSize "reason" (letters n).reason = 0 := rfl
  rw [Message.relayedSize, data, session, reason, show (letters n).type = "input" from rfl, input, if_neg (by decide)]
  rw [show intSize "cols" (letters n).cols = 0 from rfl, show intSize "rows" (letters n).rows = 0 from rfl]
  omega

theorem length_lettersFrame {n : Nat} : (lettersFrame n).length = n + 26 := by
  have first : (asciiBytes "\x7b\"type\":\"input\",\"data\":\"").length = 24 := by decide
  have last : (asciiBytes "\"\x7d").length = 2 := by decide
  rw [lettersFrame, List.length_append, List.length_append, List.length_replicate, first, last]
  omega

/-- What the hub sends for input within its own limit. -/
theorem relayFrame_letters {n : Nat} (short : n + 26 ≤ maxMessageBytes) :
    relayFrame someSession (lettersFrame n) = .send { letters n with sessionId := someSession } := by
  unfold relayFrame
  rw [if_neg (by rw [length_lettersFrame]; omega), decodeMessage_letters]
  have bytes : (textBytes (letters n).data).length = n := by rw [textBytes_letters, List.length_replicate]
  change relay someSession (letters n) = _
  unfold relay
  rw [if_pos (show (letters n).type = "input" from rfl)]
  exact if_neg (by rw [bytes]; omega)

/-- One letter is read. -/
theorem relayed_readable_letter : { letters 1 with sessionId := someSession }.frame.length ≤ maxMessageBytes ↔
    (letters 1).relayedSize someSession ≤ maxMessageBytes :=
  relayed_readable_iff (decodeMessage_letters (n := 1)) (relayFrame_letters (by decide))

/-- A browser sends a frame within the limit, and what the hub sends for it is beyond it. -/
theorem letters_beyond_limit : (lettersFrame 262116).length ≤ maxMessageBytes ∧
    relayFrame someSession (lettersFrame 262116) = .send { letters 262116 with sessionId := someSession } ∧
      ¬{ letters 262116 with sessionId := someSession }.frame.length ≤ maxMessageBytes := by
  have limit : maxMessageBytes = 262144 := rfl
  have sent := relayFrame_letters (n := 262116) (by omega)
  refine ⟨by rw [length_lettersFrame]; omega, sent, ?_⟩
  unfold relayFrame at sent
  rw [decodeMessage_letters, if_neg (by rw [length_lettersFrame]; omega)] at sent
  rw [length_frame, size_of_relay sent, relayedSize_letters (by omega)]
  omega

end Terminal
end DatrixOps
