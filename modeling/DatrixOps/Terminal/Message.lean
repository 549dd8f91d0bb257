import DatrixOps.Golang.Base64
import DatrixOps.Golang.JsonValue
import DatrixOps.Host.SelfUpdate

/-! The messages of a terminal session, and how the hub passes on what a browser sends. -/

namespace DatrixOps
namespace Terminal
open Golang Host

def maxMessageBytes : Nat := 256 * 1024

/-- `message` -/
structure Message where
  type : String
  sessionId : String
  data : String
  cols : Int
  rows : Int
  reason : String
  deriving DecidableEq

/-- `ReadJSON` of a frame into a message. -/
def decodeMessage (frame : List UInt8) : Option Message := do
  let fields ← readStruct frame
  let type ← fieldOf "type" decodeText "" fields
  let sessionId ← fieldOf "session_id" decodeText "" fields
  let data ← fieldOf "data" decodeText "" fields
  let cols ← fieldOf "cols" decodeInt 0 fields
  let rows ← fieldOf "rows" decodeInt 0 fields
  let reason ← fieldOf "reason" decodeText "" fields
  return ⟨type, sessionId, data, cols, rows, reason⟩

/-- A member of text that is left out when it is empty. -/
def textMember (key value : String) : List UInt8 :=
  if value = "" then [] else asciiBytes (",\"" ++ key ++ "\":") ++ Golang.quote (textBytes value)

/-- A number that is left out when it is 0. -/
def intMember (key : String) (value : Int) : List UInt8 :=
  if value = 0 then [] else asciiBytes (",\"" ++ key ++ "\":" ++ toString value)

/-- `WriteJSON` of a message -/
def Message.frame (m : Message) : List UInt8 :=
  asciiBytes "\x7b\"type\":" ++ Golang.quote (textBytes m.type) ++ textMember "session_id" m.sessionId ++
    textMember "data" m.data ++
    intMember "cols" m.cols ++ intMember "rows" m.rows ++ textMember "reason" m.reason ++ asciiBytes "\x7d\n"

/-- What the agent's `streamOutput` sends of what it has read. -/
def outputMessage (sessionId : String) (read : List UInt8) : Message :=
  ⟨"output", sessionId, encodeToString read, 0, 0, ""⟩

/-- What the browser sends of what is typed. -/
def inputMessage (typed : List UInt8) : Message := ⟨"input", "", encodeToString typed, 0, 0, ""⟩

def clamp (value minimum maximum : Int) : Int := if value < minimum then minimum
    else if value > maximum then maximum else value

/-- What BrowserSocket does with a message: it ends the session, goes on to the next one, or sends this to the agent. -/
inductive Relay where
  | stop
  | skip
  | send (m : Message)

def relay (sessionId : String) (incoming : Message) : Relay :=
  let incoming := { incoming with sessionId := sessionId }
  if incoming.type = "input" then
    if (textBytes incoming.data).length > maxMessageBytes then .stop else .send incoming
  else if incoming.type = "resize" then
    .send { incoming with cols := clamp incoming.cols 20 400, rows := clamp incoming.rows 5 200 }
  else if incoming.type = "session_close" then .stop
  else .skip

/-- What the hub sends to the agent for a frame of the browser; one beyond the read limit, or no message, ends
the session. -/
def relayFrame (sessionId : String) (frame : List UInt8) : Relay :=
  if frame.length > maxMessageBytes then .stop
  else match decodeMessage frame with
    | none => .stop
    | some m => relay sessionId m

end Terminal
end DatrixOps
