import Mathlib.Data.Int.ConditionallyCompleteOrder
import DatrixOps.Terminal.Rules

/-! The hub counts the bytes of a session without decoding them: it takes the length of an encoding and what
    fills it up. The counts of a session are the sums over the messages counted so far, and its row and its
    audit entry have the sums of a moment of its end. -/

namespace DatrixOps
namespace TerminalBytes
open Terminal Terminal.Hub
open Host (textBytes)
open Golang (asciiBytes encodeBase64 encodeBase64_ascii encodeToString length_encodeBase64 padChar paddingOf
  paddingOf_encodeBase64)

/-! ### One message -/

theorem textBytes_encodeToString (src : List UInt8) : textBytes (encodeToString src) = encodeBase64 src := by
  have byte {b : UInt8} (low : b < 0x80) : String.utf8EncodeChar (Char.ofUInt8 b) = [b] := by
    have size : (Char.ofUInt8 b).utf8Size = 1 := Char.utf8Size_eq_one_iff.mpr (by
      have := UInt8.lt_iff_toNat_lt.mp low
      exact UInt32.le_iff_toNat_le.mpr (Nat.le_of_lt_succ this))
    have val : (Char.ofUInt8 b).val = b.toUInt32 := rfl
    rw [String.utf8EncodeChar_eq_singleton size, val, UInt8.toUInt8_toUInt32]
  have all : ∀ bytes : List UInt8, (∀ b ∈ bytes, b < 0x80) →
      (bytes.map Char.ofUInt8).flatMap String.utf8EncodeChar = bytes := by
    intro bytes low
    induction bytes with
    | nil => rfl
    | cons b bytes ih =>
      obtain ⟨first, later⟩ := List.forall_mem_cons.mp low
      rw [List.map_cons, List.flatMap_cons, byte first, ih later, List.singleton_append]
  rw [textBytes, encodeToString, String.toList_ofList]
  exact all _ (encodeBase64_ascii src)

theorem decodedLength_eq (value : String) :
    decodedLength value = ((textBytes value).length * 3 / 4 : Nat) - (paddingOf (textBytes value) : Int) ∨
      (((textBytes value).length * 3 / 4 : Nat) < (paddingOf (textBytes value) : Int) ∧ decodedLength value = 0) := by
  have two : hasSuffix value "==" = true ↔ [padChar, padChar] <:+ textBytes value := List.isSuffixOf_iff_suffix
  have one : hasSuffix value "=" = true ↔ [padChar] <:+ textBytes value := List.isSuffixOf_iff_suffix
  have padding : (if hasSuffix value "==" then 2 else if hasSuffix value "=" then 1 else 0 : Int) =
      paddingOf (textBytes value) := by
    simp only [two, one, paddingOf]
    split
    · rfl
    · split <;> rfl
  simp only [decodedLength, padding]
  split
  · exact Or.inr ⟨by assumption, rfl⟩
  · exact Or.inl rfl

theorem decodedLength_nonneg (value : String) : 0 ≤ decodedLength value := by
  unfold decodedLength
  simp only
  split <;> omega

/-- The length of an encoding tells how many bytes it encodes. -/
theorem decodedLength_encodeToString (src : List UInt8) : decodedLength (encodeToString src) = src.length := by
  have length := length_encodeBase64 src
  have padding := paddingOf_encodeBase64 src
  rcases decodedLength_eq (encodeToString src) with h | ⟨short, -⟩
  · rw [h, textBytes_encodeToString, length, padding]
    omega
  · rw [textBytes_encodeToString, length, padding] at short
    omega

/-! ### Sums over the counted messages -/

/-- What the messages of one direction of a session weigh together. -/
def total (weight : Accounted → Int) (accounted : List Accounted) (id : String) (fromBrowser : Bool) : Int :=
  ((accounted.filter fun x => x.sessionId = id ∧ x.fromBrowser = fromBrowser).map weight).sum

section
variable {weight : Accounted → Int} {accounted : List Accounted} {id : String} {fromBrowser : Bool}

theorem total_congr {weight' : Accounted → Int} (same : ∀ x ∈ accounted, weight x = weight' x) :
    total weight accounted id fromBrowser = total weight' accounted id fromBrowser := by
  unfold total
  rw [List.map_congr_left fun x mem => same x (List.mem_filter.mp mem).1]

theorem total_append (x : Accounted) : total weight (accounted ++ [x]) id fromBrowser =
    total weight accounted id fromBrowser + if x.sessionId = id ∧ x.fromBrowser = fromBrowser then weight x else 0 := by
  unfold total
  rw [List.filter_append, List.map_append, List.sum_append]
  by_cases mine : x.sessionId = id ∧ x.fromBrowser = fromBrowser
  · simp [mine]
  · simp [mine]

theorem total_eq_zero (none_ : ∀ x ∈ accounted, x.sessionId ≠ id) : total weight accounted id fromBrowser = 0 := by
  have empty : (accounted.filter fun x => x.sessionId = id ∧ x.fromBrowser = fromBrowser) = [] := by
    rw [List.filter_eq_nil_iff]
    intro x mem h
    exact none_ x mem (of_decide_eq_true h).1
  rw [total, empty]
  rfl

end

/-- The sum of the moment when the messages counted were the first of those counted by now. -/
def Recorded (weight : Accounted → Int) (accounted : List Accounted) (id : String) (fromBrowser : Bool)
    (n : Int) : Prop :=
  ∃ before, before <+: accounted ∧ n = total weight before id fromBrowser

/-- The counts of the sessions, and those in the rows and the audit entries, are what the counted messages weigh. -/
structure Tallies (weight : Accounted → Int) (hub : Hub) : Prop where
  sessions : ∀ s ∈ hub.sessions, s.bytesFromBrowser = total weight hub.accounted s.id true ∧
    s.bytesFromAgent = total weight hub.accounted s.id false
  rows : ∀ row ∈ hub.rows, Recorded weight hub.accounted row.id true row.bytesFromBrowser ∧
    Recorded weight hub.accounted row.id false row.bytesFromAgent
  audits : ∀ a ∈ hub.audits, Recorded weight hub.accounted a.sessionId true a.bytesFromBrowser ∧
    Recorded weight hub.accounted a.sessionId false a.bytesFromAgent

/-! ### What a step keeps -/

/-- How the hub counts a message. -/
def counted (x : Accounted) : Int := decodedLength x.data

/-- What an `endSession` has loaded. -/
def Loaded (accounted : List Accounted) (id : String) : Phase → Prop
  | .ending ⟨_, _, _, .loaded n⟩ => Recorded counted accounted id true n
  | .ending ⟨_, _, _, .counted n m⟩ | .ending ⟨_, _, _, .stored n m⟩ =>
    Recorded counted accounted id true n ∧ Recorded counted accounted id false m
  | _ => True

/-- The session counts what has been accounted to it. -/
structure Tallied (accounted : List Accounted) (ids : List String) (s : Session) : Prop where
  known : s.id ∈ ids
  fromBrowser : s.bytesFromBrowser = total counted accounted s.id true
  fromAgent : s.bytesFromAgent = total counted accounted s.id false
  loaded : Loaded accounted s.id s.phase

/-- The counts of the hub; every message counted or at hand is one of a session there has been. -/
structure Inv (hub : Hub) : Prop where
  known : ∀ x ∈ hub.accounted, x.sessionId ∈ hub.ids
  hands : ∀ p ∈ hub.peers, ∀ m, p.Holds m → m.sessionId ∈ hub.ids
  sessions : ∀ s ∈ hub.sessions, Tallied hub.accounted hub.ids s
  rows : ∀ row ∈ hub.rows, Recorded counted hub.accounted row.id true row.bytesFromBrowser ∧
    Recorded counted hub.accounted row.id false row.bytesFromAgent
  audits : ∀ a ∈ hub.audits, Recorded counted hub.accounted a.sessionId true a.bytesFromBrowser ∧
    Recorded counted hub.accounted a.sessionId false a.bytesFromAgent

theorem recorded_now {weight : Accounted → Int} {accounted : List Accounted} {id : String}
    {fromBrowser : Bool} {n : Int}
    (now : n = total weight accounted id fromBrowser) : Recorded weight accounted id fromBrowser n :=
  ⟨accounted, List.prefix_rfl, now⟩

theorem Recorded.append {weight : Accounted → Int} {accounted : List Accounted} {id : String}
    {fromBrowser : Bool} {n : Int}
    (h : Recorded weight accounted id fromBrowser n) (x : Accounted) :
      Recorded weight (accounted ++ [x]) id fromBrowser n := by
  obtain ⟨before, first, eq⟩ := h
  exact ⟨before, first.trans (List.prefix_append accounted [x]), eq⟩

theorem Loaded.append {accounted : List Accounted} {id : String} {phase : Phase} (h : Loaded accounted id phase)
    (x : Accounted) :
    Loaded (accounted ++ [x]) id phase := by
  rcases phase with - | - | ⟨status, reason, notify, stage⟩
  · trivial
  · trivial
  · cases stage with
    | loaded n => exact Recorded.append h x
    | counted n m => exact ⟨h.1.append x, h.2.append x⟩
    | stored n m => exact ⟨h.1.append x, h.2.append x⟩
    | cancelled | deleted | notified | disconnected | done => trivial

/-- Counting a message adds its weight to the count of its direction. -/
theorem Tallied.account {accounted : List Accounted} {ids : List String} {s : Session} (h : Tallied accounted ids s)
    (fromBrowser : Bool)
    (data : String) : Tallied (accounted ++ [⟨s.id, fromBrowser, data⟩]) ids
    (addBytes s fromBrowser (decodedLength data)) := by
  have nonneg := decodedLength_nonneg data
  by_cases zero : decodedLength data ≤ 0
  · have none_ : decodedLength data = 0 := Int.le_antisymm zero nonneg
    rw [addBytes, if_pos zero]
    refine ⟨h.known, ?_, ?_, h.loaded.append _⟩
    · rw [total_append, h.fromBrowser, counted, none_, ite_self, Int.add_zero]
    · rw [total_append, h.fromAgent, counted, none_, ite_self, Int.add_zero]
  · cases fromBrowser with
    | true =>
      rw [addBytes, if_neg zero, if_pos rfl]
      refine ⟨h.known, ?_, ?_, h.loaded.append _⟩
      · rw [total_append, if_pos ⟨rfl, rfl⟩, ← h.fromBrowser]
        rfl
      · rw [total_append, if_neg (fun other => Bool.noConfusion other.2), Int.add_zero]
        exact h.fromAgent
    | false =>
      rw [addBytes, if_neg zero, if_neg (by decide)]
      refine ⟨h.known, ?_, ?_, h.loaded.append _⟩
      · rw [total_append, if_neg (fun other => Bool.noConfusion other.2), Int.add_zero]
        exact h.fromBrowser
      · rw [total_append, if_pos ⟨rfl, rfl⟩, ← h.fromAgent]
        rfl

/-- The message of another session adds nothing. -/
theorem Tallied.other {accounted : List Accounted} {ids : List String} {s : Session} (h : Tallied accounted ids s)
    {x : Accounted}
    (ne : x.sessionId ≠ s.id) : Tallied (accounted ++ [x]) ids s := by
  refine ⟨h.known, ?_, ?_, h.loaded.append x⟩
  · rw [total_append, if_neg (fun mine => ne mine.1), Int.add_zero, ← h.fromBrowser]
  · rw [total_append, if_neg (fun mine => ne mine.1), Int.add_zero, ← h.fromAgent]

namespace Inv
variable {hub : Hub}

theorem edit (h : Inv hub) {id : String} {f : Session → Session}
    (keeps : ∀ s, s.id = id → Tallied hub.accounted hub.ids s → Tallied hub.accounted hub.ids (f s)) :
      Inv (hub.edit id f) := by
  refine ⟨h.known, h.hands, ?_, h.rows, h.audits⟩
  intro s' mem
  obtain ⟨s, old, rfl⟩ := List.mem_map.mp mem
  by_cases mine : s.id = id
  · rw [if_pos mine]
    exact keeps s mine (h.sessions s old)
  · rw [if_neg mine]
    exact h.sessions s old

/-- A step inside `endSession`, when what it loads are the counts of the moment. -/
theorem reach (h : Inv hub) {id : String} {e : Ending} {stage : Stage}
    (loaded : Loaded hub.accounted id (.ending { e with stage := stage })) : Inv (hub.reach id e stage) :=
  h.edit fun _ mine t => ⟨t.known, t.fromBrowser, t.fromAgent, mine ▸ loaded⟩

theorem handed (h : Inv hub) {id : String} (has : hub.Handed id) : id ∈ hub.ids := by
  rcases has with ⟨p, mem, m, holds, rfl⟩ | ⟨s, mem, rfl⟩
  · exact h.hands p mem m holds
  · exact (h.sessions s mem).known

theorem beside {hub' : Hub} (b : Beside hub hub') (h : Inv hub) : Inv hub' := by
  obtain ⟨sessions, rows, audits, ids, accounted, handed⟩ := b
  constructor
  · rw [accounted, ids]
    exact h.known
  · rw [ids]
    exact fun p mem m holds => h.handed (handed p mem m holds)
  · rw [sessions, accounted, ids]
    exact h.sessions
  · rw [rows, accounted]
    exact h.rows
  · rw [audits, accounted]
    exact h.audits

theorem endSession (id : String) (status : Status) (reason : String) (notifyAgent : Bool) (h : Inv hub) :
    Inv (hub.endSession id status reason notifyAgent) :=
  h.edit fun s _ t => by
    rcases phase : s.phase with - | - | e
    · exact t
    · exact ⟨t.known, t.fromBrowser, t.fromAgent, trivial⟩
    · exact t

theorem account (id : String) (fromBrowser : Bool) (data : String) (handed : hub.Handed id) (h : Inv hub) :
    Inv (hub.account id fromBrowser data) := by
  refine ⟨?_, h.hands, ?_, fun row mem => ⟨(h.rows row mem).1.append _, (h.rows row mem).2.append _⟩,
    fun a mem => ⟨(h.audits a mem).1.append _, (h.audits a mem).2.append _⟩⟩
  · intro x mem
    rcases List.mem_append.mp mem with old | new
    · exact h.known x old
    · rw [List.mem_singleton.mp new]
      exact h.handed handed
  · intro s' mem
    obtain ⟨s, old, rfl⟩ := List.mem_map.mp mem
    by_cases mine : s.id = id
    · rw [if_pos mine, ← mine]
      exact (h.sessions s old).account fromBrowser data
    · rw [if_neg mine]
      exact (h.sessions s old).other fun same => mine same.symm

/-- A new session has counted nothing, for its id is new. -/
theorem openSession (t : Ticket) (agent : Nat) (id : String) (fresh : id ∉ hub.ids) (h : Inv hub) :
    Inv (hub.openSession t agent id) := by
  have zero (fromBrowser : Bool) : 0 = total counted hub.accounted id fromBrowser :=
    (total_eq_zero fun x mem same => fresh (by
      rw [← same]
      exact h.known x mem)).symm
  refine ⟨fun x mem => List.mem_append_left _ (h.known x mem),
    fun p mem m holds => List.mem_append_left _ (h.hands p mem m holds), ?_, ?_,
    h.audits⟩
  · intro s mem
    rcases List.mem_append.mp mem with old | new
    · obtain ⟨mine, fromBrowser, fromAgent, loaded⟩ := h.sessions s old
      exact ⟨List.mem_append_left _ mine, fromBrowser, fromAgent, loaded⟩
    · rw [List.mem_singleton.mp new]
      exact ⟨List.mem_append_right _ (List.mem_singleton_self id), zero true, zero false, trivial⟩
  · intro row mem
    rcases List.mem_append.mp mem with old | new
    · exact h.rows row old
    · rw [List.mem_singleton.mp new]
      exact ⟨recorded_now (zero true), recorded_now (zero false)⟩

theorem survives : Survives Inv where
  beside := beside
  serve _ _ h := h.edit fun _ _ t => ⟨t.known, t.fromBrowser, t.fromAgent, t.loaded⟩
  list _ _ _ h := h.edit fun _ _ t => ⟨t.known, t.fromBrowser, t.fromAgent, trivial⟩
  endSession id status reason notifyAgent _ := endSession id status reason notifyAgent
  account := account
  openSession t agent id fresh _ := openSession t agent id fresh

/-- The row and the audit entry get what `endSession` has loaded. -/
theorem proceed (h : Inv hub) {s : Session} {e : Ending} (t : Tallied hub.accounted hub.ids s)
    (phase : s.phase = .ending e) (ok : Bool) :
    Inv (hub.proceed s e ok) := by
  have loaded := phase ▸ t.loaded
  unfold Hub.proceed
  obtain ⟨status, reason, notify, stage⟩ := e
  cases stage with
  | cancelled => exact h.reach trivial
  | deleted =>
    simp only
    split
    · exact (survives.write h _ _ _).reach trivial
    · exact h.reach trivial
  | notified => exact h.reach trivial
  | disconnected => exact h.reach (recorded_now t.fromBrowser)
  | loaded n => exact h.reach ⟨loaded, recorded_now t.fromAgent⟩
  | counted n m =>
    have stored : Inv (hub.closeSession s.id status reason n m) := by
      refine ⟨h.known, h.hands, h.sessions, ?_, h.audits⟩
      intro row' mem
      obtain ⟨row, old, rfl⟩ := List.mem_map.mp mem
      split
      · rename_i mine
        rw [← mine.1] at loaded
        exact loaded
      · exact h.rows row old
    simp only
    split
    · exact stored.reach loaded
    · exact h.reach loaded
  | stored n m =>
    have audited : Inv (hub.auditClose s.id status reason n m) := by
      refine ⟨h.known, h.hands, h.sessions, h.rows, ?_⟩
      intro a mem
      rcases List.mem_append.mp mem with old | new
      · exact h.audits a old
      · rw [List.mem_singleton.mp new]
        exact loaded
    simp only
    split
    · exact audited.reach trivial
    · exact h.reach trivial
  | done => exact h

theorem restart (h : Inv hub) : Inv hub.restart := by
  refine ⟨h.known, fun p' mem m held => ?_, fun s none_ => absurd none_ List.not_mem_nil, h.rows, h.audits⟩
  obtain ⟨p, -, rfl⟩ := List.mem_map.mp mem
  exact held.elim nofun nofun

theorem step (h : Inv hub) (move : Move) : Inv (hub.step move) :=
  survives.step h move (fun _ ok s _ _ here phase => h.proceed (h.sessions s (found here).1) phase ok)
    fun _ => h.restart

theorem newHub : Inv NewHub := by
  constructor <;> exact fun _ mem => absurd mem List.not_mem_nil

theorem run (moves : List Move) : Inv (hubMachine.exec NewHub moves) := by
  have always : hubMachine.Always Inv NewHub moves := Machine.always_of_keep (fun _ move h => step h move) newHub
  exact always.last

end Inv

/-- Messages that carry an encoding are counted with the length of what it encodes. -/
theorem Inv.tallies {hub : Hub} (h : Inv hub) {carried : Accounted → List UInt8}
    (encoded : ∀ x ∈ hub.accounted, x.data = encodeToString (carried x)) :
      Tallies (fun x => (carried x).length) hub := by
  have weigh : ∀ x ∈ hub.accounted, counted x = (carried x).length := by
    intro x mem
    rw [counted, encoded x mem, decodedLength_encodeToString]
  have recorded {id : String} {fromBrowser : Bool} {n : Int} (r : Recorded counted hub.accounted id fromBrowser n) :
      Recorded (fun x => ((carried x).length : Int)) hub.accounted id fromBrowser n := by
    obtain ⟨before, first, eq⟩ := r
    exact ⟨before, first, eq.trans (total_congr fun x mem => weigh x (first.subset mem))⟩
  refine ⟨fun s mem => ?_, fun row mem => ?_, fun a mem => ?_⟩
  · obtain ⟨-, fromBrowser, fromAgent, -⟩ := h.sessions s mem
    exact ⟨fromBrowser.trans (total_congr weigh), fromAgent.trans (total_congr weigh)⟩
  · exact ⟨recorded (h.rows row mem).1, recorded (h.rows row mem).2⟩
  · exact ⟨recorded (h.audits a mem).1, recorded (h.audits a mem).2⟩

/-- The counts of a session are the numbers of bytes that the messages counted for it carry, and its row and
    its audit entry have the numbers of a moment of its end. -/
theorem session_bytes_exact : (∀ src : List UInt8, decodedLength (encodeToString src) = src.length) ∧
    ∀ (moves : List Move) (carried : Accounted → List UInt8),
      (∀ x ∈ (hubMachine.exec NewHub moves).accounted, x.data = encodeToString (carried x)) →
      Tallies (fun x => (carried x).length) (hubMachine.exec NewHub moves) :=
  ⟨decodedLength_encodeToString, fun moves _ encoded => (Inv.run moves).tallies encoded⟩

/-! ### A session -/

/-- What is typed. -/
def typed : List UInt8 := asciiBytes "w"

/-- What the shell prints. -/
def read : List UInt8 := asciiBytes "ok"

/-- A ticket is taken and redeemed, a key is typed, the shell answers, and the browser goes. -/
def sitting : List Move :=
  [.registerAgent "web-1", .askTicket "web-1" "alice", .checkTicket 0, .issueTicket 0 "ticket", .redeemTicket "ticket",
    .visit 0, .visit 0,
    .createSession 0 "s1" true, .handle "s1" true, .handle "s1" true, .browserMessage "s1" (some (inputMessage typed)),
    .handle "s1" true,
    .handle "s1" true, .agentMessage 0 (some (outputMessage "s1" read)), .dispatch 0, .dispatch 0,
    .browserMessage "s1" none,
    .handle "s1" true] ++ List.replicate 8 (.proceed "s1" true)

/-- The bytes that a message carries. -/
def carriedBy (x : Accounted) : List UInt8 := if x.fromBrowser then typed else read

set_option maxRecDepth 4000 in
theorem session_bytes_exact_sitting : Tallies (fun x => (carriedBy x).length) (hubMachine.exec NewHub sitting) ∧
    (hubMachine.exec NewHub sitting).audits = [⟨"s1", .closed, "Browser disconnected", 1, 2⟩] :=
  ⟨session_bytes_exact.2 sitting carriedBy (by decide), by decide⟩

end TerminalBytes
end DatrixOps
