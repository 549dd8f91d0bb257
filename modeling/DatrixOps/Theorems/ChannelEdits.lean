import DatrixOps.Alert.Channel

/-! What updates make of a channel. The secrets that a request leaves blank or masked stay what they are in
    the row, but the update has been validated with what it read, and the row may have become one of another
    type since. -/

namespace DatrixOps
namespace ChannelEdits
open Golang Channels

/-- The keys that a type of channel is validated by. -/
def fields : String → List String
  | "telegram" => ["bot_token", "chat_id"]
  | "discord" => ["webhook_url"]
  | "email" => ["smtp_host", "from", "to", "smtp_port"]
  | _ => []

/-- The types of channels. -/
def known : List String := ["telegram", "discord", "email"]

/-- The check that the value of a key has to pass. -/
def Passes (lib : Library) (key : String) (value : Option Json) : Prop :=
  match key with
  | "bot_token" => strip (textValue value) ≠ "" ∧ validateTelegramBotToken (textValue value) = .ok ()
  | "webhook_url" => strip (textValue value) ≠ "" ∧ validateDiscordWebhookURL lib (textValue value) = .ok ()
  | "chat_id" | "smtp_host" => strip (textValue value) ≠ ""
  | "from" | "to" => lib.parseAddress (strip (textValue value)) = true
  | "smtp_port" => validPort value = true
  | _ => True

theorem errorText_eq {provider : String} (named : provider ≠ "") {e : Except String Unit} :
    errorText provider e = "" ↔ e = .ok () := by
  cases e with
  | ok u => exact ⟨fun _ => rfl, fun _ => rfl⟩
  | error text =>
    constructor
    · intro empty
      exact absurd (String.append_eq_empty_iff.mp empty).1 named
    · exact nofun

section
variable {lib : Library} {config : Config}

theorem valid_telegram : validateConfig lib "telegram" config = "" ↔
    Passes lib "bot_token" (config "bot_token") ∧ Passes lib "chat_id" (config "chat_id") := by
  have checks : validateConfig lib "telegram" config =
      if strip (config.text "bot_token") = "" ∨ strip (config.text "chat_id") = "" then
      "Telegram bot token and chat ID are required"
      else errorText "Telegram " (validateTelegramBotToken (config.text "bot_token")) := rfl
  have token : Passes lib "bot_token" (config "bot_token") ↔
      strip (config.text "bot_token") ≠ "" ∧ validateTelegramBotToken (config.text "bot_token") = .ok () := Iff.rfl
  have chat : Passes lib "chat_id" (config "chat_id") ↔ strip (config.text "chat_id") ≠ "" := Iff.rfl
  rw [checks, token, chat]
  split
  · rename_i missing
    refine ⟨fun h => absurd h (by decide), fun h => ?_⟩
    exact absurd missing (not_or.mpr ⟨h.1.1, h.2⟩)
  · rename_i given
    obtain ⟨given₁, given₂⟩ := not_or.mp given
    rw [errorText_eq (by decide)]
    exact ⟨fun h => ⟨⟨given₁, h⟩, given₂⟩, fun h => h.1.2⟩

theorem valid_discord : validateConfig lib "discord" config = "" ↔ Passes lib "webhook_url" (config "webhook_url") := by
  have checks : validateConfig lib "discord" config = if strip (config.text "webhook_url") = "" then
    "Discord webhook URL is required"
      else errorText "Discord webhook " (validateDiscordWebhookURL lib (config.text "webhook_url")) := rfl
  have webhook : Passes lib "webhook_url" (config "webhook_url") ↔
      strip (config.text "webhook_url") ≠ "" ∧ validateDiscordWebhookURL lib (config.text "webhook_url") =
        .ok () := Iff.rfl
  rw [checks, webhook]
  split
  · rename_i missing
    exact ⟨fun h => absurd h (by decide), fun h => absurd missing h.1⟩
  · rename_i given
    rw [errorText_eq (by decide)]
    exact ⟨fun h => ⟨given, h⟩, fun h => h.2⟩

theorem valid_email : validateConfig lib "email" config = "" ↔ Passes lib "smtp_host" (config "smtp_host") ∧
    Passes lib "from" (config "from") ∧ Passes lib "to" (config "to") ∧
    Passes lib "smtp_port" (config "smtp_port") := by
  have checks : validateConfig lib "email" config = if strip (config.text "smtp_host") = "" then "SMTP host is required"
      else if !lib.parseAddress (strip (config.text "from")) then "A valid From email address is required"
      else if !lib.parseAddress (strip (config.text "to")) then "A valid recipient email address is required"
      else if !validPort (config "smtp_port") then "SMTP port must be between 1 and 65535"
      else "" := rfl
  have host : Passes lib "smtp_host" (config "smtp_host") ↔ strip (config.text "smtp_host") ≠ "" := Iff.rfl
  have sender : Passes lib "from" (config "from") ↔ lib.parseAddress (strip (config.text "from")) = true := Iff.rfl
  have recipient : Passes lib "to" (config "to") ↔ lib.parseAddress (strip (config.text "to")) = true := Iff.rfl
  have port : Passes lib "smtp_port" (config "smtp_port") ↔ validPort (config "smtp_port") = true := Iff.rfl
  rw [checks, host, sender, recipient, port]
  by_cases h₁ : strip (config.text "smtp_host") = ""
  · rw [if_pos h₁]
    exact ⟨fun h => absurd h (by decide), fun h => absurd h₁ h.1⟩
  rw [if_neg h₁]
  rcases h₂ : lib.parseAddress (strip (config.text "from")) with - | -
  · rw [Bool.not_false, if_pos rfl]
    exact ⟨fun h => absurd h (by decide), fun h => Bool.noConfusion h.2.1⟩
  rcases h₃ : lib.parseAddress (strip (config.text "to")) with - | -
  · rw [Bool.not_true, if_neg Bool.false_ne_true, Bool.not_false, if_pos rfl]
    exact ⟨fun h => absurd h (by decide), fun h => Bool.noConfusion h.2.2.1⟩
  rcases h₄ : validPort (config "smtp_port") with - | -
  · rw [Bool.not_true, if_neg Bool.false_ne_true, if_neg Bool.false_ne_true, Bool.not_false, if_pos rfl]
    exact ⟨fun h => absurd h (by decide), fun h => Bool.noConfusion h.2.2.2⟩
  rw [Bool.not_true, if_neg Bool.false_ne_true, if_neg Bool.false_ne_true, if_neg Bool.false_ne_true]
  exact ⟨fun _ => ⟨h₁, rfl, rfl, rfl⟩, fun _ => rfl⟩

/-- A configuration is valid for a type when the value under every key of the type passes its check. -/
theorem validateConfig_iff {type : String} :
    validateConfig lib type config = "" ↔ type ∈ known ∧ ∀ key ∈ fields type, Passes lib key (config key) := by
  by_cases telegram : type = "telegram"
  · subst telegram
    rw [valid_telegram]
    simp [known, fields]
  by_cases discord : type = "discord"
  · subst discord
    rw [valid_discord]
    simp [known, fields]
  by_cases email : type = "email"
  · subst email
    rw [valid_email]
    simp [known, fields]
  have unknown : type ∉ known := by simp [known, telegram, discord, email]
  refine ⟨fun h => ?_, fun h => absurd h.1 unknown⟩
  unfold validateConfig at h
  split at h
  · exact absurd rfl telegram
  · exact absurd rfl discord
  · exact absurd rfl email
  · exact absurd h (by decide)

theorem valid_iff {name type : String} : validateChannel lib ⟨name, type, some config⟩ = "" ↔
    name ≠ "" ∧ type ∈ known ∧ ∀ key ∈ fields type, Passes lib key (config key) := by
  rw [← validateConfig_iff, validateChannel]
  split
  · rename_i unnamed
    exact ⟨fun h => absurd h (by decide), fun h => absurd unnamed h.1⟩
  · rename_i named
    exact ⟨fun h => ⟨named, h⟩, fun h => h.2⟩

end

/-! ### Merging -/

/-- A request leaves what is stored under a key. -/
def LeavesKey (new : Config) (key : String) : Prop := ∀ value, new key = some value → leaves value = true

section
variable {existing new : Config} {key : String}

theorem merge_left (h : LeavesKey new key) : mergeConfig existing new key = existing key := by
  unfold mergeConfig
  rcases given : new key with - | value
  · rfl
  · exact if_pos (h value given)

theorem merge_set (h : ¬LeavesKey new key) : mergeConfig existing new key = new key := by
  unfold mergeConfig
  rcases given : new key with - | value
  · exact absurd (fun value eq => (Option.some_ne_none value (eq.symm.trans given)).elim) h
  · refine if_neg fun left => h fun value' eq => ?_
    rw [← Option.some.inj (given.symm.trans eq)]
    exact left

/-- What a merge stores under a key and would have left there is what was there. -/
theorem merge_secret {value : Json} (stored : mergeConfig existing new key = some value)
    (masked : leaves value = true) :
    existing key = some value := by
  by_cases left : LeavesKey new key
  · have same : mergeConfig existing new key = existing key := merge_left left
    exact same ▸ stored
  · rw [merge_set left] at stored
    refine absurd (fun value' eq => ?_) left
    rw [← Option.some.inj (stored.symm.trans eq)]
    exact masked

end

/-- A merge is valid when it was valid over what was read, and what it leaves in the row passes. -/
theorem valid_merge {lib : Library} {name type : String} {read row new : Config}
    (fresh : validateChannel lib ⟨name, type, some (mergeConfig read new)⟩ = "")
    (kept : ∀ key ∈ fields type, LeavesKey new key → Passes lib key (row key)) :
    validateChannel lib ⟨name, type, some (mergeConfig row new)⟩ = "" := by
  obtain ⟨named, typed, passes⟩ := valid_iff.mp fresh
  refine valid_iff.mpr ⟨named, typed, fun key mem => ?_⟩
  by_cases left : LeavesKey new key
  · rw [merge_left left]
    exact kept key mem left
  · have asked : mergeConfig read new key = new key := merge_set left
    rw [merge_set left, ← asked]
    exact passes key mem

/-! ### The sanitized view -/

theorem leaves_mask (value : Option Json) : leaves (.str (maskConfiguredString value)) = true := by
  have configured : leaves (.str "configured") = true := by decide
  have blank : leaves (.str "") = true := by decide
  unfold maskConfiguredString
  split
  · split
    · exact configured
    · exact blank
  · exact blank

/-- What is echoed of a key leaves it as it is, or makes null of a key that is not there. -/
theorem merge_echo {existing new : Config} {key : String} (echoed : new key = some ((existing key).getD .null)) :
    mergeConfig existing new key = existing key ∨
      (existing key = none ∧ mergeConfig existing new key = some .null) := by
  by_cases left : LeavesKey new key
  · exact Or.inl (merge_left left)
  · rw [merge_set left, echoed]
    rcases existing key with - | value
    · exact Or.inr ⟨rfl, rfl⟩
    · exact Or.inl rfl

/-- What reads null as it reads a key that is not there, reads the echo as what it echoes. -/
theorem read_echo {α : Type} {read : Option Json → α} (null : read (some .null) = read none) {existing new : Config}
    {key : String}
    (echoed : new key = some ((existing key).getD .null)) :
      read (mergeConfig existing new key) = read (existing key) := by
  rcases merge_echo echoed with same | ⟨absent, isNull⟩
  · rw [same]
  · rw [isNull, absent, null]

theorem text_echo {existing new : Config} {key : String} (echoed : new key = some ((existing key).getD .null)) :
    Config.text (mergeConfig existing new) key = existing.text key :=
  read_echo rfl echoed

theorem text_left {existing new : Config} {key : String} (left : LeavesKey new key) :
    Config.text (mergeConfig existing new) key = existing.text key := by
  rw [Config.text, merge_left left]
  rfl

/-- A text that masks, or is not there, leaves its key. -/
theorem leaves_masked {new : Config} {key text : String} (given : new key = some (.str text))
    (masked : leaves (.str text) = true) :
    LeavesKey new key := fun value eq => by
  rw [← Option.some.inj (given.symm.trans eq)]
  exact masked

theorem delivery_echo (type : String) (config : Config) :
    delivery type (mergeConfig config (sanitizedChannelConfig type config)) = delivery type config := by
  by_cases telegram : type = "telegram"
  · subst telegram
    have token : Config.text (mergeConfig config (sanitizedChannelConfig "telegram" config)) "bot_token" =
        config.text "bot_token" :=
      text_left fun value none_ => (Option.some_ne_none value none_.symm).elim
    have chat : Config.text (mergeConfig config (sanitizedChannelConfig "telegram" config)) "chat_id" =
      config.text "chat_id" := text_echo rfl
    simp only [delivery, token, chat]
  by_cases discord : type = "discord"
  · subst discord
    have webhook : Config.text (mergeConfig config (sanitizedChannelConfig "discord" config)) "webhook_url" =
        config.text "webhook_url" :=
      text_left (leaves_masked rfl (by decide))
    simp only [delivery, webhook]
  by_cases email : type = "email"
  · subst email
    have text (key : String) (echoed : sanitizedChannelConfig "email" config key = some ((config key).getD .null)) :
        Config.text (mergeConfig config (sanitizedChannelConfig "email" config)) key = config.text key :=
          text_echo echoed
    have secret (key : String) (masked : sanitizedChannelConfig "email" config key =
      some (.str (maskConfiguredString (config key)))) :
        Config.text (mergeConfig config (sanitizedChannelConfig "email" config)) key = config.text key :=
      text_left (leaves_masked masked (leaves_mask _))
    have port : smtpPort (mergeConfig config (sanitizedChannelConfig "email" config) "smtp_port") =
        smtpPort (config "smtp_port") :=
      read_echo rfl rfl
    have tls : boolValue (mergeConfig config (sanitizedChannelConfig "email" config) "use_tls") =
        boolValue (config "use_tls") :=
      read_echo rfl rfl
    simp only [delivery, emailConfigFromChannel, text "smtp_host" rfl, text "from" rfl, text "to" rfl,
      secret "username" rfl,
      secret "password" rfl, port, tls]
  · unfold delivery
    split
    · exact absurd rfl telegram
    · exact absurd rfl discord
    · exact absurd rfl email
    · rfl

/-- The types are in lower case and without blanks. -/
theorem normalType_known {lib : Library} {type : String} (h : type ∈ known) : normalType lib type = type := by
  have lowered (text : String) (trimmed : strip text = text)
      (plain : (text.toList.all fun c => decide (c.toNat < 128) && decide (c.toLower = c)) = true) :
        normalType lib text = text := by
    have same : ∀ c ∈ text.toList, lib.lower.lower c = c := by
      intro c mem
      have both := List.all_eq_true.mp plain c mem
      rw [Bool.and_eq_true, decide_eq_true_eq, decide_eq_true_eq] at both
      rw [lib.lower.ascii c both.1, both.2]
    rw [normalType, trimmed, CaseMap.toLower, List.map_congr_left same, List.map_id', String.ofList_toList]
  simp only [known, List.mem_cons, List.not_mem_nil, or_false] at h
  rcases h with rfl | rfl | rfl
  · exact lowered "telegram" (by decide) (by decide)
  · exact lowered "discord" (by decide) (by decide)
  · exact lowered "email" (by decide) (by decide)

/-! ### Runs -/

/-- A request that is the sanitized view of what was read. -/
def Echoes (u : Update) :
    Prop := u.request = ⟨u.read.name, u.read.type, some (sanitizedChannelConfig u.read.type u.read.config)⟩

/-- Every channel is valid; the last update has kept what its request left blank or masked, and an echo of an
    unchanged row has not changed what a delivery reads. -/
structure Sound (lib : Library) (s : Table) : Prop where
  valid : ∀ row ∈ s.rows, validateChannel lib ⟨row.name, row.type, some row.config⟩ = ""
  secrets : ∀ w, s.last = some w → ∀ key value, w.after.config key = some value → leaves value = true →
    w.before.config key = some value
  echo : ∀ w, s.last = some w → Echoes w.update → w.before = w.update.read →
    delivery w.after.type w.after.config = delivery w.before.type w.before.config

/-- The locked row is of the type asked for, or has what was read under every key of that type that the
request leaves. -/
def Careful (s : Table) : Move → Prop
  | .transaction i _ => ∀ u row, s.pending[i]? = some u → s.getChannel u.read.id u.read.userId = some row →
      row.type = u.type ∨ ∀ key ∈ fields u.type, LeavesKey u.config key → row.config key = u.read.config key
  | _ => True

/-- An update between its read and its transaction. -/
structure Prepared (lib : Library) (u : Update) : Prop where
  read : validateChannel lib ⟨u.read.name, u.read.type, some u.read.config⟩ = ""
  merged : validateChannel lib ⟨u.name, u.type, some (mergeConfig u.read.config u.config)⟩ = ""
  type : u.type = requestedType lib u.read u.request
  config : u.config = u.request.config.getD (mapOf [])

/-- The stored channels are sound, and so is every update between its read and its transaction. -/
structure Inv (lib : Library) (s : Table) : Prop where
  sound : Sound lib s
  pending : ∀ u ∈ s.pending, Prepared lib u

/-- What is written is valid when the update is careful. -/
theorem Prepared.valid {lib : Library} {u : Update} (h : Prepared lib u) {row : Stored}
    (valid : validateChannel lib ⟨row.name, row.type, some row.config⟩ = "")
    (careful : row.type = u.type ∨ ∀ key ∈ fields u.type, LeavesKey u.config key → row.config key = u.read.config key) :
    validateChannel lib ⟨(row.write u).name, (row.write u).type, some (row.write u).config⟩ = "" := by
  refine valid_merge h.merged fun key mem left => ?_
  rcases careful with same | kept
  · exact (valid_iff.mp valid).2.2 key (same ▸ mem)
  · rw [kept key mem left]
    have passes := (valid_iff.mp h.merged).2.2 key mem
    rwa [merge_left left] at passes

theorem Prepared.echo {lib : Library} {u : Update} (h : Prepared lib u) (echoes : Echoes u) :
    delivery (u.read.write u).type (u.read.write u).config = delivery u.read.type u.read.config := by
  obtain ⟨-, typed, -⟩ := valid_iff.mp h.read
  have nonempty : u.read.type ≠ "" := by
    intro empty
    rw [empty] at typed
    exact absurd typed (by decide)
  have type : u.type = u.read.type := by
    rw [h.type, echoes, requestedType, normalType_known typed, if_neg nonempty]
  have config : u.config = sanitizedChannelConfig u.read.type u.read.config := by
    rw [h.config, echoes]
    rfl
  rw [Stored.write, type, config]
  exact delivery_echo _ _

namespace Inv
variable {lib : Library} {s : Table}

theorem createChannel (h : Inv lib s) (userId id : String) (r : Channels.Request) :
    Inv lib (s.createChannel lib userId id r) := by
  unfold Table.createChannel
  simp only
  split
  · rename_i config given
    split
    · rename_i fine
      refine ⟨⟨fun row mem => ?_, h.sound.secrets, h.sound.echo⟩, h.pending⟩
      rcases List.mem_append.mp mem with old | new
      · exact h.sound.valid row old
      · rw [List.mem_singleton.mp new, ← given]
        exact fine.1
    · exact h
  · exact h

theorem found (h : Inv lib s) {id userId : String} {row : Stored} (here : s.getChannel id userId = some row) :
    validateChannel lib ⟨row.name, row.type, some row.config⟩ = "" :=
  h.sound.valid row (List.mem_of_find?_eq_some here)

theorem updateChannel (h : Inv lib s) (userId id : String) (r : Channels.Request) :
    Inv lib (s.updateChannel lib userId id r) := by
  unfold Table.updateChannel
  split
  · exact h
  · rename_i existing here
    simp only
    split
    · rename_i fine
      refine ⟨⟨h.sound.valid, h.sound.secrets, h.sound.echo⟩, fun u mem => ?_⟩
      rcases List.mem_append.mp mem with old | new
      · exact h.pending u old
      · have eq := List.mem_singleton.mp new
        have request : u.request = r := by rw [eq]
        have read : u.read = existing := by rw [eq]
        have name : u.name = strip r.name := by rw [eq]
        have type : u.type = requestedType lib existing r := by rw [eq]
        have config : u.config = r.config.getD (mapOf []) := by rw [eq]
        have valid := h.found here
        refine ⟨?_, ?_, ?_, ?_⟩
        · rw [read]
          exact valid
        · rw [read, name, type, config]
          exact fine
        · rw [read, request, type]
        · rw [request, config]
    · exact h

theorem transaction (h : Inv lib s) (i : Nat) (ok : Bool) (careful : Careful s (.transaction i ok)) :
    Inv lib (s.transaction i ok) := by
  unfold Table.transaction
  split
  · exact h
  · rename_i u pending
    have prepared := h.pending u (List.mem_of_getElem? pending)
    have rest : Inv lib { s with pending := s.pending.eraseIdx i } :=
      ⟨⟨h.sound.valid, h.sound.secrets, h.sound.echo⟩, fun u' mem => h.pending u' (List.mem_of_mem_eraseIdx mem)⟩
    simp only
    split
    · exact rest
    · rename_i row here
      split
      · refine ⟨⟨fun row' mem => ?_, fun w last => ?_, fun w last => ?_⟩, rest.pending⟩
        · obtain ⟨other, old, rfl⟩ := List.mem_map.mp mem
          split
          · exact prepared.valid (h.found here) (careful u row pending here)
          · exact h.sound.valid other old
        · rw [← Option.some.inj last]
          exact fun key value stored masked => merge_secret stored masked
        · rw [← Option.some.inj last]
          intro echoes (same : row = u.read)
          subst same
          exact prepared.echo echoes
      · exact rest

theorem step (h : Inv lib s) (move : Move) (careful : Careful s move) : Inv lib ((machine lib).step s move) := by
  cases move with
  | create userId id r => exact h.createChannel userId id r
  | update userId id r => exact h.updateChannel userId id r
  | transaction i ok => exact h.transaction i ok careful
  | delete id userId =>
    exact ⟨⟨fun row mem => h.sound.valid row (List.mem_filter.mp mem).1, h.sound.secrets, h.sound.echo⟩, h.pending⟩

end Inv

/-- No channels. -/
def empty : Table := ⟨[], [], none⟩

/-- In every run of careful updates the channels stay valid, what a request leaves blank or masked stays what
    it is, and an echo changes no delivery. -/
theorem channels_sound (lib : Library) (moves : List Move) (h : (machine lib).Each Careful empty moves) :
    (machine lib).Always (Sound lib) empty moves := by
  have start : Inv lib empty := by
    refine ⟨⟨?_, ?_, ?_⟩, ?_⟩
    · exact fun row mem => absurd mem List.not_mem_nil
    · exact fun w last => (Option.some_ne_none w last.symm).elim
    · exact fun w last => (Option.some_ne_none w last.symm).elim
    · exact fun u mem => absurd mem List.not_mem_nil
  have always : (machine lib).Always (Inv lib) empty moves :=
    Machine.always_of_each (fun _ move inv careful => Inv.step inv move careful) start h
  exact always.mono fun _ inv => inv.sound

/-! ### A channel that becomes one of another type -/

/-- The URL of a Discord webhook. -/
def webhook : String := "https://discord.com/api/webhooks/1/x"

/-- A library that knows this URL and takes any text with an `@` for an address. -/
def plainLibrary : Library where
  lower := .asciiOnly
  parseURL s := if s = webhook then some ⟨"https", "discord.com", false, "discord.com", "/api/webhooks/1/x"⟩ else none
  parseAddress s := '@' ∈ s.toList

/-- A bot token of the length that is asked for. -/
def token : String := "12345678:AAAAAAAAAAAAAAAAAAAAAAAAAAAAAAAAAAA"

/-- Alice has a Telegram channel. -/
def created : Move := .create "alice" "c1" ⟨"ops", "telegram",
    some (mapOf [("bot_token", .str token), ("chat_id", .str "1")])⟩

/-- She saves it as it is shown. -/
def echoed : List Move := [created, .update "alice" "c1" ⟨"ops", "telegram", some (mapOf [("chat_id", .str "1")])⟩,
    .transaction 0 true]

theorem channels_sound_echoed : (machine plainLibrary).Always (Sound plainLibrary) empty echoed := by
  refine channels_sound plainLibrary echoed ⟨trivial, trivial, fun u row pending here => Or.inl ?_, trivial⟩
  have asked : ((machine plainLibrary).exec empty (echoed.take 2)).pending.map (·.type) = ["telegram"] := by decide
  have stored : ((machine plainLibrary).exec empty (echoed.take 2)).rows.map (·.type) = ["telegram"] := by decide
  have row_type : row.type ∈ ["telegram"] := stored ▸ List.mem_map_of_mem (List.mem_of_find?_eq_some here)
  have type : u.type ∈ ["telegram"] := asked ▸ List.mem_map_of_mem (List.mem_of_getElem? pending)
  rw [List.mem_singleton.mp row_type, List.mem_singleton.mp type]

/-- While she gives it another chat, it is made a Discord channel, with a bot token that nobody checks. -/
def mixed : List Move :=
  [created, .update "alice" "c1" ⟨"ops", "telegram", some (mapOf [("chat_id", .str "2")])⟩,
    .update "alice" "c1" ⟨"ops", "discord", some (mapOf [("webhook_url", .str webhook), ("bot_token", .str "x")])⟩,
    .transaction 1 true,
    .transaction 0 true]

/-- Her update makes it a Telegram channel whose token is not one. -/
theorem stale_update_stored : ¬(∀ lib moves, (machine lib).Always (Sound lib) empty moves) ∧
    ((machine plainLibrary).exec empty mixed).rows.map
      (fun row => (row.type, validateChannel plainLibrary ⟨row.name, row.type, some row.config⟩)) =
      [("telegram", "Telegram invalid bot token format")] := by
  have stored : ((machine plainLibrary).exec empty mixed).rows.map
      (fun row => (row.type, validateChannel plainLibrary ⟨row.name, row.type, some row.config⟩)) =
      [("telegram", "Telegram invalid bot token format")] := by decide
  refine ⟨fun always => ?_, stored⟩
  have mem := List.mem_singleton_self ("telegram", "Telegram invalid bot token format")
  rw [← stored] at mem
  obtain ⟨row, there, text⟩ := List.mem_map.mp mem
  have valid := (always plainLibrary mixed).last.valid row there
  have invalid := (Prod.mk.inj text).2
  rw [valid] at invalid
  exact absurd invalid (by decide)

end ChannelEdits
end DatrixOps
