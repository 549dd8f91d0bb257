import DatrixOps.Machine
import DatrixOps.Golang.Json
import DatrixOps.Golang.Strings
import DatrixOps.Golang.IP
import DatrixOps.Diagnostics.Host

/-! Notification channels: what is stored of them, how an update is merged and validated, and what a delivery
    reads. An update reads the row and validates what it would make of it, and later locks the row and merges
    once more. -/

namespace DatrixOps
namespace Channels
open Golang

/-- `map[string]interface{}` -/
abbrev Config := String → Option Json

/-- What `url.Parse` tells of a URL. -/
structure ParsedURL where
  scheme : String
  host : String
  hasUser : Bool
  hostname : String
  escapedPath : String

/-- What the library answers. -/
structure Library where
  lower : CaseMap
  parseURL : String → Option ParsedURL
  parseAddress : String → Bool

def strip (s : String) : String := String.ofList (trimSpace s.toList)

/-- `strings.EqualFold` with a text in lower case -/
def equalFold (s lowerText : String) : Bool := s.toList.map Json.foldRune == lowerText.toList

/-! ### Validation -/

/-- The host of a URL as it is compared. -/
def comparedHost (lib : Library) (u : ParsedURL) : String :=
  String.ofList (let host := lib.lower.toLower u.hostname.toList; if ".".toList <:+ host then host.dropLast else host)

def validatePublicURL (lib : Library) (rawURL : String) (requireHTTPS : Bool) : Except String Unit :=
  match lib.parseURL (strip rawURL) with
  | none => .error "URL must be absolute"
  | some u =>
    let host := comparedHost lib u
    if u.scheme = "" ∨ u.host = "" then .error "URL must be absolute"
    else if requireHTTPS && !equalFold u.scheme "https" then .error "URL must use HTTPS"
    else if !requireHTTPS && !equalFold u.scheme "https" && !equalFold u.scheme "http" then
      .error "URL must use HTTP or HTTPS"
    else if u.hasUser then .error "URL must not contain embedded credentials"
    else if host = "" then .error "URL host is required"
    else if host = "localhost" ∨ ".localhost".toList <:+ host.toList then .error "URL must not target localhost"
    else if (parseIP host.toList).any fun ip => !Diagnostics.isPublicIP ip then
      .error "URL must not target a private, loopback, link-local, or unspecified address"
    else .ok ()

def validateDiscordWebhookURL (lib : Library) (rawURL : String) : Except String Unit := do
  validatePublicURL lib rawURL true
  match lib.parseURL (strip rawURL) with
  | none => .ok ()
  | some u =>
    let host := comparedHost lib u
    if host ≠ "discord.com" ∧ ¬".discord.com".toList <:+ host.toList ∧ host ≠ "discordapp.com" ∧
      ¬".discordapp.com".toList <:+ host.toList then
      .error "URL must use an official Discord host"
    else if ¬"/api/webhooks/".toList <+: u.escapedPath.toList then .error "URL must be a Discord webhook endpoint"
    else .ok ()

/-- `^[0-9]{8,12}:[A-Za-z0-9_-]{35}$` -/
def telegramBotTokenPattern (token : String) : Bool :=
  let number := token.toList.takeWhile Char.isDigit
  match token.toList.dropWhile Char.isDigit with
  | ':' :: secret => 8 ≤ number.length && number.length ≤ 12 && secret.length = 35 && secret.all fun c =>
    c.isAlphanum || c = '_' || c = '-'
  | _ => false

def validateTelegramBotToken (token : String) : Except String Unit :=
  if strip token = "" then .error "bot token is required"
  else if !telegramBotTokenPattern (strip token) then .error "invalid bot token format"
  else .ok ()

structure AlertChannel where
  name : String
  type : String
  config : Option Config

/-- `text, _ := value.(string)` -/
def textValue : Option Json → String
  | some (.str s) => s
  | _ => ""

def Config.text (config : Config) (key : String) : String := textValue (config key)

/-- `int` of a float -/
def truncate (q : ℚ) : Int := if q < 0 then -(-q).floor else q.floor

def validPort (value : Option Json) : Bool :=
  match value with
  | some (.num q) => 1 ≤ truncate q && truncate q ≤ 65535
  | _ => true

/-- The text of an error, or none. -/
def errorText (provider : String) : Except String Unit → String
  | .ok () => ""
  | .error e => provider ++ e

def validateConfig (lib : Library) (type : String) (config : Config) : String :=
  match type with
  | "telegram" =>
    if strip (config.text "bot_token") = "" ∨ strip (config.text "chat_id") = "" then
      "Telegram bot token and chat ID are required"
    else errorText "Telegram " (validateTelegramBotToken (config.text "bot_token"))
  | "discord" =>
    if strip (config.text "webhook_url") = "" then "Discord webhook URL is required"
    else errorText "Discord webhook " (validateDiscordWebhookURL lib (config.text "webhook_url"))
  | "email" =>
    if strip (config.text "smtp_host") = "" then "SMTP host is required"
    else if !lib.parseAddress (strip (config.text "from")) then "A valid From email address is required"
    else if !lib.parseAddress (strip (config.text "to")) then "A valid recipient email address is required"
    else if !validPort (config "smtp_port") then "SMTP port must be between 1 and 65535"
    else ""
  | _ => "Unsupported notification channel type"

def validateChannel (lib : Library) (channel : AlertChannel) : String :=
  if channel.name = "" then "Channel name is required"
  else match channel.config with
    | none => "Channel configuration is required"
    | some config => validateConfig lib channel.type config

/-! ### What is shown and what is merged -/

def maskConfiguredString (value : Option Json) : String :=
  match value with
  | some (.str raw) => if strip raw ≠ "" then "configured" else ""
  | _ => ""

/-- A map literal; what is read of a key that is not there is null. -/
def mapOf (fields : List (String × Json)) : Config := fun key => fields.lookup key

def sanitizedChannelConfig (type : String) (config : Config) : Config :=
  let read (key : String) : String × Json := (key, (config key).getD .null)
  match type with
  | "telegram" => mapOf [read "chat_id"]
  | "discord" => mapOf [("webhook_url", .str "configured")]
  | "email" => mapOf [read "smtp_host", read "smtp_port", read "from", read "to", read "use_tls",
      ("username", .str (maskConfiguredString (config "username"))),
      ("password", .str (maskConfiguredString (config "password")))]
  | _ => mapOf []

/-- A value that leaves what is stored. -/
def leaves : Json → Bool
  | .str s => strip s = "" || strip s = "configured"
  | _ => false

/-- The new values over the stored ones. -/
def mergeConfig (existing new : Config) : Config := fun key =>
  match new key with
  | none => existing key
  | some value => if leaves value then existing key else some value

/-! ### Requests -/

/-- A row of `alert_channels` -/
structure Stored where
  id : String
  userId : String
  name : String
  type : String
  config : Config

structure Request where
  name : String
  type : String
  config : Option Config

/-- An update that has been validated: what was asked, what was read, and what will be written. -/
structure Update where
  request : Request
  read : Stored
  name : String
  type : String
  config : Config

/-- What the last update did to its row. -/
structure Written where
  update : Update
  before : Stored
  after : Stored

/-- The table, and the updates between their read and their transaction. -/
structure Table where
  rows : List Stored
  pending : List Update
  last : Option Written

def normalType (lib : Library) (type : String) : String := String.ofList (lib.lower.toLower (strip type).toList)

/-- `CreateChannel`; the row gets an id of its own. -/
def Table.createChannel (lib : Library) (s : Table) (userId id : String) (r : Request) : Table :=
  let channel : AlertChannel := ⟨strip r.name, normalType lib r.type, r.config⟩
  match r.config with
  | some config =>
    if validateChannel lib channel = "" ∧ ∀ row ∈ s.rows, row.id ≠ id then
      { s with rows := s.rows ++ [⟨id, userId, channel.name, channel.type, config⟩] }
    else s
  | none => s

def Table.getChannel (s : Table) (id userId : String) : Option Stored :=
  s.rows.find? fun row => row.id = id && row.userId = userId

/-- The type that an update asks for; none is that of the row. -/
def requestedType (lib : Library) (existing : Stored) (r : Request) : String :=
  if normalType lib r.type = "" then existing.type else normalType lib r.type

/-- The handler's `UpdateChannel`, up to the call of the repository. -/
def Table.updateChannel (lib : Library) (s : Table) (userId id : String) (r : Request) : Table :=
  match s.getChannel (strip id) userId with
  | none => s
  | some existing =>
    let type := requestedType lib existing r
    let config := r.config.getD (mapOf [])
    if validateChannel lib ⟨strip r.name, type, some (mergeConfig existing.config config)⟩ = "" then
      { s with pending := s.pending ++ [⟨r, existing, strip r.name, type, config⟩] }
    else s

def Stored.write (row : Stored) (u : Update) : Stored :=
  ⟨row.id, row.userId, u.name, u.type, mergeConfig row.config u.config⟩

/-- The repository's `UpdateChannel`: the row is locked, read and written in one transaction, which may fail. -/
def Table.transaction (s : Table) (i : Nat) (ok : Bool) : Table :=
  match s.pending[i]? with
  | none => s
  | some u =>
    let s := { s with pending := s.pending.eraseIdx i }
    match s.getChannel u.read.id u.read.userId with
    | none => s
    | some row =>
      if ok then
        { s with rows := s.rows.map fun other => if other.id = row.id then row.write u
          else other, last := some ⟨u, row, row.write u⟩ }
      else s

def Table.deleteChannel (s : Table) (id userId : String) : Table :=
  { s with rows := s.rows.filter fun row => !(row.id = id && row.userId = userId) }

inductive Move where
  | create (userId id : String) (r : Request)
  | update (userId id : String) (r : Request)
  | transaction (i : Nat) (ok : Bool)
  | delete (id userId : String)

def Table.step (lib : Library) (s : Table) : Move → Table
  | .create userId id r => s.createChannel lib userId id r
  | .update userId id r => s.updateChannel lib userId id r
  | .transaction i ok => s.transaction i ok
  | .delete id userId => s.deleteChannel id userId

def machine (lib : Library) : Machine Table Move := ⟨Table.step lib⟩

/-! ### Delivery -/

structure EmailConfig where
  host : String
  port : Int
  username : String
  password : String
  sender : String
  recipient : String
  useTLS : Bool

/-- What `sendNotifications` reads of a channel. -/
inductive Delivery where
  | telegram (token chatID : String)
  | discord (webhookURL : String)
  | email (config : EmailConfig)
  | nothing

def smtpPort : Option Json → Int
  | some (.num q) => if 1 ≤ q ∧ q ≤ 65535 then truncate q else 587
  | _ => 587

def boolValue : Option Json → Bool
  | some (.bool b) => b
  | _ => false

def emailConfigFromChannel (config : Config) : EmailConfig where
  host := config.text "smtp_host"
  port := smtpPort (config "smtp_port")
  username := config.text "username"
  password := config.text "password"
  sender := config.text "from"
  recipient := config.text "to"
  useTLS := boolValue (config "use_tls")

def delivery (type : String) (config : Config) : Delivery :=
  match type with
  | "telegram" =>
    if config.text "bot_token" ≠ "" ∧ config.text "chat_id" ≠ "" then
      .telegram (config.text "bot_token") (config.text "chat_id") else .nothing
  | "discord" => if config.text "webhook_url" ≠ "" then .discord (config.text "webhook_url") else .nothing
  | "email" => .email (emailConfigFromChannel config)
  | _ => .nothing

end Channels
end DatrixOps
