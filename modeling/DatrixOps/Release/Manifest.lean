import Mathlib.Data.List.DropRight
import DatrixOps.Posix.Files
import DatrixOps.Golang.Json
import DatrixOps.Golang.Strings

/-! The signed manifest of an agent release, and where a release keeps its files. -/

namespace DatrixOps
namespace Release
open Golang Posix

/-- `strings.TrimSpace` -/
def trimmed (s : String) : String := String.ofList (trimSpace s.toList)

/-- `strings.TrimRight(s, "/")` -/
def trimSlashes (s : String) : String := String.ofList (s.toList.rdropWhile (· = '/'))

/-- `path.Base` -/
def pathBase (path : String) : String :=
  if path = "" then "."
  else
    match (path.toList.rdropWhile (· = '/')).rtakeWhile (· ≠ '/') with
    | [] => "/"
    | last => String.ofList last

/-- A parsed URL, as far as it is looked at. -/
structure URL where
  scheme : String
  host : String
  user : Option String
  path : String
  rawQuery : String
  fragment : String

def URL.isAbs (u : URL) : Bool := u.scheme ≠ ""

structure Artifact where
  os : String
  arch : String
  url : String
  sha256 : String
  size : Int

/-- The publication is counted from Go's zero time. -/
structure Manifest where
  schemaVersion : Int
  version : String
  publishedAt : Int
  artifacts : List Artifact

/-- What the agent is built for, a system other than Windows, and what it takes from libraries and its environment. -/
structure Runtime where
  goos : String
  goarch : String
  notWindows : goos ≠ "windows"
  executablePath : String
  pid : Nat
  envLayout : String
  parseURL : String → Except String URL
  joinPath : String → String → Except String String
  quote : String → String
  lower : CaseMap
  verify : Bytes → Bytes → Bytes → Bool
  sha256 : Bytes → Bytes
  unmarshal : Bytes → Except String Manifest
  marshal : List (String × String) → Bytes

def supportedManifestSchemaVersion : Int := 1

namespace Artifact

def validateURL (rt : Runtime) (url : String) : Except String Unit :=
  match rt.parseURL (trimmed url) with
  | .error _ => throw "URL is invalid"
  | .ok parsed =>
    if parsed.isAbs then
      if parsed.scheme ≠ "https" ∨ parsed.host = "" ∨ parsed.user.isSome then
        throw "absolute URL must use HTTPS and must not contain credentials"
      else pure ()
    else if parsed.rawQuery ≠ "" ∨ parsed.fragment ≠ "" ∨ parsed.path ≠ pathBase parsed.path ∨ parsed.path = "." ∨
        parsed.path = ".." then
      throw "relative URL must be a single artifact filename"
    else pure ()

def validate (rt : Runtime) (a : Artifact) : Except String Unit := do
  if trimmed a.os = "" then throw "OS is required"
  if trimmed a.arch = "" then throw "architecture is required"
  if trimmed a.url = "" then throw "URL is required"
  validateURL rt a.url
  if (trimmed a.sha256).utf8ByteSize ≠ 64 then throw "SHA-256 must contain 64 hexadecimal characters"
  if a.size ≤ 0 then throw "artifact size must be greater than zero"

end Artifact

namespace Manifest

def validateArtifacts (rt : Runtime) : Nat → List Artifact → Except String Unit
  | _, [] => pure ()
  | index, a :: rest =>
    match a.validate rt with
    | .error e => throw ("artifact " ++ toString index ++ ": " ++ e)
    | .ok () => validateArtifacts rt (index + 1) rest

def validate (rt : Runtime) (m : Manifest) : Except String Unit := do
  if m.schemaVersion ≠ supportedManifestSchemaVersion then
    throw ("unsupported manifest schema version: " ++ toString m.schemaVersion)
  if trimmed m.version = "" then throw "manifest version is required"
  if m.publishedAt = 0 then throw "manifest published_at is required"
  if m.artifacts = [] then throw "manifest must contain at least one artifact"
  validateArtifacts rt 0 m.artifacts

def artifactFor (m : Manifest) (goos goarch : String) : Except String Artifact :=
  match m.artifacts.find? fun a => a.os = goos && a.arch = goarch with
  | some a => pure a
  | none => throw ("no artifact found for " ++ goos ++ "/" ++ goarch)

end Manifest

/-! ### Layouts -/

/-- `^[0-9]+\.[0-9]+\.[0-9]+$` -/
def isSemver (version : String) : Bool :=
  match split '.' version.toList with
  | [major, minor, patch] => [major, minor, patch].all fun part => part ≠ [] && part.all Char.isDigit
  | _ => false

inductive Layout where
  | default | github | legacyDirect
  deriving DecidableEq, Repr

variable (rt : Runtime)

def parseLayout (raw : String) : Except String Layout :=
  let layout := String.ofList (rt.lower.toLower (trimSpace raw.toList))
  if layout = "" ∨ layout = "default" then pure .default
  else if layout = "github" then pure .github
  else if layout = "legacy_direct" then pure .legacyDirect
  else throw ("unsupported release layout " ++ rt.quote raw ++ " (must be " ++ rt.quote "github" ++ ", " ++
    rt.quote "default" ++
    ", or " ++ rt.quote "legacy_direct" ++ ")")

def versionDir (layout : Layout) (version : String) : Except String String :=
  if isSemver (trimmed version) then
    match layout with
    | .github => pure ("v" ++ trimmed version)
    | .default => pure (trimmed version)
    | .legacyDirect => pure ""
  else throw ("invalid semver version format " ++ rt.quote version ++ " (must match X.Y.Z)")

def artifactBaseURL (releaseBaseURL : String) (layout : Layout) (version : String) : Except String String := do
  let base := trimSlashes (trimmed releaseBaseURL)
  if base = "" then throw "releaseBaseURL must not be empty"
  let vDir ← versionDir rt layout version
  if vDir = "" then pure base else rt.joinPath base vDir

/-- `fmt.Errorf("context: %w", err)` -/
def wrap {α : Type} (context : String) (x : Except String α) : Except String α := x.mapError (context ++ ": " ++ ·)

def manifestURL (releaseBaseURL : String) (layout : Layout) (version : String) : Except String String := do
  let artBase ← wrap "construct manifest URL" (artifactBaseURL rt releaseBaseURL layout version)
  rt.joinPath artBase "manifest.json"

def signatureURL (releaseBaseURL : String) (layout : Layout) (version : String) : Except String String := do
  let artBase ← wrap "construct signature URL" (artifactBaseURL rt releaseBaseURL layout version)
  rt.joinPath artBase "manifest.sig"

def artifactURL (releaseBaseURL : String) (layout : Layout) (version artifactPath : String) : Except String String := do
  let artifactPath := trimmed artifactPath
  if artifactPath = "" then throw "artifact path must not be empty"
  let parsed ← wrap "parse artifact path" (rt.parseURL artifactPath)
  if parsed.isAbs then pure artifactPath
  else
    let artBase ← wrap "construct artifact URL" (artifactBaseURL rt releaseBaseURL layout version)
    rt.joinPath artBase artifactPath

/-- The key that releases are signed with, `QhHPD6j1As630FZumgapAzd/mx6uJzqRplqH5WPbY5I=` in base64. -/
def releasePublicKey : Bytes :=
  [0x42, 0x11, 0xCF, 0x0F, 0xA8, 0xF5, 0x02, 0xCE, 0xB7, 0xD0, 0x56, 0x6E, 0x9A, 0x06, 0xA9, 0x03,
    0x37, 0x7F, 0x9B, 0x1E, 0xAE, 0x27, 0x3A, 0x91, 0xA6, 0x5A, 0x87, 0xE5, 0x63, 0xDB, 0x63, 0x92]

/-- `hex.EncodeToString` -/
def hexEncode (bytes : Bytes) : String :=
  String.ofList (bytes.flatMap fun b => [Nat.digitChar (b.toNat / 16), Nat.digitChar (b.toNat % 16)])

/-- `strings.EqualFold` of a text in ASCII with another. -/
def equalFold (s t : String) : Bool := s.toList.map Json.foldRune = t.toList.map Json.foldRune

end Release
end DatrixOps
