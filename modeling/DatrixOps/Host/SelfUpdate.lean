import DatrixOps.Host.System
import DatrixOps.Release.Manifest

/-! The self-update of the agent: the signed manifest is fetched and verified, then the artifact for this
    system is staged beside the executable, checked and renamed over it. -/

namespace DatrixOps
namespace Host
open Posix Release

/-! ### The update client -/

def maxManifestSize : Nat := 256 * 1024

def maxSignatureSize : Nat := 4 * 1024

def publicKeySize : Nat := 32

def signatureSize : Nat := 64

def validateUpdateURL (rt : Runtime) (rawURL : String) : Except String Unit := do
  let parsedURL ← Release.wrap "parse update URL" (rt.parseURL rawURL)
  if parsedURL.scheme ≠ "https" ∧ parsedURL.scheme ≠ "http" then throw ("update URL must use HTTP or HTTPS: " ++ rawURL)
  if parsedURL.host = "" then throw "update URL is missing host"
  if parsedURL.user.isSome then throw "update URL must not contain credentials"

def downloadLimited (rt : Runtime) (rawURL : String) (maxSize : Nat) : Fallible Bytes := do
  ofExcept (validateUpdateURL rt rawURL)
  let response : HttpResponse ← (perform (.fetch rawURL)).wrap "send update request"
  if response.statusCode ≠ 200 then
    throw ("unexpected HTTP status: " ++ toString response.statusCode ++ " " ++ response.status)
  if response.contentLength > maxSize then
    throw ("update response is too large: " ++ toString response.contentLength ++ " bytes, maximum is " ++
      toString maxSize)
  match response.limited (maxSize + 1) with
  | (_, some error) => throw ("read update response: " ++ error)
  | (body, none) =>
    if body.flatten.length > maxSize then
      throw ("update response exceeds maximum size of " ++ toString maxSize ++ " bytes")
    if body.flatten = [] then throw "update response is empty"
    return body.flatten

/-- The update client, made with a key. -/
structure Client where
  publicKey : Bytes

namespace Client
variable (c : Client) (rt : Runtime)

def verifyManifest (manifestBytes signatureBytes : Bytes) : Except String Unit := do
  if manifestBytes.length = 0 then throw "release manifest is empty"
  if signatureBytes.length ≠ signatureSize then
    throw ("invalid manifest signature length: got " ++ toString signatureBytes.length ++ ", expected " ++
      toString signatureSize)
  if !rt.verify c.publicKey manifestBytes signatureBytes then throw "manifest signature verification failed"

/-- The manifest, whose signature is verified before it is decoded. -/
def fetchManifest (manifestURL signatureURL : String) : Fallible Manifest := do
  if c.publicKey.length ≠ publicKeySize then
    throw ("invalid release public key length: got " ++ toString c.publicKey.length ++ ", expected " ++
      toString publicKeySize)
  let manifestBytes ← (downloadLimited rt manifestURL maxManifestSize).wrap "download release manifest"
  let signatureBytes ← (downloadLimited rt signatureURL maxSignatureSize).wrap "download release signature"
  ofExcept (c.verifyManifest rt manifestBytes signatureBytes)
  let manifest ← ofExcept (Release.wrap "decode signed release manifest" (rt.unmarshal manifestBytes))
  ofExcept (Release.wrap "validate signed release manifest" (manifest.validate rt))
  return manifest

end Client

/-- The manifest as the agent fetches it, with the release key. -/
def fetchManifest (rt : Runtime) : String → String → Fallible Manifest := (Client.mk releasePublicKey).fetchManifest rt

/-! ### prepareAgentUpdate -/

structure AgentUpdatePayload where
  targetVersion : String
  releaseBaseURL : String
  releaseLayout : String

def requestedVersion (rt : Runtime) (payload : AgentUpdatePayload) : Except String String :=
  let targetVersion := trimmed payload.targetVersion
  if targetVersion = "" then throw "agent update payload is missing target_version"
  else if isSemver targetVersion then pure targetVersion
  else throw ("invalid target_version format " ++ rt.quote targetVersion ++ " (must match X.Y.Z)")

def releaseBase (payload : AgentUpdatePayload) : Except String String :=
  let baseURL := trimSlashes (trimmed payload.releaseBaseURL)
  if baseURL = "" then throw "agent update payload is missing release_base_url" else pure baseURL

/-- The layout that the payload names, or else the agent's own configuration. -/
def rawLayout (rt : Runtime) (payload : AgentUpdatePayload) : Except String String :=
  if trimmed payload.releaseLayout ≠ "" then pure (trimmed payload.releaseLayout)
  else if trimmed rt.envLayout ≠ "" then pure (trimmed rt.envLayout)
  else throw "release layout is not specified in update task payload or local agent configuration"

/-- Where the artifact for this system is, and its hash and size. -/
def agentBinaryURL (rt : Runtime) (payload : AgentUpdatePayload) : Fallible (String × String × Int) := do
  let targetVersion ← ofExcept (requestedVersion rt payload)
  let baseURL ← ofExcept (releaseBase payload)
  let raw ← ofExcept (rawLayout rt payload)
  let layout ← ofExcept (Release.wrap "parse release layout" (parseLayout rt raw))
  let manifestAt ← ofExcept (Release.wrap "resolve manifest URL" (manifestURL rt baseURL layout targetVersion))
  let signatureAt ← ofExcept (Release.wrap "resolve signature URL" (signatureURL rt baseURL layout targetVersion))
  let manifest ← fetchManifest rt manifestAt signatureAt
  if manifest.version ≠ targetVersion then
    throw ("release manifest version mismatch: got " ++ manifest.version ++ ", expected " ++ targetVersion)
  let artifact ← ofExcept (manifest.artifactFor rt.goos rt.goarch)
  let artifactAt ← ofExcept (Release.wrap "resolve artifact URL"
    (artifactURL rt baseURL layout targetVersion artifact.url))
  return (artifactAt, artifact.sha256, artifact.size)

/-- `io.Copy` into a file, `written` bytes of which are written. -/
def copyTo (dir : Directory) (file : Nat) : Nat → List Bytes → Fallible Nat
  | written, [] => pure written
  | written, chunk :: rest => do
    perform (.write dir file written chunk)
    copyTo dir file (written + chunk.length) rest

/-- Read an open file to its end. -/
def readAll (dir : Directory) (file : Nat) : Nat → Bytes → Fallible Bytes
  | 0, _ => throw "input/output error"
  | reads + 1, content => do
    let chunk : Bytes ← perform (.read dir file content.length (32 * 1024))
    if chunk = [] then pure content else readAll dir file reads (content ++ chunk)

/-- `io.ReadFull` of `size` bytes -/
def readFull (dir : Directory) (file size : Nat) : Nat → Bytes → Fallible Bytes
  | 0, _ => throw "input/output error"
  | reads + 1, content =>
    if size ≤ content.length then pure content
    else do
      let chunk : Bytes ← perform (.read dir file content.length (size - content.length))
      if chunk = [] then throw (if content = [] then "EOF" else "unexpected EOF")
      else readFull dir file size reads (content ++ chunk)

def openRead (dir : Directory) (path : String) : Fallible Opened := perform (.openRead dir path)

def validateFileSHA256 (rt : Runtime) (path expected : String) : Fallible Unit := do
  let file ← (openRead .installed path).wrap "open staged update for checksum"
  let content ← (readAll .installed file.file file.reads []).wrap "hash staged update"
  let actual := hexEncode (rt.sha256 content)
  if !equalFold actual (trimmed expected) then
    throw ("downloaded update checksum mismatch: got " ++ actual ++ ", expected " ++ expected)
  perform (.mark (.verified content))

def textBytes (s : String) : Bytes := s.toList.flatMap String.utf8EncodeChar

def validateEmbeddedAgentVersion (path targetVersion : String) : Fallible Unit := do
  let content ← (do
    let file ← openRead .installed path
    readAll .installed file.file file.reads []).wrap "read staged update for version validation"
  let marker := "datrixops-agent-version=" ++ trimmed targetVersion
  if ¬textBytes marker <:+: content then throw ("downloaded update does not contain expected version marker " ++ marker)

/-- The first bytes of a program for the system. -/
def validHeader (goos : String) (header : Bytes) : Bool :=
  if goos = "linux" then header = [0x7f, 0x45, 0x4c, 0x46]
  else if goos = "windows" then header.take 2 = [0x4d, 0x5a]
  else if goos = "darwin" then
    header ∈ [[0xfe, 0xed, 0xfa, 0xce], [0xfe, 0xed, 0xfa, 0xcf], [0xce, 0xfa, 0xed, 0xfe], [0xcf, 0xfa, 0xed, 0xfe],
      [0xca, 0xfe, 0xba, 0xbe]]
  else false

def validateStagedBinary (rt : Runtime) (path : String) : Fallible Unit := do
  let file ← (openRead .installed path).wrap "open staged update for validation"
  let header ← (readFull .installed file.file 4 file.reads []).wrap "read staged update header"
  if !validHeader rt.goos header then throw ("downloaded file is not a valid " ++ rt.goos ++ " agent binary")

/-- On an error a file is removed. -/
def discarding {α : Type} (dir : Directory) (path : String) (x : Fallible α) : Fallible α := ExceptT.mk do
  match ← x.run with
  | .ok a => pure (.ok a)
  | .error e =>
    let _ ← Process.perform (Call.remove dir path)
    pure (.error e)

def updatePath (rt : Runtime) : String := rt.executablePath ++ ".update"

def downloadLimit : Nat := 256 * 1024 * 1024

/-- What is checked of the staged file, which then takes the executable's place. -/
def installStaged (rt : Runtime) (payload : AgentUpdatePayload) (expectedSHA256 : String) (expectedSize : Int)
    (copied : Except String Nat) (closed : Except String Unit) : Fallible Unit := do
  let written ← ofExcept (Release.wrap "write staged update" copied)
  ofExcept (Release.wrap "close staged update" closed)
  if written = 0 then throw "downloaded update is empty"
  if expectedSize > 0 ∧ (written : Int) ≠ expectedSize then
    throw ("downloaded update size mismatch: got " ++ toString written ++ " bytes, expected " ++ toString expectedSize)
  perform (.mark .sized)
  if expectedSHA256 ≠ "" then validateFileSHA256 rt (updatePath rt) expectedSHA256
  validateStagedBinary rt (updatePath rt)
  if trimmed payload.targetVersion ≠ "" then validateEmbeddedAgentVersion (updatePath rt) payload.targetVersion
  (perform (.chmod .installed (updatePath rt))).wrap "mark staged update executable"
  (perform (.rename .installed (updatePath rt) rt.executablePath)).wrap "replace agent binary"

/-- Copy what the limit lets through of the response into the staged file. -/
def download (file : Nat) (response : HttpResponse) : Fallible Nat := do
  let written ← copyTo .installed file 0 (response.limited downloadLimit).1
  match (response.limited downloadLimit).2 with
  | some error => throw error
  | none => return written

/-- The result of a call, whatever it is. -/
def observe {α : Type} (x : Fallible α) : Fallible (Except String α) :=
  ExceptT.mk (x.run >>= fun result => pure (.ok result))

def prepareAgentUpdate (rt : Runtime) (payload : AgentUpdatePayload) : Fallible Unit := do
  let (binaryURL, expectedSHA256, expectedSize) ← agentBinaryURL rt payload
  (perform .resolveExecutable).wrap "resolve agent executable"
  let response : HttpResponse ← (perform (.fetch binaryURL)).wrap "download update"
  if response.statusCode ≠ 200 then throw ("download update: unexpected HTTP status " ++ toString response.statusCode)
  let file : Nat ← (perform (.create .installed (updatePath rt))).wrap "create staged update"
  let copied ← observe (download file response)
  let closed ← observe (perform (.close .installed file))
  discarding .installed (updatePath rt) (installStaged rt payload expectedSHA256 expectedSize copied closed)

end Host
end DatrixOps
