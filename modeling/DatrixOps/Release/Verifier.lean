import DatrixOps.Release.Gate
import DatrixOps.Golang.Utf8

/-! The gate that a release passes before it is published: the signed manifest, and every file that it lists. -/

namespace DatrixOps
namespace Release
open Golang Posix

/-- A file of a release, its size as `Stat` gives it and the error that breaks off reading it. -/
structure DiskFile where
  regular : Bool
  size : Int
  bytes : Bytes
  readError : Option String
  sized : regular = true → size = bytes.length

/-- The directory of a release: `filepath.Join` with a name, and what opening a path gives. -/
structure ReleaseDir where
  join : String → String
  openFile : String → Except String DiskFile

/-- `maxManifestSize` -/
def manifestSizeLimit : Int := 256 * 1024

def readRegularFile (dir : ReleaseDir) (filename : String) (maxSize : Int) : Except String Bytes := do
  let file ← dir.openFile filename
  if !file.regular then throw ("not a regular file: " ++ filename)
  if file.size ≤ 0 ∨ file.size > maxSize then throw ("invalid file size " ++ toString file.size ++ " for " ++ filename)
  let content := file.bytes.take (maxSize + 1).toNat
  match if (content.length : Int) < maxSize + 1 then file.readError else none with
  | some error => throw error
  | none =>
    if content.length > maxSize then throw ("file exceeds maximum size " ++ toString maxSize ++ ": " ++ filename)
    return content

def verifySidecars (rt : Runtime) (dir : ReleaseDir) (filename : String) (content : Bytes) : Except String Unit := do
  let sha256File := filename ++ ".sha256"
  let sizeFile := filename ++ ".size"
  let sha256Bytes ← wrap ("read " ++ pathBase sha256File) (readRegularFile dir sha256File 256)
  if String.ofList (trimSpace (textOf sha256Bytes)) ≠ hexEncode (rt.sha256 content) then
    throw (".sha256 sidecar mismatch for " ++ pathBase filename)
  let sizeBytes ← wrap ("read " ++ pathBase sizeFile) (readRegularFile dir sizeFile 256)
  if String.ofList (trimSpace (textOf sizeBytes)) ≠ toString content.length then
    throw (".size sidecar mismatch for " ++ pathBase filename)

def artifactFilename (rt : Runtime) (rawURL : String) : Except String String := do
  let parsed ← wrap "parse URL" (rt.parseURL (trimmed rawURL))
  let filename := pathBase parsed.path
  if filename = "." ∨ filename = "/" ∨ filename = "" then throw "URL has no artifact filename"
  return filename

def fromHexChar (c : Char) : Option Nat :=
  if '0' ≤ c ∧ c ≤ '9' then some (c.toNat - '0'.toNat)
  else if 'a' ≤ c ∧ c ≤ 'f' then some (c.toNat - 'a'.toNat + 10)
  else if 'A' ≤ c ∧ c ≤ 'F' then some (c.toNat - 'A'.toNat + 10)
  else none

/-- `hex.DecodeString` -/
def hexDecode : List Char → Option Bytes
  | [] => some []
  | [_] => none
  | a :: b :: rest => do
    let high ← fromHexChar a
    let low ← fromHexChar b
    let bytes ← hexDecode rest
    return UInt8.ofNat (16 * high + low) :: bytes

def verifyArtifactFile (rt : Runtime) (dir : ReleaseDir) (filename : String) (a : Artifact) : Except String Unit := do
  let content ← readRegularFile dir filename a.size
  if (content.length : Int) ≠ a.size then
    throw ("size mismatch: got " ++ toString content.length ++ ", expected " ++ toString a.size)
  match hexDecode (rt.lower.toLower a.sha256.toList) with
  | none => throw "invalid SHA-256 value"
  | some expectedHash =>
    if expectedHash.length ≠ 32 then throw "invalid SHA-256 value"
    if rt.sha256 content ≠ expectedHash then throw "SHA-256 mismatch"
    verifySidecars rt dir filename content

def targetKey (os arch : String) : String := os ++ "/" ++ arch

/-- The loop over the artifacts, with the targets that were seen. -/
def verifyArtifacts (rt : Runtime) (dir : ReleaseDir) : List Artifact → List String → Except String (List String)
  | [], seen => pure seen
  | a :: rest, seen =>
    let key := targetKey a.os a.arch
    match requiredReleaseTargets.find? fun target => targetKey target.os target.arch = key with
    | none => throw ("unexpected artifact target " ++ key)
    | some target => do
      if key ∈ seen then throw ("duplicate artifact target " ++ key)
      let filename ← wrap ("artifact " ++ key) (artifactFilename rt a.url)
      if filename ≠ target.filename then
        throw ("artifact " ++ key ++ " uses filename " ++ rt.quote filename ++ ", expected " ++
          rt.quote target.filename)
      wrap ("artifact " ++ key) (verifyArtifactFile rt dir (dir.join filename) a)
      verifyArtifacts rt dir rest (key :: seen)

def verifyScripts (rt : Runtime) (dir : ReleaseDir) : List String → Except String Unit
  | [] => pure ()
  | script :: rest => do
    let scriptBytes ← wrap ("read " ++ script) (readRegularFile dir (dir.join script) (manifestSizeLimit * 10))
    verifySidecars rt dir (dir.join script) scriptBytes
    verifyScripts rt dir rest

def verifyVersionFile (rt : Runtime) (dir : ReleaseDir) (manifest : Manifest) (expectedVersion : String) :
    Except String Unit := do
  let versionFilePath := dir.join "agent-release.version"
  let versionFileBytes ← wrap "read agent-release.version" (readRegularFile dir versionFilePath 256)
  let versionFileContent := String.ofList (trimSpace (textOf versionFileBytes))
  if versionFileContent = "" then throw "agent-release.version file is empty"
  verifySidecars rt dir versionFilePath versionFileBytes
  if !isSemver versionFileContent then
    throw ("agent-release.version has invalid format " ++ rt.quote versionFileContent ++ " (must match X.Y.Z)")
  if versionFileContent ≠ manifest.version then
    throw ("agent-release.version mismatch: file has " ++ rt.quote versionFileContent ++ ", manifest has " ++
      rt.quote manifest.version)
  if versionFileContent ≠ expectedVersion then
    throw ("agent-release.version mismatch: file has " ++ rt.quote versionFileContent ++ ", expected " ++
      rt.quote expectedVersion)

/-- `decodeStrict` is the decoder that refuses unknown fields and anything after the value. -/
def verifyReleaseDirectory (rt : Runtime) (decodeStrict : Bytes → Except String Manifest) (dir : ReleaseDir)
    (expectedVersion : String)
    (publicKey : Bytes) : Except String Manifest := do
  if trimmed expectedVersion = "" then throw "expected version is required"
  if publicKey.length ≠ 32 then throw ("invalid release public key length: " ++ toString publicKey.length)
  let manifestBytes ← wrap "read release manifest" (readRegularFile dir (dir.join "manifest.json") manifestSizeLimit)
  let signature ← wrap "read release signature" (readRegularFile dir (dir.join "manifest.sig") 64)
  if signature.length ≠ 64 ∨ !rt.verify publicKey manifestBytes signature then
    throw "manifest signature verification failed"
  verifySidecars rt dir (dir.join "manifest.json") manifestBytes
  verifySidecars rt dir (dir.join "manifest.sig") signature
  verifyScripts rt dir ["install.sh", "install-mac.sh", "install.ps1", "update-agent.sh", "update-agent.ps1"]
  let manifest ← wrap "decode signed release manifest" (decodeStrict manifestBytes)
  if manifest.version ≠ expectedVersion then
    throw ("manifest version mismatch: got " ++ rt.quote manifest.version ++ ", expected " ++ rt.quote expectedVersion)
  verifyVersionFile rt dir manifest expectedVersion
  wrap "validate signed release manifest" (manifest.validate rt)
  let seen ← verifyArtifacts rt dir manifest.artifacts []
  match requiredReleaseTargets.find? fun target => targetKey target.os target.arch ∉ seen with
  | some target => throw ("required artifact target is missing: " ++ targetKey target.os target.arch)
  | none => return manifest

end Release
end DatrixOps
