import DatrixOps.Server.AgentUpdate

/-! How the control plane passes agents on to the files of a release. -/

namespace DatrixOps
open Golang

def isAlphanumeric (c : Char) : Bool := ('a' ≤ c && c ≤ 'z') || ('A' ≤ c && c ≤ 'Z') || ('0' ≤ c && c ≤ '9')

/-- `^[a-zA-Z0-9][a-zA-Z0-9_.-]{0,127}$` -/
def releaseFilename : List Char → Bool
  | [] => false
  | c :: cs => isAlphanumeric c && cs.length ≤ 127 && cs.all fun c => isAlphanumeric c || c = '_' || c = '.' || c = '-'

/-- What a part of the path names when it names a version. -/
def cleanedPart (p : List Char) : List Char := trimPrefix ['v'] (trimPrefix "agent-v".toList (trimSpace p))

def releaseDownload : String := "https://github.com/luuvandien2604/DatrixOps/releases/download/"

/-- Where ServeAgentRelease redirects a path to, if it is found. -/
def AgentApi.serveAgentRelease (h : AgentApi) (latestOnline : String) (path : List Char) : Option String :=
  let path := trim ['/'] path
  if path = [] then none
  else
    let parts := split '/' path
    let filename := parts.getLastD []
    if !releaseFilename filename || filename = ['.'] || filename = ['.', '.'] then none
    else
      let version := h.getDesiredAgentVersion latestOnline
      let version := if version = "" then "1.5.10" else version
      let version := ((parts.map cleanedPart).find? fun cleaned => (split '.' cleaned).length = 3).getD version.toList
      let tag := "agent-v".toList ++ trimPrefix ['v'] (trimPrefix "agent-v".toList version)
      some (releaseDownload ++ String.ofList tag ++ "/" ++ String.ofList filename)

end DatrixOps
