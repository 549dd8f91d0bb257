import DatrixOps.Release.Manifest

/-! What a release has to hold before it is published. -/

namespace DatrixOps
namespace Release

structure ReleaseTarget where
  os : String
  arch : String
  filename : String
  deriving DecidableEq

def requiredReleaseTargets : List ReleaseTarget := [
  ⟨"linux", "amd64", "datrixops-agent-linux-amd64"⟩,
  ⟨"linux", "arm64", "datrixops-agent-linux-arm64"⟩,
  ⟨"darwin", "amd64", "datrixops-agent-darwin-amd64"⟩,
  ⟨"darwin", "arm64", "datrixops-agent-darwin-arm64"⟩,
  ⟨"windows", "amd64", "datrixops-agent-windows-amd64.exe"⟩]

end Release
end DatrixOps
