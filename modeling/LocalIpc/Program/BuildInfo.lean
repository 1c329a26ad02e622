/-!
# Build information
-/

namespace LocalIpc

/-- The version of the program and what it was built for. -/
structure BuildInfo where
  name : String
  version : String
  target : String
  profile : String
  os : String
  arch : String
  transport : String
  compiler : String
  revision : String
  deriving DecidableEq

namespace BuildInfo

/-- This program, built where nothing is told of the build. -/
def plain : BuildInfo where
  name := "localsock"
  version := "0.1.0"
  target := "unknown"
  profile := "unknown"
  os := "linux"
  arch := "x86_64"
  transport := "unix-domain-socket"
  compiler := "unknown"
  revision := "unknown"

def short (b : BuildInfo) : String := b.name ++ " " ++ b.version ++ "\n"

def extended (b : BuildInfo) : String :=
  "name: " ++ b.name ++ "\nversion: " ++ b.version ++ "\ntarget: " ++ b.target
    ++ "\nprofile: " ++ b.profile ++ "\ntarget_os: " ++ b.os ++ "\ntarget_arch: " ++ b.arch
    ++ "\ntransport: " ++ b.transport ++ "\nrustc: " ++ b.compiler ++ "\ngit_hash: " ++ b.revision
    ++ "\n"

end BuildInfo

end LocalIpc
