import TrwMcp.Intent.Contract

/-!
# The glob sidecar

The patterns the shell reads before Python is asked. A hit defers to Python, a miss lets the write
through, so every path an eligible claim anchors has to match one of them.
-/

namespace TrwMcp.Intent

open Lib

def intentHookFiles : List String := ["pre-tool-intent-guard.sh", "post-tool-intent-check.sh"]

def hookSupportFiles : List String := ["lib-trw.sh", "lib-intent-guard.sh"]

def preCommitConfigPath : String := ".pre-commit-config.yaml"

/-- Every artifact whose bytes one of the marker's digests covers. -/
def guardedArtifacts (contractRelPath : String) : List String :=
  contractRelPath :: (intentHookFiles ++ hookSupportFiles).map (".claude/hooks/" ++ ·) ++
    [preCommitConfigPath]

/-- `_renderable` -/
def renderable (text : String) : Bool :=
  text ≠ "" && text.toList.all fun c => decide (32 ≤ c.toNat ∧ c.toNat ≤ 126) && c ≠ '\\'

/-- `_patterns_for` -/
def patternsFor (anchor : String) : Option (List String) :=
  let normalized := rstripSlash anchor
  if renderable normalized then
    if isGlobAnchor normalized then some [normalized]
    else some [normalized, normalized ++ "/*"]
  else none

/-- The patterns of every anchor of the eligible claims, in order. -/
def contractPatterns (contract : Option Contract) : Option (List String) := do
  let claims := (contract.map eligibleClaims).getD []
  let patterns ← (claims.flatMap (·.anchors)).mapM patternsFor
  return patterns.flatten

/-- `_HEADER` -/
def sidecarHeader : List String :=
  ["# GENERATED by trw_mcp.security.intent_contract.enrollment — do not edit.",
    "# Regenerate with `make refresh-enrollment`. Editing or deleting this file",
    "# only removes the hooks' latency shortcut; it never disarms enforcement."]

/-- The freshness line of an artifact, from its digest if it is a readable regular file. -/
def artifactLine (digestOf : String → Option String) (artifact : String) : Option String :=
  if renderable artifact then
    match digestOf artifact with
    | none => some ("g0 " ++ artifact)
    | some digest => some ("g1 " ++ digest ++ " " ++ artifact)
  else none

/-- `render_glob_sidecar`, as the lines it joins, or none where the sidecar is withheld. -/
def renderGlobSidecar (digestOf : String → Option String) (contract : Option Contract)
    (contractRelPath contractDigest : String) : Option (List String) := do
  if !renderable contractDigest then none
  let patterns ← contractPatterns contract
  let artifacts ← (guardedArtifacts contractRelPath).mapM (artifactLine digestOf)
  return sidecarHeader ++ patterns.map ("p " ++ ·) ++ artifacts ++ ["sha256:" ++ contractDigest]

end TrwMcp.Intent
